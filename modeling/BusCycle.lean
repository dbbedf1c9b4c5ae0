import BusCycle.Main
import BusCycle.Proofs.Bus.Bytes
import BusCycle.Proofs.Bus.FetchCycle
import BusCycle.Proofs.Bus.Replay
import BusCycle.Proofs.Session.ByName
import BusCycle.Proofs.Session.LimitedRuns
import BusCycle.Proofs.Session.LinearFlow
import BusCycle.Proofs.Session.WidthIndependence
import BusCycle.Proofs.Instruction.Grammar
import BusCycle.Proofs.Machine.Jumps
import BusCycle.Proofs.Machine.Meaning
import BusCycle.Proofs.Machine.StackRing
import BusCycle.Proofs.Session.StackDiscipline
import BusCycle.Proofs.Session.Account
import BusCycle.Proofs.Session.BusSteps
import BusCycle.Proofs.Session.Forgetting
import BusCycle.Proofs.Session.Regions
import BusCycle.Proofs.Session.StoredWords
import BusCycle.Proofs.Memory.Writes
import BusCycle.Proofs.Session.Ranges
import BusCycle.Proofs.Session.FlagSources
import BusCycle.Proofs.Command.ExitStatus
import BusCycle.Proofs.Instruction.Shapes
import BusCycle.Proofs.Session.Unknown
import BusCycle.Proofs.Machine.Comparisons
import BusCycle.Proofs.Instruction.Numerals
import BusCycle.Proofs.Instruction.Acceptance
import BusCycle.Proofs.Text.Capitals
import BusCycle.Proofs.Instruction.Printing
import BusCycle.Proofs.Text.Respacing
import BusCycle.Proofs.Instruction.Cleanup
import BusCycle.Proofs.Session.Pacing
import BusCycle.Proofs.Text.LineByLine
import BusCycle.Proofs.Bus.Rendering
import BusCycle.Proofs.Machine.Notes
import BusCycle.Proofs.Session.StepLog
import BusCycle.Proofs.Document.Depth
import BusCycle.Proofs.Number.Overflow
import BusCycle.Proofs.Config.Loading
import BusCycle.Proofs.Machine.Reduction
