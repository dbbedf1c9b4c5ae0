-- The log of the current step, and the counter of bus steps, which runs on from step to step.
import BusCycle.Bus.Note
import BusCycle.Bus.Transaction

namespace BusCycle

/-- An entry of the log. -/
inductive LogEntry
  | note (n : Note)
  | transaction (t : Transaction)
  deriving DecidableEq

namespace LogEntry

def lines : LogEntry → List String
  | note n => [n.text]
  | transaction t => t.lines

/-- The transaction of an entry, if it is one. -/
def transaction? : LogEntry → Option Transaction
  | note _ => none
  | transaction t => some t

end LogEntry

/-- The log of one step, with the number of the next bus step. -/
structure BusLog where
  step : Int
  entries : List LogEntry
  deriving DecidableEq

namespace BusLog

/-- The log of a new machine. -/
def initial : BusLog := ⟨1, []⟩

/-- A log without entries. The counter runs on. -/
def beginStep (log : BusLog) : BusLog := { log with entries := [] }

def note (log : BusLog) (n : Note) : BusLog := { log with entries := log.entries ++ [.note n] }

/-- The transaction that a transfer becomes. -/
def transactionOf (log : BusLog) (t : Transfer) : Transaction := { t with step := log.step }

/-- The log with a transfer made. Its two phases take two bus steps, however many bytes it moves. -/
def transfer (log : BusLog) (t : Transfer) : BusLog :=
  ⟨log.step + 2, log.entries ++ [.transaction (log.transactionOf t)]⟩

/-- The log with transfers made one after another. -/
def transferAll (log : BusLog) (ts : List Transfer) : BusLog := ts.foldl transfer log

def transactions (log : BusLog) : List Transaction := log.entries.filterMap LogEntry.transaction?

def lines (log : BusLog) : List String := log.entries.flatMap LogEntry.lines

def text (log : BusLog) : String := String.intercalate "\n" log.lines

/-! ## Laws -/

@[simp] theorem transferAll_nil (log : BusLog) : log.transferAll [] = log := rfl

@[simp] theorem transferAll_cons (log : BusLog) (t : Transfer) (ts : List Transfer) :
    log.transferAll (t :: ts) = (log.transfer t).transferAll ts := rfl

/-- Every transfer takes two bus steps. -/
theorem step_transferAll (log : BusLog) (ts : List Transfer) :
    (log.transferAll ts).step = log.step + 2 * ts.length := by
  induction ts generalizing log with
  | nil => simp
  | cons t ts ih =>
    rw [transferAll_cons, ih]
    simp only [transfer, List.length_cons]
    omega

@[simp] theorem transactions_note (log : BusLog) (n : Note) :
    (log.note n).transactions = log.transactions := by
  simp [transactions, note, LogEntry.transaction?]

@[simp] theorem transactions_transfer (log : BusLog) (t : Transfer) :
    (log.transfer t).transactions = log.transactions ++ [log.transactionOf t] := by
  simp [transactions, transfer, LogEntry.transaction?]

end BusLog

end BusCycle
