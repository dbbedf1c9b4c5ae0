-- Notes between the transactions of a log: address arithmetic, and what the processor does without
-- the bus.
import BusCycle.Address
import BusCycle.Alu

namespace BusCycle

/-- A remark in the log of a step. -/
inductive Note
  | formed (r : Reference)
  | advanced (before after : Word) (count : Nat)
  | moved (dest : Register) (value : Word)
  | branched (before after : Word)
  | computed (dest : General) (result flags : Word)
  | compared (op : BinaryOp) (left : Word) (right : Int) (result flags : Word)
  | notTaken (condition : Condition) (ip : Word)
  | counted (cx : Word)
  | counterSpent (ip : Word)
  | pushed (value sp : Word)
  | popped (value sp : Word)
  | idle (mnemonic : String)
  | unknown (instruction : String)
  | free (text : String)
  deriving DecidableEq

namespace Note

def text : Note → String
  | formed r => r.describe
  | advanced before after count =>
    "IP " ++ hexWord before ++ "H -> " ++ hexWord after ++ "H (+" ++ Text.decimal count ++ ")"
  | moved dest value => dest.name ++ " <- " ++ hexWord value ++ "H (internal, no bus cycle)"
  | branched before after =>
    "IP " ++ hexWord before ++ "H -> " ++ hexWord after ++ "H (branch taken, " ++
      Text.signed (signedReading (after - before).toNat) ++ ")"
  | computed dest result flags =>
    dest.name ++ " <- " ++ hexWord result ++ "H, FLAGS " ++ hexWord flags ++ "H"
  | compared op left right result flags =>
    op.name ++ ": " ++ hexWord left ++ "H vs " ++ Text.hex 4 right ++ "H -> " ++ hexWord result ++
      "H discarded, FLAGS " ++ hexWord flags ++ "H"
  | notTaken condition ip => condition.name ++ " not taken, IP stays " ++ hexWord ip ++ "H"
  | counted cx => "CX <- " ++ hexWord cx ++ "H"
  | counterSpent ip => "LOOP done, IP stays " ++ hexWord ip ++ "H"
  | pushed value sp => "PUSH " ++ hexWord value ++ "H, SP -> " ++ hexWord sp ++ "H"
  | popped value sp => "POP " ++ hexWord value ++ "H, SP -> " ++ hexWord sp ++ "H"
  | idle mnemonic => mnemonic ++ ": no operation"
  | unknown instruction =>
    "'" ++ instruction ++ "' is not a recognized shape: placeholder bytes, no operation"
  | free text => text

end Note

end BusCycle
