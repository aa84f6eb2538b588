import ChipEight.Text.Hex

/-!
# ChipEight.Fault

What can go wrong: the causes, their messages and which of them end a program.
-/

namespace ChipEight

/-- Why a step, or a call of the host, did not happen. -/
inductive Fault where
  | unknownOpcode (opcode address : UInt16)
  | noSuchAddress (address : Nat)
  /-- The block starts in memory and ends after it. -/
  | blockOverrun (address length : Nat)
  /-- A call while `depth` calls are open already. -/
  | tooManyCalls (depth : Nat)
  /-- A return while no call is open. -/
  | noOpenCall
  | noSuchKey (key : UInt8)
  /-- The program does not fit between its start and the end of memory. -/
  | programTooLong (size capacity : Nat)
  /-- The program could not be read from where it is kept. -/
  | unreadable
  deriving DecidableEq, Repr

namespace Fault

def message : Fault → String
  | unknownOpcode opcode address =>
    "unknown instruction " ++ Text.word opcode.toNat ++ " at " ++ Text.address address.toNat
  | noSuchAddress address => "address " ++ Text.address address ++ " is outside of memory"
  | blockOverrun address length =>
    toString length ++ " bytes at " ++ Text.address address ++ " run past the end of memory"
  | tooManyCalls depth =>
    "call stack overflow: more than " ++ toString depth ++ " nested calls"
  | noOpenCall => "call stack underflow: return without a matching call"
  | noSuchKey key => "key " ++ Text.byte key.toNat ++ " is not on the keypad"
  | programTooLong size capacity =>
    "program is " ++ toString size ++ " bytes but only " ++ toString capacity ++ " fit in memory"
  | unreadable => "unable to read program"

/-- Whether a program cannot go on after the fault. An unknown instruction can be passed over, and
a key that does not exist is the host's mistake. -/
def endsProgram : Fault → Bool
  | unknownOpcode _ _ | noSuchKey _ => false
  | _ => true

end Fault

end ChipEight
