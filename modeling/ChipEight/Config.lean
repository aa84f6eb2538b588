import ChipEight.ReturnStack
import ChipEight.Instruction.Basic

/-!
# ChipEight.Config

The choices that a host makes when it builds a machine.
-/

namespace ChipEight

/-- How a machine is set up. -/
structure Config where
  /-- The seed of the random bytes. Without one the host supplies a key of its own. -/
  seed : Option UInt64 := none
  /-- The number of calls that may be open at a time, as far as there is room for them. -/
  callDepth : Nat := ReturnStack.maxDepth
  /-- Whether copying the registers up to `Vx` takes in `Vx` itself. -/
  inclusive : Bool := true
  deriving DecidableEq, Repr

namespace Config

/-- The number of registers that a copy up to `Vx` moves. -/
def copyLength (c : Config) (x : Register) : Nat :=
  if c.inclusive then x.val + 1 else x.val

/-- A copy never moves more registers than there are. -/
theorem copyLength_le (c : Config) (x : Register) : c.copyLength x ≤ 16 := by
  unfold copyLength
  split <;> omega

end Config

end ChipEight
