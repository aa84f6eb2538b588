import ChipEight.Substrate

/-!
# ChipEight.Timers

The two timers. Both count down to zero, one for every tick of the host; while the sound timer has
not got there, the machine beeps.
-/

namespace ChipEight

/-- The delay timer and the sound timer. -/
structure Timers where
  /-- Ticks until the delay is over. -/
  delay : UInt8
  /-- Ticks until the beep ends. -/
  sound : UInt8
  deriving DecidableEq, Repr

namespace Timers

def ticksPerSecond : Nat := 60

/-- Nanoseconds between ticks, rounded down. -/
def period : Nat := 1000000000 / ticksPerSecond

def zero : Timers :=
  ⟨0, 0⟩

/-- Whether the machine beeps. -/
def isSounding (t : Timers) : Bool :=
  0 < t.sound

/-- One less, down to zero. -/
def countDown {M : Type → Type} [Monad M] [Substrate M] (t : UInt8) : M UInt8 := do
  if 0 < t then
    Substrate.rely (1 ≤ t.toNat)
    return t - 1
  else return t

end Timers

end ChipEight
