/-!
# ChipEight.Random.Stream

A source of random bytes: a sequence of words, and how much of it has been used up. Which words they
are does not matter here, nor to a machine that draws from them.
-/

namespace ChipEight.Random

/-- A place in a sequence of words. -/
structure Stream where
  /-- The words of the sequence, counted from zero. -/
  word : Nat → UInt32
  /-- The number of words that have been drawn. -/
  drawn : Nat

namespace Stream

/-- The low byte of the next word. -/
def byte (s : Stream) : UInt8 :=
  (s.word s.drawn).toUInt8

/-- The stream after the next word. -/
def next (s : Stream) : Stream :=
  { s with drawn := s.drawn + 1 }

theorem repeat_next (s : Stream) (k : Nat) :
    Nat.repeat next k s = { s with drawn := s.drawn + k } := by
  induction k with
  | zero => rfl
  | succ k ih =>
    rw [Nat.repeat, ih]
    rfl

end Stream

end ChipEight.Random
