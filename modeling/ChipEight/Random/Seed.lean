/-!
# ChipEight.Random.Seed

Stretching a 64-bit seed into a key of eight words.

The seed is the state of a linear congruential generator modulo `2 ^ 64`. Each of its next eight
states is boiled down to one word of the key: the state is folded onto itself by a shift and an
exclusive or, a middle part of it is kept, and its top five bits say how far that part is rotated.
-/

namespace ChipEight.Random

/-- A key of the random stream. -/
abbrev Key := Vector UInt32 8

namespace Seed

/-- The bits of a word moved right by `k` places, those that fall out coming back at the left. -/
def rotateRight (w : UInt32) (k : UInt32) : UInt32 :=
  (w >>> k) ||| (w <<< (32 - k))

/-- The next state of the congruential generator. -/
def advance (state : UInt64) : UInt64 :=
  state * 6364136223846793005 + 11634580027462260723

/-- The word that a state yields. -/
def output (state : UInt64) : UInt32 :=
  rotateRight (((state >>> 18) ^^^ state) >>> 27).toUInt32 (state >>> 59).toUInt32

end Seed

/-- The key that a seed stands for. -/
def Key.ofSeed (seed : UInt64) : Key :=
  Vector.ofFn fun i => Seed.output (Nat.repeat Seed.advance (i.val + 1) seed)

end ChipEight.Random
