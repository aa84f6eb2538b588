import ChipEight.Random.Seed
import ChipEight.Random.Stream

/-!
# ChipEight.Random.ChaCha

The ChaCha stream cipher with twelve rounds, as a generator of words.

A block is a square of sixteen words: four constants, the eight words of the key, the number of the
block in two words with the lower half first, and two zeros. The rounds stir the square, first
along its columns and then along its diagonals, and the outcome is added to the square that they
started from.
-/

namespace ChipEight.Random

namespace ChaCha

/-- The square of words that the rounds work on, row by row. -/
abbrev Square := Vector UInt32 16

/-- The number of double rounds, each of one round over columns and one over diagonals. -/
def doubleRounds : Nat := 6

/-- The bits of a word moved left by `k` places, those that fall out coming back at the right. -/
def rotateLeft (w : UInt32) (k : UInt32) : UInt32 :=
  (w <<< k) ||| (w >>> (32 - k))

/-- Adds word `j` to word `i`, folds the sum into word `k` and rotates that. -/
def stir (s : Square) (i j k : Fin 16) (rotation : UInt32) : Square :=
  let sum := s[i] + s[j]
  (s.set i sum).set k (rotateLeft (s[k] ^^^ sum) rotation)

/-- Mixes four words of the square with one another. -/
def quarterRound (s : Square) (a b c d : Fin 16) : Square :=
  let s := stir s a b d 16
  let s := stir s c d b 12
  let s := stir s a b d 8
  stir s c d b 7

/-- The place of a row and a column, both counted around. -/
def place (row column : Nat) : Fin 16 :=
  ⟨4 * (row % 4) + column % 4, by omega⟩

/-- Mixes the words of each column, if `slant` is 0, or of each diagonal, if it is 1: a word of the
first row with one from every row below, `slant` columns further on each time. -/
def round (slant : Nat) (s : Square) : Square :=
  (List.range 4).foldl (fun s column =>
    quarterRound s (place 0 column) (place 1 (column + slant)) (place 2 (column + 2 * slant))
      (place 3 (column + 3 * slant))) s

/-- A round over the four columns and a round over the four diagonals. -/
def doubleRound (s : Square) : Square :=
  round 1 (round 0 s)

/-- The square that block `n` starts from. -/
def start (key : Key) (n : Nat) : Square :=
  #v[0x61707865, 0x3320646e, 0x79622d32, 0x6b206574,
    key[0], key[1], key[2], key[3],
    key[4], key[5], key[6], key[7],
    UInt32.ofNat n, UInt32.ofNat (n / UInt32.size), 0, 0]

/-- Block `n` of the stream of a key. -/
def block (key : Key) (n : Nat) : Square :=
  let square := start key n
  Vector.zipWith (· + ·) (Nat.repeat doubleRound doubleRounds square) square

end ChaCha

/-- Word `k` of the stream of a key, counted from zero. -/
def word (key : Key) (k : Nat) : UInt32 :=
  (ChaCha.block key (k / 16))[k % 16]

/-- The stream of a key, from its start. -/
def Stream.ofKey (key : Key) : Stream :=
  ⟨Random.word key, 0⟩

end ChipEight.Random
