/-!
# ChipEight.Text.Hex

Numbers in base sixteen, as messages, mnemonics and listings show them.

Digits are upper case. A width is a least number of digits: a short number is filled up with zeros
on the left, and one that needs more digits keeps them all.
-/

namespace ChipEight.Text

/-- The base-sixteen digits of `n`, most significant first and no fewer than `width`. -/
def hexDigits (width n : Nat) : List Char :=
  ((Nat.toDigits 16 n).map Char.toUpper).leftpad width '0'

/-- `n` in base sixteen, in at least `width` digits. -/
def hex (width n : Nat) : String :=
  String.ofList (hexDigits width n)

/-- An address: `0x` and at least three digits, enough for every place in memory. -/
def address (n : Nat) : String :=
  "0x" ++ hex 3 n

/-- A byte: `0x` and at least two digits. -/
def byte (n : Nat) : String :=
  "0x" ++ hex 2 n

/-- A 16-bit word: `0x` and at least four digits. -/
def word (n : Nat) : String :=
  "0x" ++ hex 4 n

/-- A register: `V` and its number. -/
def register (n : Nat) : String :=
  "V" ++ hex 1 n

/-! ### Lengths -/

@[simp] theorem length_hexDigits (width n : Nat) :
    (hexDigits width n).length = max width (Nat.toDigits 16 n).length := by
  simp only [hexDigits, List.leftpad, List.length_append, List.length_replicate, List.length_map]
  omega

end ChipEight.Text
