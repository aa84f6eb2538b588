import ChipEight.Text.Extending
import ChipEight.Text.Unprintable

/-!
# ChipEight.Text.Quoted

Single characters in quotes, so that a message can show any character.

A character that would be hard to make out is written as an escape: a backslash and a letter where
there is a customary one, else its code point.
-/

namespace ChipEight.Text

/-- The code point of a character as an escape, in lower-case hexadecimal digits. -/
def codePoint (c : Char) : String :=
  "\\u\x7b" ++ String.ofList (Nat.toDigits 16 c.toNat) ++ "\x7d"

/-- A character as it is shown between quotes. -/
def escaped (c : Char) : String :=
  match c with
  | '\x00' => "\\0"
  | '\t' => "\\t"
  | '\r' => "\\r"
  | '\n' => "\\n"
  | '\'' => "\\'"
  | '\\' => "\\\\"
  | c => if isExtending c || isUnprintable c then codePoint c else c.toString

/-- A character in single quotes. -/
def quoted (c : Char) : String :=
  "'" ++ escaped c ++ "'"

end ChipEight.Text
