import ChipEight.Keypad

/-!
# ChipEight.Player.Keyboard

The keypad on a keyboard. The four left-most columns of letters and digits stand for the keypad,
place by place; upper and lower case are the same key.

```text
keyboard   keypad
1 2 3 4    1 2 3 C
Q W E R    4 5 6 D
A S D F    7 8 9 E
Z X C V    A 0 B F
```
-/

namespace ChipEight.Keyboard

/-- The code of the key that a character stands for, if any. Only the letters of ASCII have a case
here. -/
def code? (c : Char) : Option UInt8 :=
  match c.toLower with
  | '1' => some 0x1
  | '2' => some 0x2
  | '3' => some 0x3
  | '4' => some 0xC
  | 'q' => some 0x4
  | 'w' => some 0x5
  | 'e' => some 0x6
  | 'r' => some 0xD
  | 'a' => some 0x7
  | 's' => some 0x8
  | 'd' => some 0x9
  | 'f' => some 0xE
  | 'z' => some 0xA
  | 'x' => some 0x0
  | 'c' => some 0xB
  | 'v' => some 0xF
  | _ => none

/-- The key that a character stands for, if any. -/
def key? (c : Char) : Option Key :=
  (code? c).bind Key.ofCode?

/-- Characters stand for codes of keys only. -/
theorem map_code_key? (c : Char) : (key? c).map Key.code = code? c := by
  unfold key? code?
  split <;> rfl

end ChipEight.Keyboard
