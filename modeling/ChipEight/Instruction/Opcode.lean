import ChipEight.Instruction.Basic

/-!
# ChipEight.Instruction.Opcode

The 16-bit words that instructions are stored as.

The top four bits of an opcode are its *family*. The families `8`, `E` and `F` hold several
instructions each, told apart by the low four or eight bits; `0`, `5` and `9` have opcodes that
are special or void. All other bits are operands. Not every word is an opcode, so `decode` is
partial; `encode` is its left inverse.
-/

namespace ChipEight

namespace Opcode

/-! ### Fields -/

/-- The top four bits. -/
def family (op : UInt16) : Nat :=
  op.toNat / 0x1000

/-- The register in bits 8 to 11. -/
def x (op : UInt16) : Register :=
  ⟨op.toNat / 0x100 % 16, Nat.mod_lt _ (by decide)⟩

/-- The register in bits 4 to 7. -/
def y (op : UInt16) : Register :=
  ⟨op.toNat / 0x10 % 16, Nat.mod_lt _ (by decide)⟩

/-- The low four bits. -/
def n (op : UInt16) : UInt8 :=
  UInt8.ofNat (op.toNat % 0x10)

/-- The low eight bits. -/
def kk (op : UInt16) : UInt8 :=
  UInt8.ofNat (op.toNat % 0x100)

/-- The low twelve bits. -/
def nnn (op : UInt16) : UInt16 :=
  UInt16.ofNat (op.toNat % 0x1000)

/-- The word with the given family and low twelve bits. -/
def ofAddress (family : Nat) (nnn : UInt16) : UInt16 :=
  UInt16.ofNat (family * 0x1000 + nnn.toNat)

/-- The word with the given family, register and low byte. -/
def ofByte (family : Nat) (x : Register) (kk : UInt8) : UInt16 :=
  UInt16.ofNat (family * 0x1000 + x.val * 0x100 + kk.toNat)

/-- The word with the given family, pair of registers and low four bits. -/
def ofPair (family : Nat) (x y : Register) (n : UInt8) : UInt16 :=
  UInt16.ofNat (family * 0x1000 + x.val * 0x100 + y.val * 0x10 + n.toNat)

end Opcode

namespace Instruction

/-! ### Decoding -/

/-- Family `8`: arithmetic between two registers, chosen by the low four bits. -/
def ofArithmetic? (x y : Register) (n : UInt8) : Option (Instruction Register) :=
  match n.toNat with
  | 0x0 => some (copy x y)
  | 0x1 => some (bitOr x y)
  | 0x2 => some (bitAnd x y)
  | 0x3 => some (bitXor x y)
  | 0x4 => some (add x y)
  | 0x5 => some (subtract x y)
  | 0x6 => some (shiftRight x y)
  | 0x7 => some (subtractFrom x y)
  | 0xE => some (shiftLeft x y)
  | _ => none

/-- Family `E`: the two skips on a key, chosen by the low byte. -/
def ofKeyTest? (x : Register) (kk : UInt8) : Option (Instruction Register) :=
  match kk.toNat with
  | 0x9E => some (skipIfPressed x)
  | 0xA1 => some (skipUnlessPressed x)
  | _ => none

/-- Family `F`: timers, the key wait, the index and block copies, chosen by the low byte. -/
def ofTransfer? (x : Register) (kk : UInt8) : Option (Instruction Register) :=
  match kk.toNat with
  | 0x07 => some (getDelay x)
  | 0x0A => some (waitForKey x)
  | 0x15 => some (startDelay x)
  | 0x18 => some (startSound x)
  | 0x1E => some (advanceIndex x)
  | 0x29 => some (pointToGlyph x)
  | 0x33 => some (storeDecimal x)
  | 0x55 => some (storeRegisters x)
  | 0x65 => some (loadRegisters x)
  | _ => none

/-- The instruction that a word stands for, if any. -/
def decode (op : UInt16) : Option (Instruction Register) :=
  let x := Opcode.x op
  let y := Opcode.y op
  let n := Opcode.n op
  let kk := Opcode.kk op
  let nnn := Opcode.nnn op
  match Opcode.family op with
  | 0x0 =>
    if nnn = 0x0E0 then some clearScreen
    else if nnn = 0x0EE then some ret
    else some (hostRoutine nnn)
  | 0x1 => some (jump nnn)
  | 0x2 => some (call nnn)
  | 0x3 => some (skipIfByte x kk)
  | 0x4 => some (skipUnlessByte x kk)
  | 0x5 => if n = 0 then some (skipIfSame x y) else none
  | 0x6 => some (setByte x kk)
  | 0x7 => some (addByte x kk)
  | 0x8 => ofArithmetic? x y n
  | 0x9 => if n = 0 then some (skipUnlessSame x y) else none
  | 0xA => some (setIndex nnn)
  | 0xB => some (jumpPlus nnn)
  | 0xC => some (random x kk)
  | 0xD => some (draw x y n)
  | 0xE => ofKeyTest? x kk
  | 0xF => ofTransfer? x kk
  | _ => none

/-! ### Encoding -/

/-- The word that an instruction is stored as. -/
def encode : Instruction Register → UInt16
  | clearScreen => 0x00E0
  | ret => 0x00EE
  | hostRoutine nnn => Opcode.ofAddress 0x0 nnn
  | jump nnn => Opcode.ofAddress 0x1 nnn
  | call nnn => Opcode.ofAddress 0x2 nnn
  | skipIfByte x kk => Opcode.ofByte 0x3 x kk
  | skipUnlessByte x kk => Opcode.ofByte 0x4 x kk
  | skipIfSame x y => Opcode.ofPair 0x5 x y 0x0
  | setByte x kk => Opcode.ofByte 0x6 x kk
  | addByte x kk => Opcode.ofByte 0x7 x kk
  | copy x y => Opcode.ofPair 0x8 x y 0x0
  | bitOr x y => Opcode.ofPair 0x8 x y 0x1
  | bitAnd x y => Opcode.ofPair 0x8 x y 0x2
  | bitXor x y => Opcode.ofPair 0x8 x y 0x3
  | add x y => Opcode.ofPair 0x8 x y 0x4
  | subtract x y => Opcode.ofPair 0x8 x y 0x5
  | shiftRight x y => Opcode.ofPair 0x8 x y 0x6
  | subtractFrom x y => Opcode.ofPair 0x8 x y 0x7
  | shiftLeft x y => Opcode.ofPair 0x8 x y 0xE
  | skipUnlessSame x y => Opcode.ofPair 0x9 x y 0x0
  | setIndex nnn => Opcode.ofAddress 0xA nnn
  | jumpPlus nnn => Opcode.ofAddress 0xB nnn
  | random x kk => Opcode.ofByte 0xC x kk
  | draw x y n => Opcode.ofPair 0xD x y n
  | skipIfPressed x => Opcode.ofByte 0xE x 0x9E
  | skipUnlessPressed x => Opcode.ofByte 0xE x 0xA1
  | getDelay x => Opcode.ofByte 0xF x 0x07
  | waitForKey x => Opcode.ofByte 0xF x 0x0A
  | startDelay x => Opcode.ofByte 0xF x 0x15
  | startSound x => Opcode.ofByte 0xF x 0x18
  | advanceIndex x => Opcode.ofByte 0xF x 0x1E
  | pointToGlyph x => Opcode.ofByte 0xF x 0x29
  | storeDecimal x => Opcode.ofByte 0xF x 0x33
  | storeRegisters x => Opcode.ofByte 0xF x 0x55
  | loadRegisters x => Opcode.ofByte 0xF x 0x65

end Instruction

end ChipEight
