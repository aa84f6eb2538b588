import ChipEight.Instruction.Basic
import ChipEight.Text.Hex

/-!
# ChipEight.Instruction.Mnemonic

Instructions in assembler notation: `ADD V1, 0x03`, `DRW V0, V1, 5`, `LD [I], V2`.

An instruction is laid out as a name and operands (`Assembly`) and then written down. Addresses and
bytes are hexadecimal, the height of a sprite is decimal. The second register of a shift is not
used; it comes last, in braces.
-/

namespace ChipEight

/-- An operand in assembler notation, over the register names `ρ`. -/
inductive Operand (ρ : Type) where
  | register (x : ρ)
  /-- The register `V0`, where no other can stand. -/
  | offset
  | address (nnn : UInt16)
  | byte (kk : UInt8)
  | rows (n : UInt8)
  | index
  | block
  | delay
  | sound
  | key
  | glyph
  | decimal
  deriving DecidableEq, Repr

/-- An instruction laid out for an assembler. -/
structure Assembly (ρ : Type) where
  name : String
  operands : List (Operand ρ) := []
  /-- An operand that is there and not used. -/
  unused : Option ρ := none
  deriving DecidableEq, Repr

namespace Operand

variable {ρ : Type} [Numbered ρ]

/-- A register by its number. -/
def registerText (x : ρ) : String :=
  Text.register (Numbered.number x)

/-- An operand in writing. -/
def text : Operand ρ → String
  | register x => registerText x
  | offset => "V0"
  | address nnn => Text.address nnn.toNat
  | byte kk => Text.byte kk.toNat
  | rows n => toString n.toNat
  | index => "I"
  | block => "[I]"
  | delay => "DT"
  | sound => "ST"
  | key => "K"
  | glyph => "F"
  | decimal => "B"

/-- Operands in writing, with commas between them. -/
def listText : List (Operand ρ) → String
  | [] => ""
  | [o] => o.text
  | o :: os => o.text ++ ", " ++ listText os

/-- An operand that is not used, in writing. -/
def unusedText : Option ρ → String
  | none => ""
  | some y => " \x7b, " ++ registerText y ++ "\x7d"

end Operand

/-- An instruction in writing. -/
def Assembly.text {ρ : Type} [Numbered ρ] (a : Assembly ρ) : String :=
  match a.operands with
  | [] => a.name
  | operands => a.name ++ " " ++ Operand.listText operands ++ Operand.unusedText a.unused

namespace Instruction

variable {ρ : Type}

/-- The layout of an instruction. -/
def assembly : Instruction ρ → Assembly ρ
  | clearScreen => { name := "CLS" }
  | ret => { name := "RET" }
  | hostRoutine nnn => { name := "SYS", operands := [.address nnn] }
  | jump nnn => { name := "JP", operands := [.address nnn] }
  | call nnn => { name := "CALL", operands := [.address nnn] }
  | skipIfByte x kk => { name := "SE", operands := [.register x, .byte kk] }
  | skipUnlessByte x kk => { name := "SNE", operands := [.register x, .byte kk] }
  | skipIfSame x y => { name := "SE", operands := [.register x, .register y] }
  | setByte x kk => { name := "LD", operands := [.register x, .byte kk] }
  | addByte x kk => { name := "ADD", operands := [.register x, .byte kk] }
  | copy x y => { name := "LD", operands := [.register x, .register y] }
  | bitOr x y => { name := "OR", operands := [.register x, .register y] }
  | bitAnd x y => { name := "AND", operands := [.register x, .register y] }
  | bitXor x y => { name := "XOR", operands := [.register x, .register y] }
  | add x y => { name := "ADD", operands := [.register x, .register y] }
  | subtract x y => { name := "SUB", operands := [.register x, .register y] }
  | shiftRight x y => { name := "SHR", operands := [.register x], unused := some y }
  | subtractFrom x y => { name := "SUBN", operands := [.register x, .register y] }
  | shiftLeft x y => { name := "SHL", operands := [.register x], unused := some y }
  | skipUnlessSame x y => { name := "SNE", operands := [.register x, .register y] }
  | setIndex nnn => { name := "LD", operands := [.index, .address nnn] }
  | jumpPlus nnn => { name := "JP", operands := [.offset, .address nnn] }
  | random x kk => { name := "RND", operands := [.register x, .byte kk] }
  | draw x y n => { name := "DRW", operands := [.register x, .register y, .rows n] }
  | skipIfPressed x => { name := "SKP", operands := [.register x] }
  | skipUnlessPressed x => { name := "SKNP", operands := [.register x] }
  | getDelay x => { name := "LD", operands := [.register x, .delay] }
  | waitForKey x => { name := "LD", operands := [.register x, .key] }
  | startDelay x => { name := "LD", operands := [.delay, .register x] }
  | startSound x => { name := "LD", operands := [.sound, .register x] }
  | advanceIndex x => { name := "ADD", operands := [.index, .register x] }
  | pointToGlyph x => { name := "LD", operands := [.glyph, .register x] }
  | storeDecimal x => { name := "LD", operands := [.decimal, .register x] }
  | storeRegisters x => { name := "LD", operands := [.block, .register x] }
  | loadRegisters x => { name := "LD", operands := [.register x, .block] }

/-- The assembler notation of an instruction. -/
def mnemonic [Numbered ρ] (i : Instruction ρ) : String :=
  i.assembly.text

/-! ### Examples -/

example : (setByte 1 0x23 : Instruction Nat).mnemonic = "LD V1, 0x23" := by decide +kernel

example : (shiftRight 1 2 : Instruction Nat).mnemonic = "SHR V1 \x7b, V2\x7d" := by decide +kernel

example : (draw 0 1 5 : Instruction Nat).mnemonic = "DRW V0, V1, 5" := by decide +kernel

end Instruction

end ChipEight
