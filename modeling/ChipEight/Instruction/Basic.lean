/-!
# ChipEight.Instruction.Basic

The instruction set.

An instruction is written over a type `ρ` of register names. The machine runs instructions over
its sixteen registers (`Instruction Register`); text about instructions needs no more of a
register than its number (`Numbered`), so it is defined for all of them at once.
-/

namespace ChipEight

/-- The number of data registers. -/
def Register.count : Nat := 16

/-- One of the sixteen data registers `V0` to `VF`. -/
abbrev Register := Fin 16

/-- The register that arithmetic and drawing leave their flag in, `VF`. -/
def Register.flag : Register := 15

/-- The register that a jump can be moved by, `V0`. -/
def Register.offset : Register := ⟨0, by decide⟩

/-- Register names that have a number of their own. -/
class Numbered (ρ : Type) where
  /-- The number that a register is written with. -/
  number : ρ → Nat
  /-- Distinct registers have distinct numbers. -/
  number_inj : ∀ {a b : ρ}, number a = number b → a = b

/-- Bare numbers name registers, whether a machine has them or not. -/
instance : Numbered Nat where
  number n := n
  number_inj h := h

instance (n : Nat) : Numbered (Fin n) where
  number x := x.val
  number_inj h := Fin.ext h

/-- A decoded instruction over the register names `ρ`. In the comments `x` and `y` are registers,
`nnn` is an address, `kk` a byte and `n` the height of a sprite. -/
inductive Instruction (ρ : Type) where
  /-- `00E0`: turns every pixel off. -/
  | clearScreen
  /-- `00EE`: goes back to the instruction after the latest call. -/
  | ret
  /-- `0nnn`: a routine of the host processor; nothing happens. -/
  | hostRoutine (nnn : UInt16)
  /-- `1nnn`: goes to `nnn`. -/
  | jump (nnn : UInt16)
  /-- `2nnn`: goes to `nnn` and remembers where it came from. -/
  | call (nnn : UInt16)
  /-- `3xkk`: passes over the next instruction if `Vx` is `kk`. -/
  | skipIfByte (x : ρ) (kk : UInt8)
  /-- `4xkk`: passes over the next instruction unless `Vx` is `kk`. -/
  | skipUnlessByte (x : ρ) (kk : UInt8)
  /-- `5xy0`: passes over the next instruction if `Vx` is `Vy`. -/
  | skipIfSame (x y : ρ)
  /-- `6xkk`: `Vx` becomes `kk`. -/
  | setByte (x : ρ) (kk : UInt8)
  /-- `7xkk`: adds `kk` to `Vx`; no flag. -/
  | addByte (x : ρ) (kk : UInt8)
  /-- `8xy0`: `Vx` becomes `Vy`. -/
  | copy (x y : ρ)
  /-- `8xy1`: `Vx` becomes the bitwise or of `Vx` and `Vy`. -/
  | bitOr (x y : ρ)
  /-- `8xy2`: `Vx` becomes the bitwise and of `Vx` and `Vy`. -/
  | bitAnd (x y : ρ)
  /-- `8xy3`: `Vx` becomes the bitwise exclusive or of `Vx` and `Vy`. -/
  | bitXor (x y : ρ)
  /-- `8xy4`: adds `Vy` to `Vx`; the flag is the carry. -/
  | add (x y : ρ)
  /-- `8xy5`: takes `Vy` from `Vx`; the flag says that `Vx` was the larger. -/
  | subtract (x y : ρ)
  /-- `8xy6`: halves `Vx`; the flag is the bit that falls out. `Vy` is not read. -/
  | shiftRight (x y : ρ)
  /-- `8xy7`: `Vx` becomes `Vy` less `Vx`; the flag says that `Vy` was the larger. -/
  | subtractFrom (x y : ρ)
  /-- `8xyE`: doubles `Vx`; the flag is the bit that falls out. `Vy` is not read. -/
  | shiftLeft (x y : ρ)
  /-- `9xy0`: passes over the next instruction unless `Vx` is `Vy`. -/
  | skipUnlessSame (x y : ρ)
  /-- `Annn`: the index becomes `nnn`. -/
  | setIndex (nnn : UInt16)
  /-- `Bnnn`: goes to `nnn` plus `V0`. -/
  | jumpPlus (nnn : UInt16)
  /-- `Cxkk`: `Vx` becomes a random byte under the mask `kk`. -/
  | random (x : ρ) (kk : UInt8)
  /-- `Dxyn`: draws the `n` sprite rows at the index, with the corner at `Vx`, `Vy`; the flag says
  that a pixel was turned off. -/
  | draw (x y : ρ) (n : UInt8)
  /-- `Ex9E`: passes over the next instruction if key `Vx` is down. -/
  | skipIfPressed (x : ρ)
  /-- `ExA1`: passes over the next instruction unless key `Vx` is down. -/
  | skipUnlessPressed (x : ρ)
  /-- `Fx07`: `Vx` becomes the delay timer. -/
  | getDelay (x : ρ)
  /-- `Fx0A`: waits for a key press and leaves the key in `Vx`. -/
  | waitForKey (x : ρ)
  /-- `Fx15`: the delay timer becomes `Vx`. -/
  | startDelay (x : ρ)
  /-- `Fx18`: the sound timer becomes `Vx`. -/
  | startSound (x : ρ)
  /-- `Fx1E`: adds `Vx` to the index; no flag. -/
  | advanceIndex (x : ρ)
  /-- `Fx29`: the index becomes the place of the glyph for the digit `Vx`. -/
  | pointToGlyph (x : ρ)
  /-- `Fx33`: writes the three decimal digits of `Vx` at the index. -/
  | storeDecimal (x : ρ)
  /-- `Fx55`: writes the registers up to `Vx` at the index, which stays. -/
  | storeRegisters (x : ρ)
  /-- `Fx65`: reads the registers up to `Vx` from the index, which stays. -/
  | loadRegisters (x : ρ)
  deriving DecidableEq, Repr

namespace Instruction

variable {ρ : Type}

/-- Whether running the instruction may lead anywhere else than to the one after it. -/
def mayBranch : Instruction ρ → Bool
  | ret | jump _ | call _ | jumpPlus _ => true
  | skipIfByte _ _ | skipUnlessByte _ _ | skipIfSame _ _ | skipUnlessSame _ _ => true
  | skipIfPressed _ | skipUnlessPressed _ => true
  | _ => false

end Instruction

end ChipEight
