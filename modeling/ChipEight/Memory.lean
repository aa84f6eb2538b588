import ChipEight.Bank
import ChipEight.Fault
import ChipEight.Font

/-!
# ChipEight.Memory

The machine's memory: 4096 bytes at the addresses `0x000` to `0xFFF`.

Reading at a single address answers or says that there is nothing at that address. The two
operations on blocks do no check of their own.
-/

namespace ChipEight

/-- The number of bytes in memory, and so the first address after it. -/
def Memory.size : Nat := 0x1000

/-- The contents of memory. -/
structure Memory where
  /-- The byte at each address. -/
  bytes : Bank Memory.size
  deriving DecidableEq

namespace Memory

def byte (m : Memory) (address : Nat) : Except Fault UInt8 :=
  match m.bytes[address]? with
  | some b => .ok b
  | none => .error (.noSuchAddress address)

/-- The word at an address, its high byte first. -/
def word (m : Memory) (address : Nat) : Except Fault UInt16 := do
  let high ← m.byte address
  let low ← m.byte (address + 1)
  return UInt16.ofNat (high.toNat * 0x100 + low.toNat)

def block (m : Memory) (address length : Nat) : List UInt8 :=
  m.bytes.read address length

def write (m : Memory) (address : Nat) (block : List UInt8) : Memory :=
  ⟨m.bytes.write address block⟩

/-- Memory when the machine is switched on: the font, and zeros from there on. -/
def initial : Memory :=
  write ⟨Bank.zeros⟩ Font.origin Font.sheet

/-- Puts the font into empty memory. -/
def withFont {M : Type → Type} [Monad M] [Substrate M] : M Memory := do
  let stop := Font.origin + Font.sheet.length
  return ⟨← (Bank.zeros : Bank size).splice Font.origin stop Font.sheet⟩

theorem withFont_eq {M : Type → Type} [Monad M] [LawfulMonad M] [Substrate M] :
    withFont = (pure initial : M Memory) := by
  rw [withFont, Bank.splice_eq rfl fun _ => by decide, pure_bind]
  rfl

end Memory

end ChipEight
