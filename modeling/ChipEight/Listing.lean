import ChipEight.Instruction.Mnemonic
import ChipEight.Instruction.Opcode
import Std.Data.ExtTreeMap

/-!
# ChipEight.Listing

Listings: which instruction stands at which address.

The text of a listing has a line for each address, in ascending order, and an empty line after
each instruction that may lead elsewhere, so that stretches of straight code stand together.
-/

namespace ChipEight

/-- Instructions by address. -/
abbrev Listing (ρ : Type) := Std.ExtTreeMap UInt16 (Instruction ρ)

namespace Listing

variable {ρ : Type} [Numbered ρ]

/-- The listing of words at addresses, a later word in place of an earlier one at its address.
Words that are not opcodes are left out. -/
def ofWords (words : List (UInt16 × UInt16)) : Listing Register :=
  words.foldl (fun listing (address, word) =>
    match Instruction.decode word with
    | some i => listing.insert address i
    | none => listing) ∅

/-- The lines of an instruction at an address. -/
def entryText (address : UInt16) (i : Instruction ρ) : String :=
  Text.address address.toNat ++ "  " ++ i.mnemonic ++ "\n" ++ if i.mayBranch then "\n" else ""

/-- The text of a listing. -/
def text (listing : Listing ρ) : String :=
  String.join (listing.toList.map fun entry => entryText entry.1 entry.2)

end Listing

end ChipEight
