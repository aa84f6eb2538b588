import ChipEight.Listing
import ChipEight.Proofs.Instruction.Decoding
import ChipEight.Proofs.Instruction.Mnemonic
import Mathlib.Data.List.Induction

/-!
# ChipEight.Proofs.Listing

**Listings lose nothing.** An entry of a listing can be read off the text that begins with it: the
address ends at the first space and the mnemonic at the first end of line, and whether an empty line
follows is then known from the instruction (`eq_of_entryText_append`). So a listing can be read off
its text, entry by entry.

A listing that has been made of words has as much in it as the words. An instruction has been
decoded from one word only, so the words that have been listed can be read off the text, too.
-/

namespace ChipEight.Listing

variable {ρ : Type} [Numbered ρ]

/-! ### Entries -/

theorem toList_entryText (a : UInt16) (i : Instruction ρ) :
    (entryText a i).toList = (Text.address a.toNat).toList ++ ' ' :: ' ' ::
      (i.mnemonic.toList ++ '\n' :: if i.mayBranch then ['\n'] else []) := by
  cases hi : i.mayBranch <;> simp [entryText, hi]

theorem address_inj {a b : UInt16} (h : Text.address a.toNat = Text.address b.toNat) : a = b := by
  rw [← String.toList_inj] at h
  simp only [Text.address, Text.hex, String.toList_append, String.toList_ofList] at h
  exact UInt16.toNat_inj.mp (Text.hexDigits_inj (List.append_cancel_left h))

/-- An entry can be read off any text that begins with it. -/
theorem eq_of_entryText_append {a b : UInt16} {i j : Instruction ρ} {s t : List Char}
    (h : (entryText a i).toList ++ s = (entryText b j).toList ++ t) : a = b ∧ i = j ∧ s = t := by
  have hfield (a : UInt16) : Text.IsField (Text.address a.toNat) :=
    .append (by decide) (Text.isField_hex 3 _)
  have hline (i : Instruction ρ) : ∀ c ∈ i.mnemonic.toList, decide (c = '\n') = false := by
    intro c hc
    rw [decide_eq_false_iff_not]
    rintro rfl
    exact i.newline_not_mem_mnemonic hc
  simp only [toList_entryText, List.append_assoc, List.cons_append] at h
  obtain ⟨haddress, hrest⟩ := Text.eq_of_append_eq (hfield a) (hfield b)
    (by simp [Text.isSeparator]) (by simp [Text.isSeparator]) h
  simp only [List.cons.injEq, true_and] at hrest
  obtain ⟨hmnemonic, hend⟩ := Text.eq_of_append_eq (hline i) (hline j) (by simp) (by simp) hrest
  obtain rfl := Instruction.mnemonic_inj (String.toList_inj.mp hmnemonic)
  refine ⟨address_inj (String.toList_inj.mp haddress), rfl, ?_⟩
  exact List.append_cancel_left (List.cons.inj hend).2

theorem entryText_ne_empty (a : UInt16) (i : Instruction ρ) : entryText a i ≠ "" := by
  rw [ne_eq, ← String.toList_inj, toList_entryText]
  simp

theorem entries_inj {es fs : List (UInt16 × Instruction ρ)}
    (h : es.flatMap (fun e => (entryText e.1 e.2).toList) =
      fs.flatMap fun f => (entryText f.1 f.2).toList) : es = fs := by
  induction es generalizing fs with
  | nil =>
    cases fs with
    | nil => rfl
    | cons f fs => simp [entryText_ne_empty] at h
  | cons e es ih =>
    cases fs with
    | nil => simp [entryText_ne_empty] at h
    | cons f fs =>
      rw [List.flatMap_cons, List.flatMap_cons] at h
      obtain ⟨haddress, hinstruction, hrest⟩ := eq_of_entryText_append h
      rw [ih hrest, Prod.ext haddress hinstruction]

/-- No two listings have the same text. -/
theorem text_inj {listing listing' : Listing ρ} (h : listing.text = listing'.text) :
    listing = listing' := by
  rw [← String.toList_inj] at h
  simp only [text, String.toList_join, List.flatMap_map] at h
  exact Std.ExtTreeMap.toList_inj.mp (entries_inj h)

/-! ### Words -/

/-- The words that are left at their addresses of those that have been put there one after the
other, without those that are not opcodes. -/
def opcodes (words : List (UInt16 × UInt16)) : Std.ExtTreeMap UInt16 UInt16 :=
  words.foldl (fun map (address, word) =>
    if (Instruction.decode word).isSome then map.insert address word else map) ∅

/-- The word at an address is the one that the instruction there has been decoded from. -/
theorem getElem?_opcodes (words : List (UInt16 × UInt16)) (a : UInt16) :
    (opcodes words)[a]? = (ofWords words)[a]?.map Instruction.encode := by
  induction words using List.reverseRecOn with
  | nil => simp [opcodes, ofWords]
  | append_singleton words w ih =>
    obtain ⟨b, word⟩ := w
    rw [opcodes, ofWords, List.foldl_append, List.foldl_append, ← opcodes, ← ofWords]
    cases hd : Instruction.decode word with
    | none => simpa [hd] using ih
    | some i =>
      simp only [List.foldl_cons, List.foldl_nil, hd, Option.isSome_some, if_true,
        Std.ExtTreeMap.getElem?_insert]
      split
      · rw [Option.map_some, Instruction.encode_of_decode hd]
      · exact ih

/-- **Listings lose nothing.** Listings with the same text are the same, whatever registers,
addresses and bytes their instructions name, and so are instructions with the same mnemonic. No two
words are decoded to the same instruction. So if words have been listed one after the other, later
ones in place of earlier ones and without those that are no opcodes, the text tells which words have
been left at which addresses. -/
theorem listings_lose_nothing (ρ : Type) [Numbered ρ] :
    (∀ listing listing' : Listing ρ, listing.text = listing'.text → listing = listing') ∧
    (∀ i j : Instruction ρ, i.mnemonic = j.mnemonic → i = j) ∧
    (∀ (op op' : UInt16) (i : Instruction Register),
      Instruction.decode op = some i → Instruction.decode op' = some i → op = op') ∧
    ∀ words words' : List (UInt16 × UInt16),
      (ofWords words).text = (ofWords words').text → opcodes words = opcodes words' := by
  refine ⟨fun _ _ => text_inj, fun _ _ => Instruction.mnemonic_inj, fun op op' i hd hd' => ?_,
    fun words words' h => ?_⟩
  · rw [← Instruction.encode_of_decode hd, Instruction.encode_of_decode hd']
  · refine Std.ExtTreeMap.ext_getElem? fun a => ?_
    rw [getElem?_opcodes, getElem?_opcodes, text_inj h]

/-- Two listings over register numbers that no machine has, and two of words: one of no opcode, one
that is replaced, and the others in another order. -/
theorem relisted :
    let empty : Listing Nat := ∅
    let listing : Listing Nat := (empty.insert 0xFFFE (.draw 16 255 200)).insert 0 .ret
    let listing' : Listing Nat := (empty.insert 0 .ret).insert 0xFFFE (.draw 16 255 200)
    let words : List (UInt16 × UInt16) :=
      [(0x200, 0x6105), (0x204, 0xB000), (0x200, 0x8106), (0x202, 0x5121)]
    let words' : List (UInt16 × UInt16) := [(0x200, 0x8106), (0x204, 0xB000)]
    listing.text = "0x000  RET\n\n0xFFFE  DRW V10, VFF, 200\n" ∧ listing = listing' ∧
    (ofWords words).text = "0x200  SHR V1 \x7b, V0\x7d\n0x204  JP V0, 0x000\n\n" ∧
    opcodes words = opcodes words' := by
  intro empty listing listing' words words'
  obtain ⟨htext, htext', hwords, hwords'⟩ :
      listing.text = "0x000  RET\n\n0xFFFE  DRW V10, VFF, 200\n" ∧
      listing.text = listing'.text ∧
      (ofWords words).text = "0x200  SHR V1 \x7b, V0\x7d\n0x204  JP V0, 0x000\n\n" ∧
      (ofWords words).text = (ofWords words').text := by
    decide +kernel
  obtain ⟨hlisting, -, -, hopcodes⟩ := listings_lose_nothing Nat
  exact ⟨htext, hlisting _ _ htext', hwords, hopcodes _ _ hwords'⟩

end ChipEight.Listing
