import ChipEight.Instruction.Mnemonic
import ChipEight.Proofs.Text

/-!
# ChipEight.Proofs.Instruction.Mnemonic

**Mnemonics can be read back.** An instruction can be read off its layout (`Assembly.instruction?`),
and the layout off its text: the name ends at the first space, the operands are told apart by what
stands between them, and each is told by its letters (`Operand.letters_inj`). Only `V0` is written
like another operand, and the name before it says which of the two it is.
-/

namespace ChipEight

variable {ρ : Type}

/-! ### Operands -/

namespace Operand

/-- Whether an operand can stand after a name. What is written `V0` is just that after `JP`, and the
register with the number zero after any other name. -/
def StandsAfter (name : String) : Operand ρ → Prop
  | offset => name = "JP"
  | register _ => name ≠ "JP"
  | _ => True

variable [Numbered ρ] {o p : Operand ρ} {x y : ρ} {name : String}

theorem isField_registerText (x : ρ) : Text.IsField (registerText x) :=
  .append (by decide) (Text.isField_hex 1 _)

theorem isField_text (o : Operand ρ) : Text.IsField o.text := by
  cases o with
  | register x => exact isField_registerText x
  | address nnn => exact .append (by decide) (Text.isField_hex 3 _)
  | byte kk => exact .append (by decide) (Text.isField_hex 2 _)
  | rows n => exact Text.isField_toString _
  | _ => simp only [text]; decide

/-- An operand letter by letter. -/
def letters : Operand ρ → List Char
  | register x => 'V' :: Text.hexDigits 1 (Numbered.number x)
  | offset => ['V', '0']
  | address nnn => '0' :: 'x' :: Text.hexDigits 3 nnn.toNat
  | byte kk => '0' :: 'x' :: Text.hexDigits 2 kk.toNat
  | rows n => Nat.toDigits 10 n.toNat
  | index => ['I']
  | block => ['[', 'I', ']']
  | delay => ['D', 'T']
  | sound => ['S', 'T']
  | key => ['K']
  | glyph => ['F']
  | decimal => ['B']

theorem toList_text (o : Operand ρ) : o.text.toList = o.letters := by
  cases o <;> simp [text, letters, registerText, Text.register, Text.address, Text.byte, Text.hex]

/-- Nothing but the height of a sprite is written in decimal digits alone. -/
theorem exists_eq_rows (h : ∀ c ∈ o.letters, c.isDigit = true) : ∃ n, o = rows n := by
  cases o with
  | rows n => exact ⟨n, rfl⟩
  | _ => simp [letters] at h

/-- Addresses have more digits than bytes. -/
theorem hexDigits_ne (nnn : UInt16) (kk : UInt8) :
    Text.hexDigits 3 nnn.toNat ≠ Text.hexDigits 2 kk.toNat := by
  intro h
  have hlen := congrArg List.length h
  rw [Text.length_hexDigits, Text.length_hexDigits_byte] at hlen
  omega

theorem eq_of_letters_eq_rows {n : UInt8} (h : o.letters = (rows n : Operand ρ).letters) :
    o = rows n := by
  obtain ⟨k, rfl⟩ : ∃ k, o = rows k := exists_eq_rows fun c hc => by
    rw [h] at hc
    exact Nat.isDigit_of_mem_toDigits (by decide) (by decide) hc
  have hvalue := congrArg (Nat.ofDigitChars 10 · 0) h
  simp only [letters, Nat.ofDigitChars_ten_toDigits] at hvalue
  rw [UInt8.toNat_inj.mp hvalue]

/-- An operand can be told by its letters, if one knows which name it stands after. -/
theorem letters_inj (ho : o.StandsAfter name) (hp : p.StandsAfter name)
    (h : o.letters = p.letters) : o = p := by
  cases o with
  | rows n => exact (eq_of_letters_eq_rows h.symm).symm
  | register x =>
    cases p with
    | register y =>
      rw [Numbered.number_inj (Text.hexDigits_inj (List.cons.inj h).2)]
    | offset => exact absurd hp ho
    | rows n => exact eq_of_letters_eq_rows h
    | _ => simp [letters] at h
  | address nnn =>
    cases p with
    | address mmm =>
      simp only [letters, List.cons.injEq, true_and] at h
      rw [UInt16.toNat_inj.mp (Text.hexDigits_inj h)]
    | byte kk =>
      simp only [letters, List.cons.injEq, true_and] at h
      exact absurd h (hexDigits_ne nnn kk)
    | rows n => exact eq_of_letters_eq_rows h
    | _ => simp [letters] at h
  | byte kk =>
    cases p with
    | byte mm =>
      simp only [letters, List.cons.injEq, true_and] at h
      rw [UInt8.toNat_inj.mp (Text.hexDigits_inj h)]
    | address nnn =>
      simp only [letters, List.cons.injEq, true_and] at h
      exact absurd h.symm (hexDigits_ne nnn kk)
    | rows n => exact eq_of_letters_eq_rows h
    | _ => simp [letters] at h
  | offset =>
    cases p with
    | register y => exact absurd ho hp
    | offset => rfl
    | rows n => exact eq_of_letters_eq_rows h
    | _ => simp [letters] at h
  | index | block | delay | sound | key | glyph | decimal =>
    cases p with
    | rows n => exact eq_of_letters_eq_rows h
    | _ => first | rfl | simp [letters] at h

/-! ### Several operands -/

/-- The operands after the first one, letter by letter. -/
def restLetters : List (Operand ρ) → List Char
  | [] => []
  | o :: os => ',' :: ' ' :: (o.letters ++ restLetters os)

theorem toList_listText_cons (o : Operand ρ) (os : List (Operand ρ)) :
    (listText (o :: os)).toList = o.letters ++ restLetters os := by
  induction os generalizing o with
  | nil => simp [listText, restLetters, toList_text]
  | cons p os ih => simp [listText, restLetters, toList_text, ih]

theorem isSeparator_of_mem_letters (o : Operand ρ) :
    ∀ c ∈ o.letters, Text.isSeparator c = false := by
  rw [← toList_text]
  exact o.isField_text

variable {os ps : List (Operand ρ)} {s t : List Char}

/-- What comes after an operand is a comma or, if it is the last, a space or nothing. -/
theorem isSeparator_of_mem_head? (hs : ∀ c ∈ s.head?, c = ' ') :
    ∀ c ∈ (restLetters os ++ s).head?, Text.isSeparator c = true := by
  intro c hc
  cases os with
  | nil =>
    rw [hs c hc]
    rfl
  | cons o os =>
    obtain rfl : ',' = c := Option.some.inj hc
    rfl

/-- Operands can be told apart, up to the space that they are followed by. -/
theorem restLetters_inj (hos : ∀ o ∈ os, o.StandsAfter name) (hps : ∀ p ∈ ps, p.StandsAfter name)
    (hs : ∀ c ∈ s.head?, c = ' ') (ht : ∀ c ∈ t.head?, c = ' ')
    (h : restLetters os ++ s = restLetters ps ++ t) : os = ps ∧ s = t := by
  induction os generalizing ps with
  | nil =>
    cases ps with
    | nil => exact ⟨rfl, h⟩
    | cons p ps =>
      have hs' : s = restLetters (p :: ps) ++ t := h
      cases hs ',' (by rw [hs']; rfl)
  | cons o os ih =>
    cases ps with
    | nil =>
      have ht' : restLetters (o :: os) ++ s = t := h
      cases ht ',' (by rw [← ht']; rfl)
    | cons p ps =>
      rw [List.forall_mem_cons] at hos hps
      simp only [restLetters, List.cons_append, List.append_assoc, List.cons.injEq, true_and] at h
      obtain ⟨hfirst, hrest⟩ := Text.eq_of_append_eq o.isSeparator_of_mem_letters
        p.isSeparator_of_mem_letters (isSeparator_of_mem_head? hs) (isSeparator_of_mem_head? ht) h
      obtain ⟨rfl, rfl⟩ := ih hos.2 hps.2 hrest
      exact ⟨by rw [letters_inj hos.1 hps.1 hfirst], rfl⟩

/-- An operand that is not used, letter by letter. -/
def unusedLetters : Option ρ → List Char
  | none => []
  | some y => ' ' :: '{' :: ',' :: ' ' :: 'V' :: (Text.hexDigits 1 (Numbered.number y) ++ ['}'])

theorem toList_unusedText (y : Option ρ) : (unusedText y).toList = unusedLetters y := by
  cases y <;> simp [unusedText, unusedLetters, registerText, Text.register, Text.hex]

theorem eq_space_of_mem_head? (y : Option ρ) : ∀ c ∈ (unusedLetters y).head?, c = ' ' := by
  intro c hc
  cases y with
  | none => cases hc
  | some y => exact (Option.some.inj hc).symm

theorem unusedLetters_inj {y z : Option ρ} (h : unusedLetters y = unusedLetters z) : y = z := by
  cases y with
  | none =>
    cases z with
    | none => rfl
    | some z => cases h
  | some y =>
    cases z with
    | none => cases h
    | some z =>
      simp only [unusedLetters, List.cons.injEq, true_and] at h
      rw [Numbered.number_inj (Text.hexDigits_inj (List.append_cancel_right h))]

theorem newline_not_mem_letters (o : Operand ρ) : '\n' ∉ o.letters :=
  fun h => nomatch o.isSeparator_of_mem_letters _ h

theorem newline_not_mem_restLetters (os : List (Operand ρ)) : '\n' ∉ restLetters os := by
  induction os with
  | nil => simp [restLetters]
  | cons o os ih => simp [restLetters, o.newline_not_mem_letters, ih]

theorem newline_not_mem_unusedLetters (y : Option ρ) : '\n' ∉ unusedLetters y := by
  rw [← toList_unusedText]
  cases y with
  | none => simp [unusedText]
  | some y =>
    have hregister : '\n' ∉ (registerText y).toList := fun h => nomatch isField_registerText y _ h
    simp [unusedText, hregister]

end Operand

/-! ### Layouts -/

namespace Assembly

/-- What the layouts of all instructions have in common. -/
structure Legible (a : Assembly ρ) : Prop where
  /-- The name ends where the first separator is. -/
  isField_name : Text.IsField a.name
  standsAfter : ∀ o ∈ a.operands, o.StandsAfter a.name
  /-- What is not used stands after something that is. -/
  unused_eq : a.operands = [] → a.unused = none

theorem legible_assembly (i : Instruction ρ) : i.assembly.Legible where
  isField_name := by cases i <;> (simp only [Instruction.assembly]; decide)
  standsAfter := by cases i <;> simp [Instruction.assembly, Operand.StandsAfter]
  unused_eq := by cases i <;> simp [Instruction.assembly]

section

open Instruction

/-- The instruction that a layout is that of. -/
def instruction? : Assembly ρ → Option (Instruction ρ)
  | ⟨"CLS", [], none⟩ => some clearScreen
  | ⟨"RET", [], none⟩ => some ret
  | ⟨"SYS", [.address nnn], none⟩ => some (hostRoutine nnn)
  | ⟨"JP", [.address nnn], none⟩ => some (jump nnn)
  | ⟨"CALL", [.address nnn], none⟩ => some (call nnn)
  | ⟨"SE", [.register x, .byte kk], none⟩ => some (skipIfByte x kk)
  | ⟨"SNE", [.register x, .byte kk], none⟩ => some (skipUnlessByte x kk)
  | ⟨"SE", [.register x, .register y], none⟩ => some (skipIfSame x y)
  | ⟨"LD", [.register x, .byte kk], none⟩ => some (setByte x kk)
  | ⟨"ADD", [.register x, .byte kk], none⟩ => some (addByte x kk)
  | ⟨"LD", [.register x, .register y], none⟩ => some (copy x y)
  | ⟨"OR", [.register x, .register y], none⟩ => some (bitOr x y)
  | ⟨"AND", [.register x, .register y], none⟩ => some (bitAnd x y)
  | ⟨"XOR", [.register x, .register y], none⟩ => some (bitXor x y)
  | ⟨"ADD", [.register x, .register y], none⟩ => some (add x y)
  | ⟨"SUB", [.register x, .register y], none⟩ => some (subtract x y)
  | ⟨"SHR", [.register x], some y⟩ => some (shiftRight x y)
  | ⟨"SUBN", [.register x, .register y], none⟩ => some (subtractFrom x y)
  | ⟨"SHL", [.register x], some y⟩ => some (shiftLeft x y)
  | ⟨"SNE", [.register x, .register y], none⟩ => some (skipUnlessSame x y)
  | ⟨"LD", [.index, .address nnn], none⟩ => some (setIndex nnn)
  | ⟨"JP", [.offset, .address nnn], none⟩ => some (jumpPlus nnn)
  | ⟨"RND", [.register x, .byte kk], none⟩ => some (random x kk)
  | ⟨"DRW", [.register x, .register y, .rows n], none⟩ => some (draw x y n)
  | ⟨"SKP", [.register x], none⟩ => some (skipIfPressed x)
  | ⟨"SKNP", [.register x], none⟩ => some (skipUnlessPressed x)
  | ⟨"LD", [.register x, .delay], none⟩ => some (getDelay x)
  | ⟨"LD", [.register x, .key], none⟩ => some (waitForKey x)
  | ⟨"LD", [.delay, .register x], none⟩ => some (startDelay x)
  | ⟨"LD", [.sound, .register x], none⟩ => some (startSound x)
  | ⟨"ADD", [.index, .register x], none⟩ => some (advanceIndex x)
  | ⟨"LD", [.glyph, .register x], none⟩ => some (pointToGlyph x)
  | ⟨"LD", [.decimal, .register x], none⟩ => some (storeDecimal x)
  | ⟨"LD", [.block, .register x], none⟩ => some (storeRegisters x)
  | ⟨"LD", [.register x, .block], none⟩ => some (loadRegisters x)
  | _ => none

theorem instruction?_assembly (i : Instruction ρ) : i.assembly.instruction? = some i := by
  cases i <;> rfl

end

variable [Numbered ρ] {a b : Assembly ρ}

/-- What follows the name, letter by letter. -/
def tailLetters (a : Assembly ρ) : List Char :=
  match a.operands with
  | [] => []
  | o :: os => ' ' :: (o.letters ++ (Operand.restLetters os ++ Operand.unusedLetters a.unused))

theorem toList_text (a : Assembly ρ) : a.text.toList = a.name.toList ++ a.tailLetters := by
  obtain ⟨name, operands, unused⟩ := a
  cases operands with
  | nil => simp [text, tailLetters]
  | cons o os =>
    simp [text, tailLetters, Operand.toList_listText_cons, Operand.toList_unusedText]

theorem isSeparator_of_mem_head? (a : Assembly ρ) :
    ∀ c ∈ a.tailLetters.head?, Text.isSeparator c = true := by
  obtain ⟨name, operands, unused⟩ := a
  intro c hc
  cases operands with
  | nil => cases hc
  | cons o os =>
    obtain rfl : ' ' = c := Option.some.inj hc
    rfl

/-- A layout can be read off its text. -/
theorem text_inj (ha : a.Legible) (hb : b.Legible) (h : a.text = b.text) : a = b := by
  rw [← String.toList_inj, toList_text, toList_text] at h
  obtain ⟨hname, htail⟩ := Text.eq_of_append_eq ha.isField_name hb.isField_name
    a.isSeparator_of_mem_head? b.isSeparator_of_mem_head? h
  obtain ⟨name, operands, unused⟩ := a
  obtain ⟨name', operands', unused'⟩ := b
  obtain rfl : name = name' := String.toList_inj.mp hname
  cases operands with
  | nil =>
    cases operands' with
    | nil =>
      obtain rfl : unused = none := ha.unused_eq rfl
      obtain rfl : unused' = none := hb.unused_eq rfl
      rfl
    | cons p ps => cases htail
  | cons o os =>
    cases operands' with
    | nil => cases htail
    | cons p ps =>
      -- with a comma before them, the first operands are like the others
      have hoperands : Operand.restLetters (o :: os) ++ Operand.unusedLetters unused =
          Operand.restLetters (p :: ps) ++ Operand.unusedLetters unused' := by
        simpa [tailLetters, Operand.restLetters] using htail
      obtain ⟨hos, hunused⟩ := Operand.restLetters_inj ha.standsAfter hb.standsAfter
        (Operand.eq_space_of_mem_head? unused) (Operand.eq_space_of_mem_head? unused') hoperands
      cases hos
      rw [Operand.unusedLetters_inj hunused]

/-- A layout is written on one line. -/
theorem newline_not_mem_text (ha : a.Legible) : '\n' ∉ a.text.toList := by
  have hname : '\n' ∉ a.name.toList := fun h => nomatch ha.isField_name _ h
  rw [toList_text, List.mem_append, not_or]
  refine ⟨hname, ?_⟩
  obtain ⟨name, operands, unused⟩ := a
  cases operands with
  | nil => simp [tailLetters]
  | cons o os =>
    simp [tailLetters, o.newline_not_mem_letters, Operand.newline_not_mem_restLetters,
      Operand.newline_not_mem_unusedLetters]

end Assembly

/-! ### Mnemonics -/

namespace Instruction

variable [Numbered ρ] {i j : Instruction ρ}

theorem newline_not_mem_mnemonic (i : Instruction ρ) : '\n' ∉ i.mnemonic.toList :=
  Assembly.newline_not_mem_text (Assembly.legible_assembly i)

/-- No two instructions have the same mnemonic. -/
theorem mnemonic_inj (h : i.mnemonic = j.mnemonic) : i = j := by
  have hlayout : i.assembly = j.assembly :=
    Assembly.text_inj (Assembly.legible_assembly i) (Assembly.legible_assembly j) h
  apply Option.some.inj
  rw [← Assembly.instruction?_assembly, hlayout, Assembly.instruction?_assembly]

end Instruction

end ChipEight
