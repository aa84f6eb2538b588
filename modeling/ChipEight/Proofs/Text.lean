import ChipEight.Text.Hex

/-!
# ChipEight.Proofs.Text

**What can be read back.** A number is the value of its digits, so two numbers with the same digits
are the same, however many zeros there are in front of them (`value_hexDigits`).

Digits are no separators. Where a text goes on with a separator or ends, what stands before is told
apart from what comes after (`eq_of_append_eq`), and so a line can be taken apart field by field.
-/

namespace ChipEight.Text

/-! ### Digits -/

/-- The digits that numbers are written in. -/
def digits : List Char :=
  ['0', '1', '2', '3', '4', '5', '6', '7', '8', '9', 'A', 'B', 'C', 'D', 'E', 'F']

/-- The number that digits stand for. -/
def value (ds : List Char) : Nat :=
  ds.foldl (fun n c => 16 * n + digits.idxOf c) 0

theorem toUpper_digitChar_mem {n : Nat} (h : n < 16) : (Nat.digitChar n).toUpper ∈ digits := by
  revert n
  decide

theorem idxOf_toUpper_digitChar {n : Nat} (h : n < 16) :
    digits.idxOf (Nat.digitChar n).toUpper = n := by
  revert n
  decide

theorem value_concat (ds : List Char) (c : Char) :
    value (ds ++ [c]) = 16 * value ds + digits.idxOf c := by
  simp [value]

theorem value_leftpad (width : Nat) (ds : List Char) : value (ds.leftpad width '0') = value ds := by
  have hzeros (k : Nat) : value (List.replicate k '0') = 0 := by
    induction k with
    | zero => rfl
    | succ k ih => rw [List.replicate_succ', value_concat, ih]; rfl
  rw [List.leftpad, value, List.foldl_append, ← value, hzeros, value]

theorem value_toDigits (n : Nat) : value ((Nat.toDigits 16 n).map Char.toUpper) = n := by
  induction n using Nat.strongRecOn with
  | ind n ih =>
    rw [Nat.toDigits_eq_if (by decide)]
    split
    · next hlt =>
      rw [List.map_singleton, ← List.nil_append [_], value_concat, idxOf_toUpper_digitChar hlt]
      simp [value]
    · next hle =>
      rw [List.map_append, List.map_singleton, value_concat, ih _ (by omega),
        idxOf_toUpper_digitChar (Nat.mod_lt n (by decide))]
      omega

/-- Whatever its width, a number can be read back from its digits. -/
theorem value_hexDigits (width n : Nat) : value (hexDigits width n) = n := by
  rw [hexDigits, value_leftpad, value_toDigits]

theorem hexDigits_inj {width n k : Nat} (h : hexDigits width n = hexDigits width k) : n = k := by
  rw [← value_hexDigits width n, h, value_hexDigits]

/-- A byte has two digits. -/
theorem length_hexDigits_byte (b : UInt8) : (hexDigits 2 b.toNat).length = 2 := by
  have hlen : (Nat.toDigits 16 b.toNat).length ≤ 2 :=
    (Nat.length_toDigits_le_iff (by decide) (by decide)).mpr b.toNat_lt
  rw [length_hexDigits, Nat.max_eq_left hlen]

theorem mem_toDigits {n : Nat} {c : Char} (h : c ∈ (Nat.toDigits 16 n).map Char.toUpper) :
    c ∈ digits := by
  induction n using Nat.strongRecOn with
  | ind n ih =>
    rw [Nat.toDigits_eq_if (by decide)] at h
    split at h
    · next hlt =>
      rw [List.map_singleton, List.mem_singleton] at h
      subst h
      exact toUpper_digitChar_mem hlt
    · next hle =>
      rw [List.map_append, List.mem_append, List.map_singleton, List.mem_singleton] at h
      rcases h with hmem | rfl
      · exact ih _ (by omega) hmem
      · exact toUpper_digitChar_mem (Nat.mod_lt n (by decide))

theorem mem_digits_of_mem_hexDigits {width n : Nat} {c : Char} (h : c ∈ hexDigits width n) :
    c ∈ digits := by
  rw [hexDigits, List.leftpad, List.mem_append, List.mem_replicate] at h
  rcases h with ⟨-, rfl⟩ | hmem
  · decide
  · exact mem_toDigits hmem

/-! ### Fields -/

/-- What stands between fields, and at the end of a line. -/
def isSeparator (c : Char) : Bool :=
  c = ' ' || c = ',' || c = '\n'

/-- A text without separators. -/
def IsField (s : String) : Prop :=
  ∀ c ∈ s.toList, isSeparator c = false

instance (s : String) : Decidable (IsField s) :=
  List.decidableBAll (fun c => isSeparator c = false) s.toList

theorem IsField.append {s t : String} (hs : IsField s) (ht : IsField t) : IsField (s ++ t) := by
  intro c hc
  rw [String.toList_append, List.mem_append] at hc
  exact hc.elim (hs c) (ht c)

theorem isField_hex (width n : Nat) : IsField (hex width n) := by
  have hdigits : ∀ c ∈ digits, isSeparator c = false := by simp [digits, isSeparator]
  intro c hc
  rw [hex, String.toList_ofList] at hc
  exact hdigits c (mem_digits_of_mem_hexDigits hc)

theorem isDigit_of_mem_toString {n : Nat} {c : Char} (h : c ∈ (toString n).toList) :
    c.isDigit = true := by
  rw [Nat.toString_eq_ofList_toDigits, String.toList_ofList] at h
  exact Nat.isDigit_of_mem_toDigits (by decide) (by decide) h

theorem isField_toString (n : Nat) : IsField (toString n) := by
  intro c hc
  have hdigit := isDigit_of_mem_toString hc
  rw [Bool.eq_false_iff]
  intro hsep
  simp only [isSeparator, Bool.or_eq_true, decide_eq_true_eq] at hsep
  rcases hsep with (rfl | rfl) | rfl <;> cases hdigit

/-- Two texts that agree have the same first fields, if the fields have no separator in them and
are followed by one or by nothing. -/
theorem eq_of_append_eq {p : Char → Bool} {u v s t : List Char} (hu : ∀ c ∈ u, p c = false)
    (hv : ∀ c ∈ v, p c = false) (hs : ∀ c ∈ s.head?, p c = true) (ht : ∀ c ∈ t.head?, p c = true)
    (h : u ++ s = v ++ t) : u = v ∧ s = t := by
  induction u generalizing v with
  | nil =>
    cases v with
    | nil => exact ⟨rfl, h⟩
    | cons d v =>
      rw [List.nil_append] at h
      subst h
      have hd : p d = true := hs d rfl
      rw [hv d List.mem_cons_self] at hd
      cases hd
  | cons c u ih =>
    cases v with
    | nil =>
      rw [List.nil_append] at h
      subst h
      have hc : p c = true := ht c rfl
      rw [hu c List.mem_cons_self] at hc
      cases hc
    | cons d v =>
      rw [List.forall_mem_cons] at hu hv
      obtain ⟨rfl, hrest⟩ := List.cons.inj h
      obtain ⟨rfl, rfl⟩ := ih hu.2 hv.2 hrest
      exact ⟨rfl, rfl⟩

end ChipEight.Text
