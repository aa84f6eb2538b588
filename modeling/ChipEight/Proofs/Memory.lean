import ChipEight.Memory

/-!
# ChipEight.Proofs.Memory

What words and blocks of memory hold, and what can be wrong with them.
-/

namespace ChipEight.Memory

variable {m : Memory} {address length : Nat} {f : Fault}

/-! ### Words -/

theorem byte_of_lt (h : address < size) : m.byte address = .ok m.bytes[address] := by
  simp [byte, h]

theorem byte_of_le (h : size ≤ address) : m.byte address = .error (.noSuchAddress address) := by
  rw [byte, Vector.getElem?_eq_none h]

theorem word_of_lt (h : address + 1 < size) :
    m.word address =
      .ok (UInt16.ofNat (m.bytes[address].toNat * 0x100 + m.bytes[address + 1].toNat)) := by
  rw [word, byte_of_lt (Nat.lt_of_succ_lt h), byte_of_lt h]
  rfl

/-- A word that does not lie in memory whole has its first address outside of memory or, if it is
the last byte that the word begins with, the one after that. -/
theorem word_of_le (h : size ≤ address + 1) :
    m.word address = .error (.noSuchAddress (max address size)) := by
  rw [word]
  by_cases ha : address < size
  · rw [byte_of_lt ha, byte_of_le h, show max address size = address + 1 by omega]
    rfl
  · rw [byte_of_le (Nat.le_of_not_lt ha), Nat.max_eq_left (Nat.le_of_not_lt ha)]
    rfl

/-- A word that is found lies in memory whole. -/
theorem lt_of_word {w : UInt16} (h : m.word address = .ok w) : address + 1 < size := by
  by_cases hlt : address + 1 < size
  · exact hlt
  · rw [word_of_le (Nat.le_of_not_lt hlt)] at h
    cases h

/-- A word that is not found does not lie in memory whole. -/
theorem le_of_word (h : m.word address = .error f) : size ≤ address + 1 := by
  by_cases hlt : address + 1 < size
  · rw [word_of_lt hlt] at h
    cases h
  · exact Nat.le_of_not_lt hlt

/-- A word that is not found is outside of memory. -/
theorem fault_of_word (h : m.word address = .error f) :
    f = .noSuchAddress (max address size) := by
  by_cases hlt : address + 1 < size
  · rw [word_of_lt hlt] at h
    cases h
  · rw [word_of_le (Nat.le_of_not_lt hlt)] at h
    exact (Except.error.inj h).symm

/-! ### Blocks -/

/-- A condition on a byte of a block, which holds of none outside of the block. -/
theorem any_block (m : Memory) (address length j : Nat) (f : UInt8 → Bool) :
    (m.block address length)[j]?.any f = (decide (j < length) && m.bytes[address + j]?.any f) := by
  rw [block, Bank.getElem?_read]
  split
  · next h => rw [decide_eq_true h, Bool.true_and]
  · next h => rw [decide_eq_false h, Bool.false_and, Option.any_none]

/-- What is wrong with a block, if anything. -/
def blockFault? (address length : Nat) : Option Fault :=
  if size < address ∨ (address = size ∧ 0 < length) then some (.noSuchAddress address)
  else if size < address + length then some (.blockOverrun address length)
  else none

/-- A block that starts past the end of memory, or at the end without being empty. -/
theorem blockFault?_of_start (h : size < address ∨ (address = size ∧ 0 < length)) :
    blockFault? address length = some (.noSuchAddress address) :=
  if_pos h

/-- A block that starts in memory and ends past it. -/
theorem blockFault?_of_end (h : address < size) (hend : size < address + length) :
    blockFault? address length = some (.blockOverrun address length) := by
  rw [blockFault?, if_neg (by omega), if_pos hend]

/-- Nothing is wrong with a block exactly if it ends in memory. -/
theorem blockFault?_eq_none_iff : blockFault? address length = none ↔ address + length ≤ size := by
  unfold blockFault?
  split
  · simp; omega
  · split
    · simp; omega
    · simp; omega

theorem fault_of_block (h : blockFault? address length = some f) :
    f = .noSuchAddress address ∨ f = .blockOverrun address length := by
  unfold blockFault? at h
  split at h
  · exact .inl (Option.some.inj h).symm
  · split at h <;> cases h
    exact .inr rfl

end ChipEight.Memory
