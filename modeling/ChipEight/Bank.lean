import ChipEight.Substrate

/-!
# ChipEight.Bank

Banks of bytes: rows of fixed length that are read and written in blocks.

The machine has two, its memory and its data registers. Blocks are lists. `read` and `write` are
total: the part of a block that lies outside the bank is left out. Code gets at a bank through
`load`, `store`, `slice` and `splice`, which rely on their bounds.
-/

namespace ChipEight

/-- A row of `n` bytes. -/
abbrev Bank (n : Nat) := Vector UInt8 n

namespace Bank

variable {n : Nat}

def zeros : Bank n :=
  Vector.replicate n 0

/-- The bytes at the `length` places from `start` on. -/
def read (bank : Bank n) (start length : Nat) : List UInt8 :=
  (bank.toArray.extract start (start + length)).toList

/-- Puts bytes at the places from `start` on. -/
def write : Bank n → Nat → List UInt8 → Bank n
  | bank, _, [] => bank
  | bank, start, b :: bs => write (bank.setIfInBounds start b) (start + 1) bs

/-! ### Access -/

section Access

variable {M : Type → Type} [Monad M] [Substrate M]

def load (bank : Bank n) (i : Nat) : M UInt8 := do
  Substrate.rely (i < n)
  return bank[i]?.getD 0

def store (bank : Bank n) (i : Nat) (b : UInt8) : M (Bank n) := do
  Substrate.rely (i < n)
  return bank.setIfInBounds i b

/-- The block from `start` up to `stop`, which lies in the bank. -/
def slice (bank : Bank n) (start stop : Nat) : M (List UInt8) := do
  Substrate.rely (start ≤ stop ∧ stop ≤ n)
  return bank.read start (stop - start)

/-- Puts a block of the right length in place of that from `start` up to `stop`. -/
def splice (bank : Bank n) (start stop : Nat) (block : List UInt8) : M (Bank n) := do
  Substrate.rely (start ≤ stop ∧ stop ≤ n)
  Substrate.rely (block.length = stop - start)
  return bank.write start block

variable [LawfulMonad M]

theorem load_eq {bank : Bank n} {i : Nat} (h : Substrate.checks M = true → i < n) :
    bank.load i = (pure (bank[i]?.getD 0) : M UInt8) := by
  rw [load, Substrate.rely_bind h]

theorem store_eq {bank : Bank n} {i : Nat} {b : UInt8} (h : Substrate.checks M = true → i < n) :
    bank.store i b = (pure (bank.setIfInBounds i b) : M (Bank n)) := by
  rw [store, Substrate.rely_bind h]

theorem slice_eq {bank : Bank n} {start length : Nat}
    (h : Substrate.checks M = true → start + length ≤ n) :
    bank.slice start (start + length) = (pure (bank.read start length) : M (List UInt8)) := by
  rw [slice, Substrate.rely_bind fun hc => ⟨Nat.le_add_right _ _, h hc⟩, Nat.add_sub_cancel_left]

theorem splice_eq {bank : Bank n} {start length : Nat} {block : List UInt8}
    (hlen : block.length = length) (h : Substrate.checks M = true → start + length ≤ n) :
    bank.splice start (start + length) block = (pure (bank.write start block) : M (Bank n)) := by
  rw [splice, Substrate.rely_bind fun hc => ⟨Nat.le_add_right _ _, h hc⟩,
    Substrate.rely_bind fun _ => hlen.trans (Nat.add_sub_cancel_left _ _).symm]

end Access

/-! ### What is where afterwards -/

@[simp] theorem getElem?_zeros (i : Nat) :
    (zeros : Bank n)[i]? = if i < n then some 0 else none := by
  simp [zeros, Vector.getElem?_replicate]

@[simp] theorem get_zeros (i : Fin n) : (zeros : Bank n).get i = 0 :=
  Vector.getElem_replicate i.isLt

/-- A block that lies inside the bank is read whole. -/
theorem length_read {bank : Bank n} {start length : Nat} (h : start + length ≤ n) :
    (bank.read start length).length = length := by
  simp [read]; omega

/-- The byte at each place of a block that is read. -/
theorem getElem?_read (bank : Bank n) (start length j : Nat) :
    (bank.read start length)[j]? = if j < length then bank[start + j]? else none := by
  simp only [read, Array.getElem?_toList, Array.getElem?_extract, Vector.size_toArray,
    Vector.getElem?_toArray]
  by_cases h : start + j < n
  · by_cases hj : j < length
    · rw [if_pos (by omega), if_pos hj]
    · rw [if_neg (by omega), if_neg hj]
  · rw [if_neg (by omega), Vector.getElem?_eq_none (by omega), ite_self]

/-- A written block is found where it was put, and the rest of the bank is as before. -/
theorem getElem?_write (bank : Bank n) (start : Nat) (bs : List UInt8) (i : Nat) :
    (bank.write start bs)[i]? =
      if start ≤ i ∧ i < start + bs.length ∧ i < n then bs[i - start]? else bank[i]? := by
  induction bs generalizing bank start with
  | nil => simp [write]; omega
  | cons b bs ih =>
    rw [write, ih]
    simp only [List.length_cons]
    by_cases h : start = i
    · subst h
      simp only [Nat.le_refl, Nat.sub_self, List.getElem?_cons_zero, true_and]
      rw [if_neg (by omega), Vector.getElem?_setIfInBounds_self]
      by_cases hn : start < n
      · rw [if_pos hn, if_pos ⟨by omega, hn⟩]
      · rw [if_neg hn, if_neg (by omega), Vector.getElem?_eq_none (by omega)]
    · rw [Vector.getElem?_setIfInBounds_ne h]
      by_cases hs : start + 1 ≤ i ∧ i < start + 1 + bs.length ∧ i < n
      · rw [if_pos hs, if_pos (by omega), show i - start = i - (start + 1) + 1 by omega,
          List.getElem?_cons_succ]
      · rw [if_neg hs, if_neg (by omega)]

/-- Blocks of two banks that are the same at every place. -/
theorem read_congr {bank bank' : Bank n} {start length : Nat}
    (h : ∀ j, j < length → bank[start + j]? = bank'[start + j]?) :
    bank.read start length = bank'.read start length := by
  apply List.ext_getElem?
  intro j
  rw [getElem?_read, getElem?_read]
  split
  · next hj => exact h j hj
  · rfl

/-- What has been written is read again. -/
theorem read_write {bank : Bank n} {start : Nat} {bs : List UInt8} (h : start + bs.length ≤ n) :
    (bank.write start bs).read start bs.length = bs := by
  apply List.ext_getElem?
  intro j
  rw [getElem?_read]
  split
  · next hj => rw [getElem?_write, if_pos (by omega), Nat.add_sub_cancel_left]
  · next hj => rw [List.getElem?_eq_none (Nat.le_of_not_lt hj)]

/-- Writing what is there anyway changes nothing. -/
theorem write_read {bank : Bank n} {start length : Nat} (h : start + length ≤ n) :
    bank.write start (bank.read start length) = bank := by
  apply Vector.ext
  intro i hi
  rw [← Option.some_inj, ← Vector.getElem?_eq_getElem hi, ← Vector.getElem?_eq_getElem hi,
    getElem?_write, length_read h]
  split
  · next hin => rw [getElem?_read, if_pos (by omega), Nat.add_sub_cancel' hin.1]
  · rfl

end Bank

end ChipEight
