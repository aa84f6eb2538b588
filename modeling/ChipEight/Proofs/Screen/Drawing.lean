import ChipEight.Screen

/-!
# ChipEight.Proofs.Screen.Drawing

**Drawing, row by row.** `Screen.drawSprite` goes through the bits of a sprite one at a time and
flips a pixel for each that is set. `Screen.draw` flips a whole row at once. They agree on every
substrate (`drawSprite_eq`).

What makes a row one flip is that its eight bits fall on eight different columns. So no bit finds
its pixel already flipped by a bit of the same row, and the pixels that were on when their turn came
are those that were on before the row.
-/

namespace ChipEight.Screen

/-! ### Rows -/

/-- A row of a sprite as a row of the screen: the bits of `b` from column `x` on, around the right
edge. -/
def spriteRow (x : Nat) (b : UInt8) : BitVec 64 :=
  (b.toBitVec ++ 0#56).rotateRight x

/-- Draws a sprite with its upper left corner at column `x` and row `y`, a row at a time. The second
component says whether a pixel that was on has been turned off on the way. -/
def draw (s : Screen) (x y : Nat) : List UInt8 → Screen × Bool
  | [] => (s, false)
  | b :: bs =>
    let mask := spriteRow x b
    let erases := s.row y &&& mask != 0
    let rest := (s.flipRow y mask).draw x (y + 1) bs
    (rest.1, erases || rest.2)

/-- The bit of a sprite row that comes to lie on a column is found by going back from the column to
`x`, around the left edge. -/
theorem getMsbD_spriteRow (x : Nat) (b : UInt8) (c : Fin 64) :
    (spriteRow x b).getMsbD c = b.toBitVec.getMsbD ((c.val + 64 - x % 64) % 64) := by
  have padded (k : Nat) : (b.toBitVec ++ 0#56).getMsbD k = b.toBitVec.getMsbD k := by
    rw [BitVec.getMsbD_append]
    split
    · next h => simp [BitVec.getMsbD_of_ge b.toBitVec k h]
    · rfl
  have hx : x % 64 < 64 := Nat.mod_lt _ (by decide)
  rw [spriteRow, BitVec.getMsbD_rotateRight, padded, padded, decide_eq_true c.isLt, Bool.true_and]
  split
  · next h => rw [Nat.add_comm 64]
  · next h => congr 1; omega

@[simp] theorem row_flipRow (s : Screen) (y : Nat) (mask : BitVec 64) :
    (s.flipRow y mask).row y = s.row y ^^^ mask := by
  simp [row, flipRow]

theorem flipRow_flipRow (s : Screen) (y : Nat) (p q : BitVec 64) :
    (s.flipRow y p).flipRow y q = s.flipRow y (p ^^^ q) := by
  simp [flipRow, row, BitVec.xor_assoc]

@[simp] theorem flipRow_zero (s : Screen) (y : Nat) : s.flipRow y 0#64 = s := by
  simp [flipRow, row]

theorem and_ne_zero_iff {u w : BitVec 64} :
    u &&& w ≠ 0 ↔ ∃ c < 64, u.getMsbD c = true ∧ w.getMsbD c = true := by
  constructor
  · intro h
    refine Classical.byContradiction fun hn => h (BitVec.eq_of_getMsbD_eq fun c hc => ?_)
    have : ¬(u.getMsbD c = true ∧ w.getMsbD c = true) := fun hb => hn ⟨c, hc, hb⟩
    simpa using this
  · rintro ⟨c, -, hu, hw⟩ h
    have : (u &&& w).getMsbD c = true := by simp [hu, hw]
    simp [h] at this

/-- Flipping pixels of which none is in two of the flips is flipping all of them. -/
theorem xor_eq_or {u w : BitVec 64} (h : u &&& w = 0) : u ^^^ w = u ||| w := by
  refine BitVec.eq_of_getMsbD_eq fun c _ => ?_
  have hc : (u &&& w).getMsbD c = false := by simp [h]
  rw [BitVec.getMsbD_and] at hc
  rw [BitVec.getMsbD_xor, BitVec.getMsbD_or]
  cases hu : u.getMsbD c <;> simp_all

/-- Flipping pixels outside of a mask does not show under it. -/
theorem xor_and_of_disjoint {r u w : BitVec 64} (h : u &&& w = 0) : (r ^^^ u) &&& w = r &&& w := by
  refine BitVec.eq_of_getMsbD_eq fun c _ => ?_
  have hc : (u &&& w).getMsbD c = false := by simp [h]
  rw [BitVec.getMsbD_and] at hc
  simp only [BitVec.getMsbD_and, BitVec.getMsbD_xor]
  cases hu : u.getMsbD c <;> simp_all

theorem and_or_bne_zero (r u w : BitVec 64) :
    (r &&& (u ||| w) != 0) = ((r &&& u != 0) || (r &&& w != 0)) := by
  rw [Bool.eq_iff_iff]
  simp only [Bool.or_eq_true, bne_iff_ne, and_ne_zero_iff, BitVec.getMsbD_or]
  constructor
  · rintro ⟨c, hc, hr, hu | hw⟩
    · exact .inl ⟨c, hc, hr, hu⟩
    · exact .inr ⟨c, hc, hr, hw⟩
  · rintro (⟨c, hc, hr, hu⟩ | ⟨c, hc, hr, hw⟩)
    · exact ⟨c, hc, hr, .inl hu⟩
    · exact ⟨c, hc, hr, .inr hw⟩

/-! ### Bits of a row -/

/-- The word with the bit of a column set. -/
def columnMask (column : Nat) : BitVec 64 :=
  BitVec.twoPow 64 (63 - column)

theorem getMsbD_columnMask {column : Nat} (h : column < 64) (c : Nat) :
    (columnMask column).getMsbD c = decide (column = c) := by
  rw [columnMask, BitVec.getMsbD_twoPow]
  by_cases hc : column = c
  · subst hc; simp; omega
  · simp [hc]; omega

theorem isOn_eq {s : Screen} {column : Nat} (h : column < 64) (y : Nat) :
    s.isOn column y = (s.row y &&& columnMask column != 0) := by
  rw [isOn, Bool.eq_iff_iff, bne_iff_ne, and_ne_zero_iff]
  constructor
  · intro hon
    exact ⟨column, h, hon, by simp [getMsbD_columnMask h]⟩
  · rintro ⟨c, -, hon, hc⟩
    rw [getMsbD_columnMask h, decide_eq_true_eq] at hc
    exact hc ▸ hon

/-- The bits of `b` at the places `ks`, where bit 0 belongs to column `x`. -/
def bitsMask (x : Nat) (b : UInt8) : List Nat → BitVec 64
  | [] => 0
  | k :: ks =>
    if b.toNat.testBit (7 - k) then columnMask ((x + k) % 64) ||| bitsMask x b ks
    else bitsMask x b ks

theorem getMsbD_bitsMask {x : Nat} {b : UInt8} {ks : List Nat} {c : Nat} :
    (bitsMask x b ks).getMsbD c = true ↔
      ∃ k ∈ ks, b.toNat.testBit (7 - k) = true ∧ (x + k) % 64 = c := by
  induction ks with
  | nil => simp [bitsMask]
  | cons k ks ih =>
    have hc : (x + k) % 64 < 64 := Nat.mod_lt _ (by decide)
    rw [bitsMask]
    split
    · next hset => simp [ih, hset, getMsbD_columnMask hc]
    · next hset => simp [ih, hset]

/-- Different places of a byte fall on different columns. -/
theorem columnMask_and_bitsMask {x : Nat} {b : UInt8} {k : Nat} {ks : List Nat} (hk : k ∉ ks)
    (h8 : ∀ j ∈ k :: ks, j < 8) : columnMask ((x + k) % 64) &&& bitsMask x b ks = 0 := by
  refine Classical.byContradiction fun h => hk ?_
  obtain ⟨c, -, hc, hm⟩ := and_ne_zero_iff.mp h
  obtain ⟨j, hj, -, hjc⟩ := getMsbD_bitsMask.mp hm
  rw [getMsbD_columnMask (Nat.mod_lt _ (by decide)), decide_eq_true_eq] at hc
  have := h8 j (List.mem_cons_of_mem _ hj)
  have := h8 k List.mem_cons_self
  obtain rfl : j = k := by omega
  exact hj

theorem bitsMask_range (x : Nat) (b : UInt8) : bitsMask x b (List.range 8) = spriteRow x b := by
  refine BitVec.eq_of_getMsbD_eq fun c hc => ?_
  rw [getMsbD_spriteRow x b ⟨c, hc⟩, Bool.eq_iff_iff, getMsbD_bitsMask]
  generalize hk : (c + 64 - x % 64) % 64 = k
  have bit (j : Nat) : b.toNat.testBit j = b.toBitVec.getLsbD j := rfl
  simp only [BitVec.getMsbD_eq_getLsbD, bit, Bool.and_eq_true, decide_eq_true_eq, List.mem_range]
  constructor
  · rintro ⟨j, hj, hset, hjc⟩
    obtain rfl : j = k := by omega
    exact ⟨hj, hset⟩
  · rintro ⟨hk8, hset⟩
    exact ⟨k, hk8, hset, by omega⟩

/-! ### The loops -/

variable {M : Type → Type} [Monad M] [LawfulMonad M] [Substrate M]

theorem flip_eq {s : Screen} {column row : Nat} (hc : column < width) (hr : row < height) :
    s.flip column row =
      (pure (s.flipRow row (columnMask column), s.isOn column row) : M (Screen × Bool)) := by
  rw [flip, Substrate.rely_bind fun _ => hc, Substrate.rely_bind fun _ => hr]
  rfl

/-- The loop over the bits of a row flips all of its pixels. -/
theorem foldlM_drawBit {x row : Nat} {b : UInt8} {ks : List Nat} (hn : ks.Nodup)
    (h8 : ∀ k ∈ ks, k < 8) (hr : row < height)
    (hx : Substrate.checks M = true → x + 8 ≤ Substrate.sizeCount) (s : Screen) (erased : Bool) :
    ks.foldlM (drawBit x row b) (s, erased) =
      (pure (s.flipRow row (bitsMask x b ks), erased || (s.row row &&& bitsMask x b ks != 0)) :
        M (Screen × Bool)) := by
  induction ks generalizing s erased with
  | nil => simp [bitsMask]
  | cons k ks ih =>
    obtain ⟨hk, hn'⟩ := List.nodup_cons.mp hn
    have hk8 := h8 k List.mem_cons_self
    have ih := ih hn' fun j hj => h8 j (List.mem_cons_of_mem _ hj)
    rw [List.foldlM_cons, drawBit, Substrate.rely_bind fun _ => by omega, bitsMask]
    split
    · -- the bits still to come fall on other columns, so they find the row as this one found it
      have hcol : (x + k) % width < width := Nat.mod_lt _ (by decide)
      have hdis := columnMask_and_bitsMask (x := x) (b := b) hk h8
      rw [Substrate.rely_bind fun hc => by have := hx hc; omega, flip_eq hcol hr, pure_bind,
        pure_bind, ih, flipRow_flipRow, row_flipRow, isOn_eq hcol, ← xor_eq_or hdis]
      rw [show (x + k) % width = (x + k) % 64 from rfl, xor_and_of_disjoint hdis, xor_eq_or hdis,
        and_or_bne_zero, Bool.or_assoc]
    · rw [pure_bind, ih]

theorem drawRow_eq {x y : Nat} (hx : Substrate.checks M = true → x + 8 ≤ Substrate.sizeCount)
    {row : UInt8 × Nat} (hy : Substrate.checks M = true → y + row.2 < Substrate.sizeCount)
    (s : Screen) (erased : Bool) :
    drawRow x y (s, erased) row =
      (pure (s.flipRow (y + row.2) (spriteRow x row.1),
        erased || (s.row (y + row.2) &&& spriteRow x row.1 != 0)) : M (Screen × Bool)) := by
  have hr : (y + row.2) % height < height := Nat.mod_lt _ (by decide)
  rw [drawRow, Substrate.rely_bind hy,
    foldlM_drawBit List.nodup_range (fun k hk => List.mem_range.mp hk) hr hx, bitsMask_range]
  simp [flipRow, Screen.row, height]

/-- The loop over the rows of a sprite draws them from the `k`-th on. -/
theorem foldlM_drawRow {x y : Nat} (hx : Substrate.checks M = true → x + 8 ≤ Substrate.sizeCount)
    (sprite : List UInt8) (k : Nat)
    (hy : Substrate.checks M = true → y + k + sprite.length ≤ Substrate.sizeCount)
    (s : Screen) (erased : Bool) :
    (sprite.zipIdx k).foldlM (drawRow x y) (s, erased) =
      (pure ((s.draw x (y + k) sprite).1, erased || (s.draw x (y + k) sprite).2) :
        M (Screen × Bool)) := by
  induction sprite generalizing k s erased with
  | nil => simp [draw]
  | cons b bs ih =>
    simp only [List.length_cons] at hy
    rw [List.zipIdx_cons, List.foldlM_cons,
      drawRow_eq hx (fun hc => by have := hy hc; dsimp only; omega), pure_bind,
      ih (k + 1) (fun hc => by have := hy hc; omega)]
    simp only [draw, Nat.add_assoc, Bool.or_assoc]

theorem drawSprite_eq {x y : Nat} {sprite : List UInt8}
    (hx : Substrate.checks M = true → x + 8 ≤ Substrate.sizeCount)
    (hy : Substrate.checks M = true → y + sprite.length ≤ Substrate.sizeCount) (s : Screen) :
    s.drawSprite x y sprite = (pure (s.draw x y sprite) : M (Screen × Bool)) := by
  rw [drawSprite, foldlM_drawRow hx sprite 0 hy]
  simp

end ChipEight.Screen
