import ChipEight.Proofs.Screen.Drawing

/-!
# ChipEight.Proofs.Screen.Torus

**Drawing flips pixels on a torus.** Each set bit of a sprite flips the pixel that it comes to lie
on, around the edges; `flips` says which pixels are flipped an odd number of times. A pixel ends as
it was, or as the opposite of that where `flips` says so (`pixel_draw`).

A sprite with no more rows than the screen has does not overlap itself. Then at most one bit comes
to lie on a pixel, and `flips_eq` finds it by going back from the pixel to the sprite's corner. And
no pixel is turned off after it has been turned on by the same sprite, so the flag tells whether
there is a pixel that is on before and off afterwards (`draw_erases_iff`).
-/

namespace ChipEight.Screen

variable {x y : Nat} {b : UInt8} {sprite : List UInt8} {c : Fin 64} {r : Fin 32}

/-! ### The pixels that are flipped -/

/-- Whether an odd number of the set bits of a sprite come to lie on a pixel, if the sprite is drawn
with its upper left corner at column `x` and row `y`. -/
def flips (x y : Nat) : List UInt8 → Fin 64 → Fin 32 → Bool
  | [], _, _ => false
  | b :: bs, c, r =>
    (decide (y % 32 = r.val) && (spriteRow x b).getMsbD c) ^^ flips x (y + 1) bs c r

theorem pixel_draw (s : Screen) (x y : Nat) (sprite : List UInt8) (c : Fin 64) (r : Fin 32) :
    (s.draw x y sprite).1.pixel c r = (s.pixel c r ^^ flips x y sprite c r) := by
  induction sprite generalizing s y with
  | nil => simp [draw, flips]
  | cons b bs ih => rw [draw, ih, pixel_flipRow, flips, Bool.xor_assoc]

/-- A row that no row of the sprite comes to lie on is left as it is. -/
theorem flips_of_ne (h : ∀ k < sprite.length, (y + k) % 32 ≠ r.val) :
    flips x y sprite c r = false := by
  induction sprite generalizing y with
  | nil => rfl
  | cons b bs ih =>
    have hfirst : y % 32 ≠ r.val := h 0 (Nat.succ_pos _)
    rw [flips, decide_eq_false hfirst, ih fun k hk => ?_, Bool.false_and, Bool.xor_false]
    have hnext := h (k + 1) (Nat.succ_lt_succ hk)
    rwa [show y + 1 + k = y + (k + 1) by omega]

/-- A sprite that does not overlap itself flips in its first row what that row's byte says, and
elsewhere what the others say. -/
theorem flips_cons (h : (b :: sprite).length ≤ 32) :
    flips x y (b :: sprite) c r =
      if y % 32 = r.val then (spriteRow x b).getMsbD c else flips x (y + 1) sprite c r := by
  rw [List.length_cons] at h
  rw [flips]
  split
  · next hr =>
    rw [flips_of_ne fun k hk => by omega, decide_eq_true hr, Bool.true_and, Bool.xor_false]
  · next hr => rw [decide_eq_false hr, Bool.false_and, Bool.false_xor]

/-- The row of the sprite that comes to lie on a row of the screen is found by going back from there
to `y`, around the upper edge. -/
theorem flips_eq_any (h : sprite.length ≤ 32) :
    flips x y sprite c r =
      (sprite[(r.val + 32 - y % 32) % 32]?).any fun b => (spriteRow x b).getMsbD c := by
  induction sprite generalizing y with
  | nil => rfl
  | cons b bs ih =>
    have hr := r.isLt
    rw [flips_cons h]
    split
    · next hrow =>
      rw [show (r.val + 32 - y % 32) % 32 = 0 by omega]
      rfl
    · next hrow =>
      rw [ih (by rw [List.length_cons] at h; omega),
        show (r.val + 32 - y % 32) % 32 = (r.val + 32 - (y + 1) % 32) % 32 + 1 by omega,
        List.getElem?_cons_succ]

theorem getMsbD_toBitVec (b : UInt8) (k : Nat) :
    b.toBitVec.getMsbD k = (decide (k < 8) && b.toNat.testBit (7 - k)) := by
  rw [BitVec.getMsbD_eq_getLsbD]
  rfl

/-- The bit of a sprite that comes to lie on a pixel: in the row that is as far below `y` as the
pixel is, and as far from its left end as the pixel is to the right of `x`. -/
theorem flips_eq (h : sprite.length ≤ 32) :
    let column := (((c.val : Int) - x) % 64).toNat
    let row := (((r.val : Int) - y) % 32).toNat
    flips x y sprite c r =
      (decide (column < 8) && sprite[row]?.any fun b => b.toNat.testBit (7 - column)) := by
  intro column row
  have hcolumn : (c.val + 64 - x % 64) % 64 = column := by omega
  have hrow : (r.val + 32 - y % 32) % 32 = row := by omega
  rw [flips_eq_any h, hrow]
  cases sprite[row]? with
  | none => simp
  | some b => simp [getMsbD_spriteRow, getMsbD_toBitVec, hcolumn]

/-! ### Pixels that are turned off -/

theorem row_and_ne_zero_iff {s : Screen} {y : Nat} {mask : BitVec 64} :
    s.row y &&& mask ≠ 0 ↔
      ∃ (c : Fin 64) (r : Fin 32), y % 32 = r.val ∧ s.pixel c r = true ∧ mask.getMsbD c = true := by
  rw [and_ne_zero_iff]
  constructor
  · rintro ⟨c, hc, hon, hset⟩
    exact ⟨⟨c, hc⟩, ⟨y % 32, Nat.mod_lt _ (by decide)⟩, rfl, hon, hset⟩
  · rintro ⟨c, r, hr, hon, hset⟩
    refine ⟨c, c.isLt, ?_, hset⟩
    obtain rfl : r = ⟨y % 32, Nat.mod_lt _ (by decide)⟩ := Fin.ext hr.symm
    exact hon

theorem draw_hits_iff (s : Screen) (h : sprite.length ≤ 32) :
    (s.draw x y sprite).2 = true ↔ ∃ c r, s.pixel c r = true ∧ flips x y sprite c r = true := by
  induction sprite generalizing s y with
  | nil => simp [draw, flips]
  | cons b bs ih =>
    have hlen : bs.length < 32 := h
    -- what the other rows flip, they find as the first one has found it
    have hrest (c : Fin 64) (r : Fin 32) (hf : flips x (y + 1) bs c r = true) :
        y % 32 ≠ r.val ∧ (s.flipRow y (spriteRow x b)).pixel c r = s.pixel c r := by
      have hr : y % 32 ≠ r.val := by
        intro hr
        rw [flips_of_ne fun k hk => by omega] at hf
        cases hf
      exact ⟨hr, by rw [pixel_flipRow, decide_eq_false hr, Bool.false_and, Bool.xor_false]⟩
    rw [draw, Bool.or_eq_true, bne_iff_ne, row_and_ne_zero_iff, ih _ (Nat.le_of_lt hlen)]
    simp only [flips_cons h]
    constructor
    · rintro (⟨c, r, hr, hon, hset⟩ | ⟨c, r, hon, hf⟩)
      · exact ⟨c, r, hon, by rwa [if_pos hr]⟩
      · obtain ⟨hr, hsame⟩ := hrest c r hf
        exact ⟨c, r, hsame ▸ hon, by rwa [if_neg hr]⟩
    · rintro ⟨c, r, hon, hf⟩
      by_cases hr : y % 32 = r.val
      · exact .inl ⟨c, r, hr, hon, by rwa [if_pos hr] at hf⟩
      · rw [if_neg hr] at hf
        exact .inr ⟨c, r, (hrest c r hf).2.trans hon, hf⟩

/-- **The flag of a sprite** that does not overlap itself: whether there is a pixel that is on
before the sprite is drawn and off afterwards. -/
theorem draw_erases_iff (s : Screen) (h : sprite.length ≤ 32) :
    (s.draw x y sprite).2 = true ↔
      ∃ c r, s.pixel c r = true ∧ (s.draw x y sprite).1.pixel c r = false := by
  rw [draw_hits_iff s h]
  refine exists_congr fun c => exists_congr fun r => and_congr_right fun hon => ?_
  rw [pixel_draw, hon, Bool.true_xor, Bool.not_eq_false']

end ChipEight.Screen
