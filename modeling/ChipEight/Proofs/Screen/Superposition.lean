import ChipEight.Proofs.Screen.Torus

/-!
# ChipEight.Proofs.Screen.Superposition

**Sprites superpose.** Sprites are drawn one after another, each at a place of its own and with any
number of rows, so that they may overlap each other and themselves. Each set bit of each sprite
flips the pixel that it comes to lie on, so what becomes of a pixel is told by how many of them do
(`pixel_superpose`). How many there are does not depend on the order in which the sprites are drawn;
and if all of them are drawn again, in whatever order, there are twice as many, which leaves every
pixel as it was.

Places may be as far out as one likes. The number of sizes that there are is a multiple of both the
width and the height of the screen, so a sum that wraps around would come to lie on the same pixel.
-/

namespace ChipEight.Screen

/-- A sprite and where it is drawn: at what column and row its upper left corner is. -/
structure Stamp where
  column : Nat
  row : Nat
  sprite : List UInt8

namespace Stamp

/-- The places of a sprite's set bits, if it is drawn with its upper left corner at column `x` and
row `y`. They may lie past the edges of the screen. -/
def bitsAt (x y : Nat) : List UInt8 → List (Nat × Nat)
  | [] => []
  | b :: bs =>
    ((List.range 8).filter fun k => b.toNat.testBit (7 - k)).map (fun k => (x + k, y)) ++
      bitsAt x (y + 1) bs

/-- The places of the set bits. -/
def bits (d : Stamp) : List (Nat × Nat) :=
  bitsAt d.column d.row d.sprite

/-- The sums that give the places of the bits are sizes that there are. -/
structure Near (d : Stamp) : Prop where
  column_le : d.column + 8 ≤ Substrate.sizeCount
  row_le : d.row + d.sprite.length ≤ Substrate.sizeCount

end Stamp

/-- Whether a place comes to lie on a pixel, around the edges. -/
def Covers (c : Fin 64) (r : Fin 32) (place : Nat × Nat) : Prop :=
  place.1 % 64 = c.val ∧ place.2 % 32 = r.val

instance (c : Fin 64) (r : Fin 32) : DecidablePred (Covers c r) :=
  fun place => inferInstanceAs (Decidable (place.1 % 64 = c.val ∧ place.2 % 32 = r.val))

/-- Draws sprites one after another. -/
def drawAll {M : Type → Type} [Monad M] [Substrate M] (s : Screen) (stamps : List Stamp) :
    M Screen :=
  stamps.foldlM (fun s d => do return (← s.drawSprite d.column d.row d.sprite).1) s

variable {x y : Nat} {b : UInt8} {sprite : List UInt8} {c : Fin 64} {r : Fin 32} {s : Screen}
  {stamps again : List Stamp}

/-! ### One sprite -/

theorem odd_add (m n : Nat) :
    decide ((m + n) % 2 = 1) = (decide (m % 2 = 1) ^^ decide (n % 2 = 1)) := by
  rcases Nat.mod_two_eq_zero_or_one m with hm | hm <;>
    rcases Nat.mod_two_eq_zero_or_one n with hn | hn <;> simp [Nat.add_mod, hm, hn]

/-- The bits of a row fall on different columns, so no more than one of them falls on a pixel. -/
theorem countP_bits_row :
    (((List.range 8).filter fun k => b.toNat.testBit (7 - k)).map fun k => (x + k, y)).countP
        (Covers c r) =
      if y % 32 = r.val ∧ (spriteRow x b).getMsbD c = true then 1 else 0 := by
  generalize hset : ((List.range 8).filter fun k => b.toNat.testBit (7 - k)) = set
  have hmem (k : Nat) : k ∈ set ↔ k < 8 ∧ b.toNat.testBit (7 - k) = true := by simp [← hset]
  have hnodup : set.Nodup := hset ▸ List.Pairwise.filter _ List.nodup_range
  rw [List.countP_map]
  by_cases hrow : y % 32 = r.val
  · -- the one bit that can fall on the column is found by going back from there to `x`
    generalize hcolumn : (c.val + 64 - x % 64) % 64 = column
    have hfalls : ∀ k ∈ set, (Covers c r (x + k, y) ↔ k = column) := by
      intro k hk
      have hk8 : k < 8 := ((hmem k).mp hk).1
      rw [Covers, and_iff_left hrow]
      dsimp only
      omega
    have hbit : (spriteRow x b).getMsbD c = true ↔ column ∈ set := by
      rw [getMsbD_spriteRow, hcolumn, getMsbD_toBitVec, hmem]
      simp
    rw [List.countP_congr (q := (· == column)) (by simpa using hfalls), ← List.count_eq_countP,
      hnodup.count]
    simp [hrow, hbit]
  · rw [if_neg fun h => hrow h.1, List.countP_eq_zero]
    simp [Covers, hrow]

theorem flips_eq_odd :
    flips x y sprite c r = decide ((Stamp.bitsAt x y sprite).countP (Covers c r) % 2 = 1) := by
  induction sprite generalizing y with
  | nil => rfl
  | cons b bs ih =>
    rw [flips, Stamp.bitsAt, List.countP_append, odd_add, ← ih, countP_bits_row]
    by_cases h : y % 32 = r.val <;> cases (spriteRow x b).getMsbD c <;> simp [h]

/-! ### Any number of them -/

/-- The screen after sprites have been drawn one after another, each in one go. -/
def superpose (s : Screen) (stamps : List Stamp) : Screen :=
  stamps.foldl (fun s d => (s.draw d.column d.row d.sprite).1) s

theorem pixel_superpose (s : Screen) (stamps : List Stamp) (c : Fin 64) (r : Fin 32) :
    (s.superpose stamps).pixel c r =
      (s.pixel c r ^^ decide ((stamps.flatMap Stamp.bits).countP (Covers c r) % 2 = 1)) := by
  induction stamps generalizing s with
  | nil => simp [superpose]
  | cons d ds ih =>
    rw [superpose, List.foldl_cons, ← superpose, ih, pixel_draw, flips_eq_odd, Bool.xor_assoc,
      ← odd_add, ← List.countP_append]
    rfl

theorem superpose_perm (h : again.Perm stamps) : s.superpose again = s.superpose stamps := by
  ext c r
  rw [pixel_superpose, pixel_superpose, (h.flatMap_right Stamp.bits).countP_eq]

/-- Drawing everything again takes it all away. -/
theorem superpose_superpose_perm (h : again.Perm stamps) :
    (s.superpose stamps).superpose again = s := by
  ext c r
  rw [pixel_superpose, pixel_superpose, (h.flatMap_right Stamp.bits).countP_eq, Bool.xor_assoc,
    Bool.xor_self, Bool.xor_false]

theorem drawAll_eq {M : Type → Type} [Monad M] [LawfulMonad M] [Substrate M] (s : Screen)
    (h : Substrate.checks M = true → ∀ d ∈ stamps, d.Near) :
    s.drawAll stamps = (pure (s.superpose stamps) : M Screen) := by
  induction stamps generalizing s with
  | nil => rfl
  | cons d ds ih =>
    have hd (hc : Substrate.checks M = true) : d.Near := h hc d List.mem_cons_self
    have hds (hc : Substrate.checks M = true) : ∀ e ∈ ds, e.Near :=
      fun e he => h hc e (List.mem_cons_of_mem d he)
    rw [drawAll, List.foldlM_cons,
      drawSprite_eq (fun hc => (hd hc).column_le) (fun hc => (hd hc).row_le), pure_bind, pure_bind]
    exact ih _ hds

/-- **Sprites superpose.** Draw any sprites one after another, wherever they are. A pixel ends as
what it was or, if the number of the set bits that come to lie on it is odd, as the opposite of
that. Drawn in any other order, they give the same screen; and drawn on top of that once more, again
in any order, they give back the screen that there was. If code checks what it relies on, all of
this is so unless a sprite is drawn so far out that the place of a bit is not a size that there
is. -/
theorem sprites_superpose (s : Screen) (stamps : List Stamp) :
    let drawn : Screen := s.drawAll (M := Id) stamps
    (∀ c r, drawn.pixel c r =
      (s.pixel c r ^^ decide ((stamps.flatMap Stamp.bits).countP (Covers c r) % 2 = 1))) ∧
    (∀ again : List Stamp, again.Perm stamps →
      s.drawAll (M := Id) again = drawn ∧ drawn.drawAll (M := Id) again = s) ∧
    ((∀ d ∈ stamps, d.Near) → s.drawAll stamps = some drawn) := by
  have trusted (s : Screen) (stamps : List Stamp) :
      s.drawAll (M := Id) stamps = s.superpose stamps :=
    drawAll_eq (M := Id) s (by simp)
  intro drawn
  have hdrawn : drawn = s.superpose stamps := trusted s stamps
  refine ⟨fun c r => ?_, fun again h => ⟨?_, ?_⟩, fun hnear => ?_⟩
  · rw [hdrawn, pixel_superpose]
  · rw [trusted, hdrawn, superpose_perm h]
  · rw [trusted, hdrawn, superpose_superpose_perm h]
  · rw [hdrawn]
    exact drawAll_eq (M := Option) s fun _ => hnear

/-- A sprite that is one row higher than the screen and lies across its corner turns the upper row
off again that its last one lies on. A pixel of the next row is turned off by another sprite. -/
theorem overlapping_in_corner :
    let large : Stamp := ⟨60, 30, List.replicate 33 0xFF⟩
    let small : Stamp := ⟨255, 255, [0x80]⟩
    let drawn : Screen := blank.drawAll (M := Id) [large, small]
    drawn.pixel 60 30 = false ∧ drawn.pixel 60 31 = true ∧ drawn.pixel 63 31 = false ∧
      blank.drawAll (M := Id) [small, large] = drawn ∧
      drawn.drawAll (M := Id) [small, large] = blank ∧
      blank.drawAll [large, small] = some drawn := by
  intro large small drawn
  obtain ⟨hpixel, horder, hchecked⟩ := sprites_superpose blank [large, small]
  have hswapped : [small, large].Perm [large, small] := .swap _ _ _
  have hlarge : large.Near := ⟨by decide, by decide⟩
  have hsmall : small.Near := ⟨by decide, by decide⟩
  refine ⟨(hpixel 60 30).trans (by decide +kernel), (hpixel 60 31).trans (by decide +kernel),
    (hpixel 63 31).trans (by decide +kernel), (horder _ hswapped).1, (horder _ hswapped).2,
    hchecked ?_⟩
  simp [hlarge, hsmall]

end ChipEight.Screen
