import ChipEight.Machine.Call
import ChipEight.Proofs.Machine.Effect
import ChipEight.Proofs.Screen.Torus

/-!
# ChipEight.Proofs.Machine.Sprites

**Drawing from memory.** An instruction that draws takes its sprite from the block at the index and
its place from two registers, as they are before the flag is put into `VF`. It has at most fifteen
rows, so it does not overlap itself on the screen, and what `Screen.flips_eq` and
`Screen.draw_erases_iff` say about sprites holds of it.
-/

namespace ChipEight.Machine

section Draw

variable {M : Type → Type} [Monad M] [LawfulMonad M] [Substrate M]

/-- **Drawing flips pixels on a torus**, on every substrate. Let a machine draw the `n` bytes at the
index, which are at most fifteen and lie in memory. It does so without a fault. A pixel is flipped
exactly if, going back from it to the column in `Vx` and to the row in `Vy` around the edges, one
comes to less than eight columns and less than `n` rows, and the byte of that row has the bit of
that column set. `VF` becomes one if some pixel that was on is off afterwards, and otherwise zero,
the screen counts as drawn to, and all else is as before. -/
theorem draw_on_torus (m : Machine) (x y : Register) (n : UInt8) (hn : n.toNat ≤ 15)
    (hfits : m.index.toNat + n.toNat ≤ 0x1000) :
    ∃ (screen : Screen) (flag : UInt8),
      (Action.execute (.draw x y n) : Action M Unit) m =
        pure (.ok (), { m with
          v := m.v.set Register.flag flag, screen := screen, redraw := true }) ∧
      (∀ (c : Fin 64) (r : Fin 32),
        let column := (((c.val : Int) - (m.v.get x).toNat) % 64).toNat
        let row := (((r.val : Int) - (m.v.get y).toNat) % 32).toNat
        screen.pixel c r = (m.screen.pixel c r ^^
          (decide (column < 8) && decide (row < n.toNat) &&
            m.memory.bytes[m.index.toNat + row]?.any fun b => b.toNat.testBit (7 - column)))) ∧
      flag = if ∃ c r, m.screen.pixel c r = true ∧ screen.pixel c r = false then 1 else 0 := by
  let sprite := m.memory.block m.index.toNat n.toNat
  let drawn := m.screen.draw (m.v.get x).toNat (m.v.get y).toNat sprite
  have hlen : sprite.length = n.toNat := Bank.length_read hfits
  have hrows : sprite.length ≤ 32 := by omega
  have hfault : Memory.blockFault? m.index.toNat n.toNat = none :=
    Memory.blockFault?_eq_none_iff.mpr hfits
  refine ⟨drawn.1, drawn.2.toUInt8, ?_, fun c r => ?_, ?_⟩
  · rw [Action.execute, Action.draw_apply x y fun _ => Nat.lt_succ_of_le hn, hfault]
    rfl
  · intro column row
    rw [Screen.pixel_draw, Screen.flips_eq hrows, Memory.any_block, ← Bool.and_assoc]
  · simp only [Bool.toUInt8, drawn, Screen.draw_erases_iff m.screen hrows]

end Draw

set_option maxRecDepth 20000 in
/-- A zero has been drawn around the lower right corner, from the column that `VF` named. Now the
same zero is drawn at the column and the row that `VF` names, which is zero, and turns off the one
pixel of its upper row that was on. -/
theorem overdrawn_around_corner :
    let m := (new {} (Random.Key.ofSeed 0)).after
      [.load [0x6F, 0x3E, 0x61, 0x1E, 0xDF, 0x15], .step, .step, .step]
    ∃ screen : Screen,
      (Action.execute (.draw 15 15 5) : Action Option Unit) m =
        some (.ok (), { m with v := m.v.set Register.flag 1, screen := screen, redraw := true }) ∧
      screen.pixel 0 0 = true ∧ screen.pixel 1 0 = false ∧ screen.pixel 62 30 = true := by
  intro m
  obtain ⟨hindex, hflag, hbyte, hleft, hnext, hcorner⟩ : m.index = 0 ∧ m.v.get 15 = 0 ∧
      m.memory.bytes[0]? = some 0xF0 ∧ m.screen.pixel 0 0 = false ∧
      m.screen.pixel 1 0 = true ∧ m.screen.pixel 62 30 = true := by
    decide +kernel
  obtain ⟨screen, flag, hexecute, hpixel, hcollides⟩ :=
    draw_on_torus (M := Option) m 15 15 5 (by decide) (by rw [hindex]; decide)
  rw [hflag, hindex] at hpixel
  have hleft' : screen.pixel 0 0 =
      (m.screen.pixel 0 0 ^^ m.memory.bytes[0]?.any fun b => b.toNat.testBit 7) := hpixel 0 0
  have hnext' : screen.pixel 1 0 =
      (m.screen.pixel 1 0 ^^ m.memory.bytes[0]?.any fun b => b.toNat.testBit 6) := hpixel 1 0
  have hcorner' : screen.pixel 62 30 = (m.screen.pixel 62 30 ^^ false) := hpixel 62 30
  rw [hleft, hbyte] at hleft'
  rw [hnext, hbyte] at hnext'
  rw [hcorner] at hcorner'
  rw [if_pos ⟨1, 0, hnext, hnext'⟩] at hcollides
  subst hcollides
  exact ⟨screen, hexecute, hleft', hnext', hcorner'⟩

end ChipEight.Machine
