import ChipEight.Proofs.Machine.Bounds
import ChipEight.Proofs.Machine.Writes
import ChipEight.Proofs.Screen.Torus
import Mathlib.Data.List.Induction

/-!
# ChipEight.Proofs.Machine.Glyphs

**Digits are drawn as they are on the sheet.** The font lies at the bottom of memory, below the
programs that are loaded. So it is still there, unless it has been written over by a poke or by the
program itself (`Recalls.hasFont`).

The instruction that points to a glyph takes any byte for a digit. The index then stays where the
digit has put it until another instruction is executed, whatever the host does meanwhile, even if
it resets the machine (`pointsTo_after`). The greatest byte does not take it far, so a block that is
moved from there or to there always lies in memory.
-/

namespace ChipEight

/-- The rows of the glyph of a digit on the sheet. -/
def Font.glyph (digit : Nat) : List UInt8 :=
  (sheet.drop (5 * digit)).take 5

/-- Whether a pixel is one that is set in a glyph whose upper left corner is at column `x` and row
`y`: going back from the pixel to the corner around the edges, one comes to less than eight columns
and to a row of the glyph that has the bit of that column set. -/
def Screen.isOnGlyph (digit x y : Nat) (c : Fin 64) (r : Fin 32) : Bool :=
  let column := (((c.val : Int) - x) % 64).toNat
  let row := (((r.val : Int) - y) % 32).toNat
  decide (column < 8) && (Font.glyph digit)[row]?.any fun b => b.toNat.testBit (7 - column)

/-! ### The font in memory -/

/-- The font is where it has been put when the machine was switched on. -/
def Memory.HasFont (m : Memory) : Prop :=
  ∀ address < 0x50, m.bytes[address]? = Font.sheet[address]?

theorem Memory.HasFont.block_eq_glyph {m : Memory} (h : m.HasFont) {digit : Nat}
    (hdigit : digit ≤ 15) : m.block (5 * digit) 5 = Font.glyph digit := by
  apply List.ext_getElem?
  intro j
  rw [block, Bank.getElem?_read, Font.glyph, List.getElem?_take, List.getElem?_drop]
  split
  · next hj => exact h _ (by omega)
  · rfl

namespace Machine

/-- Since the last reset in a sequence of calls, no byte has been written where the font is. -/
def SparesFont (m : Machine) (calls : List Call) : Prop :=
  ∀ w ∈ m.writes calls, ∀ address < 0x50, w.byte? address = none

variable {M : Type → Type} [Monad M] [LawfulMonad M] [Substrate M] {m m' : Machine} {c : Call}
  {r : Reply} {i : Instruction Register} {op : UInt16} {x : Register}

theorem Recalls.hasFont {ws : List Write} (h : Recalls ws m)
    (hws : ∀ w ∈ ws, ∀ address < 0x50, w.byte? address = none) : m.memory.HasFont := by
  intro address ha
  have hnone : ws.findSome? (·.byte? address) = none :=
    List.findSome?_eq_none_iff.mpr fun w hw => hws w hw address ha
  have hlen : address < Font.sheet.length := ha
  rw [h address (Nat.lt_trans ha (by decide)), lastByte, hnone, Option.getD_none,
    List.getD_eq_getElem?_getD, List.getElem?_eq_getElem hlen, Option.getD_some]

theorem hasFont_after {config : Config} {entropy : Random.Key} {calls : List Call}
    (h : (new config entropy).SparesFont calls) :
    ((new config entropy).after calls).memory.HasFont := by
  have hnew : (new config entropy).memory = .initial := rfl
  exact (recalls_after (recalls_nil hnew) calls).hasFont h

/-- Programs are loaded above the font. -/
theorem byte?_of_load {program : List UInt8} {w : Write}
    (hc : c = .load program ∨ c = .loadFile (some program))
    (hw : m.written? c (m.call c).1 = some w) {address : Nat} (ha : address < 0x50) :
    w.byte? address = none := by
  have hb : c.block? = some (programOrigin, program) := by rcases hc with rfl | rfl <;> rfl
  rw [call_of_block hb] at hw
  cases hf : c.fault? with
  | some f => simp [hf, written?] at hw
  | none =>
    obtain rfl : (⟨programOrigin, program⟩ : Write) = w := by simpa [hf, written?, hb] using hw
    refine if_neg (Nat.not_le.mpr ?_)
    show address < programOrigin
    unfold programOrigin
    omega

/-! ### Blocks near the font -/

/-- A block that an instruction moves has at most sixteen bytes. -/
theorem fault?_of_index_le (hindex : m.index.toNat ≤ 0xFF0) (hi : i.movesBlock = true)
    (hproper : i.Proper) : m.fault? i = none := by
  have hfits {length : Nat} (hlength : length ≤ 16) :
      Memory.blockFault? m.index.toNat length = none := by
    rw [Memory.blockFault?_eq_none_iff, Memory.size]
    omega
  cases i with
  | draw x y n => exact hfits (Nat.le_of_lt hproper)
  | storeDecimal x => exact hfits (by decide)
  | storeRegisters x => exact hfits (m.config.copyLength_le x)
  | loadRegisters x => exact hfits (m.config.copyLength_le x)
  | _ => cases hi

theorem index_perform_pointToGlyph (m : Machine) (x : Register) :
    (m.perform (.pointToGlyph x)).index.toNat = 5 * (m.v.get x).toNat := by
  have hv := (m.v.get x).toNat_lt
  have hindex : (m.perform (.pointToGlyph x)).index = UInt16.ofNat (0 + 5 * (m.v.get x).toNat) :=
    rfl
  rw [hindex, Nat.zero_add]
  refine UInt16.toNat_ofNat_of_lt' ?_
  unfold UInt16.size
  omega

/-- Five rows that are drawn from a glyph flip the pixels that are set in the glyph. -/
theorem pixel_perform_draw_glyph (hfont : m.memory.HasFont) {digit : Nat} (hdigit : digit ≤ 15)
    (hindex : m.index.toNat = 5 * digit) (y z : Register) (c : Fin 64) (r : Fin 32) :
    (m.perform (.draw y z 5)).screen.pixel c r = (m.screen.pixel c r ^^
      Screen.isOnGlyph digit (m.v.get y).toNat (m.v.get z).toNat c r) := by
  have hblock : m.memory.block m.index.toNat 5 = Font.glyph digit := by
    rw [hindex, hfont.block_eq_glyph hdigit]
  have hlen : (Font.glyph digit).length ≤ 32 :=
    Nat.le_trans (List.length_take_le _ _) (by decide)
  show (m.screen.draw (m.v.get y).toNat (m.v.get z).toNat
    (m.memory.block m.index.toNat 5)).1.pixel c r = _
  rw [hblock, Screen.pixel_draw, Screen.flips_eq hlen, Screen.isOnGlyph]

/-- Whatever is taken for a digit, a block can be moved once the index points to its glyph. -/
theorem execute_after_pointToGlyph (h : m.Bounded) (x : Register) (hi : i.movesBlock = true)
    (hproper : i.Proper) :
    (do
      Action.execute (.pointToGlyph x)
      Action.execute i : Action M Unit) m =
        pure (.ok (), (m.perform (.pointToGlyph x)).perform i) := by
  have hpoint : (Action.execute (.pointToGlyph x) : Action M Unit) m =
      pure (.ok (), m.perform (.pointToGlyph x)) :=
    Action.execute_apply _ fun _ => h.ready trivial
  have hbounded : (m.perform (.pointToGlyph x)).Bounded :=
    ⟨h.pc_le, h.stack, h.returns, h.awaited⟩
  have hindex : (m.perform (.pointToGlyph x)).index.toNat ≤ 0xFF0 := by
    have hv := (m.v.get x).toNat_lt
    rw [index_perform_pointToGlyph]
    omega
  rw [Action.bind_of_ok hpoint, Action.execute_apply _ fun _ => hbounded.ready hproper,
    fault?_of_index_le hindex hi hproper]
  rfl

/-! ### From one instruction to the next -/

/-- The machine runs, and its index points to the glyph of what is in a register. -/
structure PointsTo (m : Machine) (x : Register) : Prop where
  running : m.mode = .running
  index_eq : m.index.toNat = 5 * (m.v.get x).toNat

theorem PointsTo.index_le (h : m.PointsTo x) : m.index.toNat ≤ 0xFF0 := by
  have hv := (m.v.get x).toNat_lt
  rw [h.index_eq]
  omega

/-- Only an instruction takes the index elsewhere. Keys that are pressed do not get at the register,
because nothing waits for them; and a reset takes both to zero. -/
theorem PointsTo.transition (ht : m.Transition c r m') (h : m.PointsTo x)
    (hr : ∀ a i, r ≠ .stepped (.executed a i)) : m'.PointsTo x := by
  cases ht with
  | reset =>
    refine ⟨rfl, ?_⟩
    show 0 = 5 * ((Bank.zeros : Bank 16).get x).toNat
    rw [Bank.get_zeros]
    rfl
  | stepped hs =>
    cases hs with
    | executed => exact absurd rfl (hr _ _)
    | _ => exact ⟨h.running, h.index_eq⟩
  | resumed hk hm =>
    rw [h.running] at hm
    cases hm
  | _ => exact ⟨h.running, h.index_eq⟩

theorem pointsTo_of_executed {a : UInt16}
    (ht : m.Transition c (.stepped (.executed a (.pointToGlyph x))) m') : m'.PointsTo x := by
  cases ht with
  | stepped hs =>
    cases hs with
    | executed hm hw hd hf => exact ⟨hm, index_perform_pointToGlyph m.advance x⟩

/-- **The index points to a glyph** as long as the instruction that has taken it there is the last
one that has been executed. -/
theorem pointsTo_after {calls : List Call} {a : UInt16}
    (h : (m.executed calls).getLast? = some (a, .pointToGlyph x)) : (m.after calls).PointsTo x := by
  -- by the last call, which has executed that instruction or none
  induction calls using List.reverseRecOn with
  | nil => cases h
  | append_singleton cs c ih =>
    have ht := (m.after cs).call_transition c
    rw [after_concat]
    rw [executed_append] at h
    by_cases hlast : ∃ b i, ((m.after cs).call c).1 = .stepped (.executed b i)
    · obtain ⟨b, i, hr⟩ := hlast
      have hexecuted : (m.after cs).executed [c] = [(b, i)] := by
        rw [executed, outcomes, replies, hr]
        rfl
      rw [hexecuted, List.getLast?_concat, Option.some_inj] at h
      cases h
      exact pointsTo_of_executed (hr ▸ ht)
    · have hexecuted : (m.after cs).executed [c] = [] := by
        refine List.eq_nil_iff_forall_not_mem.mpr fun e he => hlast ⟨e.1, e.2, ?_⟩
        exact (List.mem_singleton.mp (mem_executed_iff.mp he)).symm
      rw [hexecuted, List.append_nil] at h
      exact (ih h).transition ht fun b i hr => hlast ⟨b, i, hr⟩

/-- A step executes what it finds, if nothing stands in the way. -/
theorem step_of_fetch (h : m.fetch = .instruction op i)
    (hf : i.Proper → m.advance.fault? i = none) :
    m.step = (.executed m.pc i, m.advance.perform i) := by
  unfold fetch at h
  cases hm : m.mode with
  | awaiting y => simp [hm] at h
  | running =>
    cases hw : m.memory.word m.pc.toNat with
    | error f => simp [hm, hw] at h
    | ok word =>
      cases hd : Instruction.decode word with
      | none => simp [hm, hw, hd] at h
      | some j =>
        obtain ⟨rfl, rfl⟩ : word = op ∧ j = i := by simpa [hm, hw, hd] using h
        exact steps_iff.mp (.executed hm hw hd (hf (Instruction.proper_of_decode hd)))

/-- **Digits are drawn as they are on the sheet.** Let a host make any calls of a new machine.
Whatever byte is then taken for a digit, the machine can point to its glyph, on every substrate, and
can then execute any instruction that moves a block from the index or to it, those that draw among
them. In the course of steps it can do so as long as the instruction that points to the glyph is the
last one that has been executed, whatever else has been called since.

If nothing has been written below `0x50` since the last reset, which programs that are loaded never
do, and the digit is one of the sixteen, then drawing five rows flips the pixels that are set in its
glyph, around the edges, and no others. -/
theorem glyphs_are_drawn (config : Config) (entropy : Random.Key) (calls : List Call) :
    let m := (new config entropy).after calls
    (∀ (n : Machine) (c : Call) (program : List UInt8) (w : Write),
      c = .load program ∨ c = .loadFile (some program) → n.written? c (n.call c).1 = some w →
      ∀ address < 0x50, w.byte? address = none) ∧
    (∀ x y z : Register, ∃ m' : Machine,
      (do
        Action.execute (.pointToGlyph x)
        Action.execute (.draw y z 5) : Action M Unit) m = pure (.ok (), m') ∧
      ((new config entropy).SparesFont calls → (m.v.get x).toNat ≤ 15 → ∀ c r,
        m'.screen.pixel c r = (m.screen.pixel c r ^^
          Screen.isOnGlyph (m.v.get x).toNat (m.v.get y).toNat (m.v.get z).toNat c r))) ∧
    (∀ (x : Register) (i : Instruction Register), i.movesBlock = true → i.Proper →
      ∃ m' : Machine,
        (do
          Action.execute (.pointToGlyph x)
          Action.execute i : Action M Unit) m = pure (.ok (), m')) ∧
    ∀ a x, ((new config entropy).executed calls).getLast? = some (a, .pointToGlyph x) →
      ∀ op i, m.fetch = .instruction op i → i.movesBlock = true →
        m.step.1 = .executed m.pc i ∧
        ∀ y z, i = .draw y z 5 → (new config entropy).SparesFont calls →
          (m.v.get x).toNat ≤ 15 → ∀ c r,
            m.step.2.screen.pixel c r = (m.screen.pixel c r ^^
              Screen.isOnGlyph (m.v.get x).toNat (m.v.get y).toNat (m.v.get z).toNat c r) := by
  intro m
  have hbounded : m.Bounded := bounded_after config entropy calls
  refine ⟨fun n c program w hc hw _ => byte?_of_load hc hw, fun x y z => ?_,
    fun x i hi hproper => ?_, fun a x hlast op i hfetch hi => ?_⟩
  · have hproper : (.draw y z 5 : Instruction Register).Proper :=
      (by decide : (5 : UInt8).toNat < 0x10)
    refine ⟨_, execute_after_pointToGlyph hbounded x rfl hproper, fun hspares hdigit c r => ?_⟩
    have hfont : (m.perform (.pointToGlyph x)).memory.HasFont := hasFont_after hspares
    exact pixel_perform_draw_glyph hfont hdigit (index_perform_pointToGlyph m x) y z c r
  · exact ⟨_, execute_after_pointToGlyph hbounded x hi hproper⟩
  · have hpoints : m.PointsTo x := pointsTo_after hlast
    have hindex : m.advance.index.toNat ≤ 0xFF0 := hpoints.index_le
    have hstep := step_of_fetch hfetch (fault?_of_index_le hindex hi)
    refine ⟨congrArg Prod.fst hstep, ?_⟩
    rintro y z rfl hspares hdigit c r
    have hfont : m.advance.memory.HasFont := hasFont_after hspares
    rw [hstep]
    exact pixel_perform_draw_glyph hfont hdigit hpoints.index_eq y z c r

set_option maxRecDepth 20000 in
/-- A machine is reset after its font has been written over, and then written to right above it. The
program points to the glyph of eleven, and before it is drawn around the lower right corner there is
a tick. To store all registers, 62 would do as a digit. -/
theorem eleven_around_corner :
    let calls : List Call :=
      [.poke 0x4F [1], .reset, .load [0x60, 0x0B, 0x61, 0x3E, 0x62, 0x1E, 0xF0, 0x29, 0xD1, 0x25],
        .poke 0x50 [0xFF], .step, .step, .step, .step, .tick]
    let m := (new { inclusive := false } (Random.Key.ofSeed 0)).after calls
    m.step.1 = .executed 0x208 (.draw 1 2 5) ∧
    m.step.2.screen.pixel 0 30 = true ∧ m.step.2.screen.pixel 1 30 = false ∧
    m.step.2.screen.pixel 1 31 = true ∧
    ∃ m', (do
      Action.execute (.pointToGlyph 1)
      Action.execute (.storeRegisters 15) : Action Option Unit) m = some (.ok (), m') := by
  intro calls m
  obtain ⟨hwrites, hlast, hfetch, hpc, hscreen, hv₀, hv₁, hv₂⟩ :
      (new { inclusive := false } (Random.Key.ofSeed 0)).writes calls =
        [⟨0x50, [0xFF]⟩,
          ⟨0x200, [0x60, 0x0B, 0x61, 0x3E, 0x62, 0x1E, 0xF0, 0x29, 0xD1, 0x25]⟩] ∧
      ((new { inclusive := false } (Random.Key.ofSeed 0)).executed calls).getLast? =
        some (0x206, .pointToGlyph 0) ∧
      m.fetch = .instruction 0xD125 (.draw 1 2 5) ∧ m.pc = 0x208 ∧ m.screen = .blank ∧
      m.v.get 0 = 11 ∧ m.v.get 1 = 62 ∧ m.v.get 2 = 30 := by
    decide +kernel
  have hspares : (new { inclusive := false } (Random.Key.ofSeed 0)).SparesFont calls := by
    rw [SparesFont, hwrites]
    decide
  obtain ⟨-, -, hmoves, hrun⟩ := glyphs_are_drawn (M := Option) { inclusive := false }
    (Random.Key.ofSeed 0) calls
  have hm : (new { inclusive := false } (Random.Key.ofSeed 0)).after calls = m := rfl
  rw [hm] at hmoves hrun
  clear_value m
  obtain ⟨hstep, hdraw⟩ := hrun _ _ hlast _ _ hfetch rfl
  have hpixel := hdraw 1 2 rfl hspares (by rw [hv₀]; decide)
  rw [hscreen, hv₀, hv₁, hv₂] at hpixel
  rw [hpc] at hstep
  exact ⟨hstep, (hpixel 0 30).trans (by decide +kernel), (hpixel 1 30).trans (by decide +kernel),
    (hpixel 1 31).trans (by decide +kernel), hmoves 1 (.storeRegisters 15) rfl trivial⟩

end Machine

end ChipEight
