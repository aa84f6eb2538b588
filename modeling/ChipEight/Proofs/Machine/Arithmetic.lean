import ChipEight.Machine.Call
import ChipEight.Proofs.Machine.Effect

/-!
# ChipEight.Proofs.Machine.Arithmetic

**Arithmetic with a flag.** Five instructions put a result into `Vx` and a flag into `VF`. The table
`Instruction.computes?` says in numbers what they compute, and `execute_of_computes` that they do
so, whichever of the registers are the same. Both are computed from the registers as they are before,
and the flag goes first, so that an instruction on `VF` itself keeps its result and loses the flag.
-/

namespace ChipEight

/-- A result and a flag to be computed. -/
structure Computation where
  /-- The register that the result goes to. -/
  target : Register
  result : Int
  flag : Bool

/-- What an instruction computes that has a flag, where `v` are the numbers in the registers.
Results are taken modulo 256. The flag of a sum is its carry, that of a difference says that it is
positive, and that of a shift is the bit that is lost. -/
def Instruction.computes? (v : Register → Nat) : Instruction Register → Option Computation
  | .add x y => some ⟨x, (v x + v y) % 256, 255 < v x + v y⟩
  | .subtract x y => some ⟨x, (v x - v y) % 256, v y < v x⟩
  | .subtractFrom x y => some ⟨x, (v y - v x) % 256, v x < v y⟩
  | .shiftRight x _ => some ⟨x, v x / 2, v x % 2 = 1⟩
  | .shiftLeft x _ => some ⟨x, (2 * v x) % 256, 255 < 2 * v x⟩
  | _ => none

namespace Machine

/-- The number in a register. -/
def number (m : Machine) (x : Register) : Nat :=
  (m.v.get x).toNat

/-! ### Bytes as numbers -/

theorem toNat_sub_emod (a b : UInt8) :
    ((a - b).toNat : Int) = ((a.toNat : Int) - b.toNat) % 256 := by
  have ha := a.toNat_lt
  have hb := b.toNat_lt
  rw [UInt8.toNat_sub]
  omega

theorem lost_low_bit (a : UInt8) : decide (a % 2 = 1) = decide (a.toNat % 2 = 1) := by
  rw [decide_eq_decide, ← UInt8.toNat_inj]
  rfl

theorem lost_high_bit (a : UInt8) : decide (128 ≤ a) = decide (255 < 2 * a.toNat) := by
  rw [decide_eq_decide, UInt8.le_iff_toNat_le, show (128 : UInt8).toNat = 128 from rfl]
  omega

/-! ### Computing -/

variable {m : Machine} {i : Instruction Register} {e : Computation}

theorem toNat_toUInt8 (b : Bool) : b.toUInt8.toNat = b.toNat := by
  cases b <;> rfl

variable {M : Type → Type} [Monad M] [LawfulMonad M] [Substrate M]

theorem execute_of_computes (h : i.computes? m.number = some e) :
    ∃ b : UInt8, (b.toNat : Int) = e.result ∧
      (Action.execute i : Action M Unit) m = pure (.ok (), m.setFlagged e.target b e.flag) := by
  cases i with
  | add x y =>
    cases h
    refine ⟨m.v.get x + m.v.get y, by simp [number], ?_⟩
    rw [Action.execute, Action.register_bind, Action.register_bind, Action.setFlagged_apply]
    rfl
  | subtract x y =>
    cases h
    refine ⟨m.v.get x - m.v.get y, toNat_sub_emod _ _, ?_⟩
    rw [Action.execute, Action.register_bind, Action.register_bind, Action.setFlagged_apply]
    rfl
  | subtractFrom x y =>
    cases h
    refine ⟨m.v.get y - m.v.get x, toNat_sub_emod _ _, ?_⟩
    rw [Action.execute, Action.register_bind, Action.register_bind, Action.setFlagged_apply]
    rfl
  | shiftRight x y =>
    cases h
    refine ⟨m.v.get x / 2, by simp [number], ?_⟩
    rw [Action.execute, Action.register_bind, Action.setFlagged_apply, lost_low_bit]
    rfl
  | shiftLeft x y =>
    cases h
    refine ⟨m.v.get x + m.v.get x, by simp [number]; omega, ?_⟩
    rw [Action.execute, Action.register_bind, Action.setFlagged_apply, lost_high_bit]
    rfl
  | _ => cases h

/-! ### Results and flags together -/

theorem carry_and_sum {a b : Nat} (ha : a < 256) (hb : b < 256) :
    256 * (decide (255 < a + b)).toNat + (a + b) % 256 = a + b := by
  by_cases h : 255 < a + b
  · simp only [h, decide_true, Bool.toNat_true]
    omega
  · simp only [h, decide_false, Bool.toNat_false]
    omega

theorem half_and_rest (a : Nat) : 2 * (a / 2) + (decide (a % 2 = 1)).toNat = a := by
  by_cases h : a % 2 = 1
  · simp only [h, decide_true, Bool.toNat_true]
    omega
  · simp only [h, decide_false, Bool.toNat_false]
    omega

/-- **Arithmetic with a flag** on any registers, the same one twice or `VF` among them. Each of the
five instructions ends without a fault. The result is in its register. If that is not `VF`, the flag
is in `VF`, and otherwise the flag is lost. Nothing else changes. So the flag of a sum and of a
doubling is the ninth bit of what is in the register, and that of a halving the rest. -/
theorem flagged_arithmetic (m : Machine) (i : Instruction Register) (e : Computation)
    (h : i.computes? m.number = some e) :
    ∃ m' : Machine,
      (Action.execute i : Action M Unit) m = pure (.ok (), m') ∧ m' = { m with v := m'.v } ∧
      m'.number e.target = e.result ∧
      (e.target ≠ .flag → m'.number .flag = e.flag.toNat) ∧
      (∀ z, z ≠ e.target → z ≠ .flag → m'.number z = m.number z) ∧
      (∀ x y, i = .add x y → x ≠ .flag →
        256 * m'.number .flag + m'.number x = m.number x + m.number y) ∧
      (∀ x y, i = .shiftLeft x y → x ≠ .flag →
        256 * m'.number .flag + m'.number x = 2 * m.number x) ∧
      ∀ x y, i = .shiftRight x y → x ≠ .flag →
        2 * m'.number x + m'.number .flag = m.number x := by
  obtain ⟨b, hb, hexecute⟩ := execute_of_computes (M := M) h
  let m' := m.setFlagged e.target b e.flag
  have hlt (z : Register) : m.number z < 256 := (m.v.get z).toNat_lt
  have hresult : m'.number e.target = b.toNat := by
    rw [number, get_setFlagged, if_pos rfl]
  have hflag (hne : e.target ≠ .flag) : m'.number .flag = e.flag.toNat := by
    rw [number, get_setFlagged, if_neg hne.symm, if_pos rfl, toNat_toUInt8]
  refine ⟨m', hexecute, rfl, (congrArg Int.ofNat hresult).trans hb, hflag, fun z hz hzf => ?_, ?_,
    ?_, ?_⟩
  · rw [number, get_setFlagged, if_neg hz, if_neg hzf, number]
  · rintro x y rfl hx
    cases h
    have hsum : b.toNat = (m.number x + m.number y) % 256 := Int.ofNat.inj hb
    rw [hflag hx, hresult, hsum]
    exact carry_and_sum (hlt x) (hlt y)
  · rintro x y rfl hx
    cases h
    have hsum : b.toNat = 2 * m.number x % 256 := Int.ofNat.inj hb
    rw [hflag hx, hresult, hsum, Nat.two_mul]
    exact carry_and_sum (hlt x) (hlt x)
  · rintro x y rfl hx
    cases h
    have hhalf : b.toNat = m.number x / 2 := Int.ofNat.inj hb
    rw [hflag hx, hresult, hhalf]
    exact half_and_rest (m.number x)

set_option maxRecDepth 20000 in
/-- Two hundred and one hundred are added, one of them in `VF`. If the sum goes there, its carry is
lost, and otherwise it is found there. -/
theorem sums_with_flag_register :
    let m := (new {} (Random.Key.ofSeed 0)).after [.load [0x6F, 0xC8, 0x61, 0x64], .step, .step]
    (∃ m', (Action.execute (.add 15 1) : Action Option Unit) m = some (.ok (), m') ∧
      m'.number 15 = 44 ∧ m'.number 1 = 100) ∧
    ∃ m', (Action.execute (.add 1 15) : Action Option Unit) m = some (.ok (), m') ∧
      m'.number 1 = 44 ∧ m'.number 15 = 1 := by
  intro m
  obtain ⟨hflag, hother⟩ : m.number 15 = 200 ∧ m.number 1 = 100 := by decide +kernel
  obtain ⟨m₁, hexecute₁, -, hsum₁, -, hrest₁, -⟩ :=
    flagged_arithmetic (M := Option) m (.add 15 1) _ rfl
  obtain ⟨m₂, hexecute₂, -, hsum₂, hcarry₂, -⟩ :=
    flagged_arithmetic (M := Option) m (.add 1 15) _ rfl
  rw [hflag, hother] at hsum₁ hsum₂ hcarry₂
  exact ⟨⟨m₁, hexecute₁, Int.ofNat.inj hsum₁, (hrest₁ 1 (by decide) (by decide)).trans hother⟩,
    m₂, hexecute₂, Int.ofNat.inj hsum₂, hcarry₂ (by decide)⟩

end Machine

end ChipEight
