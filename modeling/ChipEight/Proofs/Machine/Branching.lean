import ChipEight.Proofs.Machine.Bounds

/-!
# ChipEight.Proofs.Machine.Branching

**Which instructions lead elsewhere.** An instruction that is not marked as one that may branch
leaves the program counter alone, so the next one to be executed is the one after it
(`pc_perform_of_not_mayBranch`). Six of those that are marked pass over the next instruction if a
condition holds (`Machine.Skips`), and do nothing else. None is marked for nothing: for each there
is a machine that it takes elsewhere (`exists_pc_perform_ne`), but for the one that passes over the
next instruction unless a register is the same as itself. `branches_are_marked` says all of this of
`Action.execute`.
-/

namespace ChipEight

/-- Whether an instruction passes over the next one if a condition holds. -/
def Instruction.isSkip {ρ : Type} : Instruction ρ → Bool
  | .skipIfByte _ _ | .skipUnlessByte _ _ | .skipIfSame _ _ | .skipUnlessSame _ _
  | .skipIfPressed _ | .skipUnlessPressed _ => true
  | _ => false

/-- There is a key with the given code, and it is down. -/
def Keypad.Holds (p : Keypad) (code : UInt8) : Prop :=
  ∃ k : Key, k.code = code ∧ p.down.get k = true

theorem Keypad.isDown_iff_holds {p : Keypad} {code : UInt8} :
    p.isDown code = true ↔ p.Holds code := by
  constructor
  · intro h
    have hlt : code.toNat < 16 := by
      by_cases hlt : code.toNat < 16
      · exact hlt
      · rw [p.isDown_of_lt (by omega)] at h
        cases h
    obtain ⟨k, hk⟩ := Option.isSome_iff_exists.mp (Key.ofCode?_isSome_iff.mpr hlt)
    obtain rfl := Key.code_of_ofCode? hk
    exact ⟨k, rfl, (p.isDown_code k).symm.trans h⟩
  · rintro ⟨k, rfl, h⟩
    exact (p.isDown_code k).trans h

namespace Machine

/-- The conditions of the instructions that pass over the next one. -/
def Skips (m : Machine) : Instruction Register → Prop
  | .skipIfByte x kk => m.v.get x = kk
  | .skipUnlessByte x kk => m.v.get x ≠ kk
  | .skipIfSame x y => m.v.get x = m.v.get y
  | .skipUnlessSame x y => m.v.get x ≠ m.v.get y
  | .skipIfPressed x => m.keypad.Holds (m.v.get x)
  | .skipUnlessPressed x => ¬m.keypad.Holds (m.v.get x)
  | _ => False

variable {m : Machine} {i : Instruction Register}

/-! ### Straight on -/

theorem pc_perform_of_not_mayBranch (h : i.mayBranch = false) : (m.perform i).pc = m.pc := by
  cases i <;> first | rfl | cases h

theorem execute_eq (m : Machine) (i : Instruction Register) :
    Action.execute (M := Id) i m = Action.guarded (m.fault? i) m () (m.perform i) :=
  Action.execute_apply (M := Id) i (by simp)

theorem pc_execute_of_not_mayBranch (h : i.mayBranch = false) :
    (Action.execute (M := Id) i m).2.pc = m.pc := by
  rw [execute_eq]
  cases m.fault? i with
  | some f => rfl
  | none => exact pc_perform_of_not_mayBranch h

theorem pc_step_of_not_mayBranch {a : UInt16} (hs : m.step.1 = .executed a i)
    (h : i.mayBranch = false) : m.step.2.pc.toNat = m.pc.toNat + 2 := by
  have ht := m.step_steps
  rw [hs] at ht
  generalize m.step.2 = m' at ht ⊢
  cases ht with
  | executed hm hw hd hf =>
    rw [pc_perform_of_not_mayBranch h]
    exact (pc_advance hw).1

/-! ### Over the next one -/

theorem add_two_ne (a : UInt16) : a + 2 ≠ a := by
  intro h
  have hnat := congrArg UInt16.toNat h
  have ha := a.toNat_lt
  rw [UInt16.toNat_add] at hnat
  simp at hnat
  omega

theorem perform_of_isSkip (m : Machine) (h : i.isSkip = true) :
    ∃ condition : Bool, m.perform i = m.passOver condition ∧ (condition = true ↔ m.Skips i) := by
  cases i with
  | skipIfByte x kk => exact ⟨_, rfl, decide_eq_true_iff⟩
  | skipUnlessByte x kk => exact ⟨_, rfl, decide_eq_true_iff⟩
  | skipIfSame x y => exact ⟨_, rfl, decide_eq_true_iff⟩
  | skipUnlessSame x y => exact ⟨_, rfl, decide_eq_true_iff⟩
  | skipIfPressed x => exact ⟨_, rfl, Keypad.isDown_iff_holds⟩
  | skipUnlessPressed x =>
    refine ⟨_, rfl, ?_⟩
    rw [Bool.not_eq_true', ← Bool.not_eq_true]
    exact not_congr Keypad.isDown_iff_holds
  | _ => cases h

theorem fault?_of_isSkip (m : Machine) (h : i.isSkip = true) : m.fault? i = none := by
  cases i <;> first | rfl | cases h

theorem pc_perform_eq_add_two_iff (m : Machine) (h : i.isSkip = true) :
    (m.perform i).pc = m.pc + 2 ↔ m.Skips i := by
  obtain ⟨condition, hperform, hskips⟩ := m.perform_of_isSkip h
  rw [hperform, ← hskips, passOver]
  cases condition with
  | false => simp [(add_two_ne m.pc).symm]
  | true => simp

theorem pc_perform_eq_iff (m : Machine) (h : i.isSkip = true) :
    (m.perform i).pc = m.pc ↔ ¬m.Skips i := by
  obtain ⟨condition, hperform, hskips⟩ := m.perform_of_isSkip h
  rw [hperform, ← hskips, passOver]
  cases condition with
  | false => simp
  | true => simp [add_two_ne m.pc]

/-- A skip does nothing but to pass over the next instruction if its condition holds. -/
theorem execute_of_isSkip (m : Machine) (h : i.isSkip = true) :
    ∃ pc, Action.execute (M := Id) i m = (.ok (), { m with pc := pc }) ∧
      (pc = m.pc + 2 ↔ m.Skips i) ∧ (pc = m.pc ↔ ¬m.Skips i) := by
  refine ⟨(m.perform i).pc, ?_, m.pc_perform_eq_add_two_iff h, m.pc_perform_eq_iff h⟩
  obtain ⟨condition, hperform, -⟩ := m.perform_of_isSkip h
  rw [execute_eq, m.fault?_of_isSkip h, hperform]
  rfl

/-! ### Elsewhere -/

section Standing

variable (config : Config) (random : Random.Stream) (pc : UInt16) (v : Bank 16) (keypad : Keypad)

/-- A machine that has just been switched on, but for how it is set up, where it has got to, its
registers and its keys. -/
def standing : Machine :=
  { switchedOn {} random with config := config, pc := pc, v := v, keypad := keypad }

theorem bounded_standing (h : pc.toNat ≤ 0x10FE) :
    (standing config random pc v keypad).Bounded where
  pc_le := h
  stack := ReturnStack.fits_empty _
  returns := by
    intro a ha
    cases ha
  awaited x _ := x.isLt

end Standing

theorem toNat_add_two_le {a : UInt16} (h : a.toNat < 0x1000) : (a + 2).toNat ≤ 0x10FE := by
  rw [UInt16.toNat_add]
  simp
  omega

/-- For every instruction that is marked there is a machine that it takes elsewhere, however
machines are set up. -/
theorem exists_pc_perform_ne (config : Config) (random : Random.Stream) (hi : i.Proper)
    (h : i.mayBranch = true) (hself : ∀ x, i ≠ .skipUnlessSame x x) :
    ∃ m : Machine, m.config = config ∧ m.random = random ∧ m.Bounded ∧ m.fault? i = none ∧
      (m.perform i).pc ≠ m.pc := by
  have hat (pc : UInt16) (hpc : pc.toNat ≤ 0x10FE) (v : Bank 16) (keypad : Keypad) :=
    bounded_standing config random pc v keypad hpc
  have hskip (v : Bank 16) (keypad : Keypad) (hs : i.isSkip = true)
      (hc : (standing config random 0x200 v keypad).Skips i) :
      ∃ m : Machine, m.config = config ∧ m.random = random ∧ m.Bounded ∧ m.fault? i = none ∧
        (m.perform i).pc ≠ m.pc :=
    ⟨_, rfl, rfl, hat 0x200 (by decide) v keypad, fault?_of_isSkip _ hs,
      fun hpc => (pc_perform_eq_iff _ hs).mp hpc hc⟩
  have hset (x : Register) (b : UInt8) : ((Bank.zeros : Bank 16).set x b).get x = b :=
    Vector.getElem_set_self x.isLt
  cases i with
  | ret =>
    -- a call is open that has led from `0x200` to `0x300`
    have hcall : ((standing config random 0x200 .zeros .released).perform (.call 0x300)).Bounded :=
      (hat 0x200 (by decide) .zeros .released).perform (by decide : 2 ≤ (0x200 : UInt16).toNat)
        (by decide : (0x200 : UInt16).toNat ≤ 0x1000) (by decide : (0x300 : UInt16).toNat < 0x1000)
        rfl
    exact ⟨_, rfl, rfl, hcall, rfl, (by decide : (0x200 : UInt16) ≠ 0x300)⟩
  | jump nnn =>
    exact ⟨_, rfl, rfl, hat (nnn + 2) (toNat_add_two_le hi) .zeros .released, rfl,
      (add_two_ne nnn).symm⟩
  | call nnn =>
    exact ⟨_, rfl, rfl, hat (nnn + 2) (toNat_add_two_le hi) .zeros .released, rfl,
      (add_two_ne nnn).symm⟩
  | jumpPlus nnn =>
    have htarget :
        ((standing config random (nnn + 2) .zeros .released).perform (.jumpPlus nnn)).pc = nnn := by
      simp [perform, jumpBy, standing, Bank.zeros]
    refine ⟨_, rfl, rfl, hat (nnn + 2) (toNat_add_two_le hi) .zeros .released, rfl, ?_⟩
    rw [htarget]
    exact (add_two_ne nnn).symm
  | skipIfByte x kk => exact hskip (Bank.zeros.set x kk) .released rfl (hset x kk)
  | skipUnlessByte x kk =>
    refine hskip (Bank.zeros.set x (kk + 1)) .released rfl ?_
    show ((Bank.zeros : Bank 16).set x (kk + 1)).get x ≠ kk
    rw [hset]
    simp
  | skipIfSame x y =>
    exact hskip .zeros .released rfl ((Bank.get_zeros x).trans (Bank.get_zeros y).symm)
  | skipUnlessSame x y =>
    have hxy : x ≠ y := by
      rintro rfl
      exact hself x rfl
    refine hskip (Bank.zeros.set x 1) .released rfl ?_
    show ((Bank.zeros : Bank 16).set x 1).get x ≠ ((Bank.zeros : Bank 16).set x 1).get y
    have hy : ((Bank.zeros : Bank 16).set x 1).get y = 0 :=
      (Vector.getElem_set_ne x.isLt y.isLt fun h => hxy (Fin.ext h)).trans (Bank.get_zeros y)
    rw [hset, hy]
    decide
  | skipIfPressed x =>
    refine hskip .zeros (.set .released 0 true) rfl ?_
    show ((Keypad.released.set 0 true)).Holds ((Bank.zeros : Bank 16).get x)
    rw [Bank.get_zeros]
    exact ⟨0, rfl, rfl⟩
  | skipUnlessPressed x =>
    refine hskip .zeros .released rfl ?_
    show ¬Keypad.released.Holds ((Bank.zeros : Bank 16).get x)
    rw [← Keypad.isDown_iff_holds, Keypad.isDown_released]
    decide
  | _ => cases h

/-- **The mark of a branch is right, and no wider than it has to be.** An instruction without it
leaves the program counter where it is, so a step that executes it goes on by two. A skip goes on by
two or does nothing, as its condition has it. Whatever is decoded with the mark takes some machine
elsewhere, however machines are set up, on a substrate that checks and so on all of them; but not
the skip that asks whether a register differs from itself, which never does anything. -/
theorem branches_are_marked (i : Instruction Register) :
    (i.mayBranch = false → ∀ m : Machine, (Action.execute (M := Id) i m).2.pc = m.pc ∧
      ∀ a, m.step.1 = .executed a i → m.step.2.pc.toNat = m.pc.toNat + 2) ∧
    (i.isSkip = true → ∀ m : Machine,
      ∃ pc, Action.execute (M := Id) i m = (.ok (), { m with pc := pc }) ∧
        (pc = m.pc + 2 ↔ m.Skips i) ∧ (pc = m.pc ↔ ¬m.Skips i)) ∧
    (∀ op, Instruction.decode op = some i → i.mayBranch = true →
      (∀ x, i ≠ .skipUnlessSame x x) → ∀ (config : Config) (random : Random.Stream),
      ∃ m m' : Machine, m.config = config ∧ m.random = random ∧ m.Bounded ∧
        (Action.execute i : Action Option Unit) m = some (.ok (), m') ∧ m'.pc ≠ m.pc) ∧
    ∀ x, i = .skipUnlessSame x x →
      ∀ m : Machine, Action.execute (M := Id) i m = (.ok (), m) := by
  refine ⟨fun h m => ⟨pc_execute_of_not_mayBranch h, fun a hs => pc_step_of_not_mayBranch hs h⟩,
    fun h m => m.execute_of_isSkip h, ?_, ?_⟩
  · intro op hd h hself config random
    have hproper := Instruction.proper_of_decode hd
    obtain ⟨m, hconfig, hrandom, hb, hf, hpc⟩ :=
      exists_pc_perform_ne config random hproper h hself
    have hready : m.Ready i :=
      ⟨hb.stack, by have := hb.pc_le; rw [UInt16.size]; omega, hproper⟩
    refine ⟨m, m.perform i, hconfig, hrandom, hb, ?_, hpc⟩
    rw [Action.execute_apply i fun _ => hready, hf]
    rfl
  · rintro x rfl m
    obtain ⟨pc, hexecute, -, hpc⟩ := m.execute_of_isSkip (i := .skipUnlessSame x x) rfl
    rw [hexecute, hpc.mpr (fun h => h rfl)]

/-- Adding to a register goes on; the key `0x21`, which there is none of, is passed over as one that
is not down, even around the end of the program counter; and a machine returns that has been set up
for no calls. -/
theorem branching_examined :
    let random := Random.Stream.ofKey (Random.Key.ofSeed 0)
    let m := (new {} (Random.Key.ofSeed 0)).after [.load [0x73, 0x01]]
    let w := standing {} random 0xFFFE (.replicate 16 0x21) (.set .released 1 true)
    m.step.2.pc.toNat = 0x202 ∧
    Action.execute (M := Id) (.skipUnlessPressed 1) w = (.ok (), { w with pc := 0 }) ∧
    Instruction.decode 0x00EE = some .ret ∧
    ∃ n n' : Machine, n.config = { callDepth := 0 } ∧ n.random = random ∧ n.Bounded ∧
      (Action.execute .ret : Action Option Unit) n = some (.ok (), n') ∧ n'.pc ≠ n.pc := by
  intro random m w
  refine ⟨?_, ?_, rfl,
    (branches_are_marked .ret).2.2.1 0x00EE rfl rfl (fun x => by simp) { callDepth := 0 } random⟩
  · exact ((branches_are_marked (.addByte 3 1)).1 rfl m).2 0x200 (by decide +kernel)
  · obtain ⟨pc, hexecute, hpc, -⟩ := (branches_are_marked (.skipUnlessPressed 1)).2.1 rfl w
    have hskips : w.Skips (.skipUnlessPressed 1) := by
      show ¬w.keypad.Holds 0x21
      rw [← Keypad.isDown_iff_holds]
      decide
    have hpast : w.pc + 2 = 0 := by decide
    rw [hexecute, hpc.mpr hskips, hpast]

end Machine

end ChipEight
