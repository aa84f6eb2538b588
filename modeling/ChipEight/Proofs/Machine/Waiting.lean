import ChipEight.Proofs.Machine.Footprint
import ChipEight.Proofs.Machine.Trace

/-!
# ChipEight.Proofs.Machine.Waiting

**Waiting for a key.** A wait begins with the one instruction that asks for a key, and it ends when
a key is pressed or the machine is reset. Whatever else the host does meanwhile, the machine stands
still (`StandsStill`): its steps do nothing at all, and of its parts only those can change that a
host gets at without a step. The press that ends the wait does no more than to put the key down and
its code where it is waited for.
-/

namespace ChipEight

/-- Whether a call ends the wait for a key: a reset does, and so does pressing any key. -/
def Call.endsWait : Call → Bool
  | .reset => true
  | .input code true => code.toNat < 16
  | _ => false

theorem Call.endsWait_iff {c : Call} : c.endsWait = true ↔
    c = .reset ∨ ∃ code, c = .input code true ∧ code.toNat ≤ 15 := by
  cases c with
  | input code isDown => cases isDown <;> simp [endsWait]; omega
  | _ => simp [endsWait]

namespace Machine

variable {m m' m'' : Machine} {c : Call} {r : Reply} {x : Register}

/-! ### The beginning and the end -/

/-- A step of a machine that runs makes it wait exactly if it asks for a key. -/
theorem mode_iff_of_steps {o : Outcome} (hs : m.Steps o m') (hm : m.mode = .running) :
    m'.mode = .awaiting x ↔ ∃ a, o = .executed a (.waitForKey x) := by
  cases hs with
  | suspended hy =>
    rw [hm] at hy
    cases hy
  | @executed op i =>
    have hmode : (m.advance.perform i).mode = i.awaited?.elim .running .awaiting :=
      hm ▸ mode_perform m.advance i
    rw [hmode]
    cases hi : i.awaited? <;> simp [← Instruction.awaited?_eq_some_iff, hi]
  | _ => simp [advance, hm]

/-- Only a step makes the machine wait, with an instruction that asks for a key. -/
theorem wait_begins (ht : m.Transition c r m') (hm : m.mode = .running)
    (hm' : m'.mode = .awaiting x) :
    c = .step ∧ r = .stepped (.executed m.pc (.waitForKey x)) ∧ m'.pc = m.pc + 2 := by
  cases ht with
  | stepped hs =>
    obtain ⟨a, rfl⟩ := (mode_iff_of_steps hs hm).mp hm'
    cases hs
    exact ⟨rfl, rfl, rfl⟩
  | reset => cases hm'
  | resumed hk hx => cases hm'
  | _ =>
    -- no other call gets at the mode
    cases hm.symm.trans hm'

/-! ### Meanwhile -/

/-- What a host cannot get at without a step or the end of a wait is the same. -/
structure StandsStill (m m' : Machine) : Prop where
  mode_eq : m'.mode = m.mode
  v_eq : m'.v = m.v
  index_eq : m'.index = m.index
  pc_eq : m'.pc = m.pc
  stack_eq : m'.stack = m.stack
  screen_eq : m'.screen = m.screen
  random_eq : m'.random = m.random
  config_eq : m'.config = m.config

theorem StandsStill.refl (m : Machine) : m.StandsStill m :=
  ⟨rfl, rfl, rfl, rfl, rfl, rfl, rfl, rfl⟩

theorem StandsStill.trans (h : m.StandsStill m') (h' : m'.StandsStill m'') :
    m.StandsStill m'' where
  mode_eq := h'.mode_eq.trans h.mode_eq
  v_eq := h'.v_eq.trans h.v_eq
  index_eq := h'.index_eq.trans h.index_eq
  pc_eq := h'.pc_eq.trans h.pc_eq
  stack_eq := h'.stack_eq.trans h.stack_eq
  screen_eq := h'.screen_eq.trans h.screen_eq
  random_eq := h'.random_eq.trans h.random_eq
  config_eq := h'.config_eq.trans h.config_eq

theorem step_of_awaiting (hm : m.mode = .awaiting x) : m.step = (.suspended, m) :=
  steps_iff.mp (.suspended hm)

/-- Only a machine that waits for a key is found suspended. -/
theorem suspended_iff : m.step.1 = .suspended ↔ ∃ x, m.mode = .awaiting x := by
  constructor
  · intro h
    have hs := m.step_steps
    rw [h] at hs
    generalize m.step.2 = m' at hs
    cases hs with
    | suspended hm => exact ⟨_, hm⟩
  · rintro ⟨x, hm⟩
    rw [step_of_awaiting hm]

/-- A machine whose steps do nothing stands still, if it is not reset and does not cease to wait. -/
theorem standsStill_of_idle (ht : m.Transition c r m') (hidle : m.step.2 = m) (hc : c ≠ .reset)
    (hwait : m.mode = .running ∨ c.endsWait = false) : m.StandsStill m' := by
  cases ht with
  | reset => exact absurd rfl hc
  | stepped hs =>
    rw [steps_iff.mp hs] at hidle
    exact hidle ▸ .refl _
  | @resumed code k y hk hy =>
    -- the key that is pressed is one that there is
    have hcode : code.toNat < 16 := Key.ofCode?_isSome_iff.mp (by rw [hk]; rfl)
    rcases hwait with hm | hends
    · rw [hm] at hy
      cases hy
    · simp [Call.endsWait, hcode] at hends
  | _ => exact ⟨rfl, rfl, rfl, rfl, rfl, rfl, rfl, rfl⟩

theorem standsStill_of_transition (ht : m.Transition c r m') (hm : m.mode = .awaiting x)
    (hc : c.endsWait = false) : m.StandsStill m' := by
  refine standsStill_of_idle ht (by rw [step_of_awaiting hm]) ?_ (.inr hc)
  rintro rfl
  cases hc

/-- A machine that waits for a key stands still until the wait is ended. -/
theorem standsStill_after (hm : m.mode = .awaiting x) {calls : List Call}
    (h : ∀ c ∈ calls, c.endsWait = false) : m.StandsStill (m.after calls) := by
  induction calls generalizing m with
  | nil => exact .refl m
  | cons c cs ih =>
    have hcall := standsStill_of_transition (m.call_transition c) hm (h c List.mem_cons_self)
    exact hcall.trans (ih (hcall.mode_eq.trans hm) fun d hd => h d (List.mem_cons_of_mem c hd))

/-- A call after which the machine does not wait any more is one that ends waits. -/
theorem endsWait_of_transition (ht : m.Transition c r m') (hm : m.mode = .awaiting x)
    (hm' : m'.mode = .running) : c.endsWait = true := by
  cases hc : c.endsWait with
  | true => rfl
  | false =>
    have hmode := (standsStill_of_transition ht hm hc).mode_eq
    rw [hm, hm'] at hmode
    cases hmode

/-! ### The press that is waited for -/

/-- Pressing a key changes three things about a machine that waits for one. -/
theorem call_press_of_awaiting (hm : m.mode = .awaiting x) (k : Key) :
    m.call (.input k.code true) =
      (.done, { m with
        keypad := m.keypad.set k true, v := m.v.set x k.code x.isLt, mode := .running }) :=
  transition_iff.mp (.resumed (Key.ofCode?_code k) hm)

/-- A step of a machine that does not wait goes for the instruction at the program counter. -/
theorem step_of_running (hm : m.mode = .running) :
    (∃ f, m.step.1 = .failed f) ∨ ∃ op i, m.memory.word m.pc.toNat = .ok op ∧
      Instruction.decode op = some i ∧ m.step.1 = .executed m.pc i := by
  have hs := m.step_steps
  generalize m.step = stepped at hs ⊢
  obtain ⟨o, m'⟩ := stepped
  cases hs with
  | suspended hx =>
    rw [hm] at hx
    cases hx
  | executed _ hw hd _ => exact .inr ⟨_, _, hw, hd, rfl⟩
  | _ => exact .inl ⟨_, rfl⟩

/-- **Waiting for a key.** After any calls of the host: the machine begins to wait only by a step
that executes an instruction asking for a key, and ceases to only by a reset or the press of a key.
As long as neither happens it stands still, and its steps do nothing at all. The first press of a
key then puts the key down and its code into the register it is waited for in, and nothing else
changes but that the machine runs: the next step goes for the instruction that it has been waiting
before. -/
theorem key_wait (config : Config) (entropy : Random.Key) (calls : List Call) :
    let m := (new config entropy).after calls
    (∀ c x, m.mode = .running → (m.call c).2.mode = .awaiting x →
      c = .step ∧ (m.call c).1 = .stepped (.executed m.pc (.waitForKey x)) ∧
        (m.call c).2.pc = m.pc + 2) ∧
    (∀ c x, m.mode = .awaiting x → (m.call c).2.mode = .running →
      c = .reset ∨ ∃ code, c = .input code true ∧ code.toNat ≤ 15) ∧
    ∀ x, m.mode = .awaiting x → ∀ meanwhile : List Call,
      (∀ c ∈ meanwhile, c ≠ .reset ∧ ∀ code, c = .input code true → 15 < code.toNat) →
      let w := m.after meanwhile
      m.StandsStill w ∧
      (∀ before, before <+: meanwhile →
        (m.after before).call .step = (.stepped .suspended, m.after before)) ∧
      ∀ k : Key,
        let resumed :=
          { w with keypad := w.keypad.set k true, v := w.v.set x k.code x.isLt, mode := .running }
        w.call (.input k.code true) = (.done, resumed) ∧ resumed.pc = m.pc ∧
        ((∃ f, resumed.step.1 = .failed f) ∨
          ∃ op i, resumed.memory.word m.pc.toNat = .ok op ∧ Instruction.decode op = some i ∧
            resumed.step.1 = .executed m.pc i) := by
  intro m
  refine ⟨fun c x => wait_begins (m.call_transition c), fun c x hm hm' => ?_, ?_⟩
  · exact Call.endsWait_iff.mp (endsWait_of_transition (m.call_transition c) hm hm')
  · intro x hm meanwhile h w
    have hends : ∀ c ∈ meanwhile, c.endsWait = false := by
      intro c hc
      rw [Bool.eq_false_iff, ne_eq, Call.endsWait_iff]
      rintro (rfl | ⟨code, rfl, hcode⟩)
      · exact (h _ hc).1 rfl
      · exact absurd ((h _ hc).2 code rfl) (by omega)
    have hstill : m.StandsStill w := standsStill_after hm hends
    refine ⟨hstill, ?_, ?_⟩
    · intro before hbefore
      have hb := standsStill_after hm fun c hc => hends c (hbefore.subset hc)
      exact transition_iff.mp (.stepped (.suspended (hb.mode_eq.trans hm)))
    · intro k resumed
      have hpc : resumed.pc = m.pc := hstill.pc_eq
      refine ⟨call_press_of_awaiting (hstill.mode_eq.trans hm) k, hpc, ?_⟩
      rw [← hpc]
      exact step_of_running rfl

set_option maxRecDepth 20000 in
/-- A program is overwritten where it waits, and goes on with what has been written there. -/
theorem overwritten_while_waiting :
    let m := (new {} (Random.Key.ofSeed 0)).after [.load [0xF1, 0x0A, 0x62, 0x34], .step]
    let w := m.after [.step, .tick, .input 7 false, .input 16 true, .poke 0x202 [0x00, 0xE0]]
    m.mode = .awaiting 1 ∧
    w.call (.input 7 true) =
      (.done, { w with
        keypad := w.keypad.set 7 true, v := w.v.set 1 7 (by decide), mode := .running }) := by
  intro m w
  have hm : m.mode = .awaiting 1 := by decide +kernel
  exact ⟨hm, (((key_wait {} (Random.Key.ofSeed 0) [.load [0xF1, 0x0A, 0x62, 0x34], .step]).2.2 1 hm
    [.step, .tick, .input 7 false, .input 16 true, .poke 0x202 [0x00, 0xE0]] (by simp)).2.2 7).1⟩

end Machine

end ChipEight
