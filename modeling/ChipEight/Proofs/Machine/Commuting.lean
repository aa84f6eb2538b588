import ChipEight.Proofs.Machine.History
import ChipEight.Proofs.Machine.KeyMoves
import ChipEight.Proofs.Machine.Waiting

/-!
# ChipEight.Proofs.Machine.Commuting

**Calls that get at different parts of a machine commute.** A tick gets at the timers and moving a
key at the keypad, and a step at either only if its instruction does. So it makes no difference
which of two such calls comes first (`calls_commute`). Pressing a key is the exception: it also ends
a wait, so it has to do with every step that waits or begins to.
-/

namespace ChipEight

/-- Whether an instruction reads a timer or starts one. -/
def Instruction.usesTimer {ρ : Type} : Instruction ρ → Bool
  | .getDelay _ | .startDelay _ | .startSound _ => true
  | _ => false

/-- Whether an instruction asks whether a key is down. -/
def Instruction.testsKey {ρ : Type} : Instruction ρ → Bool
  | .skipIfPressed _ | .skipUnlessPressed _ => true
  | _ => false

namespace Machine

/-- Which of two calls comes first makes no difference, neither to what the host hears of them nor
to the machine afterwards. -/
structure Commute (m : Machine) (c d : Call) : Prop where
  first_eq : ((m.call d).2.call c).1 = (m.call c).1
  second_eq : ((m.call c).2.call d).1 = (m.call d).1
  after_eq : m.after [c, d] = m.after [d, c]

variable {m m' : Machine} {c d : Call} {r s : Reply} {i : Instruction Register}

/-- Calls commute if each is answered the same after the other and both orders meet. -/
theorem commute_of_calls {m₁ m₂ n : Machine} (hc : m.call c = (r, m₁)) (hd : m.call d = (s, m₂))
    (hc' : m₂.call c = (r, n)) (hd' : m₁.call d = (s, n)) : m.Commute c d where
  first_eq := by rw [hd, hc, hc']
  second_eq := by rw [hc, hd, hd']
  after_eq := by
    simp only [after_cons, after_nil]
    rw [hc, hd, hc', hd']

/-- A call that is refused whenever it is made commutes with all others. -/
theorem commute_of_refused {f : Fault} (hf : c.fault? = some f) : m.Commute c d := by
  have hcall (n : Machine) : n.call c = (.refused f, n) := transition_iff.mp (.refused hf)
  exact commute_of_calls (hcall m) rfl (hcall _) rfl

/-! ### Steps -/

/-- A step does not notice a change that its instruction does not notice. -/
theorem step_of_unnoticed {f : Machine → Machine} (hmode : (f m).mode = m.mode)
    (hmemory : (f m).memory = m.memory) (hpc : (f m).pc = m.pc)
    (hfault : ∀ i, (f m).advance.fault? i = m.advance.fault? i)
    (hadvance : (f m).advance = f m.advance)
    (hperform : ∀ a i, m.step.1 = .executed a i →
      (f m.advance).perform i = f (m.advance.perform i)) :
    (f m).step = (m.step.1, f m.step.2) := by
  obtain ⟨n, hs, rfl⟩ := m.step_steps.simulate (R := fun a b => b = f a) hmode hmemory hpc hfault
    rfl hadvance fun i _ hi => hadvance ▸ hperform m.pc i hi
  exact steps_iff.mp hs

/-- A call commutes with steps if it changes the machine in the same way, and is heard of in the
same way, before a step and after it, and the step does not notice the change. -/
theorem commute_step {f : Machine → Machine} (hcall : m.call c = (r, f m))
    (hcall' : m.step.2.call c = (r, f m.step.2)) (hstep : (f m).step = (m.step.1, f m.step.2)) :
    m.Commute c .step :=
  commute_of_calls hcall m.call_step hcall' (by rw [call_step, hstep])

/-! ### Ticks -/

def ticked (m : Machine) : Machine :=
  { m with timers := m.timers.tick }

theorem call_tick (m : Machine) : m.call .tick = (.ticked m.timers.isSounding, m.ticked) :=
  transition_iff.mp .ticked

theorem perform_ticked (m : Machine) (h : i.usesTimer = false) :
    m.ticked.perform i = (m.perform i).ticked := by
  cases i <;> first | rfl | cases h

theorem timers_perform (m : Machine) (h : i.usesTimer = false) :
    (m.perform i).timers = m.timers := by
  cases i <;> first | rfl | cases h

theorem timers_step (h : ∀ a i, m.step.1 = .executed a i → i.usesTimer = false) :
    m.step.2.timers = m.timers := by
  have hs := m.step_steps
  generalize m.step = stepped at hs h ⊢
  obtain ⟨o, m'⟩ := stepped
  cases hs with
  | executed hm hw hd hf => exact m.advance.timers_perform (h _ _ rfl)
  | _ => rfl

theorem tick_commute_step (h : ∀ a i, m.step.1 = .executed a i → i.usesTimer = false) :
    m.Commute .tick .step := by
  refine commute_step (f := ticked) m.call_tick ?_ ?_
  · rw [call_tick, timers_step h]
  · refine step_of_unnoticed rfl rfl rfl (fun i => ?_) rfl
      fun a i hi => m.advance.perform_ticked (h a i hi)
    cases i <;> rfl

theorem transition_ticked {code : UInt8} {isDown : Bool}
    (ht : m.Transition (.input code isDown) r m') :
    m.ticked.Transition (.input code isDown) r m'.ticked ∧ m'.timers = m.timers := by
  cases ht with
  | refused hf => exact ⟨.refused hf, rfl⟩
  | written hf hb => cases hb
  | moved hk h => exact ⟨.moved hk h, rfl⟩
  | resumed hk hm => exact ⟨.resumed hk hm, rfl⟩

theorem tick_commute_input (m : Machine) (code : UInt8) (isDown : Bool) :
    m.Commute .tick (.input code isDown) := by
  obtain ⟨r, m', hinput⟩ : ∃ r m', m.call (.input code isDown) = (r, m') := ⟨_, _, rfl⟩
  obtain ⟨ht, htimers⟩ := transition_ticked (transition_iff.mpr hinput)
  exact commute_of_calls m.call_tick hinput (by rw [call_tick, htimers]) (transition_iff.mp ht)

/-! ### Keys -/

def moveKey (m : Machine) (k : Key) (isDown : Bool) : Machine :=
  { m with keypad := m.keypad.set k isDown }

theorem call_input_of_key {code : UInt8} {k : Key} {isDown : Bool} (hk : Key.ofCode? code = some k)
    (h : isDown = false ∨ m.mode = .running) :
    m.call (.input code isDown) = (.done, m.moveKey k isDown) :=
  transition_iff.mp (.moved hk h)

theorem perform_moveKey (m : Machine) (k : Key) (isDown : Bool) (h : i.testsKey = false) :
    (m.moveKey k isDown).perform i = (m.perform i).moveKey k isDown := by
  cases i <;> first | rfl | cases h

/-- A machine that runs does so after a step that does not make it wait. -/
theorem mode_step (hm : m.mode = .running)
    (h : ∀ a x, m.step.1 ≠ .executed a (.waitForKey x)) : m.step.2.mode = .running := by
  cases hmode : m.step.2.mode with
  | running => rfl
  | awaiting x =>
    obtain ⟨a, ha⟩ := (mode_iff_of_steps m.step_steps hm).mp hmode
    exact absurd ha (h a x)

theorem input_commute_step {code : UInt8} {isDown : Bool}
    (hkeys : ∀ a i, m.step.1 = .executed a i → i.testsKey = false)
    (h : isDown = false ∨
      m.mode = .running ∧ ∀ a x, m.step.1 ≠ .executed a (.waitForKey x)) :
    m.Commute (.input code isDown) .step := by
  cases hk : Key.ofCode? code with
  | none => exact commute_of_refused (f := .noSuchKey code) (by simp [Call.fault?, hk])
  | some k =>
    refine commute_step (f := (moveKey · k isDown)) (call_input_of_key hk (h.imp_right And.left))
      (call_input_of_key hk (h.imp_right fun h => mode_step h.1 h.2)) ?_
    refine step_of_unnoticed (f := (moveKey · k isDown)) rfl rfl rfl (fun i => ?_) rfl
      fun a i hi => m.advance.perform_moveKey k isDown (hkeys a i hi)
    cases i <;> rfl

/-- **Calls that have nothing to do with each other commute**, on every machine, also if the step
fails or the machine waits for a key. A tick commutes with a step unless that uses a timer, and with
moving a key always. Moving a key commutes with a step if there is no such key; letting it go does,
unless the step tests a key; and pressing it does, if the machine runs and the step neither tests a
key nor begins to wait for one. -/
theorem calls_commute (m : Machine) :
    ((∀ a i, m.step.1 = .executed a i → i.usesTimer = false) → m.Commute .tick .step) ∧
    (∀ code isDown, m.Commute .tick (.input code isDown)) ∧
    ∀ (code : UInt8) (isDown : Bool),
      15 < code.toNat ∨
      (isDown = false ∧ ∀ a i, m.step.1 = .executed a i → i.testsKey = false) ∨
      (isDown = true ∧ m.mode = .running ∧
        ∀ a i, m.step.1 = .executed a i → i.testsKey = false ∧ ∀ x, i ≠ .waitForKey x) →
      m.Commute (.input code isDown) .step := by
  refine ⟨tick_commute_step, m.tick_commute_input, ?_⟩
  rintro code isDown (hcode | ⟨hup, hkeys⟩ | ⟨-, hm, h⟩)
  · have hnone : Key.ofCode? code = none := dif_neg (by omega)
    exact commute_of_refused (f := .noSuchKey code) (by simp [Call.fault?, hnone])
  · exact input_commute_step hkeys (.inl hup)
  · refine input_commute_step (fun a i hi => (h a i hi).1) (.inr ⟨hm, fun a x hx => ?_⟩)
    exact (h a _ hx).2 x rfl

set_option maxRecDepth 20000 in
/-- A machine that waits for a key and beeps meanwhile, and one that is about to clear its screen.
Only the press that the first one waits for does not commute with its step. -/
theorem beeping_while_waiting :
    let m := (new {} (Random.Key.ofSeed 0)).after
      [.load [0x61, 0x05, 0xF1, 0x18, 0xF2, 0x0A], .step, .step, .step]
    let n := (new {} (Random.Key.ofSeed 0)).after [.load [0x00, 0xE0]]
    m.mode = .awaiting 2 ∧ m.timers.isSounding = true ∧
    m.Commute .tick .step ∧ m.Commute .tick (.input 5 true) ∧ m.Commute (.input 5 false) .step ∧
    m.Commute (.input 16 true) .step ∧ ¬m.Commute (.input 5 true) .step ∧
    n.step.1 = .executed 0x200 .clearScreen ∧
    n.Commute .tick .step ∧ n.Commute (.input 5 true) .step := by
  intro m n
  obtain ⟨hmode, hsound, hstep, hpress⟩ : m.mode = .awaiting 2 ∧ m.timers.isSounding = true ∧
      m.step.1 = .suspended ∧
      ((m.call (.input 5 true)).2.call .step).1 ≠ (m.call .step).1 := by decide +kernel
  obtain ⟨hrunning, hclear⟩ : n.mode = .running ∧ n.step.1 = .executed 0x200 .clearScreen := by
    decide +kernel
  clear_value m n
  obtain ⟨htick, hinput, hmoves⟩ := m.calls_commute
  obtain ⟨htick', -, hmoves'⟩ := n.calls_commute
  have hsuspended (a : UInt16) (i : Instruction Register) : m.step.1 ≠ .executed a i := by
    rw [hstep]
    simp
  have hother (a : UInt16) (i : Instruction Register) (hi : n.step.1 = .executed a i) :
      i = .clearScreen := by
    rw [hclear] at hi
    cases hi
    rfl
  refine ⟨hmode, hsound, htick fun a i hi => absurd hi (hsuspended a i), hinput 5 true,
    hmoves 5 false (.inr (.inl ⟨rfl, fun a i hi => absurd hi (hsuspended a i)⟩)),
    hmoves 16 true (.inl (by decide)), fun h => hpress h.second_eq, hclear, htick' fun a i hi => ?_,
    hmoves' 5 true (.inr (.inr ⟨rfl, hrunning, fun a i hi => ?_⟩))⟩
  · rw [hother a i hi]
    rfl
  · rw [hother a i hi]
    exact ⟨rfl, fun x => by simp⟩

end Machine

end ChipEight
