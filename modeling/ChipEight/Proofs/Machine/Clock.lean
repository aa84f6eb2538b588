import ChipEight.Proofs.Machine.History

/-!
# ChipEight.Proofs.Machine.Clock

**What time has to do with it.** A machine notices that its host ticks it only where it reads its
delay timer, and it never notices that its screen is taken. `untimed` is what is left of a machine
without either. Two machines that are the same but for these go on to execute the same, whatever
their timers are, as long as no delay is read (`step_untimed_congr`).
-/

namespace ChipEight

/-- Whether an instruction reads the delay timer. -/
def Instruction.readsDelay {ρ : Type} : Instruction ρ → Bool
  | .getDelay _ => true
  | _ => false

namespace Machine

/-- A machine with its timers run down and its screen taken. -/
def untimed (m : Machine) : Machine :=
  { m with timers := .zero, redraw := false }

variable {m m' n : Machine} {c : Call} {cs ds : List Call}

/-! ### Steps -/

theorem fault?_untimed (m : Machine) (i : Instruction Register) :
    m.untimed.fault? i = m.fault? i := by
  cases i <;> rfl

theorem perform_untimed (m : Machine) {i : Instruction Register} (h : i.readsDelay = false) :
    (m.untimed.perform i).untimed = (m.perform i).untimed := by
  cases i <;> first | rfl | cases h

theorem steps_untimed {o : Outcome} (hs : m.Steps o m') :
    ∃ m'', m.untimed.Steps o m'' ∧
      ((∀ e ∈ o.executed?, e.2.readsDelay = false) → m''.untimed = m'.untimed) := by
  refine hs.simulate
    (R := fun a b => (∀ e ∈ o.executed?, e.2.readsDelay = false) → b.untimed = a.untimed)
    rfl rfl rfl (fault?_untimed m.advance) (fun _ => rfl) (fun _ => rfl) fun i hf hi hq => ?_
  subst hi
  exact perform_untimed m.advance (hq _ rfl)

theorem step_untimed (m : Machine) :
    m.untimed.step.1 = m.step.1 ∧
    ((∀ e ∈ m.step.1.executed?, e.2.readsDelay = false) →
      m.untimed.step.2.untimed = m.step.2.untimed) := by
  obtain ⟨m'', hs, hm⟩ := steps_untimed m.step_steps
  rw [steps_iff.mp hs]
  exact ⟨rfl, hm⟩

theorem step_untimed_congr (h : m.untimed = n.untimed) :
    n.step.1 = m.step.1 ∧
    ((∀ e ∈ m.step.1.executed?, e.2.readsDelay = false) →
      n.step.2.untimed = m.step.2.untimed) := by
  obtain ⟨hm, hm'⟩ := step_untimed m
  obtain ⟨hn, hn'⟩ := step_untimed n
  rw [← h] at hn hn'
  have hstep : n.step.1 = m.step.1 := hn.symm.trans hm
  exact ⟨hstep, fun hq => (hn' (hstep ▸ hq)).symm.trans (hm' hq)⟩

/-! ### Other calls -/

theorem transition_untimed {r : Reply} (ht : m.Transition c r m') (hc : c ≠ .step) :
    ∃ r' m'', m.untimed.Transition c r' m'' ∧ m''.untimed = m'.untimed := by
  cases ht with
  | stepped hs => exact absurd rfl hc
  | reset => exact ⟨_, _, .reset, rfl⟩
  | refused hf => exact ⟨_, _, .refused hf, rfl⟩
  | written hf hb => exact ⟨_, _, .written hf hb, rfl⟩
  | ticked => exact ⟨_, _, .ticked, rfl⟩
  | moved hk h => exact ⟨_, _, .moved hk h, rfl⟩
  | resumed hk hm => exact ⟨_, _, .resumed hk hm, rfl⟩
  | refreshed => exact ⟨_, _, .refreshed, rfl⟩
  | answered => exact ⟨_, _, .answered, rfl⟩

theorem call_untimed (m : Machine) (hc : c ≠ .step) :
    (m.untimed.call c).2.untimed = (m.call c).2.untimed := by
  obtain ⟨r', m'', ht, hm⟩ := transition_untimed (m.call_transition c) hc
  rw [transition_iff.mp ht, hm]

theorem after_untimed_congr (h : m.untimed = n.untimed) (hcs : .step ∉ cs) :
    (n.after cs).untimed = (m.after cs).untimed := by
  induction cs generalizing m n with
  | nil => exact h.symm
  | cons c cs ih =>
    rw [List.mem_cons, not_or] at hcs
    have hc : c ≠ .step := fun hc => hcs.1 hc.symm
    refine ih ?_ hcs.2
    rw [← call_untimed m hc, ← call_untimed n hc, h]

/-! ### Sequences of calls that come to the same -/

/-- No instruction that is executed in the course of a sequence of calls reads the delay timer. -/
def IgnoresDelay (m : Machine) (calls : List Call) : Prop :=
  ∀ e ∈ m.executed calls, e.2.readsDelay = false

instance (m : Machine) (calls : List Call) : Decidable (m.IgnoresDelay calls) :=
  inferInstanceAs (Decidable (∀ e ∈ m.executed calls, e.2.readsDelay = false))

theorem ignoresDelay_append : m.IgnoresDelay (cs ++ ds) ↔
    m.IgnoresDelay cs ∧ (m.after cs).IgnoresDelay ds := by
  rw [IgnoresDelay, executed_append, List.forall_mem_append]
  rfl

/-- Calls of one machine and calls of another come to the same: the same instructions are executed,
the same fault ends the program, if any does, and the machines are the same in the end but for their
timers and for whether their screens have been taken. -/
structure Abreast (m : Machine) (cs : List Call) (n : Machine) (ds : List Call) : Prop where
  executed_eq : n.executed ds = m.executed cs
  halt?_eq : n.halt? ds = m.halt? cs
  untimed_eq : (n.after ds).untimed = (m.after cs).untimed

variable {p : Machine} {cs' ds' es : List Call}

theorem Abreast.refl (m : Machine) (cs : List Call) : Abreast m cs m cs :=
  ⟨rfl, rfl, rfl⟩

theorem Abreast.symm (h : Abreast m cs n ds) : Abreast n ds m cs :=
  ⟨h.executed_eq.symm, h.halt?_eq.symm, h.untimed_eq.symm⟩

theorem Abreast.trans (h : Abreast m cs n ds) (h' : Abreast n ds p es) : Abreast m cs p es :=
  ⟨h'.executed_eq.trans h.executed_eq, h'.halt?_eq.trans h.halt?_eq,
    h'.untimed_eq.trans h.untimed_eq⟩

theorem Abreast.append (h : Abreast m cs n ds) (h' : Abreast (m.after cs) cs' (n.after ds) ds') :
    Abreast m (cs ++ cs') n (ds ++ ds') where
  executed_eq := by rw [executed_append, executed_append, h.executed_eq, h'.executed_eq]
  halt?_eq := by rw [halt?_append, halt?_append, h.halt?_eq, h'.halt?_eq]
  untimed_eq := by rw [after_append, after_append, h'.untimed_eq]

/-- The screen is not among what is left out. -/
theorem Abreast.screen_eq (h : Abreast m cs n ds) : (n.after ds).screen = (m.after cs).screen := by
  have huntimed : (n.after ds).untimed.screen = (m.after cs).untimed.screen := by
    rw [h.untimed_eq]
  exact huntimed

theorem Abreast.ignoresDelay_iff (h : Abreast m cs n ds) :
    n.IgnoresDelay ds ↔ m.IgnoresDelay cs := by
  rw [IgnoresDelay, h.executed_eq]
  rfl

end Machine

end ChipEight
