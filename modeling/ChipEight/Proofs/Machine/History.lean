import ChipEight.Proofs.Machine.Trace

/-!
# ChipEight.Proofs.Machine.History

What the steps among a sequence of calls have come to: how they have ended (`outcomes`), which
instructions have been executed (`executed`), and which fault has been the first to end the program
(`halt?`).
-/

namespace ChipEight

/-- How a step has ended, if the reply is to a step. -/
def Reply.outcome? : Reply → Option Outcome
  | .stepped o => some o
  | _ => none

namespace Outcome

/-- The instruction that a step has executed, and its address. -/
def executed? : Outcome → Option (UInt16 × Instruction Register)
  | .executed a i => some (a, i)
  | _ => none

/-- The fault that a step has ended the program with. -/
def fatal? : Outcome → Option Fault
  | .failed f => if f.endsProgram then some f else none
  | _ => none

theorem fatal?_eq_some_iff {o : Outcome} {f : Fault} :
    o.fatal? = some f ↔ o = .failed f ∧ f.endsProgram = true := by
  cases o with
  | failed g =>
    simp only [fatal?, Option.ite_none_right_eq_some, Option.some.injEq, failed.injEq]
    constructor
    · rintro ⟨hg, rfl⟩
      exact ⟨rfl, hg⟩
    · rintro ⟨rfl, hg⟩
      exact ⟨hg, rfl⟩
  | _ => simp [fatal?]

end Outcome

/-- What happens among other things and a last one is the last one, or is among the others. -/
theorem cases_of_concat_eq {α : Type} {front back others : List α} {a last : α}
    (h : others ++ [last] = front ++ a :: back) :
    (front = others ∧ a = last ∧ back = []) ∨
    ∃ back', others = front ++ a :: back' ∧ back = back' ++ [last] := by
  rcases List.eq_nil_or_concat back with rfl | ⟨back', b, rfl⟩
  · obtain ⟨rfl, hlast⟩ := List.append_inj' h rfl
    exact .inl ⟨rfl, (List.cons.inj hlast).1.symm, rfl⟩
  · rw [List.concat_eq_append, ← List.cons_append, ← List.append_assoc] at h
    obtain ⟨hothers, hlast⟩ := List.append_inj' h rfl
    exact .inr ⟨back', hothers, by rw [List.concat_eq_append, hlast]⟩

namespace Machine

/-- How the steps among a sequence of calls end. -/
def outcomes (m : Machine) (calls : List Call) : List Outcome :=
  (m.replies calls).filterMap Reply.outcome?

/-- The instructions that are executed in the course of a sequence of calls, with their
addresses. -/
def executed (m : Machine) (calls : List Call) : List (UInt16 × Instruction Register) :=
  (m.outcomes calls).filterMap Outcome.executed?

/-- The first fault in the course of a sequence of calls that ends the program. -/
def halt? (m : Machine) (calls : List Call) : Option Fault :=
  (m.outcomes calls).findSome? Outcome.fatal?

variable (m : Machine) (cs ds : List Call)

@[simp] theorem halt?_nil : m.halt? [] = none := rfl

/-! ### Sequences that are cut -/

theorem outcomes_append : m.outcomes (cs ++ ds) = m.outcomes cs ++ (m.after cs).outcomes ds := by
  rw [outcomes, replies_append, List.filterMap_append]
  rfl

theorem executed_append : m.executed (cs ++ ds) = m.executed cs ++ (m.after cs).executed ds := by
  rw [executed, outcomes_append, List.filterMap_append]
  rfl

theorem halt?_append : m.halt? (cs ++ ds) = (m.halt? cs).or ((m.after cs).halt? ds) := by
  rw [halt?, outcomes_append, List.findSome?_append]
  rfl

/-! ### Calls that are steps, and others -/

theorem call_step : m.call .step = (.stepped m.step.1, m.step.2) := rfl

theorem outcomes_step : m.outcomes (.step :: cs) = m.step.1 :: m.step.2.outcomes cs := rfl

theorem executed_step :
    m.executed (.step :: cs) = m.step.1.executed?.toList ++ m.step.2.executed cs := by
  rw [executed, outcomes_step, List.filterMap_cons]
  cases m.step.1.executed? <;> rfl

variable {m cs}

/-- Only steps are answered as steps are. -/
theorem outcome?_of_ne_step {c : Call} {r : Reply} {m' : Machine} (ht : m.Transition c r m')
    (hc : c ≠ .step) : r.outcome? = none := by
  cases ht with
  | stepped hs => exact absurd rfl hc
  | _ => rfl

theorem outcomes_of_ne_step {c : Call} (hc : c ≠ .step) :
    m.outcomes (c :: cs) = (m.call c).2.outcomes cs := by
  rw [outcomes, replies, List.filterMap_cons_none (outcome?_of_ne_step (m.call_transition c) hc)]
  rfl

theorem executed_of_ne_step {c : Call} (hc : c ≠ .step) :
    m.executed (c :: cs) = (m.call c).2.executed cs := by
  rw [executed, outcomes_of_ne_step hc]
  rfl

/-- What has been executed is what the host has heard of. -/
theorem mem_executed_iff {a : UInt16} {i : Instruction Register} :
    (a, i) ∈ m.executed cs ↔ .stepped (.executed a i) ∈ m.replies cs := by
  simp only [executed, outcomes, List.mem_filterMap]
  constructor
  · rintro ⟨o, ⟨r, hr, ho⟩, hi⟩
    cases r <;> cases ho
    cases o <;> cases hi
    exact hr
  · intro hr
    exact ⟨_, ⟨_, hr, rfl⟩, rfl⟩

/-- What is refused is refused because of a call. -/
theorem exists_of_refused_mem {f : Fault} (h : .refused f ∈ m.replies cs) :
    ∃ c ∈ cs, c.fault? = some f := by
  induction cs generalizing m with
  | nil => cases h
  | cons c cs ih =>
    rcases List.mem_cons.mp h with hr | hrest
    · have ht := m.call_transition c
      rw [← hr] at ht
      generalize (m.call c).2 = m' at ht
      cases ht with
      | refused hf => exact ⟨c, List.mem_cons_self, hf⟩
    · obtain ⟨d, hd, hf⟩ := ih hrest
      exact ⟨d, List.mem_cons_of_mem c hd, hf⟩

theorem outcomes_of_no_step (h : .step ∉ cs) : m.outcomes cs = [] := by
  induction cs generalizing m with
  | nil => rfl
  | cons c cs ih =>
    rw [List.mem_cons, not_or] at h
    rw [outcomes_of_ne_step fun hc => h.1 hc.symm]
    exact ih h.2

theorem executed_of_no_step (h : .step ∉ cs) : m.executed cs = [] := by
  rw [executed, outcomes_of_no_step h, List.filterMap_nil]

theorem halt?_of_no_step (h : .step ∉ cs) : m.halt? cs = none := by
  rw [halt?, outcomes_of_no_step h, List.findSome?_nil]

/-- How a step ends tells which call it is. -/
theorem exists_of_outcomes_eq {front back : List Outcome} {o : Outcome}
    (h : m.outcomes cs = front ++ o :: back) :
    ∃ before since, cs = before ++ .step :: since ∧ (m.after before).step.1 = o ∧
      (m.after before).step.2.outcomes since = back := by
  induction cs generalizing m front with
  | nil => simp [outcomes, replies] at h
  | cons c cs ih =>
    by_cases hc : c = .step
    · subst hc
      rw [outcomes_step] at h
      cases front with
      | nil =>
        obtain ⟨hout, hback⟩ := List.cons.inj h
        exact ⟨[], cs, rfl, hout, hback⟩
      | cons out front =>
        obtain ⟨before, since, rfl, hstep⟩ := ih (List.cons.inj h).2
        exact ⟨.step :: before, since, rfl, hstep⟩
    · rw [outcomes_of_ne_step hc] at h
      obtain ⟨before, since, rfl, hstep⟩ := ih h
      exact ⟨c :: before, since, rfl, hstep⟩

end Machine

end ChipEight
