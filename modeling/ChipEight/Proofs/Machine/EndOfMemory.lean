import ChipEight.Proofs.Machine.Branching
import ChipEight.Proofs.Machine.Refusal
import ChipEight.Proofs.Machine.Waiting
import ChipEight.Proofs.Machine.History

/-!
# ChipEight.Proofs.Machine.EndOfMemory

**Where programs run out.** A step that neither branches nor ends the program moves the program
counter on by one word, whether it has found an instruction there or not (`Outcome.isStraight`,
`Steps.pc_of_isStraight`). Nothing but steps and resets moves it otherwise. So as long as a machine
goes straight on, the program counter tells how many steps it has taken (`pc_after_of_isStraight`),
and since there are not more than 2048 words in memory, it does not go straight on for longer.

At the end of memory it is lost (`Machine.Lost`): a step finds no whole word any more, and neither
steps nor anything that a host does without a reset gets it out of there (`Lost.after`).
-/

namespace ChipEight

/-- Whether a step has gone on to the next word: it has executed an instruction that does not
branch, or it has passed over a word that is no opcode. -/
def Outcome.isStraight : Outcome → Bool
  | .suspended => false
  | .executed _ i => !i.mayBranch
  | .failed f => !f.endsProgram

theorem Outcome.isStraight_eq_false_iff {o : Outcome} :
    o.isStraight = false ↔
      o = .suspended ∨ (∃ a i, o = .executed a i ∧ i.mayBranch = true) ∨
        ∃ f, o = .failed f ∧ f.endsProgram = true := by
  cases o <;> simp [isStraight, and_assoc]

namespace Machine

variable {m m' : Machine} {o : Outcome} {c : Call} {r : Reply} {calls : List Call}

/-! ### Straight on -/

theorem Steps.pc_of_isStraight (hs : m.Steps o m') (ho : o.isStraight = true) :
    m'.pc.toNat = m.pc.toNat + 2 ∧ m'.pc.toNat ≤ 0x1000 := by
  cases hs with
  | suspended hm => cases ho
  | lost hm hw =>
    -- there is no such address, which ends the program
    rw [Memory.fault_of_word hw] at ho
    cases ho
  | unknown hm hw hd => exact pc_advance hw
  | stopped hm hw hd hf => exact pc_advance hw
  | executed hm hw hd hf =>
    rw [pc_perform_of_not_mayBranch (by simpa [Outcome.isStraight] using ho)]
    exact pc_advance hw

/-- A host does not get at the program counter without a step or a reset. -/
theorem pc_of_transition (ht : m.Transition c r m') (hreset : c ≠ .reset) (hstep : c ≠ .step) :
    m'.pc = m.pc := by
  cases ht with
  | reset => exact absurd rfl hreset
  | stepped hs => exact absurd rfl hstep
  | _ => rfl

/-- A machine that goes straight on has passed over a word with each step, and these words lie in
memory. -/
theorem pc_after_of_isStraight (hreset : .reset ∉ calls)
    (h : ∀ o ∈ m.outcomes calls, o.isStraight = true) :
    (m.after calls).pc.toNat = m.pc.toNat + 2 * calls.count .step ∧
      (m.after calls).pc.toNat ≤ max m.pc.toNat 0x1000 := by
  induction calls generalizing m with
  | nil => exact ⟨rfl, Nat.le_max_left _ _⟩
  | cons c cs ih =>
    rw [List.mem_cons, not_or] at hreset
    rw [after_cons]
    by_cases hc : c = .step
    · -- the step has come to no further than the end of memory, and so do all after it
      subst hc
      rw [outcomes_step, List.forall_mem_cons] at h
      obtain ⟨hpc, hle⟩ := m.step_steps.pc_of_isStraight h.1
      obtain ⟨hpc', hle'⟩ := ih (m := m.step.2) hreset.2 h.2
      rw [call_step, List.count_cons_self]
      dsimp only
      omega
    · rw [outcomes_of_ne_step hc] at h
      have hpc := pc_of_transition (m.call_transition c) (fun hr => hreset.1 hr.symm) hc
      rw [List.count_cons_of_ne hc, ← hpc]
      exact ih hreset.2 h

/-- **No run goes straight on for ever.** Let a host make any calls but resets. As long as no step
branches, is suspended or ends the program, the program counter is two past where it was with each
step, and never past the end of memory. So if there are 2049 steps among the calls, one of them has
branched, or the machine has waited for a key, or the program has ended. -/
theorem no_straight_run (m : Machine) (calls : List Call) (hreset : .reset ∉ calls) :
    ((∀ o ∈ m.outcomes calls, o.isStraight = true) →
      (m.after calls).pc.toNat = m.pc.toNat + 2 * calls.count .step ∧
        (m.after calls).pc.toNat ≤ max m.pc.toNat 0x1000) ∧
    (2049 ≤ calls.count .step →
      ∃ o ∈ m.outcomes calls, o = .suspended ∨
        (∃ a i, o = .executed a i ∧ i.mayBranch = true) ∨
        ∃ f, o = .failed f ∧ f.endsProgram = true) := by
  refine ⟨pc_after_of_isStraight hreset, fun hcount => ?_⟩
  simp only [← Outcome.isStraight_eq_false_iff]
  refine Classical.byContradiction fun hnone => ?_
  have hstraight : ∀ o ∈ m.outcomes calls, o.isStraight = true := by
    intro o ho
    rw [← Bool.not_eq_false]
    exact fun hbent => hnone ⟨o, ho, hbent⟩
  obtain ⟨hpc, hle⟩ := pc_after_of_isStraight hreset hstraight
  omega

/-- A machine that has gone to the first address, and a host that ticks after each step and keeps
pressing a key. -/
theorem no_straight_run_from_zero :
    let m := (new {} (Random.Key.ofSeed 0)).after [.load [0x10, 0x00], .step]
    let calls : List Call := (List.replicate 2049 [.step, .tick, .input 5 true]).flatten
    .reset ∉ calls ∧ 2049 ≤ calls.count .step ∧
      ∃ o ∈ m.outcomes calls, o = .suspended ∨
        (∃ a i, o = .executed a i ∧ i.mayBranch = true) ∨
        ∃ f, o = .failed f ∧ f.endsProgram = true := by
  intro m calls
  have hreset : .reset ∉ calls := by
    intro h
    obtain ⟨each, heach, hmem⟩ := List.mem_flatten.mp h
    rw [List.eq_of_mem_replicate heach] at hmem
    exact absurd hmem (by decide)
  have hcount : 2049 ≤ calls.count .step := by
    rw [List.count_flatten, List.map_replicate, List.sum_replicate_nat]
    decide
  exact ⟨hreset, hcount, (no_straight_run m calls hreset).2 hcount⟩

/-! ### Lost -/

/-- The machine runs, and no whole word lies in memory at its program counter. -/
def Lost (m : Machine) : Prop :=
  m.mode = .running ∧ 0xFFF ≤ m.pc.toNat

theorem Lost.word_eq (h : m.Lost) :
    m.memory.word m.pc.toNat = .error (.noSuchAddress (max m.pc.toNat 0x1000)) :=
  Memory.word_of_le (Nat.succ_le_succ h.2)

theorem Lost.step_eq (h : m.Lost) :
    m.step = (.failed (.noSuchAddress (max m.pc.toNat 0x1000)), m) :=
  step_of_lost h.1 h.word_eq

/-- The machines that are lost are those that fail to fetch a word. -/
theorem lost_iff : m.Lost ↔ ∃ f, m.wordAt m.pc = .error f ∧ m.step = (.failed f, m) := by
  rw [wordAt_eq]
  constructor
  · intro h
    exact ⟨_, h.word_eq, h.step_eq⟩
  · rintro ⟨f, hw, hstep⟩
    refine ⟨?_, Nat.le_of_succ_le_succ (Memory.le_of_word hw)⟩
    cases hm : m.mode with
    | running => rfl
    | awaiting x =>
      rw [step_of_awaiting hm] at hstep
      cases hstep

theorem Lost.of_standsStill (h : m.Lost) (hs : m.StandsStill m') : m'.Lost := by
  unfold Lost
  rw [hs.mode_eq, hs.pc_eq]
  exact h

/-- Whatever a host does with a machine that is lost, it stands still until it is reset. -/
theorem Lost.after (h : m.Lost) (hreset : .reset ∉ calls) : m.StandsStill (m.after calls) := by
  induction calls generalizing m with
  | nil => exact .refl m
  | cons c cs ih =>
    rw [List.mem_cons, not_or] at hreset
    have hcall : m.StandsStill (m.call c).2 :=
      standsStill_of_idle (m.call_transition c) (by rw [h.step_eq]) (fun hc => hreset.1 hc.symm)
        (.inl h.1)
    exact hcall.trans (ih (h.of_standsStill hcall) hreset.2)

theorem Lost.outcomes (h : m.Lost) (hreset : .reset ∉ calls) :
    ∀ o ∈ m.outcomes calls, o = .failed (.noSuchAddress (max m.pc.toNat 0x1000)) := by
  intro o ho
  obtain ⟨front, back, houtcomes⟩ := List.append_of_mem ho
  -- the machine is still lost, and at the same place, when it takes that step
  obtain ⟨before, since, rfl, hstep, -⟩ := exists_of_outcomes_eq houtcomes
  rw [List.mem_append, not_or] at hreset
  have hstill := h.after hreset.1
  rw [← hstep, (h.of_standsStill hstill).step_eq, hstill.pc_eq]

/-- **A machine that is lost stays lost until it is reset.** It is lost if it runs and the program
counter is `0xFFF` at least; these are just the machines of which a step fails to fetch a word, and
such a step does nothing. Let the host then make any calls but resets. Each step fails for the first
address of its word that is not in memory, and the program counter, the registers, the index, the
stack, the screen, the mode and the random stream stay as they are. -/
theorem lost_until_reset (m : Machine) :
    (m.mode = .running ∧ 0xFFF ≤ m.pc.toNat ↔
      ∃ f, m.wordAt m.pc = .error f ∧ m.step = (.failed f, m)) ∧
    (m.mode = .running → 0xFFF ≤ m.pc.toNat → ∀ calls : List Call, .reset ∉ calls →
      (∀ o ∈ m.outcomes calls, o = .failed (.noSuchAddress (max m.pc.toNat 0x1000))) ∧
      m.StandsStill (m.after calls)) := by
  refine ⟨lost_iff, fun hm hpc calls hreset => ?_⟩
  have h : m.Lost := ⟨hm, hpc⟩
  exact ⟨h.outcomes hreset, h.after hreset⟩

set_option maxRecDepth 20000 in
/-- A program jumps to the last address of memory. Its host writes a jump there, presses a key and
loads another program, but does not reset the machine. -/
theorem lost_at_last_address :
    let m := (new {} (Random.Key.ofSeed 0)).after [.load [0x1F, 0xFF], .step]
    let calls : List Call :=
      [.step, .poke 0xFFE [0x12, 0x00], .input 5 true, .load [0x00, 0xE0], .tick, .step]
    m.mode = .running ∧ m.pc = 0xFFF ∧ m.outcomes calls ≠ [] ∧
      (∀ o ∈ m.outcomes calls, o = .failed (.noSuchAddress 0x1000)) ∧
      m.StandsStill (m.after calls) := by
  intro m calls
  obtain ⟨hm, hpc, hsteps⟩ : m.mode = .running ∧ m.pc = 0xFFF ∧ m.outcomes calls ≠ [] := by
    decide +kernel
  have hend : 0xFFF ≤ m.pc.toNat := by rw [hpc]; decide
  obtain ⟨houtcomes, hstill⟩ := (lost_until_reset m).2 hm hend calls (by decide)
  rw [hpc] at houtcomes
  exact ⟨hm, hpc, hsteps, houtcomes, hstill⟩

end Machine

end ChipEight
