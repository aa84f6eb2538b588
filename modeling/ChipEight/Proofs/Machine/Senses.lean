import ChipEight.Proofs.Machine.Bounds
import ChipEight.Proofs.Machine.History

/-!
# ChipEight.Proofs.Machine.Senses

**What a program can notice.** A program goes by the memory, the registers, the open calls, the
screen and the mode of its machine (`Machine.Agrees`). All else reaches it through four kinds of
instructions, which ask for the delay timer, for keys or for a random byte (`Instruction.senses`).
Where none of them is executed, machines that agree take the same steps and agree after each
(`Machine.Agrees.after`), whatever their hosts do in between that is aside from the program
(`Call.isAside`): ticking, taking the screen, letting go of keys, pressing keys that there are none
of, or looking around.

A random byte with a mask of zero tells a program nothing. So if all masks are zero, a host that
does not ask for the configuration cannot tell two seeds apart (`Machine.Reseeded`).
-/

namespace ChipEight

/-- Whether an instruction brings something from outside of the program to it. -/
def Instruction.senses {ρ : Type} : Instruction ρ → Bool
  | .getDelay _ | .skipIfPressed _ | .skipUnlessPressed _ => true
  | .random _ kk => kk ≠ 0
  | _ => false

/-- Whether a call is aside from the program: it is no step, and nothing that it changes is
something that steps go by. -/
def Call.isAside : Call → Bool
  | .tick | .refresh | .ask _ => true
  | .input code isDown => !isDown || 15 < code.toNat
  | _ => false

namespace Machine

/-- Two machines agree on all that a program goes by. They may differ in their timers, keys and
random streams, in what the host still has to take of the screen, and above the open calls of their
stacks. -/
structure Agrees (m n : Machine) : Prop where
  memory_eq : n.memory = m.memory
  v_eq : n.v = m.v
  index_eq : n.index = m.index
  pc_eq : n.pc = m.pc
  stack_alike : m.stack.Alike n.stack
  inclusive_eq : n.config.inclusive = m.config.inclusive
  screen_eq : n.screen = m.screen
  mode_eq : n.mode = m.mode

variable {m m' n p : Machine} {i : Instruction Register} {o : Outcome} {c : Call} {r : Reply}
  {cs ds : List Call}

theorem Agrees.refl (m : Machine) : m.Agrees m :=
  ⟨rfl, rfl, rfl, rfl, .refl _, rfl, rfl, rfl⟩

theorem Agrees.symm (h : m.Agrees n) : n.Agrees m where
  memory_eq := h.memory_eq.symm
  v_eq := h.v_eq.symm
  index_eq := h.index_eq.symm
  pc_eq := h.pc_eq.symm
  stack_alike := h.stack_alike.symm
  inclusive_eq := h.inclusive_eq.symm
  screen_eq := h.screen_eq.symm
  mode_eq := h.mode_eq.symm

theorem Agrees.trans (h : m.Agrees n) (h' : n.Agrees p) : m.Agrees p where
  memory_eq := h'.memory_eq.trans h.memory_eq
  v_eq := h'.v_eq.trans h.v_eq
  index_eq := h'.index_eq.trans h.index_eq
  pc_eq := h'.pc_eq.trans h.pc_eq
  stack_alike := h.stack_alike.trans h'.stack_alike
  inclusive_eq := h'.inclusive_eq.trans h.inclusive_eq
  screen_eq := h'.screen_eq.trans h.screen_eq
  mode_eq := h'.mode_eq.trans h.mode_eq

/-- What may be different about a machine that agrees with another. -/
theorem agrees_of_eq {config : Config} {stack : ReturnStack} {timers : Timers} {keypad : Keypad}
    {redraw : Bool} {random : Random.Stream}
    (hn : n = { m with
      config := config, stack := stack, timers := timers, keypad := keypad, redraw := redraw,
      random := random })
    (hstack : m.stack.Alike stack) (hinclusive : config.inclusive = m.config.inclusive) :
    m.Agrees n := by
  subst hn
  exact ⟨rfl, rfl, rfl, rfl, hstack, hinclusive, rfl, rfl⟩

theorem agrees_new (config : Config) (entropy : Random.Key) (seed : Option UInt64)
    (entropy' : Random.Key) :
    (new config entropy).Agrees (new { config with seed := seed } entropy') :=
  agrees_of_eq rfl (.refl _) rfl

theorem Agrees.put (h : m.Agrees n) (address : Nat) (bytes : List UInt8) :
    (m.put address bytes).Agrees (n.put address bytes) :=
  { h with memory_eq := congrArg (·.write address bytes) h.memory_eq }

/-! ### Instructions -/

theorem Agrees.copyLength_eq (h : m.Agrees n) (x : Register) :
    n.config.copyLength x = m.config.copyLength x := by
  rw [Config.copyLength, Config.copyLength, h.inclusive_eq]

theorem Agrees.fault?_eq (h : m.Agrees n) : n.fault? i = m.fault? i := by
  cases i with
  | ret => simp only [fault?, h.stack_alike.isEmpty_eq]
  | call nnn => simp only [fault?, h.stack_alike.isFull_eq, h.stack_alike.limit_eq]
  | storeRegisters x => simp only [fault?, h.index_eq, h.copyLength_eq]
  | loadRegisters x => simp only [fault?, h.index_eq, h.copyLength_eq]
  | _ => simp only [fault?, h.index_eq]

theorem Agrees.perform (h : m.Agrees n) (hs : m.stack.Fits) (hf : m.fault? i = none)
    (hi : i.senses = false) : (m.perform i).Agrees (n.perform i) := by
  have hcopy := h.copyLength_eq
  obtain ⟨config, memory, v, index, pc, stack, timers, keypad, screen, mode, redraw, random⟩ := n
  obtain ⟨hmemory, hv, hindex, hpc, hstack, hinclusive, hscreen, hmode⟩ := h
  dsimp only at *
  subst hmemory hv hindex hpc hscreen hmode
  -- what is left of `n` is its own is all that `agrees_of_eq` lets differ
  cases i with
  | ret =>
    have htop := hstack.top_eq hs (fault?_ret_eq_none_iff.mp hf)
    rw [Machine.perform, Machine.perform, leave, leave, htop]
    exact agrees_of_eq rfl (hstack.pop hs) hinclusive
  | call nnn =>
    have hpush := hstack.push hs (fault?_call_eq_none_iff.mp hf) m.pc
    exact agrees_of_eq rfl hpush hinclusive
  | storeRegisters x =>
    rw [Machine.perform, Machine.perform, hcopy]
    exact agrees_of_eq rfl hstack hinclusive
  | loadRegisters x =>
    rw [Machine.perform, Machine.perform, hcopy]
    exact agrees_of_eq rfl hstack hinclusive
  | random x kk =>
    obtain rfl : kk = 0 := by simpa [Instruction.senses] using hi
    rw [Machine.perform, Machine.perform, setRandom, setRandom, UInt8.and_zero, UInt8.and_zero]
    exact agrees_of_eq rfl hstack hinclusive
  | getDelay x => cases hi
  | skipIfPressed x => cases hi
  | skipUnlessPressed x => cases hi
  | _ => exact agrees_of_eq rfl hstack hinclusive

/-! ### Steps -/

theorem Agrees.advance (h : m.Agrees n) : m.advance.Agrees n.advance :=
  { h with pc_eq := congrArg (· + 2) h.pc_eq }

theorem Steps.fits (hstep : m.Steps o m') (hs : m.stack.Fits) : m'.stack.Fits := by
  cases hstep with
  | executed hm hw hd hf => exact fits_perform (m := m.advance) hs hf
  | _ => exact hs

/-- Machines that agree can take the same steps, if a step does not go by anything else. -/
theorem Agrees.steps (h : m.Agrees n) (hs : m.stack.Fits) (hstep : m.Steps o m')
    (ho : ∀ e ∈ o.executed?, e.2.senses = false) : ∃ n', n.Steps o n' ∧ m'.Agrees n' := by
  refine hstep.simulate h.mode_eq h.memory_eq h.pc_eq (fun i => h.advance.fault?_eq) h h.advance
    fun i hf hi => ?_
  subst hi
  exact h.advance.perform hs hf (ho _ rfl)

theorem Agrees.step (h : m.Agrees n) (hs : m.stack.Fits)
    (ho : ∀ e ∈ m.step.1.executed?, e.2.senses = false) :
    n.step.1 = m.step.1 ∧ m.step.2.Agrees n.step.2 := by
  obtain ⟨n', hn, hagree⟩ := h.steps hs m.step_steps ho
  rw [steps_iff.mp hn]
  exact ⟨rfl, hagree⟩

/-! ### Sequences of calls -/

theorem agrees_of_aside (ht : m.Transition c r m') (hc : c.isAside = true) : m.Agrees m' := by
  cases ht with
  | reset => cases hc
  | stepped hs => cases hc
  | refused hf => exact .refl m
  | written hf hb => cases c <;> simp_all [Call.isAside, Call.block?]
  | @resumed code k x hk hm =>
    -- the key that is pressed is one that there is
    have hcode : code.toNat < 16 := Key.ofCode?_isSome_iff.mp (by rw [hk]; rfl)
    simp only [Call.isAside, Bool.not_true, Bool.false_or, decide_eq_true_eq] at hc
    omega
  | answered => exact .refl m
  | _ => exact agrees_of_eq rfl (.refl _) rfl

/-- Calls that are aside from the program leave a machine that agrees with the one before. -/
theorem agrees_after (hno : .step ∉ cs) (hcs : ∀ c ∈ cs, c = .step ∨ c.isAside = true) :
    m.Agrees (m.after cs) := by
  induction cs generalizing m with
  | nil => exact .refl m
  | cons c cs ih =>
    rw [List.mem_cons, not_or] at hno
    obtain ⟨hc, hrest⟩ := List.forall_mem_cons.mp hcs
    have haside := hc.resolve_left fun hstep => hno.1 hstep.symm
    exact (agrees_of_aside (m.call_transition c) haside).trans (ih hno.2 hrest)

theorem exists_of_count_eq_succ {k : Nat} (h : cs.count .step = k + 1) :
    ∃ front back, cs = front ++ .step :: back ∧ .step ∉ front ∧ back.count .step = k := by
  have hmem : .step ∈ cs := List.count_pos_iff.mp (by omega)
  obtain ⟨front, back, rfl, hfront⟩ := List.eq_append_cons_of_mem hmem
  rw [List.count_append, List.count_eq_zero.mpr hfront, List.count_cons_self] at h
  exact ⟨front, back, rfl, hfront, by omega⟩

/-- Machines that agree take the same steps, if they take equally many. -/
theorem Agrees.after (h : m.Agrees n) (hs : m.stack.Fits)
    (hcs : ∀ c ∈ cs, c = .step ∨ c.isAside = true) (hds : ∀ c ∈ ds, c = .step ∨ c.isAside = true)
    (hcount : ds.count .step = cs.count .step) (hq : ∀ e ∈ m.executed cs, e.2.senses = false) :
    n.outcomes ds = m.outcomes cs ∧ (m.after cs).Agrees (n.after ds) := by
  -- the first host goes call by call, and the other catches up with it at each step
  induction cs generalizing m n ds with
  | nil =>
    have hno : .step ∉ ds := List.count_eq_zero.mp hcount
    exact ⟨outcomes_of_no_step hno, h.trans (agrees_after hno hds)⟩
  | cons c cs ih =>
    obtain ⟨hc, hrest⟩ := List.forall_mem_cons.mp hcs
    by_cases hstep : c = .step
    · subst hstep
      rw [List.count_cons_self] at hcount
      obtain ⟨front, back, rfl, hfront, hback⟩ := exists_of_count_eq_succ hcount
      rw [List.forall_mem_append, List.forall_mem_cons] at hds
      rw [executed_step, List.forall_mem_append] at hq
      have hready : m.Agrees (n.after front) := h.trans (agrees_after hfront hds.1)
      obtain ⟨hout, hnext⟩ := hready.step hs fun e he => hq.1 e (Option.mem_toList.mpr he)
      obtain ⟨houts, hafter⟩ := ih hnext (m.step_steps.fits hs) hrest hds.2.2 hback hq.2
      rw [outcomes_append, outcomes_of_no_step hfront, List.nil_append, outcomes_step,
        outcomes_step, hout, houts, after_append]
      exact ⟨rfl, hafter⟩
    · have hcall := agrees_of_aside (m.call_transition c) (hc.resolve_left hstep)
      rw [executed_of_ne_step hstep] at hq
      rw [List.count_cons_of_ne hstep] at hcount
      rw [outcomes_of_ne_step hstep]
      exact ih (hcall.symm.trans h) (hcall.stack_alike.fits hs) hrest hds hcount hq

/-! ### Seeds -/

/-- Two machines are the same but for their seeds and their random streams. -/
def Reseeded (m n : Machine) : Prop :=
  ∃ seed random, n = { m with config := { m.config with seed := seed }, random := random }

theorem Reseeded.perform (h : m.Reseeded n) (hi : ∀ x kk, i = .random x kk → kk = 0) :
    (m.perform i).Reseeded (n.perform i) := by
  obtain ⟨seed, random, rfl⟩ := h
  cases i with
  | random x kk =>
    obtain rfl := hi x kk rfl
    rw [Machine.perform, Machine.perform, setRandom, setRandom, UInt8.and_zero, UInt8.and_zero]
    exact ⟨_, _, rfl⟩
  | _ => exact ⟨_, _, rfl⟩

theorem Reseeded.fault?_eq (h : m.Reseeded n) (i : Instruction Register) :
    n.fault? i = m.fault? i := by
  obtain ⟨seed, random, rfl⟩ := h
  cases i <;> rfl

theorem Reseeded.advance (h : m.Reseeded n) : m.advance.Reseeded n.advance := by
  obtain ⟨seed, random, rfl⟩ := h
  exact ⟨seed, random, rfl⟩

theorem Reseeded.steps (h : m.Reseeded n) (hstep : m.Steps o m')
    (ho : ∀ a x kk, o = .executed a (.random x kk) → kk = 0) :
    ∃ n', n.Steps o n' ∧ m'.Reseeded n' := by
  have hadvance := h.advance
  obtain ⟨seed, random, rfl⟩ := h
  refine hstep.simulate rfl rfl rfl hadvance.fault?_eq ⟨seed, random, rfl⟩ hadvance
    fun i hf hi => hadvance.perform ?_
  rintro x kk rfl
  exact ho _ _ _ hi

theorem Reseeded.transition (h : m.Reseeded n) (ht : m.Transition c r m')
    (hc : c ≠ .ask .config) (hr : ∀ a x kk, r = .stepped (.executed a (.random x kk)) → kk = 0) :
    ∃ n', n.Transition c r n' ∧ m'.Reseeded n' := by
  have hsteps {o : Outcome} (hstep : m.Steps o m') := h.steps hstep
  obtain ⟨seed, random, rfl⟩ := h
  cases ht with
  | stepped hstep =>
    obtain ⟨n', hn, hrel⟩ := hsteps hstep fun a x kk ho => hr a x kk (congrArg Reply.stepped ho)
    exact ⟨n', .stepped hn, hrel⟩
  | reset => exact ⟨_, .reset, _, _, rfl⟩
  | refused hf => exact ⟨_, .refused hf, _, _, rfl⟩
  | written hf hb => exact ⟨_, .written hf hb, _, _, rfl⟩
  | ticked => exact ⟨_, .ticked, _, _, rfl⟩
  | moved hk hmode => exact ⟨_, .moved hk hmode, _, _, rfl⟩
  | resumed hk hm => exact ⟨_, .resumed hk hm, _, _, rfl⟩
  | refreshed => exact ⟨_, .refreshed, _, _, rfl⟩
  | @answered q =>
    refine ⟨_, ?_, seed, random, rfl⟩
    cases q with
    | config => exact absurd rfl hc
    | _ => exact .answered

/-- Whatever the host calls: seeds that no program makes use of are not heard of. -/
theorem Reseeded.replies_eq (h : m.Reseeded n) (hcs : .ask .config ∉ cs)
    (hq : ∀ a x kk, (a, .random x kk) ∈ m.executed cs → kk = 0) :
    n.replies cs = m.replies cs := by
  induction cs generalizing m n with
  | nil => rfl
  | cons c cs ih =>
    rw [List.mem_cons, not_or] at hcs
    simp only [mem_executed_iff, replies, List.mem_cons] at hq
    obtain ⟨n', hn, hrel⟩ := h.transition (m.call_transition c) (fun hc => hcs.1 hc.symm)
      fun a x kk hr => hq a x kk (.inl hr.symm)
    rw [replies, replies, transition_iff.mp hn]
    refine congrArg _ (ih hrel hcs.2 fun a x kk hmem => ?_)
    exact hq a x kk (.inr (mem_executed_iff.mp hmem))

/-! ### What steps do not depend on -/

/-- **What a program can notice.** Take two machines that agree, after any calls of their hosts, and
go on with calls that are steps or aside from the program, with equally many steps for both but with
anything else at any place. If the first machine executes no instruction that brings something from
outside to its program, all steps of the two end in the same way, and after equally many of them the
machines agree again.

And if a new machine executes no random instruction but with a mask of zero, in the course of any
calls that do not ask for the configuration, every call is answered as on a machine with another
seed. -/
theorem same_steps_of_agrees (config : Config) (entropy : Random.Key) :
    (∀ (config' : Config) (entropy' : Random.Key) (past past' cs ds : List Call),
      let m := (new config entropy).after past
      let n := (new config' entropy').after past'
      m.Agrees n →
      (∀ c ∈ cs, c = .step ∨ c.isAside = true) → (∀ c ∈ ds, c = .step ∨ c.isAside = true) →
      ds.count .step = cs.count .step → (∀ e ∈ m.executed cs, e.2.senses = false) →
      n.outcomes ds = m.outcomes cs ∧
      ∀ before before', before <+: cs → before' <+: ds →
        before'.count .step = before.count .step → (m.after before).Agrees (n.after before')) ∧
    ∀ (seed : Option UInt64) (entropy' : Random.Key) (calls : List Call),
      let m := new config entropy
      (∀ a x kk, (a, .random x kk) ∈ m.executed calls → kk = 0) → .ask .config ∉ calls →
      (new { config with seed := seed } entropy').replies calls = m.replies calls := by
  constructor
  · intro config' entropy' past past' cs ds m n h hcs hds hcount hq
    have hs : m.stack.Fits := (bounded_after config entropy past).stack
    refine ⟨(h.after hs hcs hds hcount hq).1, ?_⟩
    rintro before before' ⟨since, rfl⟩ ⟨since', rfl⟩ hbefore
    rw [List.forall_mem_append] at hcs hds
    rw [executed_append, List.forall_mem_append] at hq
    exact (h.after hs hcs.1 hds.1 hbefore hq.1).2
  · intro seed entropy' calls m hq hcalls
    have h : m.Reseeded (new { config with seed := seed } entropy') := ⟨seed, _, rfl⟩
    exact h.replies_eq hcalls hq

set_option maxRecDepth 20000 in
/-- A random byte that is masked away, on two machines with different seeds, one of which has a key
down, and with hosts that tick and take the screen at different times. -/
theorem other_seed_and_schedule :
    let program : List UInt8 := [0xC1, 0x00, 0x61, 0x07, 0xF1, 0x18]
    let m := new { seed := some 1 } (Random.Key.ofSeed 0)
    let n := new { seed := some 2 } (Random.Key.ofSeed 0)
    (n.after [.load program, .input 3 true]).outcomes
        [.tick, .step, .input 16 true, .step, .step] =
      (m.after [.load program]).outcomes [.step, .step, .input 3 false, .step, .refresh] ∧
    n.replies [.load program, .step, .tick] = m.replies [.load program, .step, .tick] := by
  intro program m n
  have hload (m : Machine) : m.call (.load program) = (.done, m.put programOrigin program) :=
    transition_iff.mp (.written rfl rfl)
  have hpress (m : Machine) (hm : m.mode = .running) : m.Agrees (m.call (.input 3 true)).2 := by
    rw [transition_iff.mp (.moved (k := 3) rfl (.inr hm))]
    exact agrees_of_eq rfl (.refl _) rfl
  have hagrees : (m.after [.load program]).Agrees (n.after [.load program, .input 3 true]) := by
    rw [after_cons, after_cons, hload, hload, after_cons]
    exact ((agrees_new _ _ _ _).put programOrigin program).trans (hpress _ rfl)
  have hcs : ∀ e ∈ (m.after [.load program]).executed
      [.step, .step, .input 3 false, .step, .refresh], e.2.senses = false := by
    decide +kernel
  have hcalls : ∀ e ∈ m.executed [.load program, .step, .tick], e.2.senses = false := by
    decide +kernel
  have hsame := same_steps_of_agrees { seed := some 1 } (Random.Key.ofSeed 0)
  constructor
  · exact (hsame.1 { seed := some 2 } (Random.Key.ofSeed 0) [.load program]
      [.load program, .input 3 true] _ _ hagrees (by decide) (by decide) (by decide) hcs).1
  · refine hsame.2 (some 2) (Random.Key.ofSeed 0) _ (fun a x kk hmem => ?_) (by decide)
    simpa [Instruction.senses] using hcalls _ hmem

end Machine

end ChipEight
