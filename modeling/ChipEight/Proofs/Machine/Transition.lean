import ChipEight.Machine.Call
import ChipEight.Proofs.Machine.Effect

/-!
# ChipEight.Proofs.Machine.Transition

**What a call comes to.** `Machine.Steps` lists the ways in which a step can go and
`Machine.Transition` those in which any call can, each with its conditions, its reply and the
machine afterwards. `callOn_transition` says that there are no others, and that a call goes that way
on every substrate that finds what the call relies on. What holds of machines in the course of any
calls is shown way by way, without another look at the code.
-/

namespace ChipEight

/-! ### Parts -/

/-- A timer one tick later. -/
def Timers.lower (t : UInt8) : UInt8 :=
  if 0 < t then t - 1 else t

def Timers.tick (t : Timers) : Timers :=
  ⟨lower t.delay, lower t.sound⟩

/-! ### Calls that put bytes into memory -/

namespace Call

def block? : Call → Option (Nat × List UInt8)
  | .load program | .loadFile (some program) => some (Machine.programOrigin, program)
  | .poke address bytes => some (address.toNat, bytes)
  | _ => none

def programFault? (program : List UInt8) : Option Fault :=
  if Machine.programCapacity < program.length then
    some (.programTooLong program.length Machine.programCapacity)
  else none

/-- Why a call is refused, if it is. That does not depend on the machine. -/
def fault? : Call → Option Fault
  | .load program | .loadFile (some program) => programFault? program
  | .loadFile none => some .unreadable
  | .poke address bytes => Memory.blockFault? address.toNat bytes.length
  | .input code _ => if (Key.ofCode? code).isNone then some (.noSuchKey code) else none
  | _ => none

/-- What a call relies on by itself: a list of bytes in the memory of a host is not longer than half
the sizes that there are. -/
def Representable : Call → Prop
  | .poke _ bytes => bytes.length < Substrate.sizeCount / 2
  | _ => True

end Call

namespace Machine

/-- The wait for a key ends, and the code of the key is put into the register. -/
def resume (m : Machine) (x : Register) (code : UInt8) : Machine :=
  { m.setRegister x code with mode := .running }

def answer (m : Machine) : Query → Answer
  | .byte address => .ofExcept .byte (m.memory.byte address.toNat)
  | .word address => .ofExcept .word (m.memory.word address.toNat)
  | q => answerOn (M := Id) m q

/-! ### The ways things go -/

/-- How a step can go. -/
inductive Steps (m : Machine) : Outcome → Machine → Prop where
  /-- Nothing is fetched while the machine waits for a key. -/
  | suspended {x : Register} (hm : m.mode = .awaiting x) : Steps m .suspended m
  /-- The program counter has left memory. -/
  | lost {f : Fault} (hm : m.mode = .running) (hw : m.memory.word m.pc.toNat = .error f) :
      Steps m (.failed f) m
  /-- The word at the program counter is not an opcode. -/
  | unknown {op : UInt16} (hm : m.mode = .running) (hw : m.memory.word m.pc.toNat = .ok op)
      (hd : Instruction.decode op = none) : Steps m (.failed (.unknownOpcode op m.pc)) m.advance
  /-- Something stands in the instruction's way. -/
  | stopped {op : UInt16} {i : Instruction Register} {f : Fault} (hm : m.mode = .running)
      (hw : m.memory.word m.pc.toNat = .ok op) (hd : Instruction.decode op = some i)
      (hf : m.advance.fault? i = some f) : Steps m (.failed f) m.advance
  | executed {op : UInt16} {i : Instruction Register} (hm : m.mode = .running)
      (hw : m.memory.word m.pc.toNat = .ok op) (hd : Instruction.decode op = some i)
      (hf : m.advance.fault? i = none) : Steps m (.executed m.pc i) (m.advance.perform i)

/-- How a call can go. -/
inductive Transition (m : Machine) : Call → Reply → Machine → Prop where
  | reset : Transition m .reset .done (switchedOn m.config m.random)
  /-- The call is refused. -/
  | refused {c : Call} {f : Fault} (hf : c.fault? = some f) : Transition m c (.refused f) m
  | written {c : Call} {address : Nat} {bytes : List UInt8} (hf : c.fault? = none)
      (hb : c.block? = some (address, bytes)) : Transition m c .done (m.put address bytes)
  | stepped {o : Outcome} {m' : Machine} (h : m.Steps o m') : Transition m .step (.stepped o) m'
  | ticked : Transition m .tick (.ticked m.timers.isSounding) { m with timers := m.timers.tick }
  /-- A key is moved while nothing waits for it, or let go. -/
  | moved {code : UInt8} {k : Key} {isDown : Bool} (hk : Key.ofCode? code = some k)
      (h : isDown = false ∨ m.mode = .running) :
      Transition m (.input code isDown) .done { m with keypad := m.keypad.set k isDown }
  /-- A key is pressed that is waited for. -/
  | resumed {code : UInt8} {k : Key} {x : Register} (hk : Key.ofCode? code = some k)
      (hm : m.mode = .awaiting x) :
      Transition m (.input code true) .done
        (resume { m with keypad := m.keypad.set k true } x code)
  | refreshed : Transition m .refresh
      (.refreshed (if m.redraw then some m.screen else none)) { m with redraw := false }
  | answered {q : Query} : Transition m (.ask q) (.answered (m.answer q)) m

end Machine

/-! ### Specifications -/

section

variable {M : Type → Type} [Monad M] [LawfulMonad M] [Substrate M] {m : Machine}

theorem Timers.countDown_eq (t : UInt8) : Timers.countDown t = (pure (lower t) : M UInt8) := by
  unfold Timers.countDown lower
  split
  · next h => exact Substrate.rely_bind (fun _ => UInt8.lt_iff_toNat_lt.mp h) _
  · rfl

namespace Action

omit [Substrate M] in
theorem byte_apply (address : Nat) (m : Machine) :
    (byte address : Action M UInt8) m = pure (m.memory.byte address, m) := by
  rw [byte, machine_bind]
  cases m.memory.byte address <;> rfl

theorem word_apply {address : Nat}
    (h : Substrate.checks M = true → address + 1 < Substrate.sizeCount) (m : Machine) :
    (word address : Action M UInt16) m = pure (m.memory.word address, m) := by
  unfold Memory.word word
  cases hhigh : m.memory.byte address with
  | error f => exact bind_of_error (by rw [byte_apply, hhigh])
  | ok high =>
    rw [bind_of_ok (by rw [byte_apply, hhigh]), bind_of_ok (rely_apply h m)]
    cases hlow : m.memory.byte (address + 1) with
    | error f => exact bind_of_error (by rw [byte_apply, hlow])
    | ok low =>
      rw [bind_of_ok (by rw [byte_apply, hlow])]
      rfl

theorem word_toNat_apply (address : UInt16) (m : Machine) :
    (word address.toNat : Action M UInt16) m = pure (m.memory.word address.toNat, m) :=
  word_apply (fun _ => by have := address.toNat_lt; unfold Substrate.sizeCount; omega) m

/-- A step has passed over the word that it has fetched, whatever becomes of it then. -/
theorem step_of_word {op : UInt16} (hm : m.mode = .running)
    (hw : m.memory.word m.pc.toNat = .ok op) :
    (step : Action M Outcome) m =
      (match Instruction.decode op with
        | none => fail (.unknownOpcode op m.pc)
        | some i => do
          execute i
          return .executed m.pc i : Action M Outcome) m.advance := by
  have hpc := Memory.lt_of_word hw
  have hlt : m.pc.toNat + 2 < UInt16.size := by
    unfold Memory.size at hpc
    unfold UInt16.size
    omega
  rw [step, machine_bind, hm]
  dsimp only
  rw [machine_bind, bind_of_ok (by rw [word_toNat_apply, hw])]
  exact bind_of_ok (advance_apply fun _ => hlt)

/-- An instruction that has been fetched is ready to be executed. -/
theorem ready_of_word {op : UInt16} {i : Instruction Register} (hs : m.stack.Fits)
    (hw : m.memory.word m.pc.toNat = .ok op) (hd : Instruction.decode op = some i) :
    m.advance.Ready i where
  stack := hs
  pc_lt := by
    have hpc := Memory.lt_of_word hw
    unfold Memory.size at hpc
    rw [Machine.advance, UInt16.toNat_add, UInt16.size]
    simp
    omega
  proper := Instruction.proper_of_decode hd

theorem step_of_instruction {op : UInt16} {i : Instruction Register}
    (h : Substrate.checks M = true → m.stack.Fits) (hm : m.mode = .running)
    (hw : m.memory.word m.pc.toNat = .ok op) (hd : Instruction.decode op = some i) :
    (step : Action M Outcome) m = pure (guarded (m.advance.fault? i) m.advance
      (.executed m.pc i) (m.advance.perform i)) := by
  rw [step_of_word hm hw, hd]
  exact bind_of_guarded (execute_apply i fun hc => ready_of_word (h hc) hw hd) fun _ => rfl

/-- How a step goes. -/
theorem step_apply (m : Machine) : ∃ (o : Except Fault Outcome) (m' : Machine),
    m.Steps (.ofExcept o) m' ∧
    ∀ {M : Type → Type} [Monad M] [LawfulMonad M] [Substrate M],
      (Substrate.checks M = true → m.stack.Fits) →
      (step : Action M Outcome) m = pure (o, m') := by
  -- the cases are those of `Steps`, in the order in which the code comes to them
  cases hm : m.mode with
  | awaiting x =>
    refine ⟨.ok .suspended, m, .suspended hm, ?_⟩
    intro M _ _ _ _
    rw [step, machine_bind, hm]
    rfl
  | running =>
    cases hw : m.memory.word m.pc.toNat with
    | error f =>
      refine ⟨.error f, m, .lost hm hw, ?_⟩
      intro M _ _ _ _
      rw [step, machine_bind, hm]
      dsimp only
      rw [machine_bind]
      exact bind_of_error (by rw [word_toNat_apply, hw])
    | ok op =>
      cases hd : Instruction.decode op with
      | none =>
        refine ⟨.error (.unknownOpcode op m.pc), m.advance, .unknown hm hw hd, ?_⟩
        intro M _ _ _ _
        rw [step_of_word hm hw, hd]
        rfl
      | some i =>
        cases hf : m.advance.fault? i with
        | some f =>
          refine ⟨.error f, m.advance, .stopped hm hw hd hf, ?_⟩
          intro M _ _ _ h
          rw [step_of_instruction h hm hw hd, hf]
          rfl
        | none =>
          refine ⟨.ok (.executed m.pc i), m.advance.perform i, .executed hm hw hd hf, ?_⟩
          intro M _ _ _ h
          rw [step_of_instruction h hm hw hd, hf]
          rfl

/-! ### Host -/

theorem poke_apply {address : UInt16} {bytes : List UInt8}
    (h : Substrate.checks M = true → (Call.poke address bytes).Representable) (m : Machine) :
    (poke address bytes : Action M Unit) m =
      pure (guarded (Memory.blockFault? address.toNat bytes.length) m ()
        (m.put address.toNat bytes)) := by
  have ha := address.toNat_lt
  refine writeBlock_apply (fun hc => ?_) m
  have hlen : bytes.length < Substrate.sizeCount / 2 := h hc
  unfold Substrate.sizeCount at *
  omega

theorem load_apply (program : List UInt8) (m : Machine) :
    (load program : Action M Unit) m =
      pure (guarded (Call.programFault? program) m () (m.put Machine.programOrigin program)) := by
  unfold load Call.programFault?
  rw [ite_apply]
  split
  · rfl
  · next hfits =>
    -- a program that is not too long fits, so the check on its block never fails
    have horigin : (UInt16.ofNat Machine.programOrigin).toNat = Machine.programOrigin := rfl
    have hlen : Machine.programOrigin + program.length ≤ Memory.size := by
      unfold Machine.programCapacity Machine.programOrigin Memory.size at *
      omega
    rw [poke_apply (fun _ => ?_) m, horigin, Memory.blockFault?_eq_none_iff.mpr hlen]
    unfold Memory.size at hlen
    unfold Call.Representable Substrate.sizeCount
    omega

theorem loadFile_apply (program : List UInt8) (m : Machine) :
    (loadFile (some program) : Action M Unit) m =
      pure (guarded (Call.programFault? program) m () (m.put Machine.programOrigin program)) :=
  load_apply program m

end Action

theorem Machine.transition_of_block {c : Call} {address : Nat} {bytes : List UInt8} (m : Machine)
    (hb : c.block? = some (address, bytes)) :
    m.Transition c (Reply.settle (Action.guarded c.fault? m () (m.put address bytes))).1
      (Reply.settle (Action.guarded c.fault? m () (m.put address bytes))).2 := by
  cases hf : c.fault? with
  | some f => exact .refused hf
  | none => exact .written hf hb

theorem Action.input_of_key {code : UInt8} {k : Key} (hk : Key.ofCode? code = some k)
    (isDown : Bool) (m : Machine) :
    (input code isDown : Action M Unit) m =
      (match isDown, m.mode with
        | true, .awaiting x => do
          setRegister x code
          update fun m => { m with mode := .running }
        | _, _ => return () : Action M Unit) { m with keypad := m.keypad.set k isDown } := by
  rw [input, hk]
  dsimp only
  rw [update_bind]
  exact machine_bind _ _

theorem Action.input_apply (m : Machine) (code : UInt8) (isDown : Bool) :
    ∃ s : Except Fault Unit × Machine,
      m.Transition (.input code isDown) (Reply.settle s).1 (Reply.settle s).2 ∧
      ∀ {M : Type → Type} [Monad M] [LawfulMonad M] [Substrate M],
        (input code isDown : Action M Unit) m = pure s := by
  cases hk : Key.ofCode? code with
  | none =>
    refine ⟨(.error (.noSuchKey code), m), .refused (by simp [Call.fault?, hk]), ?_⟩
    intro M _ _ _
    rw [input, hk]
    rfl
  | some k =>
    cases isDown with
    | false =>
      refine ⟨(.ok (), _), .moved hk (.inl rfl), ?_⟩
      intro M _ _ _
      rw [input_of_key hk]
      rfl
    | true =>
      cases hm : m.mode with
      | running =>
        refine ⟨(.ok (), _), .moved hk (.inr hm), ?_⟩
        intro M _ _ _
        rw [input_of_key hk, hm]
        rfl
      | awaiting x =>
        refine ⟨(.ok (), _), .resumed hk hm, ?_⟩
        intro M _ _ _
        rw [input_of_key hk, hm]
        dsimp only
        rw [bind_of_ok (setRegister_apply _ _ _)]
        rfl

namespace Machine

theorem resetOn_eq (m : Machine) :
    m.resetOn = (pure (switchedOn m.config m.random) : M Machine) := by
  rw [resetOn, Memory.withFont_eq, pure_bind, switchedOn]

theorem tickOn_eq (m : Machine) :
    m.tickOn = (pure (m.timers.isSounding, { m with timers := m.timers.tick }) :
      M (Bool × Machine)) := by
  rw [tickOn, Timers.countDown_eq, pure_bind, Timers.countDown_eq, pure_bind]
  rfl

theorem answerOn_eq (m : Machine) (q : Query) : m.answerOn q = (pure (m.answer q) : M Answer) := by
  cases q with
  | byte address => rw [answerOn, Action.byte_apply, pure_bind, answer]
  | word address => rw [answerOn, Action.word_toNat_apply, pure_bind, answer]
  | _ => rfl

/-! ### Calls -/

/-- **How a call goes.** Each call goes one of the ways of `Transition`, and on every substrate the
same way, if the stack has its slots and the call can be made. -/
theorem callOn_transition (m : Machine) (c : Call) : ∃ r m', m.Transition c r m' ∧
    ∀ {M : Type → Type} [Monad M] [LawfulMonad M] [Substrate M],
      (Substrate.checks M = true → m.stack.Fits ∧ c.Representable) →
      m.callOn c = (pure (r, m') : M (Reply × Machine)) := by
  cases c with
  | reset =>
    refine ⟨.done, _, .reset, fun _ => ?_⟩
    rw [callOn, resetOn_eq, pure_bind]
  | load program =>
    refine ⟨_, _, m.transition_of_block (c := .load program) rfl, fun _ => ?_⟩
    rw [callOn, Action.load_apply, pure_bind]
    rfl
  | loadFile contents =>
    cases contents with
    | none => exact ⟨_, _, .refused rfl, fun _ => by rw [callOn]; exact pure_bind _ _⟩
    | some program =>
      refine ⟨_, _, m.transition_of_block (c := .loadFile (some program)) rfl, fun _ => ?_⟩
      rw [callOn, Action.loadFile_apply, pure_bind]
      rfl
  | poke address bytes =>
    refine ⟨_, _, m.transition_of_block (c := .poke address bytes) rfl, fun h => ?_⟩
    rw [callOn, Action.poke_apply fun hc => (h hc).2, pure_bind]
    rfl
  | step =>
    obtain ⟨o, m', hs, hstep⟩ := Action.step_apply m
    refine ⟨_, _, .stepped hs, fun h => ?_⟩
    rw [callOn, hstep fun hc => (h hc).1, pure_bind]
  | tick =>
    refine ⟨_, _, .ticked, fun _ => ?_⟩
    rw [callOn, tickOn_eq, pure_bind]
  | input code isDown =>
    obtain ⟨s, ht, hinput⟩ := Action.input_apply m code isDown
    refine ⟨_, _, ht, fun _ => ?_⟩
    rw [callOn, hinput, pure_bind]
  | refresh => exact ⟨_, _, .refreshed, fun _ => rfl⟩
  | ask q =>
    refine ⟨_, _, .answered, fun _ => ?_⟩
    rw [callOn, answerOn_eq, pure_bind]

theorem Steps.unique {o o' : Outcome} {m₁ m₂ : Machine} (h₁ : m.Steps o m₁) (h₂ : m.Steps o' m₂) :
    o = o' ∧ m₁ = m₂ := by
  cases h₁ <;> cases h₂ <;> simp_all

theorem Transition.unique {c : Call} {r r' : Reply} {m₁ m₂ : Machine}
    (h₁ : m.Transition c r m₁) (h₂ : m.Transition c r' m₂) : r = r' ∧ m₁ = m₂ := by
  cases h₁ with
  | stepped hs =>
    cases h₂ with
    | stepped hs' =>
      obtain ⟨rfl, rfl⟩ := hs.unique hs'
      exact ⟨rfl, rfl⟩
    | refused hf => cases hf
    | written hf hb => cases hb
  | _ => cases h₂ <;> simp_all [Call.fault?, Call.block?]

theorem call_transition (m : Machine) (c : Call) : m.Transition c (m.call c).1 (m.call c).2 := by
  obtain ⟨r, m', ht, hcall⟩ := m.callOn_transition c
  have h : m.call c = (r, m') := hcall (M := Id) (by simp)
  rw [h]
  exact ht

theorem step_steps (m : Machine) : m.Steps m.step.1 m.step.2 := by
  obtain ⟨o, m', hs, hstep⟩ := Action.step_apply m
  have h : Action.step (M := Id) m = (o, m') := hstep (by simp)
  rw [step, h]
  exact hs

theorem steps_iff {o : Outcome} {m' : Machine} : m.Steps o m' ↔ m.step = (o, m') := by
  constructor
  · intro h
    obtain ⟨ho, hm⟩ := m.step_steps.unique h
    exact Prod.ext ho hm
  · intro h
    have hs := m.step_steps
    rwa [h] at hs

/-- What a step has done that has executed an instruction. -/
theorem step_of_executed {a : UInt16} {i : Instruction Register} (h : m.step.1 = .executed a i) :
    m.step.2 = m.advance.perform i := by
  have hs := m.step_steps
  rw [h] at hs
  generalize m.step.2 = m' at hs ⊢
  cases hs with
  | executed hm hw hd hf => rfl

theorem transition_iff {c : Call} {r : Reply} {m' : Machine} :
    m.Transition c r m' ↔ m.call c = (r, m') := by
  constructor
  · intro h
    obtain ⟨hr, hm⟩ := (m.call_transition c).unique h
    exact Prod.ext hr hm
  · intro h
    have ht := m.call_transition c
    rwa [h] at ht

/-- Two machines that have the same word to execute and the same faults to come upon go the same
way, and a relation that is kept by all that a step can do holds afterwards. -/
theorem Steps.simulate {R : Machine → Machine → Prop} {m m' n : Machine} {o : Outcome}
    (hs : m.Steps o m') (hmode : n.mode = m.mode) (hmemory : n.memory = m.memory)
    (hpc : n.pc = m.pc) (hfault : ∀ i, n.advance.fault? i = m.advance.fault? i) (hR : R m n)
    (hadvance : R m.advance n.advance)
    (hperform : ∀ i, m.advance.fault? i = none → o = .executed m.pc i →
      R (m.advance.perform i) (n.advance.perform i)) :
    ∃ n', n.Steps o n' ∧ R m' n' := by
  have hword : n.memory.word n.pc.toNat = m.memory.word m.pc.toNat := by rw [hmemory, hpc]
  cases hs with
  | suspended hm => exact ⟨n, .suspended (hmode.trans hm), hR⟩
  | lost hm hw => exact ⟨n, .lost (hmode.trans hm) (hword.trans hw), hR⟩
  | unknown hm hw hd =>
    exact ⟨_, hpc ▸ .unknown (hmode.trans hm) (hword.trans hw) hd, hadvance⟩
  | stopped hm hw hd hf =>
    exact ⟨_, .stopped (hmode.trans hm) (hword.trans hw) hd ((hfault _).trans hf), hadvance⟩
  | executed hm hw hd hf =>
    exact ⟨_, hpc ▸ .executed (hmode.trans hm) (hword.trans hw) hd ((hfault _).trans hf),
      hperform _ hf rfl⟩

theorem byteAt_eq (m : Machine) (address : UInt16) :
    m.byteAt address = m.memory.byte address.toNat :=
  congrArg Prod.fst (Action.byte_apply (M := Id) address.toNat m)

theorem wordAt_eq (m : Machine) (address : UInt16) :
    m.wordAt address = m.memory.word address.toNat :=
  congrArg Prod.fst (Action.word_toNat_apply (M := Id) address m)

/-- A call that puts bytes into memory puts all of them there, or is refused. -/
theorem call_of_block {m : Machine} {c : Call} {address : Nat} {bytes : List UInt8}
    (hb : c.block? = some (address, bytes)) :
    m.call c = c.fault?.elim (.done, m.put address bytes) fun f => (.refused f, m) := by
  cases hf : c.fault? with
  | some f => exact transition_iff.mp (.refused hf)
  | none => exact transition_iff.mp (.written hf hb)

/-- A call goes on every substrate as it goes for a machine, if what it relies on is there. -/
theorem callOn_eq {m : Machine} {c : Call}
    (h : Substrate.checks M = true → m.stack.Fits ∧ c.Representable) :
    m.callOn c = (pure (m.call c) : M (Reply × Machine)) := by
  obtain ⟨r, m', _, hcall⟩ := m.callOn_transition c
  have hId : m.call c = (r, m') := hcall (M := Id) (by simp)
  rw [hcall h, hId]

end Machine

end

end ChipEight
