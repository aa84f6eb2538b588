import ChipEight.Proofs.Machine.Footprint
import ChipEight.Proofs.Machine.Trace
import Mathlib.Control.Monad.Basic

/-!
# ChipEight.Proofs.Machine.Nesting

**Calls and returns nest.** A host can tell from what it hears which calls are open: `openCalls`
appends the address after each call that is executed, takes the last one away at each return, and
starts anew at a reset. That list is what lies on the stack, a return goes to its last address, and
calls are refused exactly if it is as long as it may be. What is left over on the stack from calls
that have been closed makes no difference to anything.
-/

namespace ChipEight.Machine

/-! ### The open calls -/

/-- The return addresses of the calls that are open after a call of the host and its reply. -/
def follow (opened : List UInt16) : Call × Reply → List UInt16
  | (.reset, _) => []
  | (_, .stepped (.executed a i)) => i.openAfter (a + 2) opened
  | _ => opened

/-- The return addresses of the calls that are open after a sequence of calls of the host, as far as
it hears of them. -/
def openCalls (m : Machine) (calls : List Call) : List UInt16 :=
  (m.trace calls).foldl follow []

/-- The calls that are open, in a machine that has been set up in the given way. -/
structure Nests (config : Config) (opened : List UInt16) (m : Machine) : Prop where
  /-- The stack has a slot for each call that may be open. -/
  fits : m.stack.Fits
  config_eq : m.config = config
  /-- As many calls may be open as configured, as far as there is room for them. -/
  limit_eq : m.stack.limit = min config.callDepth 16
  frames_eq : m.stack.frames = opened

variable {config : Config} {opened : List UInt16} {m m' : Machine}

theorem nests_switchedOn (config : Config) (random : Random.Stream) :
    Nests config [] (switchedOn config random) :=
  ⟨ReturnStack.fits_empty _, rfl, rfl, rfl⟩

theorem Nests.perform (h : Nests config opened m) {i : Instruction Register}
    (hf : m.fault? i = none) : Nests config (i.openAfter m.pc opened) (m.perform i) where
  fits := fits_perform h.fits hf
  config_eq := (config_perform m i).trans h.config_eq
  limit_eq := (limit_perform m i).trans h.limit_eq
  frames_eq := by rw [frames_perform h.fits hf, h.frames_eq]

theorem Nests.transition {c : Call} {r : Reply} (ht : m.Transition c r m')
    (h : Nests config opened m) : Nests config (follow opened (c, r)) m' := by
  have hsame {n : Machine} (hs : n.stack = m.stack) (hc : n.config = m.config) :
      Nests config opened n :=
    ⟨hs ▸ h.fits, hc ▸ h.config_eq, hs ▸ h.limit_eq, hs ▸ h.frames_eq⟩
  cases ht with
  | reset => exact h.config_eq ▸ nests_switchedOn _ _
  | refused hf =>
    cases c with
    | reset => cases hf
    | _ => exact hsame rfl rfl
  | written hf hb =>
    cases c with
    | reset => cases hb
    | _ => exact hsame rfl rfl
  | stepped hs =>
    cases hs with
    | executed hm hw hd hf =>
      -- the call returns to where the machine has got to by fetching it
      exact Nests.perform (m := m.advance) (hsame rfl rfl) hf
    | _ => exact hsame rfl rfl
  | _ => exact hsame rfl rfl

/-- A host always knows which calls are open. -/
theorem nests_after (config : Config) (entropy : Random.Key) (calls : List Call) :
    Nests config ((new config entropy).openCalls calls) ((new config entropy).after calls) :=
  trace_induction (P := Nests config) (fun _ _ _ _ _ ht h => h.transition ht)
    (nests_switchedOn config _) calls

/-! ### Steps -/

/-- A return fails exactly if no call is open, and otherwise goes to where the latest one returns
to. -/
theorem Nests.step_ret (h : Nests config opened m) (hm : m.mode = .running)
    (hw : m.memory.word m.pc.toNat = .ok 0x00EE) :
    (m.step.1 = .failed .noOpenCall ↔ opened = []) ∧
    ∀ a, opened.getLast? = some a → m.step.1 = .executed m.pc .ret ∧ m.step.2.pc = a := by
  have hd : Instruction.decode 0x00EE = some .ret := Instruction.decode_eq_ret_iff.mpr rfl
  have hempty : m.stack.isEmpty = true ↔ opened = [] := by
    rw [ReturnStack.isEmpty_iff_frames h.fits, h.frames_eq]
  -- a step that finds a return either stops or executes it, as the stack is empty or not
  cases he : m.stack.isEmpty with
  | true =>
    have hnil : opened = [] := hempty.mp he
    have hf : m.advance.fault? .ret = some .noOpenCall := if_pos he
    rw [steps_iff.mp (.stopped hm hw hd hf), hnil]
    exact ⟨⟨fun _ => rfl, fun _ => rfl⟩, nofun⟩
  | false =>
    have hne : opened ≠ [] := by
      intro hnil
      simp [hempty.mpr hnil] at he
    have hf : m.advance.fault? .ret = none := fault?_ret_eq_none_iff.mpr he
    rw [steps_iff.mp (.executed hm hw hd hf)]
    refine ⟨⟨nofun, fun hnil => absurd hnil hne⟩, ?_⟩
    intro a ha
    refine ⟨rfl, ?_⟩
    rw [← h.frames_eq, ReturnStack.getLast?_frames h.fits he] at ha
    exact Option.some.inj ha

/-- A call fails exactly if as many calls are open as may be, and otherwise goes to the
subroutine. -/
theorem Nests.step_call (h : Nests config opened m) (hm : m.mode = .running) {op : UInt16}
    (hw : m.memory.word m.pc.toNat = .ok op) (hop : Opcode.family op = 0x2) :
    (m.step.1 = .failed (.tooManyCalls (min config.callDepth 16)) ↔
      opened.length = min config.callDepth 16) ∧
    (opened.length ≠ min config.callDepth 16 →
      m.step.1 = .executed m.pc (.call (Opcode.nnn op)) ∧ m.step.2.pc = Opcode.nnn op) := by
  have hd := Instruction.decode_eq_call_iff.mpr ⟨hop, rfl⟩
  have hfull : m.stack.isFull = true ↔ opened.length = min config.callDepth 16 := by
    rw [ReturnStack.isFull_iff_frames h.fits, h.frames_eq, h.limit_eq]
  cases he : m.stack.isFull with
  | true =>
    have hf : m.advance.fault? (.call (Opcode.nnn op)) =
        some (.tooManyCalls (min config.callDepth 16)) := h.limit_eq ▸ if_pos he
    rw [steps_iff.mp (.stopped hm hw hd hf)]
    exact ⟨⟨fun _ => hfull.mp he, fun _ => rfl⟩, fun hne => absurd (hfull.mp he) hne⟩
  | false =>
    have hne : opened.length ≠ min config.callDepth 16 := by
      intro hlen
      simp [hfull.mpr hlen] at he
    have hf : m.advance.fault? (.call (Opcode.nnn op)) = none := fault?_call_eq_none_iff.mpr he
    rw [steps_iff.mp (.executed hm hw hd hf)]
    exact ⟨⟨nofun, fun hlen => absurd hlen hne⟩, fun _ => ⟨rfl, rfl⟩⟩

/-! ### What is left over on the stack -/

/-- Two machines are alike if they differ at most in the slots of their stacks that no open call
has. -/
def Alike (m n : Machine) : Prop :=
  ∃ t, n = { m with stack := t } ∧ m.stack.Alike t

variable {n : Machine} {t : ReturnStack} {i : Instruction Register}

theorem Alike.refl (m : Machine) : m.Alike m :=
  ⟨m.stack, rfl, .refl _⟩

theorem fault?_of_alike (ht : m.stack.Alike t) : { m with stack := t }.fault? i = m.fault? i := by
  cases i with
  | ret => simp only [fault?, ht.isEmpty_eq]
  | call nnn => simp only [fault?, ht.isFull_eq, ht.limit_eq]
  | _ => rfl

theorem perform_of_alike (ht : m.stack.Alike t) (hs : m.stack.Fits) (hf : m.fault? i = none) :
    (m.perform i).Alike ({ m with stack := t }.perform i) := by
  cases i with
  | ret =>
    have htop := ht.top_eq hs (fault?_ret_eq_none_iff.mp hf)
    exact ⟨t.pop, by simp only [Machine.perform, leave, htop], ht.pop hs⟩
  | call nnn => exact ⟨t.push m.pc, rfl, ht.push hs (fault?_call_eq_none_iff.mp hf) m.pc⟩
  | _ => exact ⟨t, rfl, ht⟩

theorem Alike.advance (h : m.Alike n) : m.advance.Alike n.advance := by
  obtain ⟨t, rfl, ht⟩ := h
  exact ⟨t, rfl, ht⟩

theorem Alike.steps {o : Outcome} (h : m.Alike n) (hs : m.stack.Fits) (hstep : m.Steps o m') :
    ∃ n', n.Steps o n' ∧ m'.Alike n' := by
  have hadvance := h.advance
  obtain ⟨t, rfl, ht⟩ := h
  exact hstep.simulate rfl rfl rfl (fun i => fault?_of_alike (m := m.advance) ht) ⟨t, rfl, ht⟩
    hadvance fun i hf _ => perform_of_alike (m := m.advance) ht hs hf

theorem answer_of_alike (m : Machine) (t : ReturnStack) (q : Query) :
    { m with stack := t }.answer q = m.answer q := by
  cases q <;> rfl

theorem Alike.transition {c : Call} {r : Reply} (h : m.Alike n) (hs : m.stack.Fits)
    (hcall : m.Transition c r m') : ∃ n', n.Transition c r n' ∧ m'.Alike n' := by
  obtain ⟨t, rfl, ht⟩ := h
  cases hcall with
  | reset => exact ⟨_, .reset, .refl _⟩
  | refused hf => exact ⟨_, .refused hf, t, rfl, ht⟩
  | written hf hb => exact ⟨_, .written hf hb, t, rfl, ht⟩
  | stepped hstep =>
    obtain ⟨n', hn, halike⟩ := Alike.steps ⟨t, rfl, ht⟩ hs hstep
    exact ⟨n', .stepped hn, halike⟩
  | ticked => exact ⟨_, .ticked, t, rfl, ht⟩
  | moved hk hmode => exact ⟨_, .moved hk hmode, t, rfl, ht⟩
  | resumed hk hm => exact ⟨_, .resumed hk hm, t, rfl, ht⟩
  | refreshed => exact ⟨_, .refreshed, t, rfl, ht⟩
  | @answered q => exact ⟨_, answer_of_alike m t q ▸ .answered, t, rfl, ht⟩

/-- Machines that are alike are heard to do the same, whatever calls are made. -/
theorem Alike.replies_eq (h : m.Alike n) (hn : Nests config opened m) (calls : List Call) :
    n.replies calls = m.replies calls := by
  induction calls generalizing m n opened with
  | nil => rfl
  | cons c cs ih =>
    have ht := m.call_transition c
    obtain ⟨n', hcall, halike⟩ := h.transition hn.fits ht
    rw [replies, replies, transition_iff.mp hcall, ih halike (hn.transition ht)]

/-- **Calls and returns nest.** After any calls of the host, the stack holds where the open calls
return to, oldest first. A return fails exactly if no call is open, and otherwise goes to where the
latest one returns to; a call fails exactly if as many calls are open as may be, and otherwise goes
to the subroutine. The slots that no open call has are never read: whatever lies there, the machine
is heard to do the same from then on. -/
theorem calls_nest (config : Config) (entropy : Random.Key) (calls : List Call) :
    let m := (new config entropy).after calls
    let opened := (new config entropy).openCalls calls
    m.stack.frames = opened ∧
    (m.mode = .running → m.memory.word m.pc.toNat = .ok 0x00EE →
      (m.step.1 = .failed .noOpenCall ↔ opened = []) ∧
      ∀ a, opened.getLast? = some a → m.step.1 = .executed m.pc .ret ∧ m.step.2.pc = a) ∧
    (∀ op, m.mode = .running → m.memory.word m.pc.toNat = .ok op → Opcode.family op = 0x2 →
      (m.step.1 = .failed (.tooManyCalls (min config.callDepth 16)) ↔
        opened.length = min config.callDepth 16) ∧
      (opened.length ≠ min config.callDepth 16 →
        m.step.1 = .executed m.pc (.call (Opcode.nnn op)) ∧ m.step.2.pc = Opcode.nnn op)) ∧
    (∀ n, m.Alike n → ∀ more, n.replies more = m.replies more) := by
  intro m opened
  have h : Nests config opened m := nests_after config entropy calls
  exact ⟨h.frames_eq, h.step_ret, fun op hm => h.step_call hm, fun n hn => hn.replies_eq h⟩

set_option maxRecDepth 20000 in
/-- A subroutine calls another one, which is as many as may be open, and that returns. The slot that
it leaves behind makes no difference to the subroutine, which then returns as well. -/
theorem inner_call_returns :
    let start := new { callDepth := 2 } (Random.Key.ofSeed 0)
    let program : Call := .load [0x22, 0x04, 0x00, 0xE0, 0x22, 0x08, 0x00, 0xEE, 0x00, 0xEE]
    let outer := start.after [program, .step]
    let back := start.after [program, .step, .step, .step]
    outer.stack.frames = [0x202] ∧
    outer.step.1 = .executed 0x204 (.call 0x208) ∧ outer.step.2.pc = 0x208 ∧
    back.stack.frames = [0x202] ∧ back.stack.slots[1] = 0x206 ∧
    (∀ more, { back with stack := (ReturnStack.empty 2).push 0x202 }.replies more =
      back.replies more) ∧
    back.step.1 = .executed 0x206 .ret ∧ back.step.2.pc = 0x202 := by
  intro start program outer back
  obtain ⟨houter, -, hcall, -⟩ :=
    calls_nest { callDepth := 2 } (Random.Key.ofSeed 0) [program, .step]
  obtain ⟨hback, hret, -, halike⟩ :=
    calls_nest { callDepth := 2 } (Random.Key.ofSeed 0) [program, .step, .step, .step]
  have ho : start.after [program, .step] = outer := rfl
  have hb : start.after [program, .step, .step, .step] = back := rfl
  rw [← houter, ho] at hcall
  rw [← hback, hb] at hret
  rw [hb] at halike
  obtain ⟨hopen, hmode, hpc, hword⟩ : outer.stack.frames = [0x202] ∧ outer.mode = .running ∧
      outer.pc = 0x204 ∧ outer.memory.word outer.pc.toNat = .ok 0x2208 := by
    decide +kernel
  obtain ⟨hopen', hslot, hlimit, hdepth, hmode', hpc', hword'⟩ : back.stack.frames = [0x202] ∧
      back.stack.slots[1] = 0x206 ∧ back.stack.limit = 2 ∧ back.stack.depth = 1 ∧
      back.mode = .running ∧ back.pc = 0x206 ∧ back.memory.word back.pc.toNat = .ok 0x00EE := by
    decide +kernel
  clear_value outer back
  rw [hopen] at hcall
  rw [hopen'] at hret
  obtain ⟨hcalled, hto⟩ := (hcall 0x2208 hmode hword (by decide)).2 (by decide)
  obtain ⟨hreturned, hto'⟩ := (hret hmode' hword').2 0x202 rfl
  rw [hpc] at hcalled
  rw [hpc'] at hreturned
  have hclean : back.stack.Alike ((ReturnStack.empty 2).push 0x202) :=
    ⟨hlimit.symm, hdepth.symm, hopen'.symm⟩
  exact ⟨hopen, hcalled, hto, hopen', hslot, halike _ ⟨_, rfl, hclean⟩, hreturned, hto'⟩

end ChipEight.Machine
