import ChipEight.Proofs.Machine.History
import ChipEight.Proofs.Machine.Parts
import Mathlib.Data.List.Induction

/-!
# ChipEight.Proofs.Machine.Countdown

**Timers over a run.** Two things move a timer: a tick of the host, and the one instruction that
starts it anew. So as long as a timer is not started and the machine is not reset, the ticks so far
tell how far it has run down, whatever else is called in between and whatever steps come to
(`Timer.left_after`). The ticks that find the machine beeping are the first ones, as many as the
sound timer has left.
-/

namespace ChipEight

/-- One of the two timers. -/
inductive Timer where
  | delay
  | sound
  deriving DecidableEq, Repr

namespace Timer

/-- The ticks that a timer has left. -/
def left (m : Machine) : Timer → Nat
  | delay => m.timers.delay.toNat
  | sound => m.timers.sound.toNat

/-- Whether an instruction starts the timer anew. -/
def isStartedBy {ρ : Type} : Timer → Instruction ρ → Bool
  | delay, .startDelay _ => true
  | sound, .startSound _ => true
  | _, _ => false

def part : Timer → Part
  | delay => .delay
  | sound => .sound

end Timer

/-- Whether the machine has been beeping, if the reply is to a tick. -/
def Reply.beeped? : Reply → Option Bool
  | .ticked wasSounding => some wasSounding
  | _ => none

/-- The answers to the ticks among a sequence of calls. -/
def Machine.beeps (m : Machine) (calls : List Call) : List Bool :=
  (m.replies calls).filterMap Reply.beeped?

variable {m m' : Machine} {c : Call} {r : Reply} {cs : List Call} {t : Timer}

/-! ### One call -/

namespace Timer

theorem toNat_lower (b : UInt8) : (Timers.lower b).toNat = b.toNat - 1 := by
  unfold Timers.lower
  split
  · next h => exact UInt8.toNat_sub_of_le _ _ h
  · next h =>
    have hzero : ¬0 < b.toNat := h
    omega

theorem left_tick (m : Machine) (t : Timer) :
    t.left { m with timers := m.timers.tick } = t.left m - 1 := by
  cases t <;> exact toNat_lower _

theorem left_of_same (h : t.part.Same m m') : t.left m' = t.left m := by
  cases t <;> exact congrArg UInt8.toNat h

theorem part_not_mem_changes {i : Instruction Register} (h : t.isStartedBy i = false) :
    t.part ∉ m.changes i := by
  cases t <;> cases i <;> simp_all [isStartedBy, part, Machine.changes, Machine.cellsAtIndex,
    Machine.firstRegisters]

/-- A call takes one from a timer that is not started if it is a tick, and otherwise nothing. -/
theorem left_transition (ht : m.Transition c r m') (hc : c ≠ .reset)
    (hr : ∀ a i, r = .stepped (.executed a i) → t.isStartedBy i = false) :
    t.left m' = t.left m - [c].count .tick := by
  cases ht with
  | reset => exact absurd rfl hc
  | ticked => exact left_tick m t
  | stepped hs =>
    refine left_of_same (Machine.same_of_steps hs (by cases t <;> simp [part]) fun a i ho => ?_)
    exact part_not_mem_changes (hr a i (congrArg Reply.stepped ho))
  | refused hf =>
    have hcount : [c].count .tick = 0 := by cases c <;> first | rfl | cases hf
    rw [hcount, Nat.sub_zero]
  | written hf hb =>
    have hcount : [c].count .tick = 0 := by cases c <;> first | rfl | cases hb
    rw [hcount, Nat.sub_zero]
    cases t <;> rfl
  | _ => cases t <;> rfl

/-- **The ticks that a timer has left** after calls that do not start it: one less for each tick,
down to zero. -/
theorem left_after (hcs : .reset ∉ cs) (hstart : ∀ e ∈ m.executed cs, t.isStartedBy e.2 = false) :
    t.left (m.after cs) = t.left m - cs.count .tick := by
  induction cs generalizing m with
  | nil => rfl
  | cons c cs ih =>
    rw [List.mem_cons, not_or] at hcs
    rw [← List.singleton_append, Machine.executed_append, List.forall_mem_append] at hstart
    have hcall : t.left (m.after [c]) = t.left m - [c].count .tick := by
      refine left_transition (m.call_transition c) (fun hc => hcs.1 hc.symm) fun a i hr => ?_
      refine hstart.1 (a, i) (Machine.mem_executed_iff.mpr ?_)
      rw [Machine.replies, hr]
      exact List.mem_cons_self
    calc t.left (m.after (c :: cs))
      _ = t.left (m.after [c]) - cs.count .tick := ih hcs.2 hstart.2
      _ = t.left m - ([c].count .tick + cs.count .tick) := by rw [hcall, Nat.sub_sub]
      _ = t.left m - (c :: cs).count .tick := by rw [← List.count_append, List.singleton_append]

end Timer

namespace Machine

/-! ### Beeping -/

theorem isSounding_eq (m : Machine) : m.timers.isSounding = decide (0 < Timer.left m .sound) :=
  rfl

theorem beeped?_of_transition (ht : m.Transition c r m') :
    r.beeped? = if c = .tick then some m.timers.isSounding else none := by
  cases ht with
  | ticked => rfl
  | refused hf => cases c <;> first | rfl | cases hf
  | written hf hb => cases c <;> first | rfl | cases hb
  | _ => rfl

theorem beeps_concat (m : Machine) (cs : List Call) (c : Call) :
    m.beeps (cs ++ [c]) =
      m.beeps cs ++ if c = .tick then [(m.after cs).timers.isSounding] else [] := by
  have hlast := beeped?_of_transition ((m.after cs).call_transition c)
  rw [beeps, replies_concat, List.filterMap_append, ← beeps]
  by_cases hc : c = .tick
  · rw [if_pos hc] at hlast ⊢
    rw [List.filterMap_cons_some hlast, List.filterMap_nil]
  · rw [if_neg hc] at hlast ⊢
    rw [List.filterMap_cons_none hlast, List.filterMap_nil]

/-- The ticks that find the machine beeping are those that the sound timer still has left. -/
theorem beeps_eq (hcs : .reset ∉ cs)
    (hstart : ∀ e ∈ m.executed cs, Timer.sound.isStartedBy e.2 = false) :
    m.beeps cs = (List.range (cs.count .tick)).map fun k => decide (k < Timer.left m .sound) := by
  -- by the last call, which is answered by what the calls before it have left
  induction cs using List.reverseRecOn with
  | nil => rfl
  | append_singleton cs c ih =>
    rw [List.mem_append, not_or] at hcs
    rw [executed_append, List.forall_mem_append] at hstart
    rw [beeps_concat, ih hcs.1 hstart.1, List.count_append]
    by_cases hc : c = .tick
    · subst hc
      have hsounding : (m.after cs).timers.isSounding =
          decide (cs.count .tick < Timer.left m .sound) := by
        rw [isSounding_eq, Timer.left_after hcs.1 hstart.1]
        exact decide_eq_decide.mpr Nat.sub_pos_iff_lt
      rw [if_pos rfl, hsounding, List.count_singleton_self, List.range_succ, List.map_append,
        List.map_singleton]
    · rw [if_neg hc, List.count_singleton, if_neg (by simpa using hc), Nat.add_zero,
        List.append_nil]

/-! ### Reading -/

theorem step_of_getDelay {a : UInt16} {x : Register} (h : m.step.1 = .executed a (.getDelay x)) :
    m.step.2.v.get x = m.timers.delay := by
  rw [step_of_executed h]
  exact (get_setRegister _ x x _).trans (if_pos rfl)

/-- **Timers count down.** Take any machine and any calls without a reset, steps of all outcomes
among them, and let the calls have `n` ticks. If none of their steps starts the delay timer, it ends
at what it was less `n`, at least zero; and an instruction that reads it after `k` of the ticks
finds it at what it was less `k`. If none of their steps starts the sound timer, it ends likewise,
and the ticks that are answered that the machine has been beeping are those with a number less than
what it was, counted from zero. And at any point the machine says that it beeps exactly if the next
tick would be answered so. -/
theorem timers_count_down (m : Machine) (calls : List Call) (hcalls : .reset ∉ calls) :
    let n := calls.count .tick
    ((∀ a x, (a, .startDelay x) ∉ m.executed calls) →
      (m.after calls).timers.delay.toNat = m.timers.delay.toNat - n ∧
      ∀ before since a x, calls = before ++ .step :: since →
        (m.after before).step.1 = .executed a (.getDelay x) →
        ((m.after before).step.2.v.get x).toNat = m.timers.delay.toNat - before.count .tick) ∧
    ((∀ a x, (a, .startSound x) ∉ m.executed calls) →
      (m.after calls).timers.sound.toNat = m.timers.sound.toNat - n ∧
      m.beeps calls = (List.range n).map fun k => decide (k < m.timers.sound.toNat)) ∧
    ∀ before, before <+: calls →
      ∃ b, ((m.after before).call (.ask .isSounding)).1 = .answered (.bool b) ∧
        ((m.after before).call .tick).1 = .ticked b := by
  intro n
  refine ⟨fun hno => ?_, fun hno => ?_, fun before _ => ?_⟩
  · have hstart : ∀ e ∈ m.executed calls, Timer.delay.isStartedBy e.2 = false := by
      rintro ⟨a, i⟩ he
      cases i with
      | startDelay x => exact absurd he (hno a x)
      | _ => rfl
    refine ⟨Timer.left_after hcalls hstart, fun before since a x hsplit hread => ?_⟩
    subst hsplit
    rw [List.mem_append, not_or] at hcalls
    rw [executed_append, List.forall_mem_append] at hstart
    rw [step_of_getDelay hread]
    exact Timer.left_after hcalls.1 hstart.1
  · have hstart : ∀ e ∈ m.executed calls, Timer.sound.isStartedBy e.2 = false := by
      rintro ⟨a, i⟩ he
      cases i with
      | startSound x => exact absurd he (hno a x)
      | _ => rfl
    exact ⟨Timer.left_after hcalls hstart, beeps_eq hcalls hstart⟩
  · exact ⟨(m.after before).timers.isSounding, rfl, rfl⟩

set_option maxRecDepth 20000 in
/-- Both timers are started at two. The delay is read after one tick, and then the program waits for
a key that is never pressed, while a program is loaded and a key refused. -/
theorem ticks_while_waiting :
    let m := (new {} (Random.Key.ofSeed 0)).after
      [.load [0x60, 0x02, 0xF0, 0x15, 0xF0, 0x18, 0xF1, 0x07, 0xF2, 0x0A], .step, .step, .step]
    let calls : List Call :=
      [.tick, .step, .step, .tick, .step, .input 16 true, .tick, .load [0xFF, 0x15], .tick]
    (m.after calls).timers.delay.toNat = 0 ∧
    ((m.after [.tick]).step.2.v.get 1).toNat = 1 ∧
    m.beeps calls = [true, true, false, false] := by
  intro m calls
  obtain ⟨hdelay₀, hsound₀, hexecuted, hread⟩ : m.timers.delay = 2 ∧ m.timers.sound = 2 ∧
      m.executed calls = [(0x206, .getDelay 1), (0x208, .waitForKey 2)] ∧
      (m.after [.tick]).step.1 = .executed 0x206 (.getDelay 1) := by
    decide +kernel
  obtain ⟨hdelay, hsound, -⟩ := timers_count_down m calls (by decide)
  rw [hexecuted, hdelay₀] at hdelay
  rw [hexecuted, hsound₀] at hsound
  obtain ⟨hleft, hreads⟩ := hdelay (by simp)
  exact ⟨hleft.trans (by decide), (hreads [.tick] _ _ _ rfl hread).trans (by decide),
    (hsound (by simp)).2.trans (by decide)⟩

end Machine

end ChipEight
