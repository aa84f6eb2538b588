import ChipEight.Proofs.Machine.Clock
import ChipEight.Proofs.Machine.Waiting
import ChipEight.Proofs.Player.Script

/-!
# ChipEight.Proofs.Player.Pacing

**How the cycles of a run are cut into frames.** Between its cycles a player ticks the timers and
takes the screen, and it leaves out the rest of a frame if the machine waits for a key that nobody
will press. A program that does not read the delay timer notices nothing of that: what is printed
and how the run ends depends on the number of all cycles alone (`play_congr_total`).

Both ways of playing are compared with a single frame of all cycles (`abreast_frames`).
-/

namespace ChipEight

open Machine

namespace Script

variable {held : List Key} {m n : Machine}

/-! ### Cycles -/

theorem ignoresDelay_cycle_iff (h : m.untimed = n.untimed) :
    n.IgnoresDelay (cycle held n) ↔ m.IgnoresDelay (cycle held m) := by
  unfold IgnoresDelay
  rw [executed_cycle, executed_cycle, (step_untimed_congr h).1]

theorem abreast_cycle (h : m.untimed = n.untimed) (hq : m.IgnoresDelay (cycle held m)) :
    Abreast m (cycle held m) n (cycle held n) := by
  obtain ⟨hstep, hafter⟩ := step_untimed_congr h
  refine ⟨?_, ?_, ?_⟩
  · rw [executed_cycle, executed_cycle, hstep]
  · rw [halt?_cycle, halt?_cycle, hstep]
  · have hq' : ∀ e ∈ m.step.1.executed?, e.2.readsDelay = false := by
      intro e he
      refine hq e ?_
      rw [executed_cycle]
      exact Option.mem_toList.mpr he
    unfold cycle
    rw [hstep]
    exact after_untimed_congr (m := m.step.2) (n := n.step.2) (hafter hq').symm
      (step_not_mem_answer held m.step.1)

/-- It is enough if one of the two is known not to read the delay: they execute the same up to the
first instruction that does. -/
theorem abreast_cycles (h : m.untimed = n.untimed) (k : Nat)
    (hq : m.IgnoresDelay (cycles held k m) ∨ n.IgnoresDelay (cycles held k n)) :
    Abreast m (cycles held k m) n (cycles held k n) := by
  induction k generalizing m n with
  | zero => exact ⟨rfl, rfl, h.symm⟩
  | succ k ih =>
    rw [cycles, cycles, (step_untimed_congr h).1, ignoresDelay_append, ignoresDelay_append] at *
    have hcycle := abreast_cycle h (hq.elim And.left fun hn => (ignoresDelay_cycle_iff h).mp hn.1)
    generalize pace held m.step.1 = next at hq ⊢
    cases next with
    | onward => exact hcycle.append (ih hcycle.untimed_eq.symm (hq.imp And.right And.right))
    | idle => simpa using hcycle
    | ended e => simpa using hcycle

/-- A machine that waits for a key while none is held is left as it is. -/
theorem after_cycle_of_idle (h : pace held m.step.1 = .idle) : m.after (cycle held m) = m := by
  obtain ⟨hs, rfl⟩ : m.step.1 = .suspended ∧ held = [] := pace_eq_idle_iff.mp h
  obtain ⟨x, hm⟩ := suspended_iff.mp hs
  rw [cycle, if_pos hs]
  show m.step.2 = m
  rw [step_of_awaiting hm]

/-- If no key is held and the machine waits for one, more cycles come to nothing. -/
theorem abreast_idle (h : pace held m.step.1 = .idle) (k : Nat) :
    Abreast m [] m (cycles held k m) := by
  cases k with
  | zero => exact .refl m []
  | succ k =>
    have hs : m.step.1 = .suspended := (pace_eq_idle_iff.mp h).1
    rw [cycles, h, List.append_nil]
    refine ⟨?_, ?_, ?_⟩
    · rw [executed_cycle, hs]
      rfl
    · rw [halt?_cycle, hs]
      rfl
    · rw [after_cycle_of_idle h]
      rfl

/-- Cycles may be cut anywhere. -/
theorem abreast_cycles_add (a b : Nat) (m : Machine) :
    Abreast m (cycles held (a + b) m) m (cycles held a m ++
      if (m.halt? (cycles held a m)).isNone then cycles held b (m.after (cycles held a m))
      else []) := by
  induction a generalizing m with
  | zero =>
    rw [Nat.zero_add]
    exact .refl m _
  | succ a ih =>
    rw [Nat.succ_add, cycles, cycles, halt?_append, halt?_cycle, fatal?_eq held]
    cases hp : pace held m.step.1 with
    | onward =>
      rw [List.append_assoc, after_append]
      exact (Abreast.refl m _).append (ih _)
    | idle =>
      -- the machine is found as it was by the cycles that are left over
      have hrest : Abreast (m.after (cycle held m)) [] (m.after (cycle held m))
          (cycles held b (m.after (cycle held m))) := by
        rw [after_cycle_of_idle hp]
        exact abreast_idle hp b
      simpa using (Abreast.refl m (cycle held m)).append hrest
    | ended e =>
      obtain ⟨f, rfl⟩ := eq_halted_of_pace hp
      simpa using Abreast.refl m _

/-! ### Frames -/

theorem abreast_endFrame (h : m.untimed = n.untimed) : Abreast m [.tick, .refresh] n [] :=
  ⟨rfl, rfl, h.symm⟩

/-- Frames come to the same as a single frame with all their cycles. -/
theorem abreast_frames (h : m.untimed = n.untimed) (length k : Nat)
    (hq : m.IgnoresDelay (frames held length k m) ∨
      n.IgnoresDelay (cycles held (k * length) n)) :
    Abreast m (frames held length k m) n (cycles held (k * length) n) := by
  induction k generalizing m n with
  | zero =>
    rw [Nat.zero_mul]
    exact ⟨rfl, rfl, h.symm⟩
  | succ k ih =>
    -- the first frame is set against as many of the cycles
    have hadd : Abreast n (cycles held (length + k * length) n) n _ :=
      abreast_cycles_add length (k * length) n
    have htotal : (k + 1) * length = length + k * length := by
      rw [Nat.succ_mul, Nat.add_comm]
    rw [htotal, ← hadd.ignoresDelay_iff] at hq
    rw [htotal]
    refine Abreast.trans ?_ hadd.symm
    have hfirst : Abreast m (cycles held length m) n (cycles held length n) := by
      refine abreast_cycles h length (hq.imp (fun hm => ?_) fun hn => ?_)
      · exact (ignoresDelay_append.mp (ignoresDelay_append.mp hm).1).1
      · exact (ignoresDelay_append.mp hn).1
    rw [hfirst.halt?_eq] at hq ⊢
    cases hm : m.halt? (cycles held length m) with
    | some f =>
      rw [frames_of_halted held m length k hm]
      simpa using hfirst
    | none =>
      rw [frames_of_onward held m length k hm] at hq ⊢
      simp only [hm, Option.isNone_none, if_true, ignoresDelay_append] at hq
      simp only [Option.isNone_none, if_true]
      have hend := abreast_endFrame hfirst.untimed_eq.symm
      rw [after_append] at hq ⊢
      exact hfirst.append (hend.append (ih hend.untimed_eq.symm
        (hq.imp (fun hm => hm.2.2) fun hn => hn.2)))

/-- Only the number of all cycles matters. -/
theorem abreast_frames_of_total {length k length' k' : Nat} (h : k * length = k' * length')
    (hq : m.IgnoresDelay (frames held length k m)) :
    Abreast m (frames held length k m) m (frames held length' k' m) := by
  have htogether : Abreast m (frames held length k m) m (cycles held (k * length) m) :=
    abreast_frames rfl length k (.inl hq)
  rw [h] at htogether
  exact htogether.trans
    (abreast_frames rfl length' k' (.inr (htogether.ignoresDelay_iff.mpr hq))).symm

end Script

/-! ### Whole runs -/

theorem Script.abreast_play (o : Options) (frames cycles : Nat) (entropy : Random.Key)
    (file : RomFile) (htotal : o.frames * o.cycles = frames * cycles)
    (hdelay : (Machine.new o.config entropy).IgnoresDelay (Script.play o entropy file)) :
    Abreast (.new o.config entropy) (play o entropy file) (.new o.config entropy)
      (play { o with frames := frames, cycles := cycles } entropy file) := by
  cases file with
  | notOpened reason => exact .refl _ _
  | unreadable => exact .refl _ _
  | contents bytes =>
    let m := Machine.new o.config entropy
    let o' : Options := { o with frames := frames, cycles := cycles }
    by_cases hfits : bytes.length ≤ Machine.programCapacity
    · have hplay' : play o' entropy (.contents bytes) = opening o.held bytes ++
          Script.frames o.held cycles frames (m.after (opening o.held bytes)) :=
        play_of_fits o' entropy hfits
      rw [play_of_fits o entropy hfits] at hdelay ⊢
      rw [hplay']
      exact (Abreast.refl m _).append
        (abreast_frames_of_total htotal (ignoresDelay_append.mp hdelay).2)
    · rw [play_of_not_fits o entropy hfits, play_of_not_fits o' entropy hfits]
      exact .refl m _

/-- **Only the number of all cycles matters.** If a program reads no delay timer in a run, then in
every other run with as many cycles in all, however they are cut into frames, the same is printed
and the program is ended by the same fault, if by any. -/
theorem play_congr_total (o : Options) (frames cycles : Nat) (name : String) (file : RomFile)
    (entropy : Random.Key) (threshold : Option Level)
    (htotal : o.frames * o.cycles = frames * cycles)
    (hdelay : (Machine.new o.config entropy).IgnoresDelay (Script.play o entropy file)) :
    let report := play o name file entropy threshold
    let report' := play { o with frames := frames, cycles := cycles } name file entropy threshold
    report'.output = report.output ∧ report'.failure = report.failure := by
  intro report report'
  cases hfile : file.failure? with
  | some failure =>
    have hsame : report' = report :=
      (play_of_failure _ name entropy threshold hfile).trans
        (play_of_failure o name entropy threshold hfile).symm
    rw [hsame]
    exact ⟨rfl, rfl⟩
  | none =>
    obtain ⟨bytes, rfl, hfits⟩ := RomFile.failure?_eq_none_iff.mp hfile
    have habreast := Script.abreast_play o frames cycles entropy _ htotal hdelay
    obtain ⟨houtput, hfailure⟩ := play_of_fits o name entropy threshold hfits
    let m := Machine.new o.config entropy
    let calls' := Script.play { o with frames := frames, cycles := cycles } entropy
      (.contents bytes)
    have hplay' : report'.output = (m.after calls').screen.text ++
          (if o.listing then (Listing.extend ∅ (m.executed calls')).text else "") ∧
        report'.failure = (m.halt? calls').map .fault :=
      play_of_fits { o with frames := frames, cycles := cycles } name entropy threshold hfits
    rw [habreast.screen_eq, habreast.executed_eq, habreast.halt?_eq] at hplay'
    exact ⟨hplay'.1.trans houtput.symm, hplay'.2.trans hfailure.symm⟩

set_option maxRecDepth 20000 in
/-- A program that starts to beep and then waits for a key, in two frames and in three. -/
theorem beeps_and_waits :
    let o : Options := { frames := 2, cycles := 3, listing := true }
    let rom : RomFile := .contents [0x61, 0x05, 0xF1, 0x18, 0xF2, 0x0A]
    let entropy := Random.Key.ofSeed 0
    (Machine.new o.config entropy).IgnoresDelay (Script.play o entropy rom) ∧
    (play { o with frames := 3, cycles := 2 } "" rom entropy none).output =
      (play o "" rom entropy none).output := by
  intro o rom entropy
  have hdelay : (Machine.new o.config entropy).IgnoresDelay (Script.play o entropy rom) := by
    decide +kernel
  exact ⟨hdelay, (play_congr_total o 3 2 "" rom entropy none rfl hdelay).1⟩

end ChipEight
