import ChipEight.Proofs.Machine.Refusal
import ChipEight.Proofs.Player.Cycles

/-!
# ChipEight.Proofs.Player.Ending

**How a run ends.** A run goes on frame by frame until there are no more, or until a step fails with
a fault that ends the program. That step is the very last call that the machine gets
(`Machine.EndsWith`), and there have been as many ticks as frames before the one that it cuts off
(`Script.ticks_of_halted`). A word that is not an opcode costs a program one cycle and never ends
it.
-/

namespace ChipEight

open Machine

/-! ### The last step -/

namespace Machine

/-- The last of the calls is a step that ends the program with a fault, and no step before it
does. -/
def EndsWith (m : Machine) (calls : List Call) (f : Fault) : Prop :=
  ∃ before, calls = before ++ [.step] ∧ (m.after before).step.1.fatal? = some f ∧
    m.halt? before = none

variable {m : Machine} {cs ds : List Call} {f : Fault}

theorem EndsWith.append (h : m.halt? cs = none) (h' : (m.after cs).EndsWith ds f) :
    m.EndsWith (cs ++ ds) f := by
  obtain ⟨before, rfl, hlast, hbefore⟩ := h'
  refine ⟨cs ++ before, (List.append_assoc _ _ _).symm, ?_, ?_⟩
  · rw [after_append]
    exact hlast
  · rw [halt?_append, h, hbefore]
    rfl

theorem halt?_eq_none_iff : m.halt? cs = none ↔
    ∀ f, .failed f ∈ m.outcomes cs → f.endsProgram = false := by
  rw [halt?, List.findSome?_eq_none_iff]
  constructor
  · intro h f hf
    cases hends : f.endsProgram with
    | false => rfl
    | true =>
      have hfatal := Outcome.fatal?_eq_some_iff.mpr ⟨rfl, hends⟩
      rw [h _ hf] at hfatal
      cases hfatal
  · intro h o ho
    cases hfatal : o.fatal? with
    | none => rfl
    | some f =>
      obtain ⟨rfl, hends⟩ := Outcome.fatal?_eq_some_iff.mp hfatal
      rw [h f ho] at hends
      cases hends

/-- Calls end the program exactly if one of their steps fails with a fault that does. -/
theorem exists_halt?_eq_some_iff :
    (∃ f, m.halt? cs = some f) ↔ ∃ f, .failed f ∈ m.outcomes cs ∧ f.endsProgram = true := by
  have hsome : m.halt? cs ≠ none ↔ ¬∀ f, .failed f ∈ m.outcomes cs → f.endsProgram = false :=
    not_congr halt?_eq_none_iff
  rw [Option.ne_none_iff_exists'] at hsome
  simpa using hsome

/-- What a step can end a program with. -/
theorem cause_of_step {m' : Machine} (h : m.step = (.failed f, m'))
    (hf : f.endsProgram = true) :
    (∃ a, f = .noSuchAddress a) ∨ (∃ a n, f = .blockOverrun a n) ∨
      (∃ d, f = .tooManyCalls d) ∨ f = .noOpenCall := by
  rcases fault_of_step h with ⟨op, rfl⟩ | h
  · cases hf
  · exact h

end Machine

namespace Script

variable {held : List Key} {m : Machine} {f : Fault} {length n : Nat}

theorem endsWith_cycle (h : m.halt? (cycle held m) = some f) : m.EndsWith (cycle held m) f := by
  rw [halt?_cycle] at h
  have hfailed : m.step.1 = .failed f := (Outcome.fatal?_eq_some_iff.mp h).1
  refine ⟨[], ?_, h, rfl⟩
  rw [cycle, hfailed]
  rfl

theorem endsWith_cycles (n : Nat) (h : m.halt? (cycles held n m) = some f) :
    m.EndsWith (cycles held n m) f := by
  induction n generalizing m with
  | zero => cases h
  | succ n ih =>
    rw [cycles] at h ⊢
    have hcycle : m.halt? (cycle held m) = _ := (halt?_cycle held m).trans (fatal?_eq held _)
    cases hp : pace held m.step.1 with
    | onward =>
      rw [hp] at h hcycle
      rw [halt?_append, hcycle, Option.none_or] at h
      exact (ih h).append hcycle
    | idle =>
      rw [hp, List.append_nil] at h
      rw [List.append_nil]
      exact endsWith_cycle h
    | ended e =>
      rw [hp, List.append_nil] at h
      rw [List.append_nil]
      exact endsWith_cycle h

/-! ### Frames -/

/-- Where a run has got to if it is not ended in its first frame. -/
theorem halt?_frames_of_onward (held : List Key) (length k : Nat) {m : Machine}
    (h : m.halt? (cycles held length m) = none) :
    let next := m.after (cycles held length m ++ [.tick, .refresh])
    m.halt? (frames held length (k + 1) m) = next.halt? (frames held length k next) := by
  intro next
  have hend : (m.after (cycles held length m)).halt? [.tick, .refresh] = none :=
    halt?_of_no_step (by simp)
  rw [frames_of_onward held m length k h, ← List.append_assoc, halt?_append, halt?_append, h, hend]
  rfl

theorem endsWith_frames (n : Nat) (h : m.halt? (frames held length n m) = some f) :
    m.EndsWith (frames held length n m) f := by
  induction n generalizing m with
  | zero => cases h
  | succ n ih =>
    cases hc : m.halt? (cycles held length m) with
    | some g =>
      rw [frames_of_halted held m length n hc] at h ⊢
      exact endsWith_cycles length h
    | none =>
      rw [halt?_frames_of_onward held length n hc] at h
      have hend : (m.after (cycles held length m)).halt? [.tick, .refresh] = none :=
        halt?_of_no_step (by simp)
      have hframe : m.halt? (cycles held length m ++ [.tick, .refresh]) = none := by
        rw [halt?_append, hc, hend]
        rfl
      rw [frames_of_onward held m length n hc, ← List.append_assoc]
      exact (ih h).append hframe

theorem tick_not_mem_opening (held : List Key) (bytes : List UInt8) :
    .tick ∉ opening held bytes := by
  simp [opening, moves]

theorem tick_not_mem_cycles (held : List Key) (n : Nat) (m : Machine) :
    .tick ∉ cycles held n m := by
  have hcycle (m : Machine) : ∀ c ∈ cycle held m, c ≠ .tick :=
    forall_mem_cycle (P := fun c => c ≠ .tick) (fun _ _ _ h => by cases h) (fun h => by cases h)
  induction n generalizing m with
  | zero => exact List.not_mem_nil
  | succ n ih =>
    rw [cycles, List.mem_append, not_or]
    refine ⟨fun h => hcycle m _ h rfl, ?_⟩
    split
    · exact ih _
    · exact List.not_mem_nil

theorem count_tick_cycles (held : List Key) (n : Nat) (m : Machine) :
    (cycles held n m).count .tick = 0 :=
  List.count_eq_zero.mpr (tick_not_mem_cycles held n m)

theorem count_tick_frames_of_onward (held : List Key) (length k : Nat) {m : Machine}
    (h : m.halt? (cycles held length m) = none) :
    let next := m.after (cycles held length m ++ [.tick, .refresh])
    (frames held length (k + 1) m).count .tick = (frames held length k next).count .tick + 1 := by
  intro next
  have hend : [Call.tick, .refresh].count .tick = 1 := rfl
  rw [frames_of_onward held m length k h, List.count_append, List.count_append, count_tick_cycles,
    hend, Nat.zero_add, Nat.add_comm]

/-- A run that is not ended ticks once for every frame. -/
theorem ticks_of_not_halted (n : Nat) (h : m.halt? (frames held length n m) = none) :
    (frames held length n m).count .tick = n := by
  induction n generalizing m with
  | zero => rfl
  | succ n ih =>
    cases hc : m.halt? (cycles held length m) with
    | some g =>
      rw [frames_of_halted held m length n hc, hc] at h
      cases h
    | none =>
      rw [halt?_frames_of_onward held length n hc] at h
      rw [count_tick_frames_of_onward held length n hc, ih h]

/-- A run that is ended ticks once for every frame before the one in which that happens. -/
theorem ticks_of_halted (n : Nat) (h : m.halt? (frames held length n m) = some f) :
    ∃ k < n, (frames held length n m).count .tick = k ∧ m.halt? (frames held length k m) = none ∧
      m.halt? (frames held length (k + 1) m) = some f := by
  induction n generalizing m with
  | zero => cases h
  | succ n ih =>
    cases hc : m.halt? (cycles held length m) with
    | some g =>
      rw [frames_of_halted held m length n hc] at h
      refine ⟨0, Nat.succ_pos n, ?_, rfl, ?_⟩
      · rw [frames_of_halted held m length n hc, count_tick_cycles]
      · rwa [frames_of_halted held m length 0 hc]
    | none =>
      rw [halt?_frames_of_onward held length n hc] at h
      obtain ⟨k, hlt, hticks, hbefore, hcut⟩ := ih h
      refine ⟨k + 1, Nat.succ_lt_succ hlt, ?_, ?_, ?_⟩
      · rw [count_tick_frames_of_onward held length n hc, hticks]
      · rwa [halt?_frames_of_onward held length k hc]
      · rwa [halt?_frames_of_onward held length (k + 1) hc]

/-! ### Whole scripts -/

section

variable {o : Options} {entropy : Random.Key} {bytes : List UInt8}

theorem halt?_play (hfits : bytes.length ≤ Machine.programCapacity) :
    let begun := (Machine.new o.config entropy).after (opening o.held bytes)
    (Machine.new o.config entropy).halt? (play o entropy (.contents bytes)) =
      begun.halt? (frames o.held o.cycles o.frames begun) := by
  intro begun
  rw [play_of_fits o entropy hfits, halt?_append, halt?_of_no_step (step_not_mem_opening _ _),
    Option.none_or]

theorem endsWith_play (hfits : bytes.length ≤ Machine.programCapacity)
    (h : (Machine.new o.config entropy).halt? (play o entropy (.contents bytes)) = some f) :
    (Machine.new o.config entropy).EndsWith (play o entropy (.contents bytes)) f := by
  rw [halt?_play hfits] at h
  rw [play_of_fits o entropy hfits]
  exact (endsWith_frames o.frames h).append (halt?_of_no_step (step_not_mem_opening _ _))

theorem count_tick_play (hfits : bytes.length ≤ Machine.programCapacity) :
    let begun := (Machine.new o.config entropy).after (opening o.held bytes)
    (play o entropy (.contents bytes)).count .tick =
      (frames o.held o.cycles o.frames begun).count .tick := by
  intro begun
  rw [play_of_fits o entropy hfits, List.count_append,
    List.count_eq_zero.mpr (tick_not_mem_opening _ _), Nat.zero_add]

end

end Script

/-! ### Counting frames -/

namespace Run

theorem frame_move (isDown : Bool) (held : List Key) (r : Run) :
    (r.move isDown held).2.frame = r.frame := by
  induction held generalizing r with
  | nil => rfl
  | cons k ks ih =>
    rw [move, send_key]
    exact ih _

theorem frame_repress (held : List Key) (r : Run) : (r.repress held).2.frame = r.frame := by
  rw [repress, move_eq]
  exact (frame_move true held _).trans (frame_move false held r)

theorem frame_cycle (o : Options) (r : Run) : (r.cycle o).2.frame = r.frame := by
  have hstep : r.step = (r.machine.step.1, r.step.2) := rfl
  rw [cycle, hstep]
  cases r.machine.step.1 with
  | executed a i =>
    show (if o.listing then r.step.2.list a i else r.step.2).frame = r.frame
    split <;> rfl
  | suspended =>
    dsimp only
    split
    · rfl
    · rw [repress_eq]
      exact frame_repress o.held r.step.2
  | failed f => rfl

theorem frame_cycles (o : Options) (n : Nat) (r : Run) : (r.cycles o n).2.frame = r.frame := by
  induction n generalizing r with
  | zero => rfl
  | succ n ih =>
    have hcycle := frame_cycle o r
    rw [cycles]
    generalize r.cycle o = cycled at hcycle ⊢
    obtain ⟨pace, r'⟩ := cycled
    cases pace with
    | onward => exact (ih r').trans hcycle
    | idle => exact hcycle
    | ended e => exact hcycle

theorem frame_playFrame (o : Options) (r : Run) :
    (r.playFrame o).2.frame = r.frame + if (r.playFrame o).1.isNone then 1 else 0 := by
  have hcycles := frame_cycles o o.cycles r
  unfold playFrame
  generalize r.cycles o o.cycles = cycled at hcycles ⊢
  obtain ⟨ending, r'⟩ := cycled
  cases ending with
  | some e => cases e <;> exact hcycles
  | none => exact congrArg (· + 1) hcycles

/-- The frames that a run counts are those at the end of which it ticks. -/
theorem frame_frames (o : Options) (n : Nat) (r : Run) :
    (r.frames o n).2.frame =
      r.frame + (Script.frames o.held o.cycles n r.machine).count .tick := by
  induction n generalizing r with
  | zero => rfl
  | succ n ih =>
    obtain ⟨hhalt, hfollows⟩ := follows_playFrame o r
    have hcount := frame_playFrame o r
    rw [Script.halt?_frame] at hhalt
    rw [frames]
    generalize r.playFrame o = played at hhalt hfollows hcount ⊢
    obtain ⟨ending, r'⟩ := played
    subst hhalt
    cases hc : r.machine.halt? (Script.cycles o.held o.cycles r.machine) with
    | some f =>
      -- the frame that is cut off is not counted, and there is no tick in it
      rw [Script.frames_of_halted _ _ _ n hc, Script.count_tick_cycles]
      simpa [hc] using hcount
    | none =>
      have hmachine : r'.machine =
          r.machine.after (Script.cycles o.held o.cycles r.machine ++ [.tick, .refresh]) := by
        rw [hfollows.machine_eq, Script.frame, hc]
        rfl
      have hr' : r'.frame = r.frame + 1 := by simpa [hc] using hcount
      rw [Script.count_tick_frames_of_onward _ _ n hc, ← hmachine]
      refine (ih r').trans ?_
      omega

/-- A word that is not an opcode costs one cycle. -/
theorem cycles_of_unknown (o : Options) (n : Nat) {r : Run} {op a : UInt16}
    (h : r.machine.step.1 = .failed (.unknownOpcode op a)) :
    r.cycles o (n + 1) = r.step.2.cycles o n := by
  have hstep : r.step = (.failed (.unknownOpcode op a), r.step.2) := Prod.ext h rfl
  rw [cycles, cycle, hstep]
  rfl

end Run

/-! ### Whole runs -/

/-- How a run has been ended by a fault. -/
structure Run.EndedBy (o : Options) (begun : Run) (m : Machine) (calls : List Call) (f : Fault) :
    Prop where
  /-- It is the fault of the last call, a step, and no step before that has failed for good. -/
  last : ∃ before, calls = before ++ [.step] ∧ (m.after before).step.1 = .failed f ∧
    ∀ g, .failed g ∈ m.outcomes before → g.endsProgram = false
  cause : (∃ a, f = .noSuchAddress a) ∨ (∃ a n, f = .blockOverrun a n) ∨
    (∃ d, f = .tooManyCalls d) ∨ f = .noOpenCall
  /-- There have been as many ticks as frames that were over by then. -/
  ticks : ∃ k < o.frames, calls.count .tick = k ∧ (begun.frames o k).1 = none ∧
    (begun.frames o (k + 1)).1 = some (.halted f)

namespace Run

variable {o : Options} {name : String} {bytes : List UInt8} {entropy : Random.Key}
  {threshold : Option Level} {begun : Run} {f : Fault}

/-- A run begins where the opening of its script leads. -/
theorem machine_of_begin? (hfits : bytes.length ≤ Machine.programCapacity)
    (hbegin : begin? o name (.contents bytes) entropy threshold = .ok begun) :
    begun.machine = (Machine.new o.config entropy).after (Script.opening o.held bytes) ∧
      begun.frame = 0 := by
  cases hbegin.symm.trans (begin?_of_fits o name entropy threshold hfits)
  exact ⟨(follows_move o true o.held _).machine_eq, frame_move true o.held _⟩

theorem endedBy_of_halt? (hfits : bytes.length ≤ Machine.programCapacity)
    (hbegin : begin? o name (.contents bytes) entropy threshold = .ok begun)
    (hhalt : (Machine.new o.config entropy).halt? (Script.play o entropy (.contents bytes)) =
      some f) :
    begun.EndedBy o (Machine.new o.config entropy) (Script.play o entropy (.contents bytes)) f := by
  obtain ⟨before, hcalls, hlast, hbefore⟩ := Script.endsWith_play hfits hhalt
  obtain ⟨hfailed, hfatal⟩ := Outcome.fatal?_eq_some_iff.mp hlast
  refine ⟨⟨before, hcalls, hfailed, Machine.halt?_eq_none_iff.mp hbefore⟩,
    Machine.cause_of_step (Prod.ext hfailed rfl) hfatal, ?_⟩
  rw [Script.halt?_play hfits] at hhalt
  rw [Script.count_tick_play hfits]
  rw [← (machine_of_begin? hfits hbegin).1] at hhalt ⊢
  -- that the run is cut off in frame `k` is known of its script, and so of the run
  obtain ⟨k, hlt, hticks, hover, hcut⟩ := Script.ticks_of_halted o.frames hhalt
  refine ⟨k, hlt, hticks, ?_, ?_⟩
  · rw [(follows_frames o k begun).1, hover]
    rfl
  · rw [(follows_frames o (k + 1) begun).1, hcut]
    rfl

end Run

/-- **What a run comes to.** A file that cannot be opened or read, or whose program is too long,
leads to its failure and to no output. Otherwise the frames are played, and the machine then is the
one after the calls of the script. What is printed are its screen and the listing, if that is asked
for. The player is never refused anything, so no run is given up, and it fails exactly if one of its
steps fails with a fault that ends the program; it has then been ended by this one. If none does,
there have been as many ticks as frames. A word that is not an opcode takes a cycle and nothing
else. -/
theorem run_outcome (o : Options) (name : String) (file : RomFile) (entropy : Random.Key)
    (threshold : Option Level) :
    let m := Machine.new o.config entropy
    let calls := Script.play o entropy file
    let report := play o name file entropy threshold
    (∀ reason, file = .notOpened reason →
      report.output = "" ∧ report.failure = some (.notOpened reason)) ∧
    (file = .unreadable → report.output = "" ∧ report.failure = some (.fault .unreadable)) ∧
    (∀ bytes, file = .contents bytes → 3584 < bytes.length →
      report.output = "" ∧
        report.failure = some (.fault (.programTooLong bytes.length 3584))) ∧
    (∀ bytes, file = .contents bytes → bytes.length ≤ 3584 →
      ∃ begun halt final, Run.begin? o name file entropy threshold = .ok begun ∧
        begun.frames o o.frames = (halt.map .halted, final) ∧
        final.machine = m.after calls ∧ final.frame = calls.count .tick ∧
        report.output = final.machine.screen.text ++
          (if o.listing then final.listing.text else "") ∧
        report.failure = halt.map .fault ∧
        (∀ f, .refused f ∉ m.replies calls) ∧
        ((∃ f, halt = some f) ↔ ∃ f, .failed f ∈ m.outcomes calls ∧ f.endsProgram = true) ∧
        (∀ f, halt = some f → begun.EndedBy o m calls f) ∧
        (halt = none → calls.count .tick = o.frames)) ∧
    ∀ (r : Run) (n : Nat) (op a : UInt16), r.machine.step.1 = .failed (.unknownOpcode op a) →
      r.cycles o (n + 1) = r.step.2.cycles o n := by
  intro m calls report
  have hfails {failure : Failure} (h : file.failure? = some failure) :
      report.output = "" ∧ report.failure = some failure := by
    unfold report
    rw [play_of_failure o name entropy threshold h]
    exact ⟨rfl, rfl⟩
  refine ⟨?_, ?_, ?_, ?_, fun r n op a => Run.cycles_of_unknown o n⟩
  · rintro reason rfl
    exact hfails rfl
  · rintro rfl
    exact hfails rfl
  · rintro bytes rfl hlong
    have hf : (Call.loadFile (some bytes)).fault? =
        some (.programTooLong bytes.length 3584) := if_pos hlong
    exact hfails (congrArg (Option.map Failure.fault) hf)
  · rintro bytes rfl hfits
    obtain ⟨begun, hbegin, hending, hfollows⟩ := Run.follows_play o name entropy threshold hfits
    let final := (begun.frames o o.frames).2
    have hframes : begun.frames o o.frames = ((m.halt? calls).map .halted, final) :=
      Prod.ext hending rfl
    have hreport : report = final.close o (m.halt? calls) := by
      unfold report play
      rw [hbegin]
      dsimp only
      rw [hframes]
      exact Run.finish_map_halted o _ final
    refine ⟨begun, m.halt? calls, final, hbegin, hframes, hfollows.machine_eq, ?_, ?_, ?_, ?_,
      Machine.exists_halt?_eq_some_iff, ?_, ?_⟩
    · obtain ⟨hmachine, hframe⟩ := Run.machine_of_begin? hfits hbegin
      unfold final
      rw [Run.frame_frames, hframe, Nat.zero_add, hmachine]
      exact (Script.count_tick_play hfits).symm
    · rw [hreport]
      rfl
    · rw [hreport]
      rfl
    · intro f hf
      obtain ⟨c, hc, hfault⟩ := Machine.exists_of_refused_mem hf
      rw [Script.fault?_of_mem_play o entropy hfits hc] at hfault
      cases hfault
    · intro f hf
      exact Run.endedBy_of_halt? hfits hbegin hf
    · intro hnone
      rw [Script.halt?_play hfits] at hnone
      exact (Script.count_tick_play hfits).trans (Script.ticks_of_not_halted o.frames hnone)

set_option maxRecDepth 20000 in
/-- A program returns from nowhere in its second frame. -/
theorem halted_in_second_frame :
    let o : Options := { frames := 3, cycles := 1 }
    let bytes : List UInt8 := [0x00, 0xE0, 0x00, 0xEE]
    let report := play o "" (.contents bytes) (Random.Key.ofSeed 0) none
    let calls := Script.play o (Random.Key.ofSeed 0) (.contents bytes)
    report.failure = some (.fault .noOpenCall) ∧ calls.count .tick = 1 ∧
      ∃ before, calls = before ++ [.step] := by
  intro o bytes report calls
  have hhalt : report.failure = some (.fault .noOpenCall) := by decide +kernel
  have hticks : calls.count .tick = 1 := by decide +kernel
  obtain ⟨begun, halt, final, -, -, -, -, -, hfailure, -, -, hends, -⟩ :=
    (run_outcome o "" (.contents bytes) (Random.Key.ofSeed 0) none).2.2.2.1 bytes rfl (by decide)
  cases halt with
  | none =>
    rw [hfailure] at hhalt
    cases hhalt
  | some f =>
    obtain ⟨before, hcalls, -⟩ := (hends f rfl).last
    exact ⟨hhalt, hticks, before, hcalls⟩

end ChipEight
