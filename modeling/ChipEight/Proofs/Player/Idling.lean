import ChipEight.Proofs.Machine.Waiting
import ChipEight.Proofs.Player.Ending

/-!
# ChipEight.Proofs.Player.Idling

**Leaving out the rest of a frame.** A player who holds no key ends a frame early when it finds the
machine waiting for one. A patient player (`Run.patientCycles`) makes all the steps of the frame
instead. The two get to the same point at the end of every frame, with the same journal, the same
listing and the same machine: a step of a machine that waits changes nothing and reports nothing
(`Run.step_of_suspended`). And since none of the calls of such a player ends a wait, one that has
begun lasts for the rest of the run, however long that is (`Machine.suspended_for_good`).
-/

namespace ChipEight

open Machine

/-! ### Patient players -/

namespace Run

/-- One cycle of a patient player. The first component is what ends the run, if anything does. -/
def patientCycle (o : Options) (r : Run) : Option Ending × Run :=
  match r.step with
  | (.executed address i, r) => (none, if o.listing then r.list address i else r)
  | (.suspended, r) => (none, r)
  | (.failed f, r) => (if f.endsProgram then some (.halted f) else none, r)

/-- `n` cycles of a patient player, unless something ends the run. -/
def patientCycles (o : Options) : Nat → Run → Option Ending × Run
  | 0, r => (none, r)
  | n + 1, r =>
    match r.patientCycle o with
    | (none, r) => patientCycles o n r
    | (some e, r) => (some e, r)

/-- One frame of a player who makes the cycles of a frame in some way. -/
def frameBy (cycles : Run → Option Ending × Run) (r : Run) : Option Ending × Run :=
  match cycles r with
  | (some e, r) => (some e, r.noteEnding e)
  | (none, r) => (none, r.endFrame)

/-- At most `n` frames of a player who makes the cycles of a frame in some way. -/
def framesBy (cycles : Run → Option Ending × Run) : Nat → Run → Option Ending × Run
  | 0, r => (none, r)
  | n + 1, r =>
    match r.frameBy cycles with
    | (some e, r) => (some e, r)
    | (none, r) => framesBy cycles n r

/-- The frames of a patient player. -/
def patientFrames (o : Options) : Nat → Run → Option Ending × Run :=
  framesBy (patientCycles o o.cycles)

end Run

/-- Plays the program in a file without ever leaving out a step. -/
def playPatiently (o : Options) (name : String) (file : RomFile) (entropy : Random.Key)
    (threshold : Option Level) : Report :=
  match Run.begin? o name file entropy threshold with
  | .error report => report
  | .ok r =>
    let (ending, r) := r.patientFrames o o.frames
    r.finish o ending

/-! ### Without keys -/

theorem Options.held_eq_nil_iff {o : Options} :
    o.held = [] ↔ ∀ c ∈ o.hold.toList, Keyboard.code? c = none := by
  rw [← List.map_eq_nil_iff (f := Key.code), o.map_code_held, List.filterMap_eq_nil_iff]

namespace Run

variable {o : Options} {r : Run}

/-- A step of a machine that waits comes to nothing and is not reported. -/
theorem step_of_suspended (h : r.machine.step.1 = .suspended) : r.step = (.suspended, r) := by
  obtain ⟨x, hm⟩ := suspended_iff.mp h
  have hevents : r.machine.stepEvents = [] := by
    rw [stepEvents, fetch, hm]
  rw [step, hevents, step_of_awaiting hm, Journal.record_nil]

theorem cycle_of_suspended (hheld : o.held = []) (h : r.machine.step.1 = .suspended) :
    r.cycle o = (.idle, r) := by
  rw [cycle, step_of_suspended h, hheld]
  rfl

theorem patientCycles_of_suspended (h : r.machine.step.1 = .suspended) (n : Nat) :
    r.patientCycles o n = (none, r) := by
  induction n with
  | zero => rfl
  | succ n ih =>
    rw [patientCycles, patientCycle, step_of_suspended h]
    exact ih

/-- Patience makes no difference to the cycles of a frame. -/
theorem patientCycles_eq (hheld : o.held = []) (n : Nat) (r : Run) :
    r.patientCycles o n = r.cycles o n := by
  induction n generalizing r with
  | zero => rfl
  | succ n ih =>
    have hstep : r.step = (r.machine.step.1, r.step.2) := rfl
    cases h : r.machine.step.1 with
    | suspended => rw [patientCycles_of_suspended h, cycles, cycle_of_suspended hheld h]
    | executed a i =>
      rw [patientCycles, patientCycle, cycles, cycle, hstep, h]
      exact ih _
    | failed f =>
      rw [patientCycles, patientCycle, cycles, cycle, hstep, h]
      dsimp only
      cases f.endsProgram with
      | true => rfl
      | false => exact ih _

theorem patientFrames_eq (hheld : o.held = []) (n : Nat) (r : Run) :
    r.patientFrames o n = r.frames o n := by
  have hcycles : patientCycles o o.cycles = cycles o o.cycles :=
    funext (patientCycles_eq hheld o.cycles)
  rw [patientFrames, hcycles]
  induction n generalizing r with
  | zero => rfl
  | succ n ih =>
    have hframe : r.frameBy (cycles o o.cycles) = r.playFrame o := rfl
    rw [framesBy, frames, hframe]
    generalize r.playFrame o = played
    obtain ⟨ending, r'⟩ := played
    cases ending with
    | some e => rfl
    | none => exact ih r'

end Run

theorem playPatiently_eq {o : Options} (hheld : o.held = []) (name : String) (file : RomFile)
    (entropy : Random.Key) (threshold : Option Level) :
    playPatiently o name file entropy threshold = play o name file entropy threshold := by
  unfold playPatiently play
  cases Run.begin? o name file entropy threshold with
  | error report => rfl
  | ok begun =>
    dsimp only
    rw [Run.patientFrames_eq hheld]

/-! ### Waiting in vain -/

namespace Machine

variable {m : Machine} {x : Register} {cs : List Call}

/-- Until the wait is ended all steps are suspended. -/
theorem outcomes_of_awaiting (hm : m.mode = .awaiting x) (h : ∀ c ∈ cs, c.endsWait = false) :
    ∀ out ∈ m.outcomes cs, out = .suspended := by
  intro out hout
  obtain ⟨front, back, hsplit⟩ := List.append_of_mem hout
  obtain ⟨before, since, rfl, rfl, -⟩ := exists_of_outcomes_eq hsplit
  have hstill := standsStill_after hm fun c hc => h c (List.mem_append_left _ hc)
  rw [step_of_awaiting (hstill.mode_eq.trans hm)]

theorem executed_of_awaiting (hm : m.mode = .awaiting x) (h : ∀ c ∈ cs, c.endsWait = false) :
    m.executed cs = [] := by
  refine List.filterMap_eq_nil_iff.mpr fun out hout => ?_
  rw [outcomes_of_awaiting hm h out hout]
  rfl

/-- If no call ends a wait, the steps after one that is suspended are too. -/
theorem suspended_for_good {front back : List Outcome} (h : ∀ c ∈ cs, c.endsWait = false)
    (hsplit : m.outcomes cs = front ++ .suspended :: back) :
    (∀ out ∈ back, out = .suspended) ∧ ∃ x, (m.after cs).mode = .awaiting x := by
  obtain ⟨before, since, rfl, hs, hback⟩ := exists_of_outcomes_eq hsplit
  obtain ⟨x, hm⟩ := suspended_iff.mp hs
  have hsince : ∀ c ∈ since, c.endsWait = false := by
    intro c hc
    exact h c (List.mem_append_right _ (List.mem_cons_of_mem _ hc))
  rw [step_of_awaiting hm] at hback
  have hafter : m.after (before ++ .step :: since) = (m.after before).after since := by
    rw [after_append, after_cons, call_step, step_of_awaiting hm]
  refine ⟨hback ▸ outcomes_of_awaiting hm hsince, x, ?_⟩
  rw [hafter]
  exact (standsStill_after hm hsince).mode_eq.trans hm

/-- A program that waits for good is not ended. -/
theorem not_endsWith_of_suspended {front back : List Outcome} {f : Fault}
    (hsplit : m.outcomes cs = front ++ .suspended :: back)
    (hback : ∀ out ∈ back, out = .suspended) : ¬m.EndsWith cs f := by
  rintro ⟨before, rfl, hlast, -⟩
  rw [outcomes_append, outcomes_step, (Outcome.fatal?_eq_some_iff.mp hlast).1] at hsplit
  rcases cases_of_concat_eq hsplit with ⟨-, hout, -⟩ | ⟨back', -, rfl⟩
  · cases hout
  · cases hback (.failed f) (by simp)

end Machine

namespace Script

variable {held : List Key} {o : Options} {entropy : Random.Key} {bytes : List UInt8}

/-- More frames come after those that there are anyway. -/
theorem frames_add (held : List Key) (length a b : Nat) (m : Machine) :
    frames held length (a + b) m = frames held length a m ++
      if (m.halt? (frames held length a m)).isNone then
        frames held length b (m.after (frames held length a m))
      else [] := by
  induction a generalizing m with
  | zero => simp [frames]
  | succ a ih =>
    rw [Nat.succ_add, frames, frames, halt?_append]
    cases m.halt? (frame held length m) with
    | some f => simp
    | none => simp [ih, after_append]

/-- A player who holds no key never ends a wait. -/
theorem endsWait_of_mem_play (hheld : o.held = [])
    (hfits : bytes.length ≤ Machine.programCapacity) :
    ∀ c ∈ play o entropy (.contents bytes), c.endsWait = false := by
  obtain ⟨rest, hplay, hrest⟩ := exists_play_eq_cons o entropy hfits
  rw [hplay]
  refine List.forall_mem_cons.mpr ⟨rfl, hrest (fun k hk => ?_) rfl rfl rfl⟩
  rw [hheld] at hk
  cases hk

theorem exists_play_frames_eq (hfits : bytes.length ≤ Machine.programCapacity) {n : Nat}
    (hn : o.frames ≤ n)
    (hhalt : (Machine.new o.config entropy).halt? (play o entropy (.contents bytes)) = none) :
    ∃ more, play { o with frames := n } entropy (.contents bytes) =
      play o entropy (.contents bytes) ++ more := by
  obtain ⟨extra, rfl⟩ := Nat.exists_eq_add_of_le hn
  have hplay : play { o with frames := o.frames + extra } entropy (.contents bytes) =
      opening o.held bytes ++ frames o.held o.cycles (o.frames + extra)
        ((Machine.new o.config entropy).after (opening o.held bytes)) :=
    play_of_fits { o with frames := o.frames + extra } entropy hfits
  rw [halt?_play hfits] at hhalt
  rw [hplay, frames_add, hhalt, play_of_fits o entropy hfits, ← List.append_assoc]
  exact ⟨_, rfl⟩

/-- A file that is not played sees no step. -/
theorem outcomes_play_of_failure {file : RomFile} {failure : Failure}
    (h : file.failure? = some failure) :
    (Machine.new o.config entropy).outcomes (play o entropy file) = [] := by
  refine outcomes_of_no_step ?_
  cases file with
  | notOpened reason => exact List.not_mem_nil
  | unreadable => simp [play]
  | contents bytes =>
    have hfits : ¬bytes.length ≤ Machine.programCapacity := by
      intro hfits
      rw [RomFile.failure?_eq_none_iff.mpr ⟨bytes, rfl, hfits⟩] at h
      cases h
    simp [play_of_not_fits o entropy hfits]

end Script

/-- If no key is held, a machine that waits is still waiting after any frames, and nothing has been
listed or drawn. -/
theorem Run.frames_of_suspended {o : Options} {r : Run} (hheld : o.held = [])
    (h : r.machine.step.1 = .suspended) (k : Nat) :
    let r' := (r.frames o k).2
    r'.machine.step.1 = .suspended ∧ r'.machine.screen = r.machine.screen ∧
      r'.listing = r.listing := by
  intro r'
  obtain ⟨x, hm⟩ := suspended_iff.mp h
  have hquiet : ∀ c ∈ Script.frames o.held o.cycles k r.machine, c.endsWait = false := by
    refine (Script.byCycles_frames o.cycles k r.machine).forall_mem (fun key hkey => ?_) rfl rfl rfl
    rw [hheld] at hkey
    cases hkey
  have hfollows : r.Follows o _ r' := (follows_frames o k r).2
  have hstill := standsStill_after hm hquiet
  rw [hfollows.machine_eq, hfollows.listing_eq, executed_of_awaiting hm hquiet]
  exact ⟨suspended_iff.mpr ⟨x, hstill.mode_eq.trans hm⟩, hstill.screen_eq, ite_self _⟩

/-- If no key is held, a program that has begun to wait is not ended, and more frames print the
same. -/
theorem output_of_suspended {o : Options} (hheld : o.held = []) (name : String)
    {bytes : List UInt8} (entropy : Random.Key) (threshold : Option Level)
    (hfits : bytes.length ≤ Machine.programCapacity) {front back : List Outcome}
    (hsplit : (Machine.new o.config entropy).outcomes
      (Script.play o entropy (.contents bytes)) = front ++ .suspended :: back) {n : Nat}
    (hn : o.frames ≤ n) :
    (play { o with frames := n } name (.contents bytes) entropy threshold).output =
      (play o name (.contents bytes) entropy threshold).output := by
  let m := Machine.new o.config entropy
  let calls := Script.play o entropy (.contents bytes)
  obtain ⟨hback, x, hm⟩ := suspended_for_good (Script.endsWait_of_mem_play hheld hfits) hsplit
  have hhalt : m.halt? calls = none := by
    cases hhalt : m.halt? calls with
    | none => rfl
    | some f =>
      exact absurd (Script.endsWith_play hfits hhalt) (not_endsWith_of_suspended hsplit hback)
  -- so all the calls are made again, and the machine waits through those that are added
  obtain ⟨more, hmore⟩ := Script.exists_play_frames_eq hfits hn hhalt
  have hquiet : ∀ c ∈ more, c.endsWait = false := by
    intro c hc
    have hmem : c ∈ Script.play { o with frames := n } entropy (.contents bytes) := by
      rw [hmore]
      exact List.mem_append_right _ hc
    exact Script.endsWait_of_mem_play (o := { o with frames := n }) hheld hfits c hmem
  have hscreen : (m.after (calls ++ more)).screen = (m.after calls).screen := by
    rw [after_append]
    exact (standsStill_after hm hquiet).screen_eq
  have hexecuted : m.executed (calls ++ more) = m.executed calls := by
    rw [executed_append, executed_of_awaiting hm hquiet, List.append_nil]
  have hplay : (play { o with frames := n } name (.contents bytes) entropy threshold).output =
      (m.after (calls ++ more)).screen.text ++
        (if o.listing then (Listing.extend ∅ (m.executed (calls ++ more))).text else "") := by
    rw [← hmore]
    exact (play_of_fits { o with frames := n } name entropy threshold hfits).1
  rw [hplay, hscreen, hexecuted]
  exact (play_of_fits o name entropy threshold hfits).1.symm

/-- **Leaving out the rest of a frame is of no consequence.** Say that no character which is held
down stands for a key. Then a patient player reports the same, the journal and all, and is at the
same point at the end of every frame, the machine, the listing and the count of redrawn frames
included. The steps that it makes after one that is suspended come to nothing, in the same frame
and in later ones. And once a step of a run is suspended all later ones are, so with more frames the
same is printed. -/
theorem patient_play_indistinguishable (o : Options) (name : String) (file : RomFile)
    (entropy : Random.Key) (threshold : Option Level)
    (hhold : ∀ c ∈ o.hold.toList, Keyboard.code? c = none) :
    let m := Machine.new o.config entropy
    let calls := Script.play o entropy file
    playPatiently o name file entropy threshold = play o name file entropy threshold ∧
    (∀ begun, Run.begin? o name file entropy threshold = .ok begun →
      (∀ k, begun.patientFrames o k = begun.frames o k) ∧
      (begun.frames o o.frames).2.machine = m.after calls) ∧
    (∀ r : Run, r.machine.step.1 = .suspended →
      (∀ n, r.patientCycles o n = (none, r)) ∧
      ∀ k, let r' := (r.patientFrames o k).2
        r'.machine.step.1 = .suspended ∧ r'.machine.screen = r.machine.screen ∧
          r'.listing = r.listing) ∧
    ∀ front back, m.outcomes calls = front ++ .suspended :: back →
      (∀ out ∈ back, out = .suspended) ∧
      ∀ n, o.frames ≤ n →
        (play { o with frames := n } name file entropy threshold).output =
          (play o name file entropy threshold).output := by
  intro m calls
  have hheld : o.held = [] := Options.held_eq_nil_iff.mpr hhold
  refine ⟨playPatiently_eq hheld name file entropy threshold, fun begun hbegin => ⟨?_, ?_⟩,
    fun r hr => ⟨Run.patientCycles_of_suspended hr, fun k => ?_⟩, fun front back hsplit => ?_⟩
  · intro k
    exact Run.patientFrames_eq hheld k begun
  · cases hfile : file.failure? with
    | some failure =>
      rw [Run.begin?_of_failure o name entropy threshold hfile] at hbegin
      cases hbegin
    | none =>
      obtain ⟨bytes, rfl, hfits⟩ := RomFile.failure?_eq_none_iff.mp hfile
      obtain ⟨begun', hbegin', -, hfollows⟩ :=
        Run.follows_play o name entropy threshold hfits
      cases hbegin.symm.trans hbegin'
      exact hfollows.machine_eq
  · rw [Run.patientFrames_eq hheld]
    exact Run.frames_of_suspended hheld hr k
  · cases hfile : file.failure? with
    | some failure =>
      have hnone : m.outcomes calls = [] := Script.outcomes_play_of_failure hfile
      rw [hnone] at hsplit
      simp at hsplit
    | none =>
      obtain ⟨bytes, rfl, hfits⟩ := RomFile.failure?_eq_none_iff.mp hfile
      refine ⟨?_, fun n hn => output_of_suspended hheld name entropy threshold hfits hsplit hn⟩
      exact (suspended_for_good (Script.endsWait_of_mem_play hheld hfits) hsplit).1

set_option maxRecDepth 20000 in
/-- A program asks for a key in its first frame, and the only character that is held is none of the
keypad. -/
theorem waits_in_first_frame :
    let o : Options := { frames := 2, cycles := 3, hold := "?", listing := true }
    let rom : RomFile := .contents [0xF1, 0x0A]
    let entropy := Random.Key.ofSeed 0
    (∀ c ∈ o.hold.toList, Keyboard.code? c = none) ∧
    (Machine.new o.config entropy).outcomes (Script.play o entropy rom) =
      [.executed 0x200 (.waitForKey 1), .suspended, .suspended] ∧
    playPatiently o "" rom entropy none = play o "" rom entropy none ∧
    (play { o with frames := 600 } "" rom entropy none).output =
      (play o "" rom entropy none).output := by
  intro o rom entropy
  have hhold : ∀ c ∈ o.hold.toList, Keyboard.code? c = none := by
    simp [o, Keyboard.code?]
  have houtcomes : (Machine.new o.config entropy).outcomes (Script.play o entropy rom) =
      [.executed 0x200 (.waitForKey 1), .suspended, .suspended] := by
    decide +kernel
  obtain ⟨hsame, -, -, hidle⟩ := patient_play_indistinguishable o "" rom entropy none hhold
  exact ⟨hhold, houtcomes, hsame,
    (hidle [.executed 0x200 (.waitForKey 1)] [.suspended] houtcomes).2 600 (by decide)⟩

end ChipEight
