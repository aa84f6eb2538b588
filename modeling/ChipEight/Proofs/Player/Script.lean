import ChipEight.Player.Report
import ChipEight.Proofs.Machine.History

/-!
# ChipEight.Proofs.Player.Script

**The player as a host.** All that a player does to its machine are calls that any host can make.
`Script` says which ones, cycle by cycle and frame by frame; what comes next depends on the machine
only through how its steps end. `play_of_fits` says that a run is told by its script: what is
printed are the screen after these calls and the instructions executed meanwhile, and a run fails
with the first fault among its steps that ends the program.

So what is known of machines after any calls holds in the course of every run. In particular the
machine moves every key that there is (`Machine.call_key`), so no run is given up once its program
has been loaded.
-/

namespace ChipEight

/-! ### Scripts -/

namespace Script

variable (held : List Key)

/-- The held keys are moved, one after the other. -/
def moves (isDown : Bool) : List Call :=
  held.map fun k => .input k.code isDown

/-- The held keys are let go of and pressed again. -/
def repress : List Call :=
  moves held false ++ moves held true

/-- What comes after a cycle, as its step has ended. -/
def pace : Outcome → Pace
  | .executed _ _ => .onward
  | .suspended => if held.isEmpty then .idle else .onward
  | .failed f => if f.endsProgram then .ended (.halted f) else .onward

/-- The calls of one cycle: a step, and the keys once more if the machine waits for one. -/
def cycle (m : Machine) : List Call :=
  .step :: if m.step.1 = .suspended then repress held else []

/-- The calls of at most `n` cycles. -/
def cycles : Nat → Machine → List Call
  | 0, _ => []
  | n + 1, m =>
    cycle held m ++
      match pace held m.step.1 with
      | .onward => cycles n (m.after (cycle held m))
      | _ => []

/-- The calls of a frame of `length` cycles. -/
def frame (length : Nat) (m : Machine) : List Call :=
  cycles held length m ++
    if (m.halt? (cycles held length m)).isNone then [.tick, .refresh] else []

/-- The calls of at most `n` frames. -/
def frames (length : Nat) : Nat → Machine → List Call
  | 0, _ => []
  | n + 1, m =>
    frame held length m ++
      if (m.halt? (frame held length m)).isNone then
        frames length n (m.after (frame held length m))
      else []

/-- The program is loaded and the held keys are pressed. -/
def opening (bytes : List UInt8) : List Call :=
  .loadFile (some bytes) :: moves held true

/-- The calls that a player makes of a new machine. -/
def play (o : Options) (entropy : Random.Key) : RomFile → List Call
  | .notOpened _ => []
  | .unreadable => [.loadFile none]
  | .contents bytes =>
    if bytes.length ≤ Machine.programCapacity then
      opening o.held bytes ++ frames o.held o.cycles o.frames
        ((Machine.new o.config entropy).after (opening o.held bytes))
    else [.loadFile (some bytes)]

theorem play_of_fits (o : Options) (entropy : Random.Key) {bytes : List UInt8}
    (h : bytes.length ≤ Machine.programCapacity) :
    play o entropy (.contents bytes) = opening o.held bytes ++ frames o.held o.cycles o.frames
      ((Machine.new o.config entropy).after (opening o.held bytes)) :=
  if_pos h

theorem play_of_not_fits (o : Options) (entropy : Random.Key) {bytes : List UInt8}
    (h : ¬bytes.length ≤ Machine.programCapacity) :
    play o entropy (.contents bytes) = [.loadFile (some bytes)] :=
  if_neg h

end Script

/-! ### Files with programs -/

theorem Call.fault?_loadFile_of_fits {bytes : List UInt8}
    (h : bytes.length ≤ Machine.programCapacity) : (Call.loadFile (some bytes)).fault? = none :=
  if_neg (Nat.not_lt.mpr h)

theorem Machine.call_loadFile_of_fits (m : Machine) {bytes : List UInt8}
    (h : bytes.length ≤ Machine.programCapacity) :
    m.call (.loadFile (some bytes)) = (.done, m.put Machine.programOrigin bytes) :=
  transition_iff.mp (.written (Call.fault?_loadFile_of_fits h) rfl)

/-- A program that cannot be loaded is not reported either. -/
theorem Machine.events_loadFile_of_fault (m : Machine) {contents : Option (List UInt8)} {f : Fault}
    (hf : (Call.loadFile contents).fault? = some f) : m.events (.loadFile contents) = [] := by
  cases contents with
  | none => rfl
  | some bytes =>
    have hcall : m.call (.load bytes) = (.refused f, m) := transition_iff.mp (.refused hf)
    show m.loadEvents bytes = []
    rw [loadEvents, hcall]

/-- Why the program in a file cannot be played, if so. -/
def RomFile.failure? : RomFile → Option Failure
  | .notOpened reason => some (.notOpened reason)
  | .unreadable => some (.fault .unreadable)
  | .contents bytes => (Call.loadFile (some bytes)).fault?.map .fault

theorem RomFile.failure?_eq_none_iff {file : RomFile} :
    file.failure? = none ↔
      ∃ bytes, file = .contents bytes ∧ bytes.length ≤ Machine.programCapacity := by
  cases file with
  | contents bytes => simp [failure?, Call.fault?, Call.programFault?]
  | _ => simp [failure?]

/-! ### Keys -/

theorem Call.fault?_key (k : Key) (isDown : Bool) : (Call.input k.code isDown).fault? = none := by
  simp [Call.fault?]

/-- The machine moves every key that there is. -/
theorem Machine.call_key (m : Machine) (k : Key) (isDown : Bool) :
    (m.call (.input k.code isDown)).1 = .done := by
  have ht := m.call_transition (.input k.code isDown)
  generalize m.call (.input k.code isDown) = called at ht ⊢
  obtain ⟨r, m'⟩ := called
  cases ht with
  | refused hf =>
    rw [Call.fault?_key] at hf
    cases hf
  | written hf hb => cases hb
  | moved hk h => rfl
  | resumed hk hm => rfl

/-! ### Runs and their scripts -/

/-- The listing of instructions, each in place of earlier ones at its address. -/
def Listing.extend (listing : Listing Register) (executed : List (UInt16 × Instruction Register)) :
    Listing Register :=
  executed.foldl (fun listing e => listing.insert e.1 e.2) listing

theorem Listing.extend_append (listing : Listing Register)
    (es fs : List (UInt16 × Instruction Register)) :
    listing.extend (es ++ fs) = (listing.extend es).extend fs :=
  List.foldl_append

namespace Script

variable (held : List Key) (m : Machine)

theorem step_not_mem_moves (isDown : Bool) : .step ∉ moves held isDown := by
  simp [moves]

/-- After the step of a cycle no other comes in it. -/
theorem step_not_mem_answer (o : Outcome) :
    .step ∉ if o = .suspended then repress held else [] := by
  split <;> simp [repress, step_not_mem_moves]

theorem step_not_mem_opening (bytes : List UInt8) : .step ∉ opening held bytes := by
  simp [opening, step_not_mem_moves]

/-- There is one step in a cycle. -/
theorem outcomes_cycle : m.outcomes (cycle held m) = [m.step.1] := by
  rw [cycle, Machine.outcomes_step, Machine.outcomes_of_no_step (step_not_mem_answer held _)]

theorem executed_cycle : m.executed (cycle held m) = m.step.1.executed?.toList := by
  rw [Machine.executed, outcomes_cycle]
  cases h : m.step.1.executed? <;> simp [h]

theorem halt?_cycle : m.halt? (cycle held m) = m.step.1.fatal? := by
  rw [Machine.halt?, outcomes_cycle]
  cases h : m.step.1.fatal? <;> simp [h]

/-- The rest of a frame is left out if nobody can end a wait. -/
theorem pace_eq_idle_iff {held : List Key} {o : Outcome} :
    pace held o = .idle ↔ o = .suspended ∧ held = [] := by
  cases o with
  | suspended => cases held <;> simp [pace]
  | executed a i => simp [pace]
  | failed f => cases hf : f.endsProgram <;> simp [pace, hf]

/-- A cycle ends the run exactly with the faults that end programs. -/
theorem fatal?_eq (o : Outcome) :
    o.fatal? = match pace held o with
      | .ended (.halted f) => some f
      | _ => none := by
  cases o with
  | suspended => cases held <;> rfl
  | executed a i => rfl
  | failed f => cases hf : f.endsProgram <;> simp [Outcome.fatal?, pace, hf]

/-- Only a fault of its step can end a run in a cycle. -/
theorem eq_halted_of_pace {held : List Key} {o : Outcome} {e : Ending}
    (h : pace held o = .ended e) : ∃ f, e = .halted f := by
  cases o with
  | suspended => cases held <;> cases h
  | executed a i => cases h
  | failed f =>
    cases hf : f.endsProgram with
    | true =>
      rw [pace, if_pos hf] at h
      cases h
      exact ⟨f, rfl⟩
    | false => simp [pace, hf] at h

/-- The tick at the end of a frame does not end the run. -/
theorem halt?_frame (length : Nat) :
    m.halt? (frame held length m) = m.halt? (cycles held length m) := by
  have hend : .step ∉ if (m.halt? (cycles held length m)).isNone then [Call.tick, .refresh]
      else [] := by
    split <;> simp
  rw [frame, Machine.halt?_append, Machine.halt?_of_no_step hend, Option.or_none]

/-- A run that is ended in a frame stops short of its tick. -/
theorem frames_of_halted (length k : Nat) {f : Fault}
    (h : m.halt? (cycles held length m) = some f) :
    frames held length (k + 1) m = cycles held length m := by
  rw [frames, halt?_frame, h, frame, h]
  simp

theorem frames_of_onward (length k : Nat) (h : m.halt? (cycles held length m) = none) :
    frames held length (k + 1) m = cycles held length m ++ ([.tick, .refresh] ++
      frames held length k (m.after (cycles held length m ++ [.tick, .refresh]))) := by
  rw [frames, halt?_frame, h, frame, h]
  simp

end Script

namespace Run

/-- A run has got from one point to another by making calls of its machine. -/
structure Follows (o : Options) (r : Run) (calls : List Call) (r' : Run) : Prop where
  machine_eq : r'.machine = r.machine.after calls
  /-- What has been executed is listed if that is asked for. -/
  listing_eq : r'.listing =
    if o.listing then r.listing.extend (r.machine.executed calls) else r.listing

variable {o : Options} {r r' r'' : Run} {cs ds : List Call}

theorem Follows.refl (o : Options) (r : Run) : r.Follows o [] r where
  machine_eq := rfl
  listing_eq := (ite_self _).symm

theorem Follows.append (h : r.Follows o cs r') (h' : r'.Follows o ds r'') :
    r.Follows o (cs ++ ds) r'' where
  machine_eq := by rw [h'.machine_eq, h.machine_eq, Machine.after_append]
  listing_eq := by
    rw [h'.listing_eq, h.listing_eq, h.machine_eq, Machine.executed_append, Listing.extend_append]
    split <;> rfl

theorem Follows.of_no_step (h : .step ∉ cs) (hm : r'.machine = r.machine.after cs)
    (hl : r'.listing = r.listing) : r.Follows o cs r' where
  machine_eq := hm
  listing_eq := by
    rw [hl, Machine.executed_of_no_step h]
    exact (ite_self _).symm

/-! ### Keys are never refused -/

theorem send_key (r : Run) (k : Key) (isDown : Bool) :
    r.send (.input k.code isDown) = (.done, (r.send (.input k.code isDown)).2) :=
  Prod.ext (r.machine.call_key k isDown) rfl

theorem move_eq (isDown : Bool) (held : List Key) (r : Run) :
    r.move isDown held = (none, (r.move isDown held).2) := by
  induction held generalizing r with
  | nil => rfl
  | cons k ks ih =>
    rw [move, send_key]
    exact ih _

theorem repress_eq (held : List Key) (r : Run) :
    r.repress held = (none, (r.repress held).2) := by
  rw [repress, move_eq]
  exact move_eq true held _

/-! ### Cycles -/

theorem follows_move (o : Options) (isDown : Bool) (held : List Key) (r : Run) :
    r.Follows o (Script.moves held isDown) (r.move isDown held).2 := by
  induction held generalizing r with
  | nil => exact .refl o r
  | cons k ks ih =>
    have hsend : r.Follows o [.input k.code isDown] (r.send (.input k.code isDown)).2 :=
      .of_no_step (by simp) rfl rfl
    rw [move, send_key]
    exact hsend.append (ih _)

theorem follows_repress (o : Options) (held : List Key) (r : Run) :
    r.Follows o (Script.repress held) (r.repress held).2 := by
  rw [repress, move_eq]
  exact (follows_move o false held r).append (follows_move o true held _)

theorem follows_step (o : Options) (r : Run) (h : r.machine.step.1.executed? = none) :
    r.Follows o [.step] r.step.2 where
  machine_eq := rfl
  listing_eq := by
    rw [Machine.executed_step, h]
    exact (ite_self _).symm

theorem follows_list (o : Options) (r : Run) {a : UInt16} {i : Instruction Register}
    (h : r.machine.step.1 = .executed a i) :
    r.Follows o [.step] (if o.listing then r.step.2.list a i else r.step.2) where
  machine_eq := by split <;> rfl
  listing_eq := by
    rw [Machine.executed_step, h]
    split <;> rfl

/-- A cycle makes the calls of its script, and what comes after it depends on how its step ends. -/
theorem follows_cycle (o : Options) (r : Run) :
    (r.cycle o).1 = Script.pace o.held r.machine.step.1 ∧
    r.Follows o (Script.cycle o.held r.machine) (r.cycle o).2 := by
  have hstep : r.step = (r.machine.step.1, r.step.2) := rfl
  unfold cycle Script.cycle
  rw [hstep]
  cases ho : r.machine.step.1 with
  | executed a i => exact ⟨rfl, by simpa using follows_list o r ho⟩
  | failed f => exact ⟨rfl, by simpa using follows_step o r (by rw [ho]; rfl)⟩
  | suspended =>
    have hfollows : r.Follows o [.step] r.step.2 := follows_step o r (by rw [ho]; rfl)
    cases hheld : o.held with
    | nil => exact ⟨rfl, by simpa [Script.repress, Script.moves] using hfollows⟩
    | cons k ks =>
      have hrepress := follows_repress o (k :: ks) r.step.2
      dsimp only
      rw [repress_eq]
      exact ⟨rfl, by simpa using hfollows.append hrepress⟩

theorem follows_cycles (o : Options) (n : Nat) (r : Run) :
    (r.cycles o n).1 = (r.machine.halt? (Script.cycles o.held n r.machine)).map .halted ∧
    r.Follows o (Script.cycles o.held n r.machine) (r.cycles o n).2 := by
  induction n generalizing r with
  | zero => exact ⟨rfl, .refl o r⟩
  | succ n ih =>
    obtain ⟨hpace, hcycle⟩ := follows_cycle o r
    have hpair : r.cycle o = (Script.pace o.held r.machine.step.1, (r.cycle o).2) :=
      Prod.ext hpace rfl
    rw [cycles, hpair, Script.cycles, Machine.halt?_append, Script.halt?_cycle,
      Script.fatal?_eq o.held]
    cases hp : Script.pace o.held r.machine.step.1 with
    | onward =>
      obtain ⟨hhalt, hrest⟩ := ih (r.cycle o).2
      rw [hcycle.machine_eq] at hhalt hrest
      exact ⟨hhalt, hcycle.append hrest⟩
    | idle => exact ⟨rfl, by rwa [List.append_nil]⟩
    | ended e =>
      obtain ⟨f, rfl⟩ := Script.eq_halted_of_pace hp
      exact ⟨rfl, by rwa [List.append_nil]⟩

/-! ### Frames -/

theorem follows_endFrame (o : Options) (r : Run) : r.Follows o [.tick, .refresh] r.endFrame :=
  .of_no_step (by simp) rfl rfl

theorem follows_note (o : Options) (r : Run) (e : Event) : r.Follows o [] (r.note e) :=
  .of_no_step (by simp) rfl rfl

theorem follows_playFrame (o : Options) (r : Run) :
    (r.playFrame o).1 = (r.machine.halt? (Script.frame o.held o.cycles r.machine)).map .halted ∧
    r.Follows o (Script.frame o.held o.cycles r.machine) (r.playFrame o).2 := by
  obtain ⟨hhalt, hcycles⟩ := follows_cycles o o.cycles r
  have hpair : r.cycles o o.cycles =
      ((r.machine.halt? (Script.cycles o.held o.cycles r.machine)).map .halted,
        (r.cycles o o.cycles).2) :=
    Prod.ext hhalt rfl
  rw [playFrame, hpair, Script.frame, Machine.halt?_append]
  cases r.machine.halt? (Script.cycles o.held o.cycles r.machine) with
  | some f => exact ⟨rfl, hcycles.append (follows_note o _ _)⟩
  | none => exact ⟨rfl, hcycles.append (follows_endFrame o _)⟩

theorem follows_frames (o : Options) (n : Nat) (r : Run) :
    (r.frames o n).1 = (r.machine.halt? (Script.frames o.held o.cycles n r.machine)).map .halted ∧
    r.Follows o (Script.frames o.held o.cycles n r.machine) (r.frames o n).2 := by
  induction n generalizing r with
  | zero => exact ⟨rfl, .refl o r⟩
  | succ n ih =>
    obtain ⟨hhalt, hframe⟩ := follows_playFrame o r
    have hpair : r.playFrame o =
        ((r.machine.halt? (Script.frame o.held o.cycles r.machine)).map .halted,
          (r.playFrame o).2) :=
      Prod.ext hhalt rfl
    rw [frames, hpair, Script.frames, Machine.halt?_append]
    cases r.machine.halt? (Script.frame o.held o.cycles r.machine) with
    | some f => exact ⟨rfl, by simpa using hframe⟩
    | none =>
      obtain ⟨hrest, hframes⟩ := ih (r.playFrame o).2
      rw [hframe.machine_eq] at hrest hframes
      exact ⟨hrest, hframe.append hframes⟩

/-! ### Whole runs -/

theorem load_of_fault (o : Options) (name : String) {contents : Option (List UInt8)} (r : Run)
    {f : Fault} (hf : (Call.loadFile contents).fault? = some f) :
    r.load o name contents = .error (r.giveUp (.fault f)) := by
  have hcall : r.machine.call (.loadFile contents) = (.refused f, r.machine) :=
    Machine.transition_iff.mp (.refused hf)
  have hsend : r.send (.loadFile contents) = (.refused f, r) := by
    rw [send, hcall, Machine.events_loadFile_of_fault _ hf]
    rfl
  rw [load, hsend]

/-- A file that fails is not played. -/
theorem begin?_of_failure (o : Options) (name : String) {file : RomFile} (entropy : Random.Key)
    (threshold : Option Level) {failure : Failure} (h : file.failure? = some failure) :
    begin? o name file entropy threshold =
      .error { output := "", failure := some failure, journal := .empty threshold } := by
  cases file with
  | notOpened reason =>
    cases h
    rfl
  | unreadable =>
    cases h
    have hf : (Call.loadFile none).fault? = some .unreadable := rfl
    exact load_of_fault o name _ hf
  | contents bytes =>
    obtain ⟨f, hf, rfl⟩ := Option.map_eq_some_iff.mp h
    exact load_of_fault o name _ hf

/-- A program that fits is loaded, and no held key is refused. -/
theorem begin?_of_fits (o : Options) (name : String) {bytes : List UInt8} (entropy : Random.Key)
    (threshold : Option Level) (h : bytes.length ≤ Machine.programCapacity) :
    let r := start (Machine.new o.config entropy) (.empty threshold)
    let loaded := (r.send (.loadFile (some bytes))).2.noteOptions o name
    begin? o name (.contents bytes) entropy threshold = .ok (loaded.press o.held).2 := by
  intro r loaded
  have hdone : (r.send (.loadFile (some bytes))).1 = .done :=
    congrArg Prod.fst (Machine.call_loadFile_of_fits _ h)
  have hsend : r.send (.loadFile (some bytes)) = (.done, (r.send (.loadFile (some bytes))).2) :=
    Prod.ext hdone rfl
  have hpress : loaded.press o.held = (none, (loaded.press o.held).2) :=
    move_eq true o.held loaded
  show r.load o name (some bytes) = .ok (loaded.press o.held).2
  rw [load, hsend]
  dsimp only
  rw [hpress]

/-- If nothing but a fault of a step has ended a run, what it has shown is printed. -/
theorem finish_map_halted (o : Options) (halt : Option Fault) (r : Run) :
    r.finish o (halt.map .halted) = r.close o halt := by
  cases halt <;> rfl

end Run

theorem play_of_failure (o : Options) (name : String) {file : RomFile} (entropy : Random.Key)
    (threshold : Option Level) {failure : Failure} (h : file.failure? = some failure) :
    play o name file entropy threshold =
      { output := "", failure := some failure, journal := .empty threshold } := by
  rw [play, Run.begin?_of_failure o name entropy threshold h]

/-- A program that fits is played by the calls of its script. -/
theorem Run.follows_play (o : Options) (name : String) {bytes : List UInt8} (entropy : Random.Key)
    (threshold : Option Level) (h : bytes.length ≤ Machine.programCapacity) :
    let m := Machine.new o.config entropy
    let calls := Script.play o entropy (.contents bytes)
    ∃ begun, begin? o name (.contents bytes) entropy threshold = .ok begun ∧
      (begun.frames o o.frames).1 = (m.halt? calls).map .halted ∧
      (start m (.empty threshold)).Follows o calls (begun.frames o o.frames).2 := by
  intro m calls
  let r := start m (.empty threshold)
  let loaded := (r.send (.loadFile (some bytes))).2.noteOptions o name
  let begun := (loaded.press o.held).2
  have hloaded : r.Follows o [.loadFile (some bytes)] loaded := .of_no_step (by simp) rfl rfl
  have hbegun : r.Follows o (Script.opening o.held bytes) begun :=
    hloaded.append (follows_move o true o.held loaded)
  have hmachine : begun.machine = m.after (Script.opening o.held bytes) := hbegun.machine_eq
  obtain ⟨hhalt, hframes⟩ := follows_frames o o.frames begun
  have hcalls : calls = Script.opening o.held bytes ++
      Script.frames o.held o.cycles o.frames begun.machine := by
    rw [hmachine]
    exact Script.play_of_fits o entropy h
  refine ⟨begun, begin?_of_fits o name entropy threshold h, ?_, ?_⟩
  · rw [hhalt, hcalls, Machine.halt?_append,
      Machine.halt?_of_no_step (Script.step_not_mem_opening o.held bytes), ← hmachine]
    rfl
  · rw [hcalls]
    exact hbegun.append hframes

/-- **A run is told by its script.** If a program fits, the screen after the calls of the script is
printed, and behind it what they have executed, if that is asked for; and the run fails with the
first fault among them that ends the program. -/
theorem play_of_fits (o : Options) (name : String) {bytes : List UInt8} (entropy : Random.Key)
    (threshold : Option Level) (h : bytes.length ≤ Machine.programCapacity) :
    let m := Machine.new o.config entropy
    let calls := Script.play o entropy (.contents bytes)
    let report := play o name (.contents bytes) entropy threshold
    report.output = (m.after calls).screen.text ++
      (if o.listing then (Listing.extend ∅ (m.executed calls)).text else "") ∧
    report.failure = (m.halt? calls).map .fault := by
  intro m calls report
  obtain ⟨begun, hbegin, hhalt, hfollows⟩ := Run.follows_play o name entropy threshold h
  have hreport : report = (begun.frames o o.frames).2.finish o (begun.frames o o.frames).1 := by
    unfold report play
    rw [hbegin]
  rw [hreport, hhalt, Run.finish_map_halted, Run.close, Run.output, hfollows.machine_eq,
    hfollows.listing_eq]
  cases o.listing <;> exact ⟨rfl, rfl⟩

end ChipEight
