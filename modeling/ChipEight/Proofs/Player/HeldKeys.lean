import ChipEight.Proofs.Machine.Parts
import ChipEight.Proofs.Machine.Waiting
import ChipEight.Proofs.Player.Cycles

/-!
# ChipEight.Proofs.Player.HeldKeys

**Keys that are held down all the time.** A player that holds keys finds every one of them down at
each step, and it answers each wait for a key right after the first step that the machine has been
suspended in: the held keys are let go of and pressed again, and the first of them is the one that
the program gets. So waiting costs a program one cycle a time (`held_keys_answer`).

A script comes cycle by cycle (`ByCycles`), and `KeysDown` is what is true between its cycles.
-/

namespace ChipEight

open Machine

/-! ### Keys moved one after the other -/

namespace Keypad

/-- Moves keys, one after the other. -/
def setAll (p : Keypad) (keys : List Key) (isDown : Bool) : Keypad :=
  keys.foldl (fun p k => p.set k isDown) p

theorem setAll_cons (p : Keypad) (k : Key) (ks : List Key) (isDown : Bool) :
    p.setAll (k :: ks) isDown = (p.set k isDown).setAll ks isDown := rfl

theorem isDown_setAll (p : Keypad) (keys : List Key) (isDown : Bool) (code : UInt8) :
    (p.setAll keys isDown).isDown code =
      if code ∈ keys.map Key.code then isDown else p.isDown code := by
  induction keys generalizing p with
  | nil => rfl
  | cons k ks ih =>
    rw [setAll_cons, ih, isDown_set]
    by_cases hk : code = k.code <;> simp [hk]

/-- Keys that are moved twice are where they have been moved last. -/
theorem setAll_setAll (p : Keypad) (keys : List Key) (a b : Bool) :
    (p.setAll keys a).setAll keys b = p.setAll keys b := by
  refine ext_isDown fun code => ?_
  rw [isDown_setAll, isDown_setAll, isDown_setAll]
  split <;> rfl

end Keypad

namespace Script

variable {held : List Key} {k : Key} {ks : List Key} {m : Machine} {x : Register}

theorem after_moves (held : List Key) (isDown : Bool) (h : isDown = false ∨ m.mode = .running) :
    m.after (moves held isDown) = { m with keypad := m.keypad.setAll held isDown } := by
  induction held generalizing m with
  | nil => rfl
  | cons k ks ih =>
    have hcall := transition_iff.mp (.moved (Key.ofCode?_code k) h)
    rw [moves, List.map_cons, after_cons, hcall]
    exact ih h

/-- The first of the keys is the one that is waited for. -/
theorem after_press_of_awaiting (hm : m.mode = .awaiting x) (k : Key) (ks : List Key) :
    m.after (moves (k :: ks) true) =
      { m with
        keypad := m.keypad.setAll (k :: ks) true
        v := m.v.set x k.code x.isLt
        mode := .running } := by
  rw [moves, List.map_cons, after_cons, call_press_of_awaiting hm]
  exact after_moves ks true (.inr rfl)

theorem after_repress_of_awaiting (hm : m.mode = .awaiting x)
    (hkeys : m.keypad = Keypad.released.setAll (k :: ks) true) :
    m.after (repress (k :: ks)) =
      { m with v := m.v.set x k.code x.isLt, mode := .running } := by
  have hkeypad : (m.keypad.setAll (k :: ks) false).setAll (k :: ks) true = m.keypad := by
    rw [hkeys, Keypad.setAll_setAll, Keypad.setAll_setAll]
  rw [repress, after_append, after_moves _ _ (.inl rfl)]
  refine (after_press_of_awaiting (by exact hm) k ks).trans ?_
  simp only [hkeypad]

/-! ### Between cycles -/

/-- What is true between cycles, after the calls of the past: the held keys are down, and the
machine waits for a key exactly if its last step has asked for one. -/
structure KeysDown (held : List Key) (m : Machine) (past : List Call) : Prop where
  keypad_eq : (m.after past).keypad = Keypad.released.setAll held true
  mode_iff : ∀ x, (m.after past).mode = .awaiting x ↔
    ∃ a, (m.outcomes past).getLast? = some (.executed a (.waitForKey x))
  /-- A step has been suspended exactly if the one before it has asked for a key. -/
  suspended_iff : ∀ front o back, m.outcomes past = front ++ o :: back →
    (o = .suspended ↔ ∃ a x, front.getLast? = some (.executed a (.waitForKey x)))

/-- A wait that a cycle has come upon is over at its end. -/
theorem after_cycle (hkeys : m.keypad = Keypad.released.setAll (k :: ks) true) :
    (m.after (cycle (k :: ks) m)).keypad = m.keypad ∧
    ((m.after (cycle (k :: ks) m)).mode = .awaiting x ↔
      ∃ a, m.step.1 = .executed a (.waitForKey x)) := by
  cases hm : m.mode with
  | awaiting y =>
    have hstep := step_of_awaiting hm
    have hafter : m.after (cycle (k :: ks) m) =
        { m with v := m.v.set y k.code y.isLt, mode := .running } := by
      rw [cycle, hstep, if_pos rfl, after_cons, call_step, hstep]
      exact after_repress_of_awaiting hm hkeys
    rw [hafter, hstep]
    simp
  | running =>
    have hstep : m.step.1 ≠ .suspended := by
      rw [ne_eq, suspended_iff, hm]
      simp
    have hafter : m.after (cycle (k :: ks) m) = m.step.2 := by
      rw [cycle, if_neg hstep]
      rfl
    rw [hafter]
    exact ⟨keypad_of_steps m.step_steps, mode_iff_of_steps m.step_steps hm⟩

variable {past : List Call}

theorem KeysDown.cycle (h : KeysDown (k :: ks) m past) :
    KeysDown (k :: ks) m (past ++ Script.cycle (k :: ks) (m.after past)) := by
  have houts : m.outcomes (past ++ Script.cycle (k :: ks) (m.after past)) =
      m.outcomes past ++ [(m.after past).step.1] := by
    rw [outcomes_append, outcomes_cycle]
  refine ⟨?_, fun x => ?_, fun front o back hsplit => ?_⟩
  · rw [after_append, (after_cycle (x := 0) h.keypad_eq).1, h.keypad_eq]
  · rw [after_append, (after_cycle h.keypad_eq).2, houts, List.getLast?_concat]
    simp
  · rw [houts] at hsplit
    rcases cases_of_concat_eq hsplit with ⟨rfl, rfl, -⟩ | ⟨back', hpast, -⟩
    · rw [Machine.suspended_iff, exists_comm]
      exact exists_congr h.mode_iff
    · exact h.suspended_iff front o back' hpast

theorem KeysDown.endFrame (h : KeysDown held m past) :
    KeysDown held m (past ++ [.tick, .refresh]) := by
  have houts : m.outcomes (past ++ [.tick, .refresh]) = m.outcomes past := by
    have hquiet : .step ∉ [Call.tick, .refresh] := by simp
    rw [outcomes_append, outcomes_of_no_step hquiet, List.append_nil]
  have hafter : m.after (past ++ [.tick, .refresh]) = (m.after past).tick.2.refresh.2 := by
    rw [after_append]
    rfl
  refine ⟨?_, ?_, ?_⟩
  · rw [hafter]
    exact h.keypad_eq
  · rw [hafter, houts]
    exact h.mode_iff
  · rw [houts]
    exact h.suspended_iff

/-! ### How waits are answered -/

theorem KeysDown.answered (h : KeysDown (k :: ks) m past)
    (hs : (m.after past).step.1 = .suspended) :
    ∃ x, (m.after past).mode = .awaiting x ∧
      (∃ a, (m.outcomes past).getLast? = some (.executed a (.waitForKey x))) ∧
      m.after (past ++ .step :: repress (k :: ks)) =
        { m.after past with v := (m.after past).v.set x k.code x.isLt, mode := .running } := by
  obtain ⟨x, hm⟩ := Machine.suspended_iff.mp hs
  refine ⟨x, hm, (h.mode_iff x).mp hm, ?_⟩
  rw [after_append, after_cons, call_step, step_of_awaiting hm]
  exact after_repress_of_awaiting hm h.keypad_eq

section

variable {front back : List Outcome} {o o' : Outcome}

theorem KeysDown.next_suspended_iff (h : KeysDown held m past)
    (hsplit : m.outcomes past = front ++ o :: o' :: back) :
    o' = .suspended ↔ ∃ a x, o = .executed a (.waitForKey x) := by
  have hnext : m.outcomes past = (front ++ [o]) ++ o' :: back := by
    rw [hsplit, List.append_assoc, List.singleton_append]
  rw [h.suspended_iff _ _ _ hnext, List.getLast?_concat]
  simp

/-- After a step that asks for a key no step is left to be made, or the next one is suspended. -/
theorem KeysDown.next_eq_suspended (h : KeysDown held m past) {n : Nat} (huses : UsesUp m past n)
    {a : UInt16} (hsplit : m.outcomes past = front ++ .executed a (.waitForKey x) :: back)
    (hlength : front.length + 1 < n) : ∃ rest, back = .suspended :: rest := by
  cases back with
  | cons o' rest =>
    obtain rfl := (h.next_suspended_iff hsplit).mpr ⟨a, x, rfl⟩
    exact ⟨rest, rfl⟩
  | nil =>
    -- a run that is over early has been ended by a fault
    cases hhalt : m.halt? past with
    | none =>
      have hcount := huses.length_eq hhalt
      rw [hsplit, List.length_append, List.length_singleton] at hcount
      omega
    | some f =>
      have hlast := (huses.getLast?_eq f hhalt).2
      rw [hsplit, List.getLast?_concat] at hlast
      cases hlast

end

/-! ### How many steps there are -/

/-- With keys held, cycles go on until the program ends. -/
theorem cycles_succ (k : Key) (ks : List Key) (n : Nat) (m : Machine) :
    cycles (k :: ks) (n + 1) m = cycle (k :: ks) m ++
      if (m.halt? (cycle (k :: ks) m)).isNone then
        cycles (k :: ks) n (m.after (cycle (k :: ks) m))
      else [] := by
  rw [cycles, halt?_cycle, fatal?_eq (k :: ks)]
  cases hp : pace (k :: ks) m.step.1 with
  | onward => rfl
  | idle => cases (pace_eq_idle_iff.mp hp).2
  | ended e =>
    obtain ⟨f, rfl⟩ := eq_halted_of_pace hp
    rfl

theorem usesUp_cycles (k : Key) (ks : List Key) (n : Nat) (m : Machine) :
    UsesUp m (cycles (k :: ks) n m) n := by
  induction n generalizing m with
  | zero => exact .of_no_step List.not_mem_nil
  | succ n ih =>
    rw [cycles_succ, Nat.add_comm]
    exact (usesUp_cycle (k :: ks) m).append (ih _)

theorem usesUp_frames (k : Key) (ks : List Key) (length n : Nat) (m : Machine) :
    UsesUp m (frames (k :: ks) length n m) (n * length) := by
  induction n generalizing m with
  | zero =>
    rw [Nat.zero_mul]
    exact .of_no_step List.not_mem_nil
  | succ n ih =>
    have hframe : UsesUp m (frame (k :: ks) length m) length :=
      (usesUp_cycles k ks length m).append (.of_no_step (by simp))
    rw [frames, Nat.succ_mul, Nat.add_comm]
    exact hframe.append (ih _)

/-! ### Whole scripts -/

theorem keysDown_opening (config : Config) (entropy : Random.Key) {bytes : List UInt8}
    (h : bytes.length ≤ Machine.programCapacity) :
    KeysDown held (new config entropy) (opening held bytes) := by
  have houts : (new config entropy).outcomes (opening held bytes) = [] :=
    outcomes_of_no_step (step_not_mem_opening held bytes)
  have hafter : (new config entropy).after (opening held bytes) =
      { (new config entropy).put Machine.programOrigin bytes with
        keypad := Keypad.released.setAll held true } := by
    rw [opening, after_cons, call_loadFile_of_fits _ h]
    exact after_moves held true (.inr rfl)
  refine ⟨?_, ?_, ?_⟩
  · rw [hafter]
  · intro x
    have hmode : ((new config entropy).after (opening held bytes)).mode = .running := by
      rw [hafter]
      rfl
    rw [hmode, houts]
    simp
  · rw [houts]
    simp

section

variable (o : Options) (entropy : Random.Key) {bytes : List UInt8}

theorem keysDown_play (hfits : bytes.length ≤ Machine.programCapacity) (hheld : o.held = k :: ks) :
    let m := new o.config entropy
    let calls := play o entropy (.contents bytes)
    KeysDown o.held m calls ∧
    ∀ before since, calls = before ++ .step :: since → KeysDown o.held m before ∧
      ∃ rest, .step :: since = cycle o.held (m.after before) ++ rest := by
  intro m calls
  have hcalls : calls = _ := play_of_fits o entropy hfits
  rw [hheld] at hcalls ⊢
  obtain ⟨hplayed, hsteps⟩ := (byCycles_frames o.cycles o.frames _).before_step
    (fun _ => KeysDown.cycle) (fun _ => KeysDown.endFrame) (keysDown_opening o.config entropy hfits)
  refine ⟨by rwa [hcalls], fun before since heq => ?_⟩
  rw [hcalls] at heq
  obtain ⟨before', rfl, hframes⟩ := exists_of_append_eq_step
    (step_not_mem_opening (k :: ks) bytes) heq
  exact hsteps before' since hframes

theorem usesUp_play (hfits : bytes.length ≤ Machine.programCapacity) (hheld : o.held = k :: ks) :
    UsesUp (new o.config entropy) (play o entropy (.contents bytes)) (o.frames * o.cycles) := by
  have hquiet := step_not_mem_opening (k :: ks) bytes
  have h := (UsesUp.of_no_step (m := new o.config entropy) hquiet).append
    (usesUp_frames k ks o.cycles o.frames _)
  rw [halt?_of_no_step hquiet, Nat.zero_add] at h
  rwa [play_of_fits o entropy hfits, hheld]

end

end Script

/-- The code of the first character that stands for a key is that of the first key. -/
theorem Options.exists_held_eq_cons {o : Options} {first : UInt8}
    (h : o.hold.toList.findSome? Keyboard.code? = some first) :
    ∃ k ks, o.held = k :: ks ∧ k.code = first := by
  rw [← List.head?_filterMap, ← o.map_code_held] at h
  cases hheld : o.held with
  | nil => simp [hheld] at h
  | cons k ks => exact ⟨k, ks, rfl, by simpa [hheld] using h⟩

/-- **Held keys answer every wait.** Say that a program fits and that some character which is held
down stands for a key, the first of them for the one with the code `first`. Then the program is
loaded and played. At every step exactly the keys of the held characters are down. If it is
suspended, the machine waits for a key because of the step before; the keys are moved at once, and
then the machine runs with `first` where it was waited for and is otherwise as it was. So no two
steps in a row are suspended, and a step that asks for a key is followed by one that is, unless it
is the last that there is. Nothing is refused, and so the run is not given up. -/
theorem held_keys_answer (o : Options) (name : String) {bytes : List UInt8} (entropy : Random.Key)
    (threshold : Option Level) {first : UInt8} (hfits : bytes.length ≤ Machine.programCapacity)
    (hhold : o.hold.toList.findSome? Keyboard.code? = some first) :
    let m := Machine.new o.config entropy
    let calls := Script.play o entropy (.contents bytes)
    (∃ begun, Run.begin? o name (.contents bytes) entropy threshold = .ok begun ∧
      (begun.frames o o.frames).2.machine = m.after calls ∧
      ∀ f, (begun.frames o o.frames).1 ≠ some (.refused f)) ∧
    (∀ before since, calls = before ++ .step :: since →
      let w := m.after before
      (∀ code, w.keypad.isDown code = true ↔
        ∃ c ∈ o.hold.toList, Keyboard.code? c = some code) ∧
      (w.step.1 = .suspended → ∃ x,
        w.mode = .awaiting x ∧
        (∃ a, (m.outcomes before).getLast? = some (.executed a (.waitForKey x))) ∧
        (∃ rest, since = Script.repress o.held ++ rest) ∧
        m.after (before ++ .step :: Script.repress o.held) =
          { w with v := w.v.set x first x.isLt, mode := .running })) ∧
    (∀ front back, m.outcomes calls ≠ front ++ .suspended :: .suspended :: back) ∧
    (∀ front a x back, m.outcomes calls = front ++ .executed a (.waitForKey x) :: back →
      front.length + 1 < o.frames * o.cycles → ∃ rest, back = .suspended :: rest) ∧
    ∀ f, .refused f ∉ m.replies calls := by
  intro m calls
  obtain ⟨k, ks, hheld, rfl⟩ := Options.exists_held_eq_cons hhold
  obtain ⟨begun, hbegin, hending, hfollows⟩ := Run.follows_play o name entropy threshold hfits
  obtain ⟨hplayed, hsteps⟩ := Script.keysDown_play o entropy hfits hheld
  have hmoved (f : Fault) : (begun.frames o o.frames).1 ≠ some (.refused f) := by
    rw [hending]
    cases m.halt? calls <;> simp
  refine ⟨⟨begun, hbegin, hfollows.machine_eq, hmoved⟩, fun before since hsplit => ?_, ?_, ?_, ?_⟩
  · obtain ⟨hbefore, rest, hrest⟩ := hsteps before since hsplit
    refine ⟨fun code => ?_, fun hs => ?_⟩
    · rw [hbefore.keypad_eq, Keypad.isDown_setAll, o.map_code_held, Keypad.isDown_released]
      simp
    · rw [hheld] at hbefore
      obtain ⟨x, hm, hasked, hafter⟩ := hbefore.answered hs
      rw [Script.cycle, if_pos hs] at hrest
      rw [hheld] at hrest ⊢
      exact ⟨x, hm, hasked, ⟨rest, (List.cons.inj hrest).2⟩, hafter⟩
  · intro front back hsplit
    obtain ⟨a, x, hsuspended⟩ := (hplayed.next_suspended_iff hsplit).mp rfl
    cases hsuspended
  · intro front a x back hsplit hlength
    exact hplayed.next_eq_suspended (Script.usesUp_play o entropy hfits hheld) hsplit hlength
  · intro f hf
    obtain ⟨c, hc, hfault⟩ := exists_of_refused_mem hf
    rw [Script.fault?_of_mem_play o entropy hfits hc] at hfault
    cases hfault

set_option maxRecDepth 20000 in
/-- A wait begins in the last cycle of a frame and is answered in the next one. -/
theorem answered_in_next_frame :
    let o : Options := { frames := 2, cycles := 1, hold := "?Wq" }
    let m := Machine.new o.config (Random.Key.ofSeed 0)
    let before : List Call := [.loadFile (some [0xF1, 0x0A]), .input 5 true, .input 4 true, .step,
      .tick, .refresh]
    let w := m.after before
    o.hold.toList.findSome? Keyboard.code? = some 5 ∧ w.step.1 = .suspended ∧
    m.after (before ++ .step :: Script.repress o.held) =
      { w with v := w.v.set 1 5 (by decide), mode := .running } := by
  intro o m before w
  have hm : w.mode = .awaiting 1 := by decide +kernel
  have hs : w.step.1 = .suspended := Machine.suspended_iff.mpr ⟨1, hm⟩
  have hsplit : Script.play o (Random.Key.ofSeed 0) (.contents [0xF1, 0x0A]) =
      before ++ .step :: (Script.repress o.held ++ [.tick, .refresh]) := by
    decide +kernel
  have hfits : [(0xF1 : UInt8), 0x0A].length ≤ Machine.programCapacity := by decide
  have hhold : o.hold.toList.findSome? Keyboard.code? = some 5 := by decide
  have hanswer := held_keys_answer o "" (Random.Key.ofSeed 0) none hfits hhold
  obtain ⟨x, hx, -, -, hafter⟩ := (hanswer.2.1 before _ hsplit).2 hs
  cases hm.symm.trans hx
  exact ⟨hhold, hs, hafter⟩

end ChipEight
