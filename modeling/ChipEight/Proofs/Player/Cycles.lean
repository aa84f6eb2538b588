import ChipEight.Proofs.Player.Script

/-!
# ChipEight.Proofs.Player.Cycles

**The steps of a run.** A script comes cycle by cycle (`ByCycles`), so what holds at first and is
kept by cycles and by the ends of frames holds at every step (`ByCycles.before_step`). None of the
calls is refused. `UsesUp` says how many steps there are.
-/

namespace ChipEight

open Machine

namespace Script

/-! ### Cycle by cycle -/

/-- Calls that come cycle by cycle, with the end of a frame between some of them. -/
inductive ByCycles (held : List Key) : Machine → List Call → Prop where
  | nil {m : Machine} : ByCycles held m []
  | cycle {m : Machine} {cs : List Call} (h : ByCycles held (m.after (cycle held m)) cs) :
      ByCycles held m (cycle held m ++ cs)
  | endFrame {m : Machine} {cs : List Call} (h : ByCycles held (m.after [.tick, .refresh]) cs) :
      ByCycles held m ([.tick, .refresh] ++ cs)

variable {held : List Key} {m : Machine} {cs ds : List Call}

theorem ByCycles.append (h : ByCycles held m cs) (h' : ByCycles held (m.after cs) ds) :
    ByCycles held m (cs ++ ds) := by
  induction h with
  | nil => exact h'
  | cycle _ ih =>
    rw [List.append_assoc]
    exact .cycle (ih (by rwa [← after_append]))
  | endFrame _ ih =>
    rw [List.append_assoc]
    exact .endFrame (ih (by rwa [← after_append]))

theorem byCycles_cycles (n : Nat) (m : Machine) : ByCycles held m (cycles held n m) := by
  induction n generalizing m with
  | zero => exact .nil
  | succ n ih =>
    refine .cycle ?_
    split
    · exact ih _
    · exact .nil

theorem byCycles_frame (length : Nat) (m : Machine) : ByCycles held m (frame held length m) := by
  refine (byCycles_cycles length m).append ?_
  split
  · exact .endFrame .nil
  · exact .nil

theorem byCycles_frames (length n : Nat) (m : Machine) :
    ByCycles held m (frames held length n m) := by
  induction n generalizing m with
  | zero => exact .nil
  | succ n ih =>
    refine (byCycles_frame length m).append ?_
    split
    · exact ih _
    · exact .nil

/-- A step that comes after calls that are none has not been made by then. -/
theorem exists_of_append_eq_step {before since : List Call} (hcs : .step ∉ cs)
    (h : cs ++ ds = before ++ .step :: since) :
    ∃ before', before = cs ++ before' ∧ ds = before' ++ .step :: since := by
  rcases List.append_eq_append_iff.mp h with h | ⟨bs, rfl, hbs⟩
  · exact h
  · cases bs with
    | nil => exact ⟨[], by simp, by simpa using hbs.symm⟩
    | cons b bs =>
      cases hbs
      simp at hcs

/-- What is true at first, and true after cycles and frames if it has been before, is true before
every step, and each step begins a cycle. -/
theorem ByCycles.before_step {P : List Call → Prop} {m₀ : Machine}
    (hcycle : ∀ past, P past → P (past ++ Script.cycle held (m₀.after past)))
    (hend : ∀ past, P past → P (past ++ [.tick, .refresh]))
    {past : List Call} (h : ByCycles held (m₀.after past) cs) (hpast : P past) :
    P (past ++ cs) ∧ ∀ before since, cs = before ++ .step :: since →
      P (past ++ before) ∧
        ∃ rest, .step :: since = Script.cycle held (m₀.after (past ++ before)) ++ rest := by
  generalize hm : m₀.after past = m at h
  induction h generalizing past with
  | nil => exact ⟨by simpa using hpast, by simp⟩
  | @cycle m cs h ih =>
    subst hm
    obtain ⟨hP, hsteps⟩ := ih (hcycle past hpast) (after_append ..)
    refine ⟨by rwa [← List.append_assoc], fun before since heq => ?_⟩
    cases before with
    | nil => exact ⟨by simpa using hpast, cs, by simpa using heq.symm⟩
    | cons c before =>
      obtain ⟨rfl, htail⟩ := List.cons_eq_cons.mp heq
      obtain ⟨before', rfl, rfl⟩ :=
        exists_of_append_eq_step (step_not_mem_answer held _) htail
      simpa [Script.cycle] using hsteps before' since rfl
  | @endFrame m cs h ih =>
    subst hm
    obtain ⟨hP, hsteps⟩ := ih (hend past hpast) (after_append ..)
    refine ⟨by rwa [← List.append_assoc], fun before since heq => ?_⟩
    obtain ⟨before', rfl, rfl⟩ := exists_of_append_eq_step (by simp) heq
    simpa using hsteps before' since rfl

/-! ### Which calls there are -/

section

variable {P : Call → Prop}

theorem forall_mem_moves (hinput : ∀ k ∈ held, ∀ isDown, P (.input (Key.code k) isDown))
    (isDown : Bool) : ∀ c ∈ moves held isDown, P c := by
  intro c hc
  obtain ⟨k, hk, rfl⟩ := List.mem_map.mp hc
  exact hinput k hk isDown

theorem forall_mem_cycle (hinput : ∀ k ∈ held, ∀ isDown, P (.input (Key.code k) isDown))
    (hstep : P .step) : ∀ c ∈ cycle held m, P c := by
  refine List.forall_mem_cons.mpr ⟨hstep, ?_⟩
  split
  · exact List.forall_mem_append.mpr
      ⟨forall_mem_moves hinput false, forall_mem_moves hinput true⟩
  · exact List.forall_mem_nil P

/-- What is true of steps, of the ends of frames and of held keys that are moved is true of all
calls that come cycle by cycle. -/
theorem ByCycles.forall_mem (h : ByCycles held m cs)
    (hinput : ∀ k ∈ held, ∀ isDown, P (.input (Key.code k) isDown)) (hstep : P .step)
    (htick : P .tick) (hrefresh : P .refresh) : ∀ c ∈ cs, P c := by
  induction h with
  | nil => exact List.forall_mem_nil P
  | cycle _ ih => exact List.forall_mem_append.mpr ⟨forall_mem_cycle hinput hstep, ih⟩
  | endFrame _ ih =>
    refine List.forall_mem_append.mpr ⟨?_, ih⟩
    exact List.forall_mem_cons.mpr ⟨htick, List.forall_mem_singleton.mpr hrefresh⟩

/-- After the program has been loaded a player moves the held keys, steps, and ends frames. -/
theorem exists_play_eq_cons (o : Options) (entropy : Random.Key) {bytes : List UInt8}
    (hfits : bytes.length ≤ Machine.programCapacity) :
    ∃ rest, play o entropy (.contents bytes) = .loadFile (some bytes) :: rest ∧
      ∀ {P : Call → Prop}, (∀ k ∈ o.held, ∀ isDown, P (.input (Key.code k) isDown)) → P .step →
        P .tick → P .refresh → ∀ c ∈ rest, P c := by
  refine ⟨_, play_of_fits o entropy hfits, fun hinput hstep htick hrefresh => ?_⟩
  exact List.forall_mem_append.mpr ⟨forall_mem_moves hinput true,
    (byCycles_frames o.cycles o.frames _).forall_mem hinput hstep htick hrefresh⟩

end

/-! ### Nothing is refused -/

theorem fault?_of_mem_play (o : Options) (entropy : Random.Key) {bytes : List UInt8}
    (hfits : bytes.length ≤ Machine.programCapacity) {c : Call}
    (hc : c ∈ play o entropy (.contents bytes)) : c.fault? = none := by
  obtain ⟨rest, hplay, hrest⟩ := exists_play_eq_cons o entropy hfits
  rw [hplay] at hc
  rcases List.mem_cons.mp hc with rfl | hc
  · exact Call.fault?_loadFile_of_fits hfits
  · exact hrest (P := fun c => c.fault? = none) (fun k _ => Call.fault?_key k) rfl rfl rfl c hc

/-! ### How many steps there are -/

/-- All of `n` steps are made, or the last one that is made ends the program. -/
structure UsesUp (m : Machine) (cs : List Call) (n : Nat) : Prop where
  length_eq : m.halt? cs = none → (m.outcomes cs).length = n
  getLast?_eq : ∀ f, m.halt? cs = some f →
    (m.outcomes cs).length ≤ n ∧ (m.outcomes cs).getLast? = some (.failed f)

theorem UsesUp.append {a b : Nat} (h : UsesUp m cs a) (h' : UsesUp (m.after cs) ds b) :
    UsesUp m (cs ++ if (m.halt? cs).isNone then ds else []) (a + b) := by
  cases hhalt : m.halt? cs with
  | some f =>
    obtain ⟨hlength, hlast⟩ := h.getLast?_eq f hhalt
    simp only [Option.isNone_some, Bool.false_eq_true, if_false, List.append_nil]
    refine ⟨fun hnone => ?_, fun g hg => ?_⟩
    · rw [hhalt] at hnone
      cases hnone
    · cases hhalt.symm.trans hg
      exact ⟨by omega, hlast⟩
  | none =>
    simp only [Option.isNone_none, if_true]
    have hrest : m.halt? (cs ++ ds) = (m.after cs).halt? ds := by
      rw [halt?_append, hhalt, Option.none_or]
    refine ⟨fun hnone => ?_, fun g hg => ?_⟩
    · rw [outcomes_append, List.length_append, h.length_eq hhalt,
        h'.length_eq (hrest.symm.trans hnone)]
    · obtain ⟨hlength, hlast⟩ := h'.getLast?_eq g (hrest.symm.trans hg)
      rw [outcomes_append, List.length_append, h.length_eq hhalt, List.getLast?_append, hlast]
      exact ⟨by omega, rfl⟩

theorem UsesUp.of_no_step (h : .step ∉ cs) : UsesUp m cs 0 := by
  refine ⟨fun _ => ?_, fun f hf => ?_⟩
  · rw [outcomes_of_no_step h, List.length_nil]
  · rw [halt?_of_no_step h] at hf
    cases hf

theorem usesUp_cycle (held : List Key) (m : Machine) : UsesUp m (cycle held m) 1 := by
  refine ⟨fun _ => ?_, fun f hf => ?_⟩
  · rw [outcomes_cycle, List.length_singleton]
  · rw [halt?_cycle] at hf
    rw [outcomes_cycle, Outcome.fatal?_eq_some_iff.mp hf |>.1]
    exact ⟨Nat.le_refl 1, rfl⟩

end Script

end ChipEight
