import ChipEight.Proofs.Machine.History
import ChipEight.Proofs.Machine.Mirror

/-!
# ChipEight.Proofs.Machine.Redraw

**When a host gets the screen.** A refresh yields the screen exactly if something has been drawn
since the host last took the screen or reset the machine, or ever, if it has done neither
(`redraw_after_iff`). What counts is that an instruction has drawn, whether or not a pixel has
changed by it. And pixels change only when an instruction draws or the machine is reset, so a host
that gets nothing has not missed anything in between.
-/

namespace ChipEight

theorem Instruction.draws_iff {ρ : Type} {i : Instruction ρ} :
    i.draws = true ↔ i = .clearScreen ∨ ∃ x y n, i = .draw x y n := by
  cases i <;> simp [draws]

/-- What has drawn is an instruction that has been executed. -/
theorem Reply.draws_iff {r : Reply} :
    r.draws = true ↔ ∃ a i, r = .stepped (.executed a i) ∧ i.draws = true := by
  cases r with
  | stepped o => cases o <;> simp [draws]
  | _ => simp [draws]

namespace Machine

variable {m m' : Machine} {c : Call} {r : Reply} {cs : List Call}

/-! ### One call -/

/-- After a call the screen is to be taken if it has been drawn to, or if it was to be taken before
and the call neither takes it nor resets the machine. -/
theorem redraw_transition (ht : m.Transition c r m') :
    m'.redraw = true ↔ r.draws = true ∨ ((c ≠ .reset ∧ c ≠ .refresh) ∧ m.redraw = true) := by
  cases ht with
  | reset => simp [switchedOn, Reply.draws]
  | refreshed => simp [Reply.draws]
  | refused hf =>
    have hc : c ≠ .reset ∧ c ≠ .refresh := by
      constructor <;> rintro rfl <;> cases hf
    simp [Reply.draws, hc]
  | written hf hb =>
    have hc : c ≠ .reset ∧ c ≠ .refresh := by
      constructor <;> rintro rfl <;> cases hb
    simp [Reply.draws, hc, put]
  | stepped hs =>
    cases hs with
    | @executed op i hm hw hd hf =>
      cases hi : i.draws with
      | true => simp [Reply.draws, hi, redraw_perform_of_draws hi]
      | false => simp [Reply.draws, hi, redraw_perform hi, advance]
    | _ => simp [Reply.draws, advance]
  | _ => simp [Reply.draws, resume, setRegister]

/-- Only a step draws. -/
theorem ne_of_draws (ht : m.Transition c r m') (hd : r.draws = true) :
    c ≠ .reset ∧ c ≠ .refresh := by
  cases ht with
  | stepped hs => simp
  | _ => cases hd

/-! ### Sequences of calls -/

/-- **When the screen is to be taken**: exactly if something has been drawn, and since then the
machine has not been reset nor the screen taken. -/
theorem redraw_after_iff (hm : m.redraw = false) (calls : List Call) :
    (m.after calls).redraw = true ↔
      ∃ before since, calls = before ++ since ∧ (∀ c ∈ since, c ≠ .reset ∧ c ≠ .refresh) ∧
        ∃ r ∈ (m.after before).replies since, r.draws = true := by
  -- by the last call, which is the last one of `since` if that is not empty
  induction calls using List.reverseRecOn with
  | nil =>
    rw [after_nil, hm]
    simp [replies]
  | append_singleton cs c ih =>
    have ht := (m.after cs).call_transition c
    rw [after_concat, redraw_transition ht, ih]
    constructor
    · rintro (hd | ⟨hc, before, since, rfl, hsince, r, hr, hd⟩)
      · refine ⟨cs, [c], rfl, List.forall_mem_singleton.mpr (ne_of_draws ht hd), _, ?_, hd⟩
        exact List.mem_singleton_self _
      · refine ⟨before, since ++ [c], List.append_assoc _ _ _, ?_, r, ?_, hd⟩
        · exact List.forall_mem_append.mpr ⟨hsince, List.forall_mem_singleton.mpr hc⟩
        · rw [replies_concat]
          exact List.mem_append_left _ hr
    · rintro ⟨before, since, hsplit, hsince, r, hr, hd⟩
      rcases List.eq_nil_or_concat since with rfl | ⟨since, d, rfl⟩
      · cases hr
      · rw [List.concat_eq_append, ← List.append_assoc] at hsplit
        obtain ⟨rfl, hlast⟩ := List.append_inj' hsplit rfl
        obtain rfl : c = d := by simpa using hlast
        rw [List.concat_eq_append] at hr hsince
        rw [List.forall_mem_append, List.forall_mem_singleton] at hsince
        rw [replies_concat, List.mem_append, List.mem_singleton, ← after_append] at hr
        rcases hr with hr | rfl
        · exact .inr ⟨hsince.2, before, since, rfl, hsince.1, r, hr, hd⟩
        · exact .inl hd

/-- The screen stays as it is until something is drawn. -/
theorem screen_after_of_quiet (hcs : .reset ∉ cs) (h : ∀ r ∈ m.replies cs, r.draws = false) :
    (m.after cs).screen = m.screen := by
  induction cs generalizing m with
  | nil => rfl
  | cons c cs ih =>
    rw [List.mem_cons, not_or] at hcs
    obtain ⟨hd, hrest⟩ := List.forall_mem_cons.mp h
    have hcall : (m.call c).2.screen = m.screen := by
      rcases (m.call_transition c).screen_cases with
        ⟨hc, -⟩ | ⟨-, hdraws, -⟩ | ⟨-, -, -, hs⟩ | ⟨-, -, -, hs, -⟩
      · exact absurd hc.symm hcs.1
      · rw [hd] at hdraws
        cases hdraws
      · exact hs
      · exact hs
    exact (ih hcs.2 hrest).trans hcall

/-- What has drawn in the course of calls, told by what has been executed. -/
theorem exists_draws_iff : (∃ r ∈ m.replies cs, r.draws = true) ↔
    ∃ a i, (a, i) ∈ m.executed cs ∧ (i = .clearScreen ∨ ∃ x y n, i = .draw x y n) := by
  simp only [mem_executed_iff, ← Instruction.draws_iff]
  constructor
  · rintro ⟨r, hr, hd⟩
    obtain ⟨a, i, rfl, hi⟩ := Reply.draws_iff.mp hd
    exact ⟨a, i, hr, hi⟩
  · rintro ⟨a, i, hr, hi⟩
    exact ⟨_, hr, hi⟩

/-- **When a host gets the screen.** After any calls of the host, taking the screen does nothing to
the machine but that the screen is not to be taken any more. It yields the screen as it is, exactly
if there has been an instruction since the last reset and the last time that it was taken, whichever
was later, that clears the screen or draws a sprite; an empty sprite is one. If it yields nothing,
and the machine has not been reset since the screen was last taken, the screen is still what it was
then. -/
theorem refresh_reports_drawing (config : Config) (entropy : Random.Key) (calls : List Call) :
    let m := new config entropy
    let now := m.after calls
    ∃ taken, now.call .refresh = (.refreshed taken, { now with redraw := false }) ∧
      (taken.isSome = true ↔
        ∃ before since, calls = before ++ since ∧ (∀ c ∈ since, c ≠ .reset ∧ c ≠ .refresh) ∧
          ∃ a i, (a, i) ∈ (m.after before).executed since ∧
            (i = .clearScreen ∨ ∃ x y n, i = .draw x y n)) ∧
      (∀ s, taken = some s → s = now.screen) ∧
      (taken = none → ∀ before since, calls = before ++ .refresh :: since →
        (∀ c ∈ since, c ≠ .reset ∧ c ≠ .refresh) → now.screen = (m.after before).screen) := by
  intro m now
  have hredraw := redraw_after_iff (m := m) rfl calls
  refine ⟨if now.redraw then some now.screen else none, rfl, ?_, ?_, ?_⟩
  · simp only [← exists_draws_iff, ← hredraw]
    show (if now.redraw then some now.screen else none).isSome = true ↔ now.redraw = true
    cases now.redraw <;> simp
  · intro s hs
    split at hs <;> cases hs
    rfl
  · intro hnone before since hsplit hsince
    have hno : ¬now.redraw = true := by
      intro hr
      rw [if_pos hr] at hnone
      cases hnone
    have hquiet : ∀ r ∈ (m.after (before ++ [.refresh])).replies since, r.draws = false := by
      intro r hr
      by_contra hd
      rw [Bool.not_eq_false] at hd
      refine hno (hredraw.mpr ⟨before ++ [.refresh], since, ?_, hsince, r, hr, hd⟩)
      simpa using hsplit
    have hnow : now = (m.after (before ++ [.refresh])).after since := by
      rw [← after_append]
      simp [now, hsplit]
    rw [hnow, screen_after_of_quiet (fun hmem => (hsince _ hmem).1 rfl) hquiet, after_concat]
    rfl

set_option maxRecDepth 20000 in
/-- An empty sprite makes the host take a screen that has not changed, and then there is nothing
more to be taken. -/
theorem empty_sprite_taken :
    let m := new {} (Random.Key.ofSeed 0)
    let before : List Call := [.load [0xD0, 0x00], .step]
    let calls : List Call := before ++ [.refresh, .tick]
    ((m.after before).call .refresh).1 = .refreshed (some .blank) ∧
    ((m.after calls).call .refresh).1 = .refreshed none ∧
    (m.after calls).screen = (m.after before).screen := by
  intro m before calls
  have hfirst : ((m.after before).call .refresh).1 = .refreshed (some .blank) := by decide +kernel
  have hnone : ((m.after calls).call .refresh).1 = .refreshed none := by decide +kernel
  obtain ⟨taken, hcall, -, -, hsame⟩ :=
    refresh_reports_drawing {} (Random.Key.ofSeed 0) calls
  rw [hcall] at hnone
  cases hnone
  refine ⟨hfirst, by rw [hcall], hsame rfl before [.tick] rfl ?_⟩
  simp

end Machine

end ChipEight
