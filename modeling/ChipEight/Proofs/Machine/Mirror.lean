import ChipEight.Proofs.Machine.Footprint
import ChipEight.Proofs.Machine.Trace
import Mathlib.Data.List.Induction

/-!
# ChipEight.Proofs.Machine.Mirror

**Hosts that mirror the screen.** A host may keep a copy of the screen that starts blank, and take
the screen in its place whenever a refresh yields one. As long as the machine is not reset the copy
shows the screen after every refresh. A reset turns the screen blank without making the host take
it, and so the copy is out of date from then on if it was not blank, until something is drawn.
-/

namespace ChipEight

/-- The copy of the screen that a host has after a reply. -/
def Reply.shown (copy : Screen) : Reply → Screen
  | .refreshed (some s) => s
  | _ => copy

def Reply.draws : Reply → Bool
  | .stepped (.executed _ i) => i.draws
  | _ => false

namespace Machine

/-- The copy of the screen that a host has after a sequence of calls. -/
def mirror (m : Machine) (calls : List Call) : Screen :=
  (m.replies calls).foldl Reply.shown .blank

theorem mirror_concat (m : Machine) (cs : List Call) (c : Call) :
    m.mirror (cs ++ [c]) = ((m.after cs).call c).1.shown (m.mirror cs) := by
  rw [mirror, replies_concat, List.foldl_append]
  rfl

/-- The copy is out of date, and no refresh will mend it. -/
def Stale (copy : Screen) (m : Machine) : Prop :=
  m.redraw = false ∧ copy ≠ m.screen

/-! ### One call -/

variable {m m' : Machine} {c : Call} {r : Reply} {copy : Screen}

/-- What a call does to the screen and to the copy of it: it resets the machine, or it draws, or it
takes what has been drawn, or it does nothing to either. -/
theorem Transition.screen_cases (ht : m.Transition c r m') :
    (c = .reset ∧ r = .done ∧ m'.screen = .blank ∧ m'.redraw = false) ∨
    (c ≠ .reset ∧ r.draws = true ∧ m'.redraw = true) ∨
    (c ≠ .reset ∧ r = .refreshed (some m.screen) ∧ m.redraw = true ∧ m'.screen = m.screen) ∨
    (c ≠ .reset ∧ r.draws = false ∧ (∀ copy, r.shown copy = copy) ∧ m'.screen = m.screen ∧
      m'.redraw = m.redraw) := by
  cases ht with
  | reset => exact .inl ⟨rfl, rfl, rfl, rfl⟩
  | refused hf =>
    refine .inr (.inr (.inr ⟨?_, rfl, fun _ => rfl, rfl, rfl⟩))
    rintro rfl
    cases hf
  | written hf hb =>
    refine .inr (.inr (.inr ⟨?_, rfl, fun _ => rfl, rfl, rfl⟩))
    rintro rfl
    cases hb
  | refreshed =>
    refine .inr (.inr ?_)
    cases hr : m.redraw with
    | true => exact .inl ⟨nofun, rfl, rfl, rfl⟩
    | false => exact .inr ⟨nofun, rfl, fun _ => rfl, rfl, rfl⟩
  | stepped hs =>
    cases hs with
    | @executed op i hm hw hd hf =>
      cases hi : i.draws with
      | true => exact .inr (.inl ⟨nofun, hi, redraw_perform_of_draws hi⟩)
      | false =>
        exact .inr (.inr (.inr ⟨nofun, hi, fun _ => rfl, screen_perform hi, redraw_perform hi⟩))
    | _ => exact .inr (.inr (.inr ⟨nofun, rfl, fun _ => rfl, rfl, rfl⟩))
  | _ => exact .inr (.inr (.inr ⟨nofun, rfl, fun _ => rfl, rfl, rfl⟩))

/-- A call leaves the copy out of date if it resets the machine while the copy is not blank, and
otherwise if the copy is out of date already and nothing is drawn. -/
theorem stale_transition (ht : m.Transition c r m') :
    Stale (r.shown copy) m' ↔
      (c = .reset ∧ copy ≠ .blank) ∨ (c ≠ .reset ∧ r.draws = false ∧ Stale copy m) := by
  unfold Stale
  rcases ht.screen_cases with
    ⟨rfl, rfl, hs, hr⟩ | ⟨hc, hd, hr⟩ | ⟨hc, rfl, hr, hs⟩ | ⟨hc, hd, hcopy, hs, hr⟩
  · simp [hs, hr, Reply.shown]
  · simp [hc, hd, hr]
  · simp [hc, hr, hs, Reply.shown]
  · simp [hc, hd, hcopy, hs, hr]

/-- A blank screen that the host is not made to take stays so until something is drawn, and the copy
stays as it is. -/
theorem quiet_transition (ht : m.Transition c r m') (hd : r.draws = false)
    (hs : m.screen = .blank) (hr : m.redraw = false) :
    m'.screen = .blank ∧ m'.redraw = false ∧ r.shown copy = copy := by
  rcases ht.screen_cases with
    ⟨rfl, rfl, hs', hr'⟩ | ⟨-, hd', -⟩ | ⟨-, -, hr', -⟩ | ⟨-, -, hcopy, hs', hr'⟩
  · exact ⟨hs', hr', rfl⟩
  · rw [hd] at hd'
    cases hd'
  · rw [hr] at hr'
    cases hr'
  · exact ⟨hs'.trans hs, hr'.trans hr, hcopy copy⟩

/-! ### Sequences of calls -/

theorem stale_concat (m : Machine) (cs : List Call) (c : Call) :
    Stale (m.mirror (cs ++ [c])) (m.after (cs ++ [c])) ↔
      (c = .reset ∧ m.mirror cs ≠ .blank) ∨
      (c ≠ .reset ∧ ((m.after cs).call c).1.draws = false ∧ Stale (m.mirror cs) (m.after cs)) := by
  rw [mirror_concat, after_concat]
  exact stale_transition ((m.after cs).call_transition c)

/-- From a reset on, until something is drawn, the screen is blank and the copy is as it was. -/
theorem quiet_after_reset (m : Machine) (before since : List Call)
    (h : ∀ r ∈ (m.after (before ++ [.reset])).replies since, r.draws = false) :
    (m.after (before ++ [.reset] ++ since)).screen = .blank ∧
    (m.after (before ++ [.reset] ++ since)).redraw = false ∧
    m.mirror (before ++ [.reset] ++ since) = m.mirror before := by
  -- by the last call, so that the hypothesis speaks of the machine that the call is made to
  induction since using List.reverseRecOn with
  | nil =>
    have ht := (m.after before).call_transition .reset
    rw [List.append_nil, mirror_concat, after_concat]
    generalize (m.after before).call .reset = called at ht ⊢
    obtain ⟨r, m'⟩ := called
    cases ht with
    | reset => exact ⟨rfl, rfl, rfl⟩
    | refused hf => cases hf
    | written hf hb => cases hb
  | append_singleton since c ih =>
    rw [replies_concat, List.forall_mem_append] at h
    obtain ⟨hs, hr, hcopy⟩ := ih h.1
    have hd := h.2 _ (List.mem_singleton.mpr rfl)
    rw [← after_append] at hd
    rw [← List.append_assoc, mirror_concat, after_concat, ← hcopy]
    exact quiet_transition (call_transition _ c) hd hs hr

/-- **When the copy is out of date**: exactly if the machine has been reset while the copy was not
blank, and nothing has been drawn since. -/
theorem stale_iff (config : Config) (entropy : Random.Key) (calls : List Call) :
    let m := new config entropy
    Stale (m.mirror calls) (m.after calls) ↔
      ∃ before since, calls = before ++ [.reset] ++ since ∧ m.mirror before ≠ .blank ∧
        ∀ r ∈ (m.after (before ++ [.reset])).replies since, r.draws = false := by
  intro m
  constructor
  · induction calls using List.reverseRecOn with
    | nil =>
      intro h
      exact absurd rfl h.2
    | append_singleton cs c ih =>
      intro h
      rcases (stale_concat m cs c).mp h with ⟨rfl, hcopy⟩ | ⟨-, hd, hstale⟩
      · exact ⟨cs, [], (List.append_nil _).symm, hcopy, nofun⟩
      · obtain ⟨before, since, rfl, hcopy, hquiet⟩ := ih hstale
        refine ⟨before, since ++ [c], List.append_assoc _ _ _, hcopy, ?_⟩
        rw [replies_concat, ← after_append, List.forall_mem_append]
        exact ⟨hquiet, fun r hr => List.mem_singleton.mp hr ▸ hd⟩
  · rintro ⟨before, since, rfl, hcopy, hquiet⟩
    obtain ⟨hs, hr, heq⟩ := quiet_after_reset m before since hquiet
    exact ⟨hr, heq ▸ hs ▸ hcopy⟩

theorem mirror_refresh (m : Machine) (calls : List Call) :
    m.mirror (calls ++ [.refresh]) ≠ (m.after (calls ++ [.refresh])).screen ↔
      Stale (m.mirror calls) (m.after calls) := by
  have hcall (n : Machine) : n.call .refresh =
      (.refreshed (if n.redraw then some n.screen else none), { n with redraw := false }) := rfl
  rw [mirror_concat, after_concat, hcall]
  cases hr : (m.after calls).redraw with
  | false =>
    constructor
    · intro h
      exact ⟨hr, h⟩
    · intro h
      exact h.2
  | true =>
    -- the refresh yields the screen, and nothing is out of date before it either
    constructor
    · intro h
      exact absurd rfl h
    · intro h
      simp [Stale, hr] at h

/-- **When the copy does not show the screen after a refresh**: exactly if the machine has been
reset while the copy was not blank, and nothing has been drawn since. -/
theorem mirror_ne_screen_iff (config : Config) (entropy : Random.Key) (calls : List Call) :
    let m := new config entropy
    m.mirror (calls ++ [.refresh]) ≠ (m.after (calls ++ [.refresh])).screen ↔
      ∃ before since, calls = before ++ [.reset] ++ since ∧ m.mirror before ≠ .blank ∧
        ∀ r ∈ (m.after (before ++ [.reset])).replies since, r.draws = false := by
  intro m
  rw [mirror_refresh]
  exact stale_iff config entropy calls

set_option maxRecDepth 20000 in
/-- A machine that draws a glyph, and is reset after the host has taken the screen. -/
theorem mirror_after_reset :
    ¬ ∀ (config : Config) (entropy : Random.Key) (calls : List Call),
      (new config entropy).mirror (calls ++ [.refresh]) =
        ((new config entropy).after (calls ++ [.refresh])).screen := by
  intro h
  have hcopy := h { seed := some 0 } (Random.Key.ofSeed 0)
    [.load [0xD0, 0x05], .step, .refresh, .reset]
  revert hcopy
  decide +kernel

end Machine

end ChipEight
