import ChipEight.Proofs.Machine.Transition

/-!
# ChipEight.Proofs.Machine.Trace

What a host has called and heard. Something that is kept up to date by what is heard, call by call,
is a `foldl` over the trace; `trace_induction` is how one shows that it agrees with the machine.
-/

namespace ChipEight.Machine

/-- The calls of a sequence, each with its reply. -/
def trace (m : Machine) : List Call → List (Call × Reply)
  | [] => []
  | c :: cs => (c, (m.call c).1) :: (m.call c).2.trace cs

variable (m : Machine)

@[simp] theorem trace_nil : m.trace [] = [] := rfl

@[simp] theorem trace_cons (c : Call) (cs : List Call) :
    m.trace (c :: cs) = (c, (m.call c).1) :: (m.call c).2.trace cs := rfl

/-- The replies of a trace are what the host hears. -/
theorem map_snd_trace (calls : List Call) : (m.trace calls).map Prod.snd = m.replies calls := by
  induction calls generalizing m with
  | nil => rfl
  | cons c cs ih => rw [trace_cons, List.map_cons, ih, replies]

theorem trace_append (cs ds : List Call) :
    m.trace (cs ++ ds) = m.trace cs ++ (m.after cs).trace ds := by
  induction cs generalizing m with
  | nil => rfl
  | cons c cs ih => rw [List.cons_append, trace_cons, ih, trace_cons, after_cons, List.cons_append]

theorem replies_append (cs ds : List Call) :
    m.replies (cs ++ ds) = m.replies cs ++ (m.after cs).replies ds := by
  simp only [← map_snd_trace, trace_append, List.map_append]

theorem replies_concat (cs : List Call) (c : Call) :
    m.replies (cs ++ [c]) = m.replies cs ++ [((m.after cs).call c).1] :=
  m.replies_append cs [c]

theorem after_concat (cs : List Call) (c : Call) :
    m.after (cs ++ [c]) = ((m.after cs).call c).2 := by
  rw [after_append, after_cons, after_nil]

/-- What is kept up to date by what is heard agrees with the machine after any calls, if it does at
first and every call preserves it. -/
theorem trace_induction {σ : Type} {update : σ → Call × Reply → σ} {P : σ → Machine → Prop}
    (hP : ∀ s m c r m', Transition m c r m' → P s m → P (update s (c, r)) m') {s : σ} {m : Machine}
    (h : P s m) (calls : List Call) : P ((m.trace calls).foldl update s) (m.after calls) := by
  induction calls generalizing s m with
  | nil => exact h
  | cons c cs ih => exact ih (hP s m c _ _ (m.call_transition c) h)

/-- What every call preserves holds after any calls. -/
theorem after_induction {P : Machine → Prop}
    (hP : ∀ m c r m', Transition m c r m' → P m → P m') {m : Machine} (h : P m)
    (calls : List Call) : P (m.after calls) := by
  induction calls generalizing m with
  | nil => exact h
  | cons c cs ih => exact ih (hP m c _ _ (m.call_transition c) h)

end ChipEight.Machine
