import ChipEight.Proofs.Machine.Effect

/-!
# ChipEight.Proofs.Machine.Footprint

**What instructions leave alone**, and what they do to the stack. Only calls and returns touch the
stack: a call appends the address after it to the calls that are open, and a return takes the last
one away. Only two instructions touch the screen, and those two make the host take it. Only one
makes the machine wait.
-/

namespace ChipEight

namespace Instruction

variable {ρ : Type}

/-- The return addresses of the calls that are open after an instruction that ends at `next`. -/
def openAfter (next : UInt16) (opened : List UInt16) : Instruction ρ → List UInt16
  | .call _ => opened ++ [next]
  | .ret => opened.dropLast
  | _ => opened

def draws : Instruction ρ → Bool
  | .clearScreen | .draw _ _ _ => true
  | _ => false

/-- The register that the key goes to if the instruction waits for one. -/
def awaited? : Instruction ρ → Option ρ
  | .waitForKey x => some x
  | _ => none

theorem awaited?_eq_some_iff {i : Instruction ρ} {x : ρ} :
    i.awaited? = some x ↔ i = .waitForKey x := by
  cases i <;> simp [awaited?]

end Instruction

namespace Machine

variable {m : Machine} {i : Instruction Register}

/-- No instruction sets the machine up anew. -/
@[simp] theorem config_perform (m : Machine) (i : Instruction Register) :
    (m.perform i).config = m.config := by
  cases i <;> rfl

/-- No instruction moves a key. -/
@[simp] theorem keypad_perform (m : Machine) (i : Instruction Register) :
    (m.perform i).keypad = m.keypad := by
  cases i <;> rfl

/-- An instruction makes the machine wait for a key if it asks for one, and otherwise leaves it
as it is. -/
theorem mode_perform (m : Machine) (i : Instruction Register) :
    (m.perform i).mode = i.awaited?.elim m.mode .awaiting := by
  cases i <;> rfl

/-! ### The stack -/

theorem fits_and_frames_perform (h : m.stack.Fits) (hf : m.fault? i = none) :
    (m.perform i).stack.Fits ∧
      (m.perform i).stack.frames = i.openAfter m.pc m.stack.frames := by
  cases i with
  | call nnn =>
    have hfull := fault?_call_eq_none_iff.mp hf
    exact ⟨h.push hfull m.pc, ReturnStack.frames_push (h.depth_lt hfull) m.pc⟩
  | ret => exact ⟨h.pop, ReturnStack.frames_pop h⟩
  | _ => exact ⟨h, rfl⟩

theorem fits_perform (h : m.stack.Fits) (hf : m.fault? i = none) : (m.perform i).stack.Fits :=
  (fits_and_frames_perform h hf).1

theorem frames_perform (h : m.stack.Fits) (hf : m.fault? i = none) :
    (m.perform i).stack.frames = i.openAfter m.pc m.stack.frames :=
  (fits_and_frames_perform h hf).2

/-- No instruction forbids calls or allows more of them. -/
@[simp] theorem limit_perform (m : Machine) (i : Instruction Register) :
    (m.perform i).stack.limit = m.stack.limit := by
  cases i <;> rfl

/-! ### The screen -/

theorem screen_perform (h : i.draws = false) : (m.perform i).screen = m.screen := by
  cases i <;> first | rfl | cases h

/-- An instruction that does not draw leaves it to others whether the host takes the screen. -/
theorem redraw_perform (h : i.draws = false) : (m.perform i).redraw = m.redraw := by
  cases i <;> first | rfl | cases h

theorem redraw_perform_of_draws (h : i.draws = true) : (m.perform i).redraw = true := by
  cases i <;> first | rfl | cases h

end Machine

end ChipEight
