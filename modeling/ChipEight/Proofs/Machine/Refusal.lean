import ChipEight.Proofs.Machine.Transition

/-!
# ChipEight.Proofs.Machine.Refusal

**What fails does nothing.** A call that is refused leaves the machine as it was. So does a step
that finds no word; a step that fails later has passed over the word and has done nothing else.
-/

namespace ChipEight

/-- Whether an instruction copies a block from memory or to it. -/
def Instruction.movesBlock {ρ : Type} : Instruction ρ → Bool
  | .draw _ _ _ | .storeDecimal _ | .storeRegisters _ | .loadRegisters _ => true
  | _ => false

namespace Machine

variable {m m' : Machine} {f : Fault}

theorem fault?_eq_some {i : Instruction Register} (h : m.fault? i = some f) :
    (i = .ret ∧ f = .noOpenCall) ∨
    (∃ nnn, i = .call nnn ∧ f = .tooManyCalls m.stack.limit) ∨
    (i.movesBlock = true ∧
      (f = .noSuchAddress m.index.toNat ∨ ∃ n, f = .blockOverrun m.index.toNat n)) := by
  have hblock {length : Nat} (h : Memory.blockFault? m.index.toNat length = some f) :
      f = .noSuchAddress m.index.toNat ∨ ∃ n, f = .blockOverrun m.index.toNat n :=
    (Memory.fault_of_block h).imp_right fun h => ⟨length, h⟩
  cases i with
  | ret =>
    simp only [fault?] at h
    split at h <;> cases h
    exact .inl ⟨rfl, rfl⟩
  | call nnn =>
    simp only [fault?] at h
    split at h <;> cases h
    exact .inr (.inl ⟨nnn, rfl, rfl⟩)
  | draw x y n => exact .inr (.inr ⟨rfl, hblock h⟩)
  | storeDecimal x => exact .inr (.inr ⟨rfl, hblock h⟩)
  | storeRegisters x => exact .inr (.inr ⟨rfl, hblock h⟩)
  | loadRegisters x => exact .inr (.inr ⟨rfl, hblock h⟩)
  | _ => cases h

theorem step_of_lost (hm : m.mode = .running) (hw : m.memory.word m.pc.toNat = .error f) :
    m.step = (.failed f, m) :=
  steps_iff.mp (.lost hm hw)

/-- How a step fails: there is no word, or the word is no opcode, or something stands in the way of
the instruction. -/
theorem step_failed (h : m.step = (.failed f, m')) :
    (m.memory.word m.pc.toNat = .error f ∧ m' = m) ∨
    ∃ op, m.memory.word m.pc.toNat = .ok op ∧ m' = m.advance ∧
      ((Instruction.decode op = none ∧ f = .unknownOpcode op m.pc) ∨
        ∃ i, Instruction.decode op = some i ∧ m.advance.fault? i = some f) := by
  cases steps_iff.mpr h with
  | lost hm hw => exact .inl ⟨hw, rfl⟩
  | unknown hm hw hd => exact .inr ⟨_, hw, rfl, .inl ⟨hd, rfl⟩⟩
  | stopped hm hw hd hf => exact .inr ⟨_, hw, rfl, .inr ⟨_, hd, hf⟩⟩

theorem call_refused {c : Call} (h : m.call c = (.refused f, m')) : m' = m := by
  have ht := m.call_transition c
  rw [h] at ht
  cases ht with
  | refused hf => rfl

/-- What a step can fail with. -/
theorem fault_of_step (h : m.step = (.failed f, m')) :
    (∃ op, f = .unknownOpcode op m.pc) ∨ (∃ a, f = .noSuchAddress a) ∨
      (∃ a n, f = .blockOverrun a n) ∨ (∃ d, f = .tooManyCalls d) ∨ f = .noOpenCall := by
  rcases step_failed h with ⟨hw, -⟩ | ⟨op, hw, -, ⟨hd, rfl⟩ | ⟨i, hd, hi⟩⟩
  · exact .inr (.inl ⟨_, Memory.fault_of_word hw⟩)
  · exact .inl ⟨op, rfl⟩
  · rcases fault?_eq_some hi with ⟨-, rfl⟩ | ⟨nnn, -, rfl⟩ | ⟨-, rfl | ⟨n, rfl⟩⟩
    · exact .inr (.inr (.inr (.inr rfl)))
    · exact .inr (.inr (.inr (.inl ⟨_, rfl⟩)))
    · exact .inr (.inl ⟨_, rfl⟩)
    · exact .inr (.inr (.inl ⟨_, n, rfl⟩))

/-- The only fault of a step that a program can go on after. -/
theorem unknownOpcode_of_step (h : m.step = (.failed f, m')) (hf : f.endsProgram = false) :
    ∃ op, f = .unknownOpcode op m.pc := by
  rcases fault_of_step h with hop | ⟨a, rfl⟩ | ⟨a, n, rfl⟩ | ⟨d, rfl⟩ | rfl
  · exact hop
  all_goals cases hf

/-- **What fails is atomic**, on every machine. A step that finds no word changes nothing at all; a
step that fails otherwise changes nothing but that it has passed over the word, and `f` is one of
the faults that go with the word; and a call that is refused changes nothing. A step that fails with
a fault that does not end the program has found a word that is not an opcode. -/
theorem failures_atomic (m m' : Machine) (f : Fault) :
    (m.mode = .running → m.memory.word m.pc.toNat = .error f → m.step = (.failed f, m)) ∧
    (m.step = (.failed f, m') →
      (m.memory.word m.pc.toNat = .error f ∧ m' = m) ∨
      ∃ op, m.memory.word m.pc.toNat = .ok op ∧ m' = { m with pc := m.pc + 2 } ∧
        ((Instruction.decode op = none ∧ f = .unknownOpcode op m.pc) ∨
          ∃ i, Instruction.decode op = some i ∧
            ((i = .ret ∧ f = .noOpenCall) ∨
              (∃ nnn, i = .call nnn ∧ f = .tooManyCalls m.stack.limit) ∨
              (i.movesBlock = true ∧
                (f = .noSuchAddress m.index.toNat ∨ ∃ n, f = .blockOverrun m.index.toNat n))))) ∧
    (∀ c : Call, m.call c = (.refused f, m') → m' = m) ∧
    (m.step = (.failed f, m') → f.endsProgram = false → ∃ op, f = .unknownOpcode op m.pc) := by
  refine ⟨step_of_lost, ?_, fun c => call_refused, unknownOpcode_of_step⟩
  intro h
  rcases step_failed h with hlost | ⟨op, hw, rfl, hd | ⟨i, hd, hi⟩⟩
  · exact .inl hlost
  · exact .inr ⟨op, hw, rfl, .inl hd⟩
  · exact .inr ⟨op, hw, rfl, .inr ⟨i, hd, fault?_eq_some hi⟩⟩

set_option maxRecDepth 20000 in
/-- Three machines fail: one has run past the end of memory, one draws a sprite that runs past it,
and one waits for a key and is given one that does not exist. -/
theorem sprite_past_end :
    let lost := { switchedOn {} (.ofKey (Random.Key.ofSeed 0)) with pc := 0x1000 }
    let drawing := (new {} (Random.Key.ofSeed 0)).after [.load [0xAF, 0xFE, 0xD0, 0x05], .step]
    let waiting := (new {} (Random.Key.ofSeed 0)).after [.load [0xF1, 0x0A], .step]
    lost.step = (.failed (.noSuchAddress 0x1000), lost) ∧
    drawing.step = (.failed (.blockOverrun 0xFFE 5), { drawing with pc := 0x204 }) ∧
    waiting.mode = .awaiting 1 ∧
    waiting.call (.input 16 true) = (.refused (.noSuchKey 16), waiting) := by
  intro lost drawing waiting
  have hlost : lost.step = (.failed (.noSuchAddress 0x1000), lost) :=
    (failures_atomic lost lost _).1 rfl (Memory.word_of_le (by decide))
  obtain ⟨hpc, hfailed⟩ : drawing.pc = 0x202 ∧
      drawing.step.1 = .failed (.blockOverrun 0xFFE 5) := by
    decide +kernel
  obtain ⟨hmode, hrefused⟩ : waiting.mode = .awaiting 1 ∧
      (waiting.call (.input 16 true)).1 = .refused (.noSuchKey 16) := by
    decide +kernel
  clear_value drawing waiting
  have hstep : drawing.step = (.failed (.blockOverrun 0xFFE 5), drawing.step.2) :=
    Prod.ext hfailed rfl
  have hcall : waiting.call (.input 16 true) =
      (.refused (.noSuchKey 16), (waiting.call (.input 16 true)).2) :=
    Prod.ext hrefused rfl
  have hsame := (failures_atomic waiting _ _).2.2.1 _ hcall
  refine ⟨hlost, ?_, hmode, by rw [hcall, hsame]⟩
  rcases (failures_atomic drawing _ _).2.1 hstep with ⟨hw, -⟩ | ⟨op, -, hpassed, -⟩
  · cases Memory.fault_of_word hw
  · rw [hstep, hpassed, hpc]
    rfl

end Machine

end ChipEight
