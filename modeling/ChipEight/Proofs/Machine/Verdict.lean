import ChipEight.Proofs.Machine.Nesting

/-!
# ChipEight.Proofs.Machine.Verdict

**How a step ends**, told from the outside: by whether the machine waits for a key, by where the
program counter is, by the word that lies there, and by the open calls and the index. `verdict` is
the table for a word that has been found. Its rows are gone through in order and the first that
applies counts; `step_outcome` says that steps end by the table, on every machine that can come
about.
-/

namespace ChipEight

namespace Opcode

/-- The length of the block at the index that a word's instruction copies from memory or to it, if
it is one of the four that do: the rows of a sprite, three decimal digits, or registers. -/
def blockLength? (config : Config) (op : UInt16) : Option Nat :=
  match family op, (kk op).toNat with
  | 0xD, _ => some (n op).toNat
  | 0xF, 0x33 => some 3
  | 0xF, 0x55 | 0xF, 0x65 => some (config.copyLength (x op))
  | _, _ => none

end Opcode

namespace Instruction

/-- The length of the block that an instruction copies, if it is one of the four that do. -/
def blockLength? (config : Config) : Instruction Register → Option Nat
  | .draw _ _ n => some n.toNat
  | .storeDecimal _ => some 3
  | .storeRegisters x | .loadRegisters x => some (config.copyLength x)
  | _ => none

variable {config : Config} {op : UInt16} {i : Instruction Register}

theorem blockLength?_of_arithmetic {x y : Register} {n : UInt8}
    (h : ofArithmetic? x y n = some i) : i.blockLength? config = none := by
  unfold ofArithmetic? at h
  split at h <;> cases h <;> rfl

theorem blockLength?_of_keyTest {x : Register} {kk : UInt8} (h : ofKeyTest? x kk = some i) :
    i.blockLength? config = none := by
  unfold ofKeyTest? at h
  split at h <;> cases h <;> rfl

theorem blockLength?_of_transfer (hf : Opcode.family op = 0xF)
    (h : ofTransfer? (Opcode.x op) (Opcode.kk op) = some i) :
    Opcode.blockLength? config op = i.blockLength? config := by
  unfold ofTransfer? at h
  split at h <;> cases h <;> rename_i hkk <;> simp [Opcode.blockLength?, blockLength?, hf, hkk]

theorem blockLength?_of_decode (h : decode op = some i) :
    Opcode.blockLength? config op = i.blockLength? config := by
  unfold decode at h
  dsimp only at h
  split at h <;> rename_i hf
  case h_9 => simp [Opcode.blockLength?, hf, blockLength?_of_arithmetic h]
  case h_15 => simp [Opcode.blockLength?, hf, blockLength?_of_keyTest h]
  case h_16 => exact blockLength?_of_transfer hf h
  all_goals
    (try split at h) <;> (try split at h) <;> cases h <;>
      simp [Opcode.blockLength?, blockLength?, hf]

end Instruction

namespace Machine

/-- How a step ends that has found a word. -/
def verdict (m : Machine) (op : UInt16) : Outcome :=
  let limit := min m.config.callDepth 16
  let index := m.index.toNat
  match Instruction.decode op with
  | none => .failed (.unknownOpcode op m.pc)
  | some i =>
    if op = 0x00EE ∧ m.stack.frames = [] then .failed .noOpenCall
    else if Opcode.family op = 0x2 ∧ m.stack.frames.length = limit then
      .failed (.tooManyCalls limit)
    else
      match Opcode.blockLength? m.config op with
      | none => .executed m.pc i
      | some length =>
        if 0x1000 < index ∨ (index = 0x1000 ∧ 0 < length) then .failed (.noSuchAddress index)
        else if index < 0x1000 ∧ 0x1000 < index + length then .failed (.blockOverrun index length)
        else .executed m.pc i

variable {config : Config} {opened : List UInt16} {m : Machine} {op : UInt16}
  {i : Instruction Register}

/-! ### The rows of the table -/

/-- Only the stack and the block at the index can stand in an instruction's way. -/
theorem fault?_eq_bind (hret : i ≠ .ret) (hcall : ∀ nnn, i ≠ .call nnn) :
    m.fault? i = (i.blockLength? m.config).bind (Memory.blockFault? m.index.toNat) := by
  cases i with
  | ret => exact absurd rfl hret
  | call nnn => exact absurd rfl (hcall nnn)
  | _ => rfl

theorem fault?_advance (m : Machine) (i : Instruction Register) :
    m.advance.fault? i = m.fault? i := by
  cases i <;> rfl

/-- How an instruction ends that has been fetched. -/
def ending (m : Machine) (i : Instruction Register) : Outcome :=
  match m.fault? i with
  | some f => .failed f
  | none => .executed m.pc i

theorem verdict_ret (hs : m.stack.Fits) : m.verdict 0x00EE = m.ending .ret := by
  have hd : Instruction.decode 0x00EE = some .ret := Instruction.decode_eq_ret_iff.mpr rfl
  have hempty := ReturnStack.isEmpty_iff_frames hs
  unfold verdict ending fault?
  rw [hd]
  by_cases he : m.stack.frames = []
  · simp [he, hempty.mpr he]
  · have hne : m.stack.isEmpty = false := Bool.eq_false_iff.mpr fun h => he (hempty.mp h)
    have hfamily : Opcode.family 0x00EE ≠ 0x2 := by decide
    have hblock : Opcode.blockLength? m.config 0x00EE = none :=
      Instruction.blockLength?_of_decode hd
    simp [he, hne, hfamily, hblock]

theorem verdict_call (h : Nests config opened m) {nnn : UInt16}
    (hd : Instruction.decode op = some (.call nnn)) : m.verdict op = m.ending (.call nnn) := by
  have hfamily : Opcode.family op = 0x2 := (Instruction.decode_eq_call_iff.mp hd).1
  have hop : op ≠ 0x00EE := by
    rintro rfl
    exact absurd hfamily (by decide)
  have hlimit : m.stack.limit = min m.config.callDepth 16 := by rw [h.limit_eq, h.config_eq]
  have hfull := ReturnStack.isFull_iff_frames h.fits
  unfold verdict ending fault?
  rw [hd, ← hlimit]
  by_cases hlen : m.stack.frames.length = m.stack.limit
  · simp [hop, hfamily, hlen, hfull.mpr hlen]
  · have hne : m.stack.isFull = false := Bool.eq_false_iff.mpr fun h => hlen (hfull.mp h)
    have hblock : Opcode.blockLength? m.config op = none := Instruction.blockLength?_of_decode hd
    simp [hop, hlen, hne, hblock]

/-- The last rows of the table are what can be wrong with a block. -/
theorem verdict_of_others (hd : Instruction.decode op = some i) (hret : i ≠ .ret)
    (hcall : ∀ nnn, i ≠ .call nnn) : m.verdict op = m.ending i := by
  have hop : op ≠ 0x00EE := fun h => hret (Option.some.inj
    (hd.symm.trans (Instruction.decode_eq_ret_iff.mpr h)))
  have hfamily : Opcode.family op ≠ 0x2 := fun h => hcall _ (Option.some.inj
    (hd.symm.trans (Instruction.decode_eq_call_iff.mpr ⟨h, rfl⟩)))
  unfold verdict ending
  rw [hd, fault?_eq_bind hret hcall, ← Instruction.blockLength?_of_decode hd]
  cases hlen : Opcode.blockLength? m.config op with
  | none => simp [hop, hfamily]
  | some length =>
    by_cases hstart : 0x1000 < m.index.toNat ∨ (m.index.toNat = 0x1000 ∧ 0 < length)
    · simp [hop, hfamily, hstart, Memory.blockFault?_of_start hstart]
    · by_cases hend : m.index.toNat < 0x1000 ∧ 0x1000 < m.index.toNat + length
      · simp [hop, hfamily, hstart, hend, Memory.blockFault?_of_end hend.1 hend.2]
      · have hfits : m.index.toNat + length ≤ Memory.size := by
          unfold Memory.size
          omega
        simp [hop, hfamily, hstart, hend, Memory.blockFault?_eq_none_iff.mpr hfits]

theorem verdict_of_decode (h : Nests config opened m) (hd : Instruction.decode op = some i) :
    m.verdict op = m.ending i := by
  by_cases hret : i = .ret
  · subst hret
    obtain rfl := Instruction.decode_eq_ret_iff.mp hd
    exact verdict_ret h.fits
  · by_cases hcall : ∃ nnn, i = .call nnn
    · obtain ⟨nnn, rfl⟩ := hcall
      exact verdict_call h hd
    · exact verdict_of_others hd hret fun nnn hi => hcall ⟨nnn, hi⟩

theorem Nests.step_eq_verdict (h : Nests config opened m) (hm : m.mode = .running)
    (hw : m.memory.word m.pc.toNat = .ok op) : m.step.1 = m.verdict op := by
  cases hd : Instruction.decode op with
  | none =>
    rw [steps_iff.mp (.unknown hm hw hd), verdict, hd]
  | some i =>
    rw [verdict_of_decode h hd, ending]
    cases hf : m.fault? i with
    | some f => rw [steps_iff.mp (.stopped hm hw hd ((fault?_advance m i).trans hf))]
    | none => rw [steps_iff.mp (.executed hm hw hd ((fault?_advance m i).trans hf))]

/-! ### The table -/

/-- **How a step ends.** After any calls of the host: a step is suspended while the machine waits
for a key. Otherwise it fails if the word at the program counter does not lie in memory whole, for
the first of its two addresses that is not in memory; and if it does, it ends by the table, with as
many calls open at most as have been configured and as there is room for. -/
theorem step_outcome (config : Config) (entropy : Random.Key) (calls : List Call) :
    let m := (new config entropy).after calls
    m.config = config ∧
    (∀ x, m.mode = .awaiting x → m.step.1 = .suspended) ∧
    (m.mode = .running → 0xFFF ≤ m.pc.toNat →
      m.step.1 = .failed (.noSuchAddress (max m.pc.toNat 0x1000))) ∧
    (m.mode = .running → m.pc.toNat < 0xFFF →
      ∃ op, m.wordAt m.pc = .ok op ∧ m.step.1 = m.verdict op) := by
  intro m
  have h : Nests config _ m := nests_after config entropy calls
  refine ⟨h.config_eq, fun x hm => ?_, fun hm hpc => ?_, fun hm hpc => ?_⟩
  · rw [steps_iff.mp (.suspended hm)]
  · have hw : m.memory.word m.pc.toNat = _ := Memory.word_of_le (Nat.succ_le_succ hpc)
    rw [steps_iff.mp (.lost hm hw)]
    rfl
  · have hw : m.memory.word m.pc.toNat = _ := Memory.word_of_lt (Nat.succ_lt_succ hpc)
    exact ⟨_, (m.wordAt_eq m.pc).trans hw, h.step_eq_verdict hm hw⟩

set_option maxRecDepth 20000 in
/-- A copy of no register may start where memory ends. -/
theorem empty_copy_at_end :
    let m := (new { inclusive := false } (Random.Key.ofSeed 0)).after
      [.load [0xAF, 0xFF, 0x61, 0x01, 0xF1, 0x1E, 0xF0, 0x55], .step, .step, .step]
    m.mode = .running ∧ m.pc.toNat < 0xFFF ∧ m.index = 0x1000 ∧
      m.step.1 = .executed 0x206 (.storeRegisters 0) := by
  intro m
  have hm : m.mode = .running ∧ m.pc.toNat < 0xFFF ∧ m.index = 0x1000 ∧
      (m.memory.word m.pc.toNat).toOption = some 0xF055 ∧
      m.verdict 0xF055 = .executed 0x206 (.storeRegisters 0) := by
    decide +kernel
  obtain ⟨hmode, hpc, hindex, hword, hverdict⟩ := hm
  obtain ⟨op, hw, hs⟩ := (step_outcome { inclusive := false } (Random.Key.ofSeed 0)
    [.load [0xAF, 0xFF, 0x61, 0x01, 0xF1, 0x1E, 0xF0, 0x55], .step, .step, .step]).2.2.2 hmode hpc
  rw [← wordAt_eq, hw] at hword
  cases hword
  exact ⟨hmode, hpc, hindex, hs.trans hverdict⟩

end Machine

end ChipEight
