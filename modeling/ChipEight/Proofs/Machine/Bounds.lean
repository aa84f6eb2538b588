import ChipEight.Proofs.Machine.Footprint
import ChipEight.Proofs.Machine.Trace

/-!
# ChipEight.Proofs.Machine.Bounds

**The bounds that a machine keeps to**, whatever its program and its host do.

The program counter leaves memory, but not by much: the furthest that anything takes it is the
greatest address of an instruction plus the greatest offset. Where calls return to lies past a word
that was found in memory. These bounds are all that the code relies on without testing it, so no
call ever comes to nothing on a substrate that checks.
-/

namespace ChipEight.Machine

/-- The bounds that a machine keeps to. -/
structure Bounded (m : Machine) : Prop where
  /-- An address of twelve bits and an offset of eight. -/
  pc_le : m.pc.toNat ≤ 0x10FE
  /-- The stack has a slot for each call that may be open. -/
  stack : m.stack.Fits
  /-- Calls return to where a word ends that lies in memory. -/
  returns : ∀ a ∈ m.stack.frames, 0x002 ≤ a.toNat ∧ a.toNat ≤ 0x1000
  /-- A key that is waited for goes to one of the registers. -/
  awaited : ∀ x, m.mode = .awaiting x → x.val < 16

variable {m : Machine} {i : Instruction Register}

theorem bounded_switchedOn (config : Config) (random : Random.Stream) :
    (switchedOn config random).Bounded where
  pc_le := by
    show (UInt16.ofNat programOrigin).toNat ≤ 0x10FE
    decide
  stack := ReturnStack.fits_empty _
  returns := by
    intro a ha
    cases ha
  awaited x _ := x.isLt

/-! ### Instructions -/

/-- Where the program counter is once a word has been fetched. -/
theorem pc_advance {w : UInt16} (hw : m.memory.word m.pc.toNat = .ok w) :
    m.advance.pc.toNat = m.pc.toNat + 2 ∧ m.advance.pc.toNat ≤ 0x1000 := by
  have hlt := Memory.lt_of_word hw
  have hpc : m.advance.pc.toNat = m.pc.toNat + 2 := by
    unfold Memory.size at hlt
    rw [advance, UInt16.toNat_add]
    simp
    omega
  unfold Memory.size at hlt
  omega

theorem Bounded.advance (h : m.Bounded) {w : UInt16}
    (hw : m.memory.word m.pc.toNat = .ok w) : m.advance.Bounded where
  pc_le := by have := (pc_advance hw).2; omega
  stack := h.stack
  returns := h.returns
  awaited := h.awaited

/-- A machine in its bounds is ready for all instructions that are decoded. -/
theorem Bounded.ready (h : m.Bounded) (hi : i.Proper) : m.Ready i where
  stack := h.stack
  pc_lt := by
    have := h.pc_le
    unfold UInt16.size
    omega
  proper := hi

theorem Bounded.top_le (h : m.Bounded) (hne : m.stack.isEmpty = false) :
    m.stack.top.toNat ≤ 0x1000 :=
  (h.returns _ (List.mem_of_getLast? (ReturnStack.getLast?_frames h.stack hne))).2

theorem passOver_pc_le (hpc : m.pc.toNat ≤ 0x1000) (condition : Bool) :
    (m.passOver condition).pc.toNat ≤ 0x10FE := by
  have hadd : (m.pc + 2).toNat = (m.pc.toNat + 2) % 65536 := UInt16.toNat_add _ _
  cases condition with
  | false =>
    simp only [passOver, Bool.false_eq_true, if_false]
    omega
  | true =>
    simp only [passOver, if_true]
    omega

theorem Bounded.perform_pc_le (h : m.Bounded) (hpc : m.pc.toNat ≤ 0x1000) (hi : i.Proper)
    (hf : m.fault? i = none) : (m.perform i).pc.toNat ≤ 0x10FE := by
  cases i with
  | ret => exact Nat.le_trans (h.top_le (fault?_ret_eq_none_iff.mp hf)) (by decide)
  | jump nnn => exact Nat.le_trans (Nat.le_of_lt hi) (by decide)
  | call nnn => exact Nat.le_trans (Nat.le_of_lt hi) (by decide)
  | jumpPlus nnn =>
    -- the only instruction that comes to the bound: `0xFFF` and an offset of `0xFF`
    have hnnn : nnn.toNat < 0x1000 := hi
    have hv := m.v[Register.offset].toNat_lt
    have hsum : (nnn + m.v[Register.offset].toUInt16).toNat =
        (nnn.toNat + m.v[Register.offset].toNat) % 65536 := by
      simp [UInt16.toNat_add]
    show (nnn + m.v[Register.offset].toUInt16).toNat ≤ 0x10FE
    omega
  | skipIfByte x kk => exact passOver_pc_le hpc _
  | skipUnlessByte x kk => exact passOver_pc_le hpc _
  | skipIfSame x y => exact passOver_pc_le hpc _
  | skipUnlessSame x y => exact passOver_pc_le hpc _
  | skipIfPressed x => exact passOver_pc_le hpc _
  | skipUnlessPressed x => exact passOver_pc_le hpc _
  | _ => exact Nat.le_trans hpc (by decide)

theorem Bounded.perform_returns (h : m.Bounded) (hlo : 0x002 ≤ m.pc.toNat)
    (hhi : m.pc.toNat ≤ 0x1000) :
    ∀ a ∈ i.openAfter m.pc m.stack.frames, 0x002 ≤ a.toNat ∧ a.toNat ≤ 0x1000 := by
  intro a ha
  cases i with
  | call nnn =>
    rcases List.mem_append.mp ha with ha | ha
    · exact h.returns a ha
    · -- the new address is where the machine has got to by fetching the call
      rw [List.mem_singleton.mp ha]
      exact ⟨hlo, hhi⟩
  | ret => exact h.returns a (List.dropLast_subset _ ha)
  | _ => exact h.returns a ha

theorem Bounded.perform (h : m.Bounded) (hlo : 0x002 ≤ m.pc.toNat) (hhi : m.pc.toNat ≤ 0x1000)
    (hi : i.Proper) (hf : m.fault? i = none) : (m.perform i).Bounded where
  pc_le := h.perform_pc_le hhi hi hf
  stack := fits_perform h.stack hf
  returns := by
    rw [frames_perform h.stack hf]
    exact h.perform_returns hlo hhi
  awaited x _ := x.isLt

/-! ### Calls -/

theorem Bounded.steps {o : Outcome} {m' : Machine} (h : m.Bounded) (hs : m.Steps o m') :
    m'.Bounded := by
  cases hs with
  | suspended hm => exact h
  | lost hm hw => exact h
  | unknown hm hw hd => exact h.advance hw
  | stopped hm hw hd hf => exact h.advance hw
  | executed hm hw hd hf =>
    obtain ⟨hpc, hhi⟩ := pc_advance hw
    exact (h.advance hw).perform (by omega) hhi (Instruction.proper_of_decode hd) hf

theorem Bounded.transition {c : Call} {r : Reply} {m' : Machine} (ht : m.Transition c r m')
    (h : m.Bounded) : m'.Bounded := by
  cases ht with
  | reset => exact bounded_switchedOn _ _
  | stepped hs => exact h.steps hs
  | resumed hk hm => exact ⟨h.pc_le, h.stack, h.returns, fun x _ => x.isLt⟩
  | _ => exact ⟨h.pc_le, h.stack, h.returns, h.awaited⟩

theorem bounded_after (config : Config) (entropy : Random.Key) (calls : List Call) :
    ((new config entropy).after calls).Bounded :=
  after_induction (fun _ _ _ _ ht h => h.transition ht) (bounded_switchedOn _ _) calls

/-- **No call relies on anything that is not so.** After any calls a machine is in its bounds, and
then every call that can be made at all comes to something on a substrate that checks: the same that
it comes to for a machine. So no index is outside of its bank, no difference is negative and no sum
is too large for its word, nor does the program counter ever wrap around. -/
theorem bounded_and_checked_after (config : Config) (entropy : Random.Key) (calls : List Call) :
    let m := (new config entropy).after calls
    m.Bounded ∧ ∀ c : Call, c.Representable → m.callOn (M := Option) c = some (m.call c) := by
  intro m
  have h : m.Bounded := bounded_after config entropy calls
  exact ⟨h, fun c hc => callOn_eq fun _ => ⟨h.stack, hc⟩⟩

set_option maxRecDepth 20000 in
/-- A subroutine waits for a key while the machine is poked past the end of its memory. -/
theorem poke_in_subroutine :
    let calls : List Call := [.load [0x22, 0x04, 0x00, 0xE0, 0xF1, 0x0A], .step, .step]
    let m := (new {} (Random.Key.ofSeed 0)).after calls
    let poke : Call := .poke 0xFFE [1, 2, 3]
    m.stack.frames = [0x202] ∧ m.mode = .awaiting 1 ∧ m.Bounded ∧
    (m.call poke).1 = .refused (.blockOverrun 0xFFE 3) ∧ poke.Representable ∧
    m.callOn (M := Option) poke = some (m.call poke) ∧
    m.callOn (M := Option) (.input 5 true) = some (m.call (.input 5 true)) := by
  intro calls m poke
  have hpoke : poke.Representable := by
    show 3 < Substrate.sizeCount / 2
    decide
  obtain ⟨hopen, hmode, hrefused⟩ : m.stack.frames = [0x202] ∧ m.mode = .awaiting 1 ∧
      (m.call poke).1 = .refused (.blockOverrun 0xFFE 3) := by
    decide +kernel
  obtain ⟨hbounded, hchecked⟩ := bounded_and_checked_after {} (Random.Key.ofSeed 0) calls
  exact ⟨hopen, hmode, hbounded, hrefused, hpoke, hchecked poke hpoke, hchecked _ trivial⟩

end ChipEight.Machine
