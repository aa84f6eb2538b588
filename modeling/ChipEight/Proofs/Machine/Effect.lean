import ChipEight.Machine.Host
import ChipEight.Proofs.Instruction.Decoding
import ChipEight.Proofs.Memory
import ChipEight.Proofs.ReturnStack
import ChipEight.Proofs.Screen.Drawing

/-!
# ChipEight.Proofs.Machine.Effect

**What an instruction comes to.** `Action.execute` goes about an instruction one change at a time
and may find only on its way that it cannot go on. Here the same is said in one go: `fault?` is what
stands in an instruction's way, and `perform` is its whole effect if nothing does.

`execute_apply` says that this is what `execute` does, on any substrate that finds what the
instruction relies on (`Ready`). In particular an instruction that ends with a fault has changed
nothing by then.
-/

namespace ChipEight

namespace Machine

/-! ### Effects -/

/-- What keeps an instruction from being performed, if anything: the stack for calls and returns,
the block at the index for those that copy from memory or to it. -/
def fault? (m : Machine) : Instruction Register → Option Fault
  | .ret => if m.stack.isEmpty then some .noOpenCall else none
  | .call _ => if m.stack.isFull then some (.tooManyCalls m.stack.limit) else none
  | .draw _ _ n => Memory.blockFault? m.index.toNat n.toNat
  | .storeDecimal _ => Memory.blockFault? m.index.toNat 3
  | .storeRegisters x => Memory.blockFault? m.index.toNat (m.config.copyLength x)
  | .loadRegisters x => Memory.blockFault? m.index.toNat (m.config.copyLength x)
  | _ => none

theorem fault?_call_eq_none_iff {m : Machine} {nnn : UInt16} :
    m.fault? (.call nnn) = none ↔ m.stack.isFull = false := by
  simp [fault?]

theorem fault?_ret_eq_none_iff {m : Machine} : m.fault? .ret = none ↔ m.stack.isEmpty = false := by
  simp [fault?]

def setRegister (m : Machine) (x : Register) (b : UInt8) : Machine :=
  { m with v := m.v.set x b }

theorem get_setRegister (m : Machine) (x z : Register) (b : UInt8) :
    (m.setRegister x b).v.get z = if z = x then b else m.v.get z := by
  split
  · next h => subst h; exact Vector.getElem_set_self z.isLt
  · next h => exact Vector.getElem_set_ne x.isLt z.isLt fun hx => h (Fin.ext hx.symm)

/-- Puts a flag into `VF` and then a result into `Vx`. -/
def setFlagged (m : Machine) (x : Register) (result : UInt8) (flag : Bool) : Machine :=
  (m.setRegister .flag flag.toUInt8).setRegister x result

/-- The result goes in after the flag. -/
theorem get_setFlagged (m : Machine) (x z : Register) (result : UInt8) (flag : Bool) :
    (m.setFlagged x result flag).v.get z =
      if z = x then result else if z = .flag then flag.toUInt8 else m.v.get z := by
  rw [setFlagged, get_setRegister, get_setRegister]

def passOver (m : Machine) (condition : Bool) : Machine :=
  { m with pc := if condition then m.pc + 2 else m.pc }

/-- Goes to `address` plus `Vx`. -/
def jumpBy (m : Machine) (address : UInt16) (x : Register) : Machine :=
  { m with pc := address + m.v[x].toUInt16 }

def enter (m : Machine) (address : UInt16) : Machine :=
  { m with stack := m.stack.push m.pc, pc := address }

def leave (m : Machine) : Machine :=
  { m with pc := m.stack.top, stack := m.stack.pop }

/-- Puts the next random byte under a mask into a register. -/
def setRandom (m : Machine) (x : Register) (mask : UInt8) : Machine :=
  { m.setRegister x (m.random.byte &&& mask) with random := m.random.next }

def clearScreen (m : Machine) : Machine :=
  { m with screen := .blank, redraw := true }

/-- Draws the `n` rows at the index; `VF` says whether a pixel has been turned off. -/
def drawSprite (m : Machine) (x y : Register) (n : Nat) : Machine :=
  let drawn := m.screen.draw m.v[x].toNat m.v[y].toNat (m.memory.block m.index.toNat n)
  { m.setRegister .flag drawn.2.toUInt8 with screen := drawn.1, redraw := true }

def advance (m : Machine) : Machine :=
  { m with pc := m.pc + 2 }

def put (m : Machine) (address : Nat) (block : List UInt8) : Machine :=
  { m with memory := m.memory.write address block }

/-- Reads the first registers from the block at the index. -/
def loadBlock (m : Machine) (length : Nat) : Machine :=
  { m with v := m.v.write 0 (m.memory.block m.index.toNat length) }

def perform (m : Machine) : Instruction Register → Machine
  | .clearScreen => m.clearScreen
  | .ret => m.leave
  | .hostRoutine _ => m
  | .jump nnn => { m with pc := nnn }
  | .call nnn => m.enter nnn
  | .skipIfByte x kk => m.passOver (m.v[x] = kk)
  | .skipUnlessByte x kk => m.passOver (m.v[x] ≠ kk)
  | .skipIfSame x y => m.passOver (m.v[x] = m.v[y])
  | .setByte x kk => m.setRegister x kk
  | .addByte x kk => m.setRegister x (m.v[x] + kk)
  | .copy x y => m.setRegister x m.v[y]
  | .bitOr x y => m.setRegister x (m.v[x] ||| m.v[y])
  | .bitAnd x y => m.setRegister x (m.v[x] &&& m.v[y])
  | .bitXor x y => m.setRegister x (m.v[x] ^^^ m.v[y])
  | .add x y => m.setFlagged x (m.v[x] + m.v[y]) (255 < m.v[x].toNat + m.v[y].toNat)
  | .subtract x y => m.setFlagged x (m.v[x] - m.v[y]) (m.v[y] < m.v[x])
  | .shiftRight x _ => m.setFlagged x (m.v[x] / 2) (m.v[x] % 2 = 1)
  | .subtractFrom x y => m.setFlagged x (m.v[y] - m.v[x]) (m.v[x] < m.v[y])
  | .shiftLeft x _ => m.setFlagged x (m.v[x] + m.v[x]) (128 ≤ m.v[x])
  | .skipUnlessSame x y => m.passOver (m.v[x] ≠ m.v[y])
  | .setIndex nnn => { m with index := nnn }
  | .jumpPlus nnn => m.jumpBy nnn .offset
  | .random x kk => m.setRandom x kk
  | .draw x y n => m.drawSprite x y n.toNat
  | .skipIfPressed x => m.passOver (m.keypad.isDown m.v[x])
  | .skipUnlessPressed x => m.passOver (!m.keypad.isDown m.v[x])
  | .getDelay x => m.setRegister x m.timers.delay
  | .waitForKey x => { m with mode := .awaiting x }
  | .startDelay x => { m with timers.delay := m.v[x] }
  | .startSound x => { m with timers.sound := m.v[x] }
  | .advanceIndex x => { m with index := m.index + m.v[x].toUInt16 }
  | .pointToGlyph x =>
    { m with index := UInt16.ofNat (Font.origin + Font.glyphRows * m.v[x].toNat) }
  | .storeDecimal x => m.put m.index.toNat (Action.decimal m.v[x])
  | .storeRegisters x => m.put m.index.toNat (m.v.read 0 (m.config.copyLength x))
  | .loadRegisters x => m.loadBlock (m.config.copyLength x)

/-- What an instruction relies on: that the stack has slots for its calls, that the program counter
is not at the end of its range, and that its operands have been decoded. -/
structure Ready (m : Machine) (i : Instruction Register) : Prop where
  /-- The stack has a slot for each call that may be open. -/
  stack : m.stack.Fits
  pc_lt : m.pc.toNat + 2 < UInt16.size
  proper : i.Proper

end Machine

namespace Action

variable {M : Type → Type} [Monad M] [LawfulMonad M] [Substrate M] {α : Type} {m : Machine}

/-- How something ends that does nothing but to end with a fault if there is one. -/
def guarded (fault : Option Fault) (m : Machine) (a : α) (m' : Machine) :
    Except Fault α × Machine :=
  match fault with
  | some f => (.error f, m)
  | none => (.ok a, m')

@[simp] theorem register_apply (x : Register) (m : Machine) :
    (register x : Action M UInt8) m = pure (.ok m.v[x], m) := by
  have h : m.v.load x.val = (pure m.v[x] : M UInt8) := by
    rw [Bank.load_eq fun _ => x.isLt]
    simp
  rw [register, machine_bind, lift_apply h]

@[simp] theorem setRegister_apply (x : Register) (b : UInt8) (m : Machine) :
    (setRegister x b : Action M Unit) m = pure (.ok (), m.setRegister x b) := by
  have h : m.v.store x.val b = (pure (m.v.set x b) : M (Bank 16)) := by
    rw [Bank.store_eq fun _ => x.isLt]
    simp [Vector.setIfInBounds, Vector.set, Array.setIfInBounds]
  rw [setRegister, machine_bind, bind_of_ok (lift_apply h m)]
  rfl

@[simp] theorem register_bind (x : Register) (f : UInt8 → Action M α) (m : Machine) :
    (register x >>= f) m = f m.v[x] m :=
  bind_of_ok (register_apply x m)

@[simp] theorem setFlagged_apply (x : Register) (result : UInt8) (flag : Bool) (m : Machine) :
    (setFlagged x result flag : Action M Unit) m = pure (.ok (), m.setFlagged x result flag) := by
  rw [setFlagged, bind_of_ok (setRegister_apply _ _ m), setRegister_apply]
  rfl

theorem copyLength_apply (x : Register) (m : Machine) :
    (copyLength x : Action M Nat) m = pure (.ok (m.config.copyLength x), m) := by
  have hx : x.val + 1 < Substrate.sizeCount := by have := x.isLt; unfold Substrate.sizeCount; omega
  rw [copyLength, machine_bind, ite_apply, bind_of_ok (rely_apply (fun _ => hx) m)]
  unfold Config.copyLength
  split <;> rfl

omit [Substrate M] in
theorem bind_of_guarded {β : Type} {x : Action M α} {f : α → Action M β} {fault : Option Fault}
    {m m' m'' : Machine} {a : α} {b : β} (h : x m = pure (guarded fault m a m'))
    (hf : fault = none → f a m' = pure (.ok b, m'')) :
    (x >>= f) m = pure (guarded fault m b m'') := by
  cases hc : fault with
  | some fault => exact bind_of_error (by rw [h, hc]; rfl)
  | none => rw [bind_of_ok (by rw [h, hc]; rfl), hf hc]; rfl

/-! ### Blocks -/

section Blocks

variable {address length : Nat}

theorem checkBlock_apply (h : Substrate.checks M = true → address + length < Substrate.sizeCount)
    (m : Machine) : (checkBlock address length : Action M Unit) m =
      pure (guarded (Memory.blockFault? address length) m () m) := by
  rw [checkBlock, ite_apply, bind_of_ok (rely_apply h m), ite_apply]
  unfold Memory.blockFault?
  split
  · rfl
  · split <;> rfl

theorem block_apply (h : Substrate.checks M = true → address + length < Substrate.sizeCount)
    (m : Machine) : (block address length : Action M (List UInt8)) m =
      pure (guarded (Memory.blockFault? address length) m (m.memory.block address length) m) := by
  refine bind_of_guarded (checkBlock_apply h m) fun hf => ?_
  have hle := Memory.blockFault?_eq_none_iff.mp hf
  rw [bind_of_ok (rely_apply h m), machine_bind, lift_apply (Bank.slice_eq fun _ => hle)]
  rfl

theorem writeBlock_apply {bytes : List UInt8}
    (h : Substrate.checks M = true → address + bytes.length < Substrate.sizeCount) (m : Machine) :
    (writeBlock address bytes : Action M Unit) m =
      pure (guarded (Memory.blockFault? address bytes.length) m () (m.put address bytes)) := by
  refine bind_of_guarded (checkBlock_apply h m) fun hf => ?_
  have hle := Memory.blockFault?_eq_none_iff.mp hf
  rw [bind_of_ok (rely_apply h m), machine_bind,
    bind_of_ok (lift_apply (Bank.splice_eq rfl fun _ => hle) m), update_apply]
  rfl

end Blocks

/-! ### The program counter and the stack -/

theorem advance_apply (h : Substrate.checks M = true → m.pc.toNat + 2 < UInt16.size) :
    (advance : Action M Unit) m = pure (.ok (), m.advance) := by
  rw [advance, machine_bind, bind_of_ok (rely_apply h m)]
  rfl

theorem skipIf_apply (h : Substrate.checks M = true → m.pc.toNat + 2 < UInt16.size)
    (condition : Bool) :
    (skipIf condition : Action M Unit) m = pure (.ok (), m.passOver condition) := by
  rw [skipIf, ite_apply, advance_apply h]
  unfold Machine.passOver
  split <;> rfl

theorem push_apply (h : Substrate.checks M = true → m.stack.Fits) (address : UInt16) :
    (push address : Action M Unit) m =
      pure (guarded (if m.stack.isFull then some (.tooManyCalls m.stack.limit) else none) m ()
        { m with stack := m.stack.push address }) := by
  rw [push, machine_bind, ite_apply]
  split
  · rfl
  · next hfull =>
    have hlt (hc : Substrate.checks M = true) : m.stack.depth < ReturnStack.maxDepth :=
      (h hc).depth_lt (Bool.eq_false_iff.mpr hfull)
    have hsize (hc : Substrate.checks M = true) : m.stack.depth + 1 < Substrate.sizeCount := by
      have := hlt hc
      unfold ReturnStack.maxDepth at this
      unfold Substrate.sizeCount
      omega
    rw [bind_of_ok (rely_apply hlt m), update_bind, bind_of_ok (rely_apply hsize _), update_apply]
    rfl

/-- A stack that may hold more calls than it has slots for is found out. -/
example (m : Machine) : (push 0 : Action Option Unit)
    { m with stack := ⟨17, 16, .replicate 16 0⟩ } = none := by
  rfl

theorem pop_apply (h : Substrate.checks M = true → m.stack.Fits) :
    (pop : Action M UInt16) m =
      pure (guarded (if m.stack.isEmpty then some .noOpenCall else none) m m.stack.top
        { m with stack := m.stack.pop }) := by
  rw [pop, machine_bind, ite_apply]
  split
  · rfl
  · next hempty =>
    rw [ReturnStack.isEmpty_iff] at hempty
    rw [bind_of_ok (rely_apply (fun _ => by omega) m), update_bind,
      bind_of_ok (rely_apply (fun hc => (h hc).top_lt) _)]
    rfl

/-! ### Instructions -/

omit [Substrate M] in
theorem randomByte_apply (m : Machine) :
    (randomByte : Action M UInt8) m =
      pure (.ok m.random.byte, { m with random := m.random.next }) := by
  rw [randomByte, machine_bind, update_bind]
  rfl

theorem draw_apply (x y : Register) {n : Nat} (hn : Substrate.checks M = true → n < 0x10) :
    (draw x y n : Action M Unit) m =
      pure (guarded (Memory.blockFault? m.index.toNat n) m () (m.drawSprite x y n)) := by
  have hi := m.index.toNat_lt
  have hx := m.v[x].toNat_lt
  have hy := m.v[y].toNat_lt
  rw [draw, machine_bind]
  refine bind_of_guarded (block_apply (fun hc => ?_) m) fun hf => ?_
  · have := hn hc
    unfold Substrate.sizeCount
    omega
  · have hle := Memory.blockFault?_eq_none_iff.mp hf
    have hlen : (m.memory.block m.index.toNat n).length = n := Bank.length_read hle
    have hcolumns : m.v[x].toNat + 8 ≤ Substrate.sizeCount := by
      unfold Substrate.sizeCount
      omega
    have hrows (hc : Substrate.checks M = true) :
        m.v[y].toNat + (m.memory.block m.index.toNat n).length ≤ Substrate.sizeCount := by
      have := hn hc
      unfold Substrate.sizeCount
      omega
    rw [register_bind, register_bind, machine_bind,
      bind_of_ok (lift_apply (Screen.drawSprite_eq (fun _ => hcolumns) hrows _) m), update_bind,
      bind_of_ok (setRegister_apply _ _ _), update_apply]
    rfl

theorem slice_registers (m : Machine) {length : Nat} (h : length ≤ 16) :
    m.v.slice 0 (0 + length) = (pure (m.v.read 0 length) : M (List UInt8)) :=
  Bank.slice_eq fun _ => by omega

theorem storeRegisters_apply {length : Nat} (h : length ≤ 16) :
    (storeRegisters length : Action M Unit) m =
      pure (guarded (Memory.blockFault? m.index.toNat length) m ()
        (m.put m.index.toNat (m.v.read 0 length))) := by
  have hi := m.index.toNat_lt
  have hlen : (m.v.read 0 length).length = length := Bank.length_read (by omega)
  rw [storeRegisters, machine_bind, bind_of_ok (lift_apply (slice_registers m h) m), machine_bind,
    writeBlock_apply (fun _ => by unfold Substrate.sizeCount; omega), hlen]

theorem loadRegisters_apply {length : Nat} (h : length ≤ 16) :
    (loadRegisters length : Action M Unit) m =
      pure (guarded (Memory.blockFault? m.index.toNat length) m () (m.loadBlock length)) := by
  have hi := m.index.toNat_lt
  rw [loadRegisters, machine_bind]
  refine bind_of_guarded (block_apply (fun _ => by unfold Substrate.sizeCount; omega) m)
    fun hf => ?_
  have hle := Memory.blockFault?_eq_none_iff.mp hf
  have hlen : (m.memory.block m.index.toNat length).length = length := Bank.length_read hle
  have hsplice : m.v.splice 0 (0 + length) (m.memory.block m.index.toNat length) =
      (pure (m.v.write 0 (m.memory.block m.index.toNat length)) : M (Bank 16)) :=
    Bank.splice_eq hlen fun _ => by omega
  rw [machine_bind, bind_of_ok (lift_apply hsplice m)]
  rfl

/-! The instructions that copy between memory and registers rely on nothing. -/

theorem execute_storeDecimal (x : Register) (m : Machine) :
    (execute (.storeDecimal x) : Action M Unit) m =
      pure (guarded (Memory.blockFault? m.index.toNat 3) m ()
        (m.put m.index.toNat (decimal m.v[x]))) := by
  have hi := m.index.toNat_lt
  rw [execute, register_bind, machine_bind,
    writeBlock_apply fun _ => by simp only [decimal, List.length, Substrate.sizeCount]; omega]
  rfl

theorem execute_storeRegisters (x : Register) (m : Machine) :
    (execute (.storeRegisters x) : Action M Unit) m =
      pure (guarded (Memory.blockFault? m.index.toNat (m.config.copyLength x)) m ()
        (m.put m.index.toNat (m.v.read 0 (m.config.copyLength x)))) := by
  rw [execute, bind_of_ok (copyLength_apply x m)]
  exact storeRegisters_apply (m.config.copyLength_le x)

theorem execute_loadRegisters (x : Register) (m : Machine) :
    (execute (.loadRegisters x) : Action M Unit) m =
      pure (guarded (Memory.blockFault? m.index.toNat (m.config.copyLength x)) m ()
        (m.loadBlock (m.config.copyLength x))) := by
  rw [execute, bind_of_ok (copyLength_apply x m)]
  exact loadRegisters_apply (m.config.copyLength_le x)

/-- **Executing an instruction** is seeing what stands in its way and, if nothing does, having its
whole effect. -/
theorem execute_apply (i : Instruction Register)
    (h : Substrate.checks M = true → m.Ready i) :
    (execute i : Action M Unit) m = pure (guarded (m.fault? i) m () (m.perform i)) := by
  have hpc (hc : Substrate.checks M = true) := (h hc).pc_lt
  have hs (hc : Substrate.checks M = true) := (h hc).stack
  cases i with
  | clearScreen => rw [execute, clearScreen, update_bind]; rfl
  | ret => exact bind_of_guarded (pop_apply hs) fun _ => rfl
  | hostRoutine nnn => rfl
  | jump nnn => rfl
  | call nnn =>
    rw [execute, machine_bind]
    exact bind_of_guarded (push_apply hs _) fun _ => rfl
  | skipIfByte x kk => rw [execute, register_bind, skipIf_apply hpc]; rfl
  | skipUnlessByte x kk => rw [execute, register_bind, skipIf_apply hpc]; rfl
  | skipIfSame x y => rw [execute, register_bind, register_bind, skipIf_apply hpc]; rfl
  | setByte x kk => rw [execute, setRegister_apply]; rfl
  | addByte x kk => rw [execute, register_bind, setRegister_apply]; rfl
  | copy x y => rw [execute, register_bind, setRegister_apply]; rfl
  | bitOr x y => rw [execute, register_bind, register_bind, setRegister_apply]; rfl
  | bitAnd x y => rw [execute, register_bind, register_bind, setRegister_apply]; rfl
  | bitXor x y => rw [execute, register_bind, register_bind, setRegister_apply]; rfl
  | add x y => rw [execute, register_bind, register_bind, setFlagged_apply]; rfl
  | subtract x y => rw [execute, register_bind, register_bind, setFlagged_apply]; rfl
  | shiftRight x y => rw [execute, register_bind, setFlagged_apply]; rfl
  | subtractFrom x y => rw [execute, register_bind, register_bind, setFlagged_apply]; rfl
  | shiftLeft x y => rw [execute, register_bind, setFlagged_apply]; rfl
  | skipUnlessSame x y => rw [execute, register_bind, register_bind, skipIf_apply hpc]; rfl
  | setIndex nnn => rfl
  | jumpPlus nnn =>
    -- the sum is not taken around the end of its range
    have hsum (hc : Substrate.checks M = true) :
        nnn.toNat + m.v[Register.offset].toNat < UInt16.size := by
      have hnnn : nnn.toNat < 0x1000 := (h hc).proper
      have hv := m.v[Register.offset].toNat_lt
      rw [UInt16.size]
      omega
    rw [execute, register_bind, bind_of_ok (rely_apply hsum m)]
    rfl
  | random x kk => rw [execute, bind_of_ok (randomByte_apply m), setRegister_apply]; rfl
  | draw x y n => exact draw_apply x y fun hc => (h hc).proper
  | skipIfPressed x => rw [execute, register_bind, machine_bind, skipIf_apply hpc]; rfl
  | skipUnlessPressed x => rw [execute, register_bind, machine_bind, skipIf_apply hpc]; rfl
  | getDelay x => rw [execute, machine_bind, setRegister_apply]; rfl
  | waitForKey x => rfl
  | startDelay x => rw [execute, register_bind]; rfl
  | startSound x => rw [execute, register_bind]; rfl
  | advanceIndex x => rw [execute, register_bind]; rfl
  | pointToGlyph x =>
    -- any byte will do as a digit
    have hv := m.v[x].toNat_lt
    have hrow : Font.glyphRows * m.v[x].toNat < UInt16.size := by
      rw [Font.glyphRows, UInt16.size]
      omega
    rw [execute, register_bind, bind_of_ok (rely_apply (fun _ => hrow) m),
      bind_of_ok (rely_apply (fun _ => by rw [Font.origin]; omega) m)]
    rfl
  | storeDecimal x => exact execute_storeDecimal x m
  | storeRegisters x => exact execute_storeRegisters x m
  | loadRegisters x => exact execute_loadRegisters x m

end Action

end ChipEight
