import ChipEight.Proofs.Machine.Footprint
import ChipEight.Proofs.Machine.Transition

/-!
# ChipEight.Proofs.Machine.Parts

**What an instruction can change.** A machine is cut into parts, down to single registers and single
bytes of memory (`Part`). `Machine.changes` lists for each instruction the parts that it can change
besides the program counter; it depends on the machine only through the index and through the
number of registers that a copy moves. All other parts are the same after the instruction
(`changesOnly_perform`), and the keypad and the configuration are the same after any step.
-/

namespace ChipEight

/-- A part of the machine. -/
inductive Part where
  | config
  | cell (address : Nat)
  | register (x : Register)
  | index
  | pc
  | stack
  | delay
  | sound
  | keypad
  | screen
  | mode
  | redraw
  | random
  deriving DecidableEq, Repr

/-- A part is the same in two machines. -/
def Part.Same (m m' : Machine) : Part → Prop
  | config => m'.config = m.config
  | cell address => m'.memory.bytes[address]? = m.memory.bytes[address]?
  | register x => m'.v.get x = m.v.get x
  | index => m'.index = m.index
  | pc => m'.pc = m.pc
  | stack => m'.stack = m.stack
  | delay => m'.timers.delay = m.timers.delay
  | sound => m'.timers.sound = m.timers.sound
  | keypad => m'.keypad = m.keypad
  | screen => m'.screen = m.screen
  | mode => m'.mode = m.mode
  | redraw => m'.redraw = m.redraw
  | random => m'.random = m.random

theorem Part.Same.refl (m : Machine) (p : Part) : p.Same m m := by
  cases p <;> rfl

theorem Part.Same.symm {m m' : Machine} {p : Part} (h : p.Same m m') : p.Same m' m := by
  cases p <;> exact Eq.symm h

theorem Part.Same.trans {m m' m'' : Machine} {p : Part} (h : p.Same m m') (h' : p.Same m' m'') :
    p.Same m m'' := by
  cases p <;> exact Eq.trans h' h

namespace Machine

/-- There is nothing to a machine but its parts. -/
theorem ext_part {m m' : Machine} (h : ∀ p : Part, p.Same m m') : m' = m := by
  obtain ⟨config, memory, v, index, pc, stack, timers, keypad, screen, mode, redraw, random⟩ := m
  obtain ⟨config', memory', v', index', pc', stack', timers', keypad', screen', mode', redraw',
    random'⟩ := m'
  have hmemory : memory' = memory := by
    obtain ⟨bytes⟩ := memory
    obtain ⟨bytes'⟩ := memory'
    refine congrArg Memory.mk (Vector.ext fun address ha => ?_)
    have hcell : bytes'[address]? = bytes[address]? := h (.cell address)
    simpa [ha] using hcell
  have hv : v' = v := Vector.ext fun x hx => h (.register ⟨x, hx⟩)
  have htimers : timers' = timers := by
    obtain ⟨delay, sound⟩ := timers
    obtain ⟨delay', sound'⟩ := timers'
    obtain rfl : delay' = delay := h .delay
    obtain rfl : sound' = sound := h .sound
    rfl
  obtain rfl : config' = config := h .config
  obtain rfl : index' = index := h .index
  obtain rfl : pc' = pc := h .pc
  obtain rfl : stack' = stack := h .stack
  obtain rfl : keypad' = keypad := h .keypad
  obtain rfl : screen' = screen := h .screen
  obtain rfl : mode' = mode := h .mode
  obtain rfl : redraw' = redraw := h .redraw
  obtain rfl : random' = random := h .random
  rw [hmemory, hv, htimers]

/-! ### What is changed -/

/-- The bytes of the block at the index. -/
def cellsAtIndex (m : Machine) (length : Nat) : List Part :=
  (List.range length).map fun j => .cell (m.index.toNat + j)

/-- The first registers. -/
def firstRegisters (length : Nat) : List Part :=
  ((List.finRange 16).filter fun x => x.val < length).map .register

/-- The parts that an instruction can change besides the program counter. -/
def changes (m : Machine) : Instruction Register → List Part
  | .setByte x _ | .addByte x _ | .copy x _ | .bitOr x _ | .bitAnd x _ | .bitXor x _
  | .getDelay x => [.register x]
  | .random x _ => [.register x, .random]
  | .add x _ | .subtract x _ | .shiftRight x _ | .subtractFrom x _ | .shiftLeft x _ =>
    [.register x, .register .flag]
  | .draw _ _ _ => [.screen, .register .flag, .redraw]
  | .clearScreen => [.screen, .redraw]
  | .call _ | .ret => [.stack]
  | .setIndex _ | .advanceIndex _ | .pointToGlyph _ => [.index]
  | .waitForKey _ => [.mode]
  | .startDelay _ => [.delay]
  | .startSound _ => [.sound]
  | .storeDecimal _ => m.cellsAtIndex 3
  | .storeRegisters x => m.cellsAtIndex (m.config.copyLength x)
  | .loadRegisters x => firstRegisters (m.config.copyLength x)
  | .hostRoutine _ | .jump _ | .jumpPlus _ => []
  | .skipIfByte _ _ | .skipUnlessByte _ _ | .skipIfSame _ _ | .skipUnlessSame _ _ => []
  | .skipIfPressed _ | .skipUnlessPressed _ => []

/-- The second machine differs from the first in nothing but some of its parts. -/
def ChangesOnly (m m' : Machine) (parts : List Part) : Prop :=
  ∀ p, p ∉ parts → p.Same m m'

variable {m m' m'' : Machine} {ps qs : List Part} {p : Part} {o : Outcome}

theorem ChangesOnly.trans (h : m.ChangesOnly m' ps) (h' : m'.ChangesOnly m'' qs) :
    m.ChangesOnly m'' (ps ++ qs) := by
  intro p hp
  rw [List.mem_append, not_or] at hp
  exact (h p hp.1).trans (h' p hp.2)

theorem ChangesOnly.mono (h : m.ChangesOnly m' ps) (hsub : ps ⊆ qs) : m.ChangesOnly m' qs := by
  intro p hp
  exact h p fun hmem => hp (hsub hmem)

/-! ### Effects -/

theorem changesOnly_jump (m : Machine) (address : UInt16) :
    m.ChangesOnly { m with pc := address } [.pc] := by
  intro p hp
  cases p with
  | pc => simp at hp
  | _ => rfl

theorem changesOnly_setRegister (m : Machine) (x : Register) (b : UInt8) :
    m.ChangesOnly (m.setRegister x b) [.register x] := by
  intro p hp
  cases p with
  | register y =>
    have hne : y ≠ x := by
      intro hyx
      simp [hyx] at hp
    exact (m.get_setRegister x y b).trans (if_neg hne)
  | _ => rfl

theorem changesOnly_setFlagged (m : Machine) (x : Register) (result : UInt8) (flag : Bool) :
    m.ChangesOnly (m.setFlagged x result flag) [.register .flag, .register x] :=
  (m.changesOnly_setRegister .flag flag.toUInt8).trans (changesOnly_setRegister _ x result)

/-- The screen is drawn to. -/
theorem changesOnly_show (m : Machine) (s : Screen) :
    m.ChangesOnly { m with screen := s, redraw := true } [.screen, .redraw] := by
  intro p hp
  cases p with
  | screen | redraw => simp at hp
  | _ => rfl

theorem changesOnly_put (m : Machine) {bytes : List UInt8} {length : Nat}
    (hlen : bytes.length = length) :
    m.ChangesOnly (m.put m.index.toNat bytes) (m.cellsAtIndex length) := by
  intro p hp
  cases p with
  | cell address =>
    have hout : ¬(m.index.toNat ≤ address ∧ address < m.index.toNat + bytes.length) := by
      intro ⟨hstart, hend⟩
      refine hp (List.mem_map.mpr ⟨address - m.index.toNat, List.mem_range.mpr (by omega), ?_⟩)
      rw [Nat.add_sub_cancel' hstart]
    show (m.memory.bytes.write m.index.toNat bytes)[address]? = m.memory.bytes[address]?
    rw [Bank.getElem?_write, if_neg fun h => hout ⟨h.1, h.2.1⟩]
  | _ => rfl

theorem changesOnly_loadBlock (m : Machine) (length : Nat) :
    m.ChangesOnly (m.loadBlock length) (firstRegisters length) := by
  intro p hp
  cases p with
  | register x =>
    have hlen : (m.memory.block m.index.toNat length).length ≤ length := by
      rw [Memory.block, Bank.read, Array.length_toList, Array.size_extract]
      omega
    have hx : ¬x.val < length := by
      simpa [firstRegisters] using hp
    have hget : (m.v.write 0 (m.memory.block m.index.toNat length))[x.val]? = m.v[x.val]? := by
      rw [Bank.getElem?_write, if_neg (by omega)]
    show (m.v.write 0 (m.memory.block m.index.toNat length))[x] = m.v[x]
    simpa using hget
  | _ => rfl

/-- **What an instruction can change**: the program counter and the parts that are listed. -/
theorem changesOnly_perform (m : Machine) (i : Instruction Register) :
    m.ChangesOnly (m.perform i) (.pc :: m.changes i) := by
  cases i with
  | setByte x _ | addByte x _ | copy x _ | bitOr x _ | bitAnd x _ | bitXor x _ | getDelay x =>
    exact (m.changesOnly_setRegister x _).mono (List.subset_cons_self _ _)
  | add x _ | subtract x _ | shiftRight x _ | subtractFrom x _ | shiftLeft x _ =>
    exact (m.changesOnly_setFlagged x _ _).mono (by simp [changes])
  | jump _ | jumpPlus _ | hostRoutine _ | skipIfByte _ _ | skipUnlessByte _ _ | skipIfSame _ _
  | skipUnlessSame _ _ | skipIfPressed _ | skipUnlessPressed _ => exact m.changesOnly_jump _
  | clearScreen => exact (m.changesOnly_show _).mono (List.subset_cons_self _ _)
  | draw x y n =>
    refine ((m.changesOnly_setRegister .flag _).trans (changesOnly_show _ _)).mono ?_
    simp [changes]
  | storeDecimal x => exact (m.changesOnly_put rfl).mono (List.subset_cons_self _ _)
  | storeRegisters x =>
    have hlen : (m.v.read 0 (m.config.copyLength x)).length = m.config.copyLength x :=
      Bank.length_read (by have := m.config.copyLength_le x; omega)
    exact (m.changesOnly_put hlen).mono (List.subset_cons_self _ _)
  | loadRegisters x => exact (m.changesOnly_loadBlock _).mono (List.subset_cons_self _ _)
  | random x kk =>
    have hregister := m.changesOnly_setRegister x (m.random.byte &&& kk)
    have hrandom : (m.setRegister x (m.random.byte &&& kk)).ChangesOnly
        (m.perform (.random x kk)) [.random] := by
      intro p hp
      cases p with
      | random => simp at hp
      | _ => rfl
    exact (hregister.trans hrandom).mono (List.subset_cons_self _ _)
  | call _ | ret =>
    intro p hp
    cases p with
    | pc | stack => simp [changes] at hp
    | _ => rfl
  | setIndex _ | advanceIndex _ | pointToGlyph _ =>
    intro p hp
    cases p with
    | index => simp [changes] at hp
    | _ => rfl
  | waitForKey _ =>
    intro p hp
    cases p with
    | mode => simp [changes] at hp
    | _ => rfl
  | startDelay _ =>
    intro p hp
    cases p with
    | delay => simp [changes] at hp
    | _ => rfl
  | startSound _ =>
    intro p hp
    cases p with
    | sound => simp [changes] at hp
    | _ => rfl

/-! ### Steps -/

theorem changes_advance (m : Machine) (i : Instruction Register) :
    m.advance.changes i = m.changes i := by
  cases i <;> rfl

/-- A step changes what its instruction does, if it executes one. -/
theorem same_of_steps (hs : m.Steps o m') (hpc : p ≠ .pc)
    (h : ∀ a i, o = .executed a i → p ∉ m.changes i) : p.Same m m' := by
  have hadvance : p.Same m m.advance := m.changesOnly_jump _ p (by simpa using hpc)
  cases hs with
  | suspended _ | lost _ _ => exact .refl m p
  | unknown _ _ _ | stopped _ _ _ _ => exact hadvance
  | executed hm hw hd hf =>
    refine hadvance.trans (m.advance.changesOnly_perform _ p ?_)
    rw [changes_advance, List.mem_cons, not_or]
    exact ⟨hpc, h _ _ rfl⟩

/-- No step moves a key. -/
theorem keypad_of_steps (hs : m.Steps o m') : m'.keypad = m.keypad := by
  cases hs with
  | executed hm hw hd hf => exact keypad_perform m.advance _
  | _ => rfl

/-- No step sets the machine up anew. -/
theorem config_of_steps (hs : m.Steps o m') : m'.config = m.config := by
  cases hs with
  | executed hm hw hd hf => exact config_perform m.advance _
  | _ => rfl

/-- **What a step can change.** A step that executes an instruction, on any machine, leaves all
parts of it as they were but for the program counter and those that are listed for the instruction;
if there are none, the program counter is all that can be different. Moving the index is up to the
instructions that are there for it, so copies leave it where it is. And no step at all, whether or
not it executes anything, moves a key or sets the machine up anew. -/
theorem step_changes_only (m : Machine) :
    (∀ a i, m.step.1 = .executed a i →
      (∀ p, p ≠ .pc → p ∉ m.changes i → p.Same m m.step.2) ∧
      (m.changes i = [] → m.step.2 = { m with pc := m.step.2.pc })) ∧
    m.step.2.keypad = m.keypad ∧ m.step.2.config = m.config := by
  refine ⟨fun a i hexecuted => ?_, keypad_of_steps m.step_steps, config_of_steps m.step_steps⟩
  have hsame : ∀ p, p ≠ .pc → p ∉ m.changes i → p.Same m m.step.2 := by
    intro p hpc hp
    refine same_of_steps m.step_steps hpc fun b j hj => ?_
    rw [hexecuted] at hj
    cases hj
    exact hp
  refine ⟨hsame, fun hnone => ext_part fun p => ?_⟩
  by_cases hpc : p = .pc
  · subst hpc
    rfl
  · have hjump := m.changesOnly_jump m.step.2.pc p (by simpa using hpc)
    exact hjump.symm.trans (hsame p hpc (by simp [hnone]))

set_option maxRecDepth 20000 in
/-- Two registers are stored, and the byte behind them, the index and the flag stay as they are. -/
theorem store_leaves_rest :
    let m := (new {} (Random.Key.ofSeed 0)).after [.load [0xA3, 0x00, 0xF1, 0x55], .step]
    m.step.1 = .executed 0x202 (.storeRegisters 1) ∧ m.step.2.index = m.index ∧
      m.step.2.memory.bytes[0x302]? = m.memory.bytes[0x302]? ∧ m.step.2.v[15] = m.v[15] := by
  intro m
  have hexecuted : m.step.1 = .executed 0x202 (.storeRegisters 1) := by decide +kernel
  have hchanges : m.changes (.storeRegisters 1) = [.cell 0x300, .cell 0x301] := by decide +kernel
  have hsame := ((step_changes_only m).1 _ _ hexecuted).1
  rw [hchanges] at hsame
  exact ⟨hexecuted, hsame .index (by decide) (by decide),
    hsame (.cell 0x302) (by decide) (by decide), hsame (.register 15) (by decide) (by decide)⟩

end Machine

end ChipEight
