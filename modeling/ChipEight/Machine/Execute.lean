import ChipEight.Instruction.Opcode
import ChipEight.Machine.Action

/-!
# ChipEight.Machine.Execute

What instructions do.

The program counter is already past the instruction when it is executed. Faults come from the stack
and from blocks that do not lie in memory.
-/

namespace ChipEight.Action

variable {M : Type → Type} [Monad M] [Substrate M]

/-! ### Registers -/

def register (x : Register) : Action M UInt8 := do
  lift ((← machine).v.load x)

def setRegister (x : Register) (b : UInt8) : Action M Unit := do
  let v ← lift ((← machine).v.store x b)
  update fun m => { m with v := v }

/-- Puts a flag into `VF` and then a result into `Vx`, so that `VF` has the result if it is `Vx`. -/
def setFlagged (x : Register) (result : UInt8) (flag : Bool) : Action M Unit := do
  setRegister .flag flag.toUInt8
  setRegister x result

/-- The number of registers that a copy up to `Vx` moves. -/
def copyLength (x : Register) : Action M Nat := do
  let inclusive := (← machine).config.inclusive
  if inclusive then
    rely (x.val + 1 < Substrate.sizeCount)
    return x.val + 1
  else return x.val

/-! ### Memory -/

def byte (address : Nat) : Action M UInt8 := do
  ofExcept ((← machine).memory.byte address)

/-- The word at an address, its high byte first. -/
def word (address : Nat) : Action M UInt16 := do
  let high ← byte address
  rely (address + 1 < Substrate.sizeCount)
  let low ← byte (address + 1)
  return UInt16.ofNat (high.toNat * 0x100 + low.toNat)

/-- Refuses a block that does not lie in memory. An empty block may lie anywhere up to the end of
memory, the end included. -/
def checkBlock (address length : Nat) : Action M Unit := do
  if Memory.size < address ∨ (address = Memory.size ∧ 0 < length) then
    fail (.noSuchAddress address)
  else
    rely (address + length < Substrate.sizeCount)
    if Memory.size < address + length then fail (.blockOverrun address length)

def block (address length : Nat) : Action M (List UInt8) := do
  checkBlock address length
  rely (address + length < Substrate.sizeCount)
  lift ((← machine).memory.bytes.slice address (address + length))

def writeBlock (address : Nat) (block : List UInt8) : Action M Unit := do
  checkBlock address block.length
  rely (address + block.length < Substrate.sizeCount)
  let bytes ← lift ((← machine).memory.bytes.splice address (address + block.length) block)
  update fun m => { m with memory := ⟨bytes⟩ }

/-! ### The program counter and the stack -/

def jump (address : UInt16) : Action M Unit :=
  update fun m => { m with pc := address }

/-- Moves the program counter past an instruction. -/
def advance : Action M Unit := do
  let pc := (← machine).pc
  rely (pc.toNat + 2 < UInt16.size)
  jump (pc + 2)

/-- Passes over the next instruction if the condition holds. -/
def skipIf (condition : Bool) : Action M Unit := do
  if condition then advance

/-- Remembers where a call returns to. -/
def push (address : UInt16) : Action M Unit := do
  let s := (← machine).stack
  if s.isFull then fail (.tooManyCalls s.limit)
  else
    rely (s.depth < ReturnStack.maxDepth)
    update fun m => { m with stack := m.stack.write address }
    rely (s.depth + 1 < Substrate.sizeCount)
    update fun m => { m with stack.depth := s.depth + 1 }

/-- Closes the latest call and says where it returns to. -/
def pop : Action M UInt16 := do
  let s := (← machine).stack
  if s.isEmpty then fail .noOpenCall
  else
    rely (1 ≤ s.depth)
    update fun m => { m with stack := m.stack.pop }
    rely (s.depth - 1 < ReturnStack.maxDepth)
    return s.top

/-! ### Effects -/

def randomByte : Action M UInt8 := do
  let stream := (← machine).random
  update fun m => { m with random := stream.next }
  return stream.byte

def clearScreen : Action M Unit := do
  update fun m => { m with screen := .blank }
  update fun m => { m with redraw := true }

/-- Draws the `n` rows at the index; `VF` says whether a pixel has been turned off. -/
def draw (x y : Register) (n : Nat) : Action M Unit := do
  let sprite ← block (← machine).index.toNat n
  let column ← register x
  let row ← register y
  let drawn ← lift ((← machine).screen.drawSprite column.toNat row.toNat sprite)
  update fun m => { m with screen := drawn.1 }
  setRegister .flag drawn.2.toUInt8
  update fun m => { m with redraw := true }

/-- The decimal digits of a byte, hundreds first. -/
def decimal (b : UInt8) : List UInt8 :=
  [b / 100, b / 10 % 10, b % 10]

/-- Writes the first registers at the index. -/
def storeRegisters (length : Nat) : Action M Unit := do
  let registers ← lift ((← machine).v.slice 0 (0 + length))
  writeBlock (← machine).index.toNat registers

/-- Reads the first registers from the index. -/
def loadRegisters (length : Nat) : Action M Unit := do
  let bytes ← block (← machine).index.toNat length
  let v ← lift ((← machine).v.splice 0 (0 + length) bytes)
  update fun m => { m with v := v }

/-- Executes an instruction. -/
def execute : Instruction Register → Action M Unit
  | .clearScreen => clearScreen
  | .ret => do jump (← pop)
  | .hostRoutine _ => pure ()
  | .jump nnn => jump nnn
  | .call nnn => do
    push (← machine).pc
    jump nnn
  | .skipIfByte x kk => do skipIf ((← register x) = kk)
  | .skipUnlessByte x kk => do skipIf ((← register x) ≠ kk)
  | .skipIfSame x y => do skipIf ((← register x) = (← register y))
  | .setByte x kk => setRegister x kk
  | .addByte x kk => do setRegister x ((← register x) + kk)
  | .copy x y => do setRegister x (← register y)
  | .bitOr x y => do setRegister x ((← register x) ||| (← register y))
  | .bitAnd x y => do setRegister x ((← register x) &&& (← register y))
  | .bitXor x y => do setRegister x ((← register x) ^^^ (← register y))
  | .add x y => do
    let a ← register x
    let b ← register y
    setFlagged x (a + b) (255 < a.toNat + b.toNat)
  | .subtract x y => do
    let a ← register x
    let b ← register y
    setFlagged x (a - b) (b < a)
  | .shiftRight x _ => do
    let a ← register x
    setFlagged x (a / 2) (a % 2 = 1)
  | .subtractFrom x y => do
    let a ← register x
    let b ← register y
    setFlagged x (b - a) (a < b)
  | .shiftLeft x _ => do
    let a ← register x
    setFlagged x (a + a) (128 ≤ a)
  | .skipUnlessSame x y => do skipIf ((← register x) ≠ (← register y))
  | .setIndex nnn => update fun m => { m with index := nnn }
  | .jumpPlus nnn => do
    let offset ← register .offset
    rely (nnn.toNat + offset.toNat < UInt16.size)
    jump (nnn + offset.toUInt16)
  | .random x kk => do setRegister x ((← randomByte) &&& kk)
  | .draw x y n => draw x y n.toNat
  | .skipIfPressed x => do
    let code ← register x
    skipIf ((← machine).keypad.isDown code)
  | .skipUnlessPressed x => do
    let code ← register x
    skipIf (!(← machine).keypad.isDown code)
  | .getDelay x => do setRegister x (← machine).timers.delay
  | .waitForKey x => update fun m => { m with mode := .awaiting x }
  | .startDelay x => do
    let b ← register x
    update fun m => { m with timers.delay := b }
  | .startSound x => do
    let b ← register x
    update fun m => { m with timers.sound := b }
  | .advanceIndex x => do
    let b ← register x
    update fun m => { m with index := m.index + b.toUInt16 }
  | .pointToGlyph x => do
    let digit ← register x
    rely (Font.glyphRows * digit.toNat < UInt16.size)
    rely (Font.origin + Font.glyphRows * digit.toNat < UInt16.size)
    update fun m => { m with index := UInt16.ofNat (Font.origin + Font.glyphRows * digit.toNat) }
  | .storeDecimal x => do
    let digits := decimal (← register x)
    writeBlock (← machine).index.toNat digits
  | .storeRegisters x => do storeRegisters (← copyLength x)
  | .loadRegisters x => do loadRegisters (← copyLength x)

end ChipEight.Action
