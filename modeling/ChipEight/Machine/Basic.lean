import ChipEight.Config
import ChipEight.Keypad
import ChipEight.Memory
import ChipEight.Random.ChaCha
import ChipEight.Screen
import ChipEight.Timers

/-!
# ChipEight.Machine.Basic

The CHIP-8 machine, its parts and its state when it is switched on.

The machine has 4096 bytes of memory, sixteen data registers, an index, two timers, a keypad of
sixteen keys and a screen of 64 by 32 pixels. It does nothing by itself: a host makes it step, ticks
its timers and moves its keys.

All of the machine but its configuration and its random stream is made anew by `Machine.switchedOn`;
so a machine that is reset goes on with the stream where it was.
-/

namespace ChipEight

/-- Whether the machine runs its program or waits for a key. -/
inductive Mode where
  /-- The next step runs an instruction. -/
  | running
  /-- Nothing runs until a key is pressed, whose code goes to the register. -/
  | awaiting (x : Register)
  deriving DecidableEq, Repr

/-- A machine runs unless it has been made to wait. -/
instance : Inhabited Mode := ⟨.running⟩

/-- The machine. -/
structure Machine where
  config : Config
  /-- The memory, with the program in it. -/
  memory : Memory
  /-- The data registers `V0` to `VF`. -/
  v : Bank 16
  /-- The index, an address that sprites and blocks are found by. -/
  index : UInt16
  /-- The program counter, the address of the next instruction. -/
  pc : UInt16
  stack : ReturnStack
  timers : Timers
  keypad : Keypad
  screen : Screen
  mode : Mode
  /-- Whether the screen has been drawn to since the host last took it. -/
  redraw : Bool
  /-- The words that random bytes are taken from. -/
  random : Random.Stream

namespace Machine

/-- Where programs are loaded, and where they start. -/
def programOrigin : Nat := 0x200

/-- The number of bytes that a program can have. -/
def programCapacity : Nat := Memory.size - programOrigin

/-- The state of a machine that has just been switched on. -/
def switchedOn (config : Config) (random : Random.Stream) : Machine where
  config := config
  memory := .initial
  v := .zeros
  index := 0
  pc := UInt16.ofNat programOrigin
  stack := .empty config.callDepth
  timers := .zero
  keypad := .released
  screen := .blank
  mode := default
  redraw := false
  random := random

/-- A new machine. Its random bytes come from the configured seed; only if there is none, from the
key `entropy`. -/
def new (config : Config) (entropy : Random.Key) : Machine :=
  switchedOn config (.ofKey (config.seed.elim entropy Random.Key.ofSeed))

end Machine

end ChipEight
