import ChipEight.Fault
import ChipEight.Instruction.Mnemonic
import ChipEight.Keypad
import ChipEight.Text.Quoted

/-!
# ChipEight.Journal.Event

What is worth writing down while a program runs, and how important it is.
-/

namespace ChipEight

/-- How important an event is, the most important level first. -/
inductive Level where
  /-- The program cannot go on. -/
  | error
  /-- Something looks wrong. -/
  | warn
  /-- Something that a player of the program notices. -/
  | info
  /-- Something that a host notices. -/
  | debug
  /-- Every single instruction. -/
  | trace
  deriving DecidableEq, Repr

namespace Level

/-- The place of a level in the order of importance. -/
def rank : Level → Nat
  | error => 0
  | warn => 1
  | info => 2
  | debug => 3
  | trace => 4

/-- The name that lines of the journal begin with. -/
def name : Level → String
  | error => "ERROR"
  | warn => "WARN"
  | info => "INFO"
  | debug => "DEBUG"
  | trace => "TRACE"

end Level

/-- Something that has happened. -/
inductive Event where
  | reset
  | programLoaded (size : Nat)
  /-- An instruction has been fetched and is about to be executed. -/
  | fetched (address opcode : UInt16) (instruction : Instruction Register)
  | unknownOpcode (opcode address : UInt16)
  | awaitingKey (x : Register)
  | resumed (key : Key) (x : Register)
  | romLoaded (name : String)
  /-- A character was to be held down that no key belongs to. -/
  | unmapped (c : Char)
  | beep
  | halted (frame : Nat) (fault : Fault)
  /-- The number of frames in which the screen has been drawn to. -/
  | redrawn (frames : Nat)
  deriving DecidableEq, Repr

namespace Event

/-- How important an event is. -/
def level : Event → Level
  | halted _ _ => .error
  | unknownOpcode _ _ | unmapped _ => .warn
  | romLoaded _ | beep => .info
  | reset | programLoaded _ | awaitingKey _ | resumed _ _ | redrawn _ => .debug
  | fetched _ _ _ => .trace

/-- An event in words. -/
def message : Event → String
  | reset => "reset"
  | programLoaded size => "loaded " ++ toString size ++ " byte program"
  | fetched address opcode i =>
    Text.address address.toNat ++ ": " ++ Text.hex 4 opcode.toNat ++ " " ++ i.mnemonic
  | unknownOpcode opcode address => (Fault.unknownOpcode opcode address).message
  | awaitingKey x => "awaiting key press for " ++ Text.register x.val
  | resumed key x =>
    "key " ++ Text.hex 1 key.val ++ " resumes execution into " ++ Text.register x.val
  | romLoaded name => "successfully loaded " ++ name
  | unmapped c => "no keypad key is mapped to " ++ Text.quoted c
  | beep => "beep"
  | halted frame fault => "halted during frame " ++ toString frame ++ ": " ++ fault.message
  | redrawn frames => "screen changed on " ++ toString frames ++ " frames"

/-- The line of an event in the journal. -/
def line (e : Event) : String :=
  e.level.name ++ ": " ++ e.message

end Event

end ChipEight
