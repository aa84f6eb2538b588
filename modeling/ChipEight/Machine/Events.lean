import ChipEight.Journal.Basic
import ChipEight.Machine.Call

/-!
# ChipEight.Machine.Events

What the machine reports of the calls of its host.

The report on a call depends on the call and on the machine before it, and reporting changes
nothing. A fetched instruction is reported whether or not it can then be performed.
-/

namespace ChipEight.Machine

/-- The report on a step. -/
def stepEvents (m : Machine) : List Event :=
  match m.fetch with
  | .nothing => []
  | .outside _ => []
  | .unknown opcode => [.unknownOpcode opcode m.pc]
  | .instruction opcode (.waitForKey x) => [.fetched m.pc opcode (.waitForKey x), .awaitingKey x]
  | .instruction opcode i => [.fetched m.pc opcode i]

/-- The report on loading a program: its size, if it fits. -/
def loadEvents (m : Machine) (program : List UInt8) : List Event :=
  match (m.call (.load program)).1 with
  | .refused _ => []
  | _ => [.programLoaded program.length]

/-- The report on moving a key: a press that ends a wait. -/
def keyEvents (m : Machine) (code : UInt8) (isDown : Bool) : List Event :=
  match Key.ofCode? code, isDown, m.mode with
  | some k, true, .awaiting x => [.resumed k x]
  | _, _, _ => []

/-- The report on a call. -/
def events (m : Machine) : Call → List Event
  | .reset => [.reset]
  | .load program => m.loadEvents program
  | .loadFile contents => contents.elim [] m.loadEvents
  | .step => m.stepEvents
  | .input code isDown => m.keyEvents code isDown
  | .poke _ _ | .tick | .refresh | .ask _ => []

end ChipEight.Machine
