import ChipEight.Machine.Step

/-!
# ChipEight.Machine.Host

What a host does with the machine besides stepping it: it loads programs, moves keys, ticks the
timers, takes the screen and looks around.
-/

namespace ChipEight

namespace Action

variable {M : Type → Type} [Monad M] [Substrate M]

/-! ### Loading -/

/-- Puts bytes anywhere in memory, all of them or none. -/
def poke (address : UInt16) (bytes : List UInt8) : Action M Unit :=
  writeBlock address.toNat bytes

/-- Puts a program where programs start. -/
def load (program : List UInt8) : Action M Unit := do
  if Machine.programCapacity < program.length then
    fail (.programTooLong program.length Machine.programCapacity)
  else poke (UInt16.ofNat Machine.programOrigin) program

/-- Loads the program that a reader yields; `none` is a reader that has failed on the way. -/
def loadFile : Option (List UInt8) → Action M Unit
  | none => fail .unreadable
  | some program => load program

/-! ### Keys -/

/-- Moves the key with the given code, if there is one. A press ends the wait for a key, if there
is one; letting go never does. -/
def input (code : UInt8) (isDown : Bool) : Action M Unit := do
  match Key.ofCode? code with
  | none => fail (.noSuchKey code)
  | some k =>
    update fun m => { m with keypad := m.keypad.set k isDown }
    match isDown, (← machine).mode with
    | true, .awaiting x =>
      setRegister x code
      update fun m => { m with mode := .running }
    | _, _ => return ()

end Action

namespace Machine

/-! ### Power, time and the screen -/

section

variable {M : Type → Type} [Monad M] [Substrate M]

/-- Switches the machine off and on again. Its random stream goes on. -/
def resetOn (m : Machine) : M Machine := do
  return { switchedOn m.config m.random with memory := ← Memory.withFont }

def tickOn (m : Machine) : M (Bool × Machine) := do
  let sound ← Timers.countDown m.timers.sound
  let delay ← Timers.countDown m.timers.delay
  return (m.timers.isSounding, { m with timers := ⟨delay, sound⟩ })

end

def reset (m : Machine) : Machine :=
  resetOn (M := Id) m

/-- Ticks the timers. The first component says whether the machine was beeping. -/
def tick (m : Machine) : Bool × Machine :=
  tickOn (M := Id) m

/-- The screen, if it has been drawn to since it was last taken. -/
def refresh (m : Machine) : Option Screen × Machine :=
  (if m.redraw then some m.screen else none, { m with redraw := false })

/-! ### Looking around -/

/-- The data register with a given number, if there is one. -/
def register? (m : Machine) (x : Nat) : Option UInt8 :=
  m.v[x]?

def byteAt (m : Machine) (address : UInt16) : Except Fault UInt8 :=
  (Action.byte (M := Id) address.toNat m).1

/-- The word at an address, its high byte first. -/
def wordAt (m : Machine) (address : UInt16) : Except Fault UInt16 :=
  (Action.word (M := Id) address.toNat m).1

end Machine

end ChipEight
