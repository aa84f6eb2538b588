import ChipEight.Listing
import ChipEight.Machine.Events
import ChipEight.Player.Options

/-!
# ChipEight.Player.Run

Playing a program: frames of steps, with keys held down all the while.

A frame is a number of cycles, each of them one step, and then a tick of the timers. A cycle that
finds the machine waiting for a key lets go of the held keys and presses them again, so that the
first of them answers the wait; if no key is held nothing can happen before the next frame, and
the rest of the frame is left out. A fatal fault ends the run at once, without the tick. So does a
key that the machine refuses to move, and then there is nothing more to be said or shown either.
-/

namespace ChipEight

/-- A run as far as it has got. -/
structure Run where
  machine : Machine
  /-- The instructions that have been executed, the latest at each address. -/
  listing : Listing Register
  frame : Nat
  /-- The number of frames in which the screen has been drawn to. -/
  redraws : Nat
  journal : Journal

/-- What ends a run before all its frames are over. -/
inductive Ending where
  /-- A step has failed with a fault that ends the program. -/
  | halted (fault : Fault)
  /-- The machine has refused to move a key. -/
  | refused (fault : Fault)
  deriving DecidableEq, Repr

/-- What comes after a cycle. -/
inductive Pace where
  | onward
  | idle
  | ended (ending : Ending)
  deriving DecidableEq, Repr

namespace Run

def start (m : Machine) (journal : Journal) : Run where
  machine := m
  listing := ∅
  frame := 0
  redraws := 0
  journal := journal

/-- Takes note of something that has happened. -/
def note (r : Run) (e : Event) : Run :=
  { r with journal := r.journal.add e }

/-- Makes a call of the machine and takes note of what it reports. -/
def send (r : Run) (c : Call) : Reply × Run :=
  let journal := r.journal.record (r.machine.events c)
  let called := r.machine.call c
  (called.1, { r with machine := called.2, journal := journal })

/-- Runs one step of the machine and takes note of what it reports. -/
def step (r : Run) : Outcome × Run :=
  let journal := r.journal.record r.machine.stepEvents
  let stepped := r.machine.step
  (stepped.1, { r with machine := stepped.2, journal := journal })

/-- Moves keys, one after the other, until one is refused. The first component is why, if so. -/
def move (isDown : Bool) : List Key → Run → Option Fault × Run
  | [], r => (none, r)
  | k :: ks, r =>
    match r.send (.input k.code isDown) with
    | (.refused f, r) => (some f, r)
    | (_, r) => move isDown ks r

/-- Presses keys, one after the other. -/
def press : List Key → Run → Option Fault × Run :=
  move true

/-- Lets go of keys and then presses them again. -/
def repress (keys : List Key) (r : Run) : Option Fault × Run :=
  match r.move false keys with
  | (some f, r) => (some f, r)
  | (none, r) => r.press keys

/-- Lists an instruction, in place of what was listed at its address. -/
def list (r : Run) (address : UInt16) (i : Instruction Register) : Run :=
  { r with listing := r.listing.insert address i }

/-! ### Cycles -/

/-- One cycle of a frame. -/
def cycle (o : Options) (r : Run) : Pace × Run :=
  match r.step with
  | (.executed address i, r) => (.onward, if o.listing then r.list address i else r)
  | (.suspended, r) =>
    if o.held.isEmpty then (.idle, r)
    else
      match r.repress o.held with
      | (some f, r) => (.ended (.refused f), r)
      | (none, r) => (.onward, r)
  | (.failed f, r) => (if f.endsProgram then .ended (.halted f) else .onward, r)

/-- At most `n` cycles. The first component is what ends the run, if anything does. -/
def cycles (o : Options) : Nat → Run → Option Ending × Run
  | 0, r => (none, r)
  | n + 1, r =>
    match r.cycle o with
    | (.onward, r) => cycles o n r
    | (.idle, r) => (none, r)
    | (.ended e, r) => (some e, r)

/-! ### Frames -/

/-- Counts a frame in which the screen has been drawn to. -/
def refresh (r : Run) : Run :=
  let taken := r.machine.refresh
  { r with machine := taken.2, redraws := r.redraws + if taken.1.isSome then 1 else 0 }

/-- Ticks the timers and beeps. -/
def tick (r : Run) : Run :=
  let ticked := r.machine.tick
  { r with machine := ticked.2, journal := r.journal.record (if ticked.1 then [.beep] else []) }

/-- Ends a frame. -/
def endFrame (r : Run) : Run :=
  let r := r.tick.refresh
  { r with frame := r.frame + 1 }

/-- Takes note of a fault that has ended the program. -/
def noteEnding (r : Run) : Ending → Run
  | .halted f => r.note (.halted r.frame f)
  | .refused _ => r

/-- One frame. The first component is what ends the run, if anything does. -/
def playFrame (o : Options) (r : Run) : Option Ending × Run :=
  match r.cycles o o.cycles with
  | (some e, r) => (some e, r.noteEnding e)
  | (none, r) => (none, r.endFrame)

/-- At most `n` frames. The first component is what ends the run, if anything does. -/
def frames (o : Options) : Nat → Run → Option Ending × Run
  | 0, r => (none, r)
  | n + 1, r =>
    match r.playFrame o with
    | (some e, r) => (some e, r)
    | (none, r) => frames o n r

end Run

end ChipEight
