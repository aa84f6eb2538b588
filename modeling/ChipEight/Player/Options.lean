import ChipEight.Config
import ChipEight.Player.Keyboard

/-!
# ChipEight.Player.Options

What the player is told to do, and where it finds the program.
-/

namespace ChipEight

/-- The usual number of steps in a frame. -/
def Options.defaultCycles : Nat := 9

/-- How a program is to be played. -/
structure Options where
  /-- The number of frames, each of which ends with a tick of the timers. -/
  frames : Nat := 600
  /-- The number of steps in a frame. -/
  cycles : Nat := Options.defaultCycles
  seed : Option UInt64 := none
  /-- The characters that are held down on the keyboard all the time. -/
  hold : String := ""
  /-- Whether the instructions that have been executed are listed at the end. -/
  listing : Bool := false
  /-- Whether copying the registers up to `Vx` leaves out `Vx` itself. -/
  exclusive : Bool := false
  callDepth : Nat := ReturnStack.maxDepth
  deriving DecidableEq, Repr

namespace Options

/-- The machine that the options ask for. -/
def config (o : Options) : Config where
  seed := o.seed
  callDepth := o.callDepth
  inclusive := !o.exclusive

/-- The keys that are held down, in the order of their characters. -/
def held (o : Options) : List Key :=
  o.hold.toList.filterMap Keyboard.key?

/-- What is held down as codes. -/
theorem map_code_held (o : Options) :
    o.held.map Key.code = o.hold.toList.filterMap Keyboard.code? := by
  rw [held, List.map_filterMap]
  exact congrArg (fun f => o.hold.toList.filterMap f) (funext Keyboard.map_code_key?)

/-- The characters to be held down that stand for no key. -/
def unmapped (o : Options) : List Char :=
  o.hold.toList.filter fun c => (Keyboard.key? c).isNone

end Options

/-- The file that a program is kept in. -/
inductive RomFile where
  /-- It cannot be opened, for the reason that the system gives. -/
  | notOpened (reason : String)
  /-- It can be opened, but not be read. -/
  | unreadable
  | contents (bytes : List UInt8)
  deriving DecidableEq, Repr

end ChipEight
