import ChipEight.Player.Run

/-!
# ChipEight.Player.Report

A whole run, from the file with the program to what is printed in the end.

If the program cannot be loaded or a key cannot be moved, the run is given up and nothing is
printed. Otherwise the screen is printed, and the listing if it was asked for, whether or not a
fault has ended the program.
-/

namespace ChipEight

/-- Why a run has failed. -/
inductive Failure where
  /-- The file with the program could not be opened, for the reason that the system has given. -/
  | notOpened (reason : String)
  /-- The program has not been loaded, or has been ended, or a key has been refused. -/
  | fault (f : Fault)
  deriving DecidableEq, Repr

def Failure.message : Failure → String
  | notOpened reason => reason
  | fault f => f.message

/-- What a run has come to. -/
structure Report where
  output : String
  /-- Why the run has failed, if it has. -/
  failure : Option Failure
  journal : Journal

namespace Run

/-- The report on a run that is given up. -/
def giveUp (r : Run) (failure : Failure) : Report where
  output := ""
  failure := some failure
  journal := r.journal

/-- Takes note of the file and of the characters to be held down that stand for no key. -/
def noteOptions (o : Options) (name : String) (r : Run) : Run :=
  { r with journal := r.journal.record (.romLoaded name :: o.unmapped.map .unmapped) }

/-- Loads what has been read from the file, `none` if that has failed, and presses the held keys. -/
def load (o : Options) (name : String) (contents : Option (List UInt8)) (r : Run) :
    Except Report Run :=
  match r.send (.loadFile contents) with
  | (.refused f, r) => .error (r.giveUp (.fault f))
  | (_, r) =>
    match (r.noteOptions o name).press o.held with
    | (some f, r) => .error (r.giveUp (.fault f))
    | (none, r) => .ok r

/-- Opens the file and loads the program in it. If that fails, there is nothing but a report. -/
def begin? (o : Options) (name : String) (file : RomFile) (entropy : Random.Key)
    (threshold : Option Level) : Except Report Run :=
  let r := start (Machine.new o.config entropy) (.empty threshold)
  match file with
  | .notOpened reason => .error (r.giveUp (.notOpened reason))
  | .unreadable => r.load o name none
  | .contents bytes => r.load o name (some bytes)

/-- What is printed at the end of a run. -/
def output (o : Options) (r : Run) : String :=
  r.machine.screen.text ++ if o.listing then r.listing.text else ""

/-- The report on a run after its last frame, which may have been cut off by a fault. -/
def close (o : Options) (halt : Option Fault) (r : Run) : Report where
  output := r.output o
  failure := halt.map .fault
  journal := r.journal.add (.redrawn r.redraws)

/-- The report on a run that is over. -/
def finish (o : Options) (ending : Option Ending) (r : Run) : Report :=
  match ending with
  | none => r.close o none
  | some (.halted f) => r.close o (some f)
  | some (.refused f) => r.giveUp (.fault f)

end Run

/-- Plays the program in a file. -/
def play (o : Options) (name : String) (file : RomFile) (entropy : Random.Key)
    (threshold : Option Level) : Report :=
  match Run.begin? o name file entropy threshold with
  | .error report => report
  | .ok r =>
    let (ending, r) := r.frames o o.frames
    r.finish o ending

end ChipEight
