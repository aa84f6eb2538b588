import ChipEight.CommandLine
import ChipEight.Player.Report

/-!
# ChipEight.Main

The player as a program: it plays a file without a window and prints the last screen.
-/

namespace ChipEight.Main

/-- The key of a program without a seed. -/
def systemKey : IO Random.Key := do
  let bytes ← IO.getRandomBytes 32
  return Vector.ofFn fun i =>
    (List.range 4).foldl (fun w j => w * 0x100 + (bytes.data.getD (4 * i + j) 0).toUInt32) 0

/-- Opens and reads the file with the program. -/
def readRom (name : String) : IO RomFile := do
  match ← (IO.FS.Handle.mk name .read).toBaseIO with
  | .error e => return .notOpened (toString e)
  | .ok file =>
    match ← file.readBinToEnd.toBaseIO with
    | .error _ => return .unreadable
    | .ok bytes => return .contents bytes.data.toList

/-- Plays at most `n` frames, none of them faster than the timers tick. -/
def playInTime (o : Options) : Nat → Run → IO (Option Ending × Run)
  | 0, r => return (none, r)
  | n + 1, r => do
    let begun ← IO.monoNanosNow
    match r.playFrame o with
    | (some e, r) => return (some e, r)
    | (none, r) =>
      let elapsed := (← IO.monoNanosNow) - begun
      IO.sleep (UInt32.ofNat ((Timers.period - elapsed) / 1000000))
      playInTime o n r

/-- Plays the file and reports on it. -/
def report (c : CommandLine) : IO Report := do
  let file ← readRom c.rom
  let key ← systemKey
  if c.realtime then
    match Run.begin? c.options c.rom file key c.log with
    | .error report => return report
    | .ok r =>
      let (ending, r) ← playInTime c.options c.options.frames r
      return r.finish c.options ending
  else return play c.options c.rom file key c.log

/-- Shows what a run has come to. The result is the exit code. -/
def showReport (r : Report) : IO UInt32 := do
  for line in r.journal.lines do
    IO.eprintln line
  IO.print r.output
  match r.failure with
  | none => return 0
  | some failure =>
    IO.eprintln ("error: " ++ failure.message)
    return 1

/-- Does what the arguments ask for. The result is the exit code. -/
def run (arguments : List String) : IO UInt32 := do
  match CommandLine.parse arguments with
  | .error e =>
    IO.eprintln e.message
    IO.eprintln CommandLine.usage
    return 2
  | .ok .help =>
    IO.println CommandLine.help
    return 0
  | .ok .version =>
    IO.println CommandLine.version
    return 0
  | .ok (.play c) => showReport (← report c)

end ChipEight.Main

/-- The player. -/
def main (arguments : List String) : IO UInt32 :=
  ChipEight.Main.run arguments
