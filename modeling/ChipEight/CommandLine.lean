import ChipEight.Journal.Basic
import ChipEight.Player.Options

/-!
# ChipEight.CommandLine

The arguments that the player is started with.

An argument that does not begin with a dash is the file with the program, and so is any after the
argument `--`. An option that takes a value is followed by it, in the next argument, or in the same
one behind `=`; behind an option of one letter the sign may be left out. No option is given twice,
and no value in an argument of its own begins with a dash. As soon as help or the version is asked
for, the rest of the arguments does not matter.
-/

namespace ChipEight

/-- How the player is set. -/
structure PlayerSettings where
  options : Options := {}
  /-- Whether frames take as long as they do on the screen. -/
  realtime : Bool := false
  /-- The least important level of events that are shown. -/
  log : Option Level := some .error
  deriving DecidableEq, Repr

/-- What the player is to play, and how. -/
structure CommandLine extends PlayerSettings where
  rom : String
  deriving DecidableEq, Repr

namespace CommandLine

/-! ### Options -/

/-- An option without a value. -/
inductive Flag where
  | realtime
  | listing
  | exclusive
  deriving DecidableEq, Repr

/-- An option with a value. -/
inductive Setting where
  | frames
  | cycles
  | seed
  | hold
  | callDepth
  | log
  deriving DecidableEq, Repr

/-- What an option is about. -/
inductive Topic where
  | flag (f : Flag)
  | setting (s : Setting)
  | help
  | version
  deriving DecidableEq, Repr

namespace Topic

/-- The name of an option, two dashes aside. -/
def name : Topic → String
  | setting .frames => "frames"
  | setting .cycles => "cycles-per-frame"
  | setting .seed => "seed"
  | setting .hold => "hold"
  | flag .realtime => "realtime"
  | flag .listing => "listing"
  | flag .exclusive => "exclusive-block-copy"
  | setting .callDepth => "stack-depth"
  | setting .log => "log"
  | help => "help"
  | version => "version"

/-- The letter of an option, a dash aside, if it has one. -/
def letter? : Topic → Option Char
  | setting .frames => some 'f'
  | setting .cycles => some 'c'
  | setting .seed => some 's'
  | help => some 'h'
  | version => some 'V'
  | _ => none

/-- All that options are about. -/
def all : List Topic :=
  [setting .frames, setting .cycles, setting .seed, setting .hold, flag .realtime, flag .listing,
    flag .exclusive, setting .callDepth, setting .log, help, version]

def ofName? (s : String) : Option Topic :=
  all.find? fun t => t.name = s

def ofLetter? (c : Char) : Option Topic :=
  all.find? fun t => t.letter? = some c

end Topic

/-! ### Errors -/

/-- Why arguments are not understood. -/
inductive UsageError where
  | missingRom
  | unexpected (argument : String)
  /-- An option that has been given before. -/
  | repeated (topic : Topic)
  /-- An option without the value that belongs to it. -/
  | missingValue (setting : Setting)
  /-- A value for an option that takes none. -/
  | needlessValue (topic : Topic)
  /-- An option with a value that it cannot have. -/
  | invalidValue (setting : Setting) (value : String)
  deriving DecidableEq, Repr

def UsageError.message : UsageError → String
  | missingRom => "no file to play"
  | unexpected argument => "unexpected argument " ++ argument
  | repeated topic => "option --" ++ topic.name ++ " is given twice"
  | missingValue setting => "option --" ++ (Topic.setting setting).name ++ " needs a value"
  | needlessValue topic => "option --" ++ topic.name ++ " takes no value"
  | invalidValue setting value =>
    "option --" ++ (Topic.setting setting).name ++ " cannot be " ++ value

/-! ### Values -/

/-- A decimal number below `bound`. A plus sign may stand before it. -/
def decimal? (bound : Nat) (s : String) : Option Nat :=
  let digits :=
    match s.toList with
    | '+' :: cs => cs
    | cs => cs
  if digits.all Char.isDigit then (String.ofList digits).toNat?.filter (· < bound) else none

/-- The level with a given name; `off` is no level at all. -/
def level? : String → Option (Option Level)
  | "off" => some none
  | "error" => some (some .error)
  | "warn" => some (some .warn)
  | "info" => some (some .info)
  | "debug" => some (some .debug)
  | "trace" => some (some .trace)
  | _ => none

/-! ### Single arguments -/

/-- What an argument says on its own. -/
inductive Word where
  /-- An option, and the value in the same argument, if any. -/
  | option (topic : Topic) (attached : Option String)
  | unknownOption
  /-- A value or the file. -/
  | plain
  /-- Whatever comes behind it is plain. -/
  | separator
  deriving DecidableEq, Repr

/-- The value behind the name of an option. -/
def valueAfterName? : List Char → Option String
  | [] => none
  | _ :: value => some (String.ofList value)

/-- The value behind the letter of an option. -/
def valueAfterLetter? : List Char → Option String
  | [] => none
  | '=' :: value => some (String.ofList value)
  | value => some (String.ofList value)

/-- Understands an argument on its own. -/
def Word.ofArgument (argument : String) : Word :=
  match argument.toList with
  | ['-', '-'] => .separator
  | '-' :: '-' :: cs =>
    match Topic.ofName? (String.ofList (cs.takeWhile (· ≠ '='))) with
    | some topic => .option topic (valueAfterName? (cs.dropWhile (· ≠ '=')))
    | none => .unknownOption
  | '-' :: c :: cs =>
    match Topic.ofLetter? c with
    | some (.setting s) => .option (.setting s) (valueAfterLetter? cs)
    | some topic => .option topic none
    | none => .unknownOption
  | _ => .plain

/-! ### Reading -/

/-- Arguments that have been read. -/
structure Progress extends PlayerSettings where
  /-- The file, once it has been found. -/
  rom : Option String := none
  /-- What the options have been about. -/
  given : List Topic := []
  deriving DecidableEq, Repr

namespace Progress

/-- Takes in the file. -/
def takeRom (p : Progress) (file : String) : Except UsageError Progress :=
  if p.rom.isSome || file.isEmpty then .error (.unexpected file)
  else .ok { p with rom := some file }

/-- Takes note of what an option is about, unless that has been given before. -/
def mark (p : Progress) (topic : Topic) : Except UsageError Progress :=
  if topic ∈ p.given then .error (.repeated topic)
  else .ok { p with given := topic :: p.given }

def turnOn (p : Progress) : Flag → Progress
  | .realtime => { p with realtime := true }
  | .listing => { p with options.listing := true }
  | .exclusive => { p with options.exclusive := true }

/-- Gives a setting a value; `none` if it cannot have it. -/
def set? (p : Progress) (value : String) : Setting → Option Progress
  | .frames => (decimal? UInt64.size value).map fun n => { p with options.frames := n }
  | .cycles => (decimal? UInt32.size value).map fun n => { p with options.cycles := n }
  | .seed =>
    (decimal? UInt64.size value).map fun n => { p with options.seed := some (UInt64.ofNat n) }
  | .hold => some { p with options.hold := value }
  | .callDepth => (decimal? UInt64.size value).map fun n => { p with options.callDepth := n }
  | .log => (level? value).map fun level => { p with log := level }

def takeFlag (p : Progress) (f : Flag) : Except UsageError Progress := do
  return (← p.mark (.flag f)).turnOn f

def takeSetting (p : Progress) (s : Setting) (value : String) : Except UsageError Progress := do
  match (← p.mark (.setting s)).set? value s with
  | some p => return p
  | none => throw (.invalidValue s value)

/-- What the arguments come to when all of them have been read. -/
def finish (p : Progress) : Except UsageError CommandLine :=
  match p.rom with
  | none => .error .missingRom
  | some file => .ok { p.toPlayerSettings with rom := file }

end Progress

/-- What the player is asked for. -/
inductive Request where
  | help
  | version
  | play (c : CommandLine)
  deriving DecidableEq, Repr

/-- Reads arguments from left to right. -/
def read (p : Progress) : List String → Except UsageError Request
  | [] => .play <$> p.finish
  | argument :: rest =>
    match Word.ofArgument argument with
    | .plain => do read (← p.takeRom argument) rest
    | .separator => do .play <$> (← rest.foldlM Progress.takeRom p).finish
    | .unknownOption => .error (.unexpected argument)
    | .option .help none => .ok .help
    | .option .version none => .ok .version
    | .option (.flag f) none => do read (← p.takeFlag f) rest
    | .option (.setting s) (some value) => do read (← p.takeSetting s value) rest
    | .option (.setting s) none =>
      match rest with
      | [] => .error (.missingValue s)
      | value :: rest =>
        if Word.ofArgument value = .plain then do read (← p.takeSetting s value) rest
        else .error (.missingValue s)
    | .option topic (some _) => .error (.needlessValue topic)

/-- Understands the arguments. -/
def parse (arguments : List String) : Except UsageError Request :=
  read {} arguments

/-! ### Texts -/

/-- How the player is started. -/
def usage : String :=
  "usage: chip8 ROM [-f FRAMES] [-c CYCLES_PER_FRAME] [-s SEED] [--hold KEYS] [--realtime] " ++
  "[--listing] [--exclusive-block-copy] [--stack-depth DEPTH] [--log LEVEL]"

/-- What the player is, and how it is started. -/
def help : String :=
  "Runs a Chip-8 rom without a window and prints the final screen\n\n" ++ usage

def version : String := "chip8 0.1.0"

end CommandLine

end ChipEight
