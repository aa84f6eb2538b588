import ChipEight.Machine.Host

/-!
# ChipEight.Machine.Call

The calls of a host as data, so that one can speak of sequences of them.

`Machine.call` makes one call; `Machine.after` is the machine that a sequence leaves, and
`Machine.replies` is what the host hears meanwhile.
-/

namespace ChipEight

/-- A question about the machine. -/
inductive Query where
  | register (x : Nat)
  | registers
  | index
  | programCounter
  | byte (address : UInt16)
  | word (address : UInt16)
  | screen
  | delayTimer
  | soundTimer
  | isSounding
  | isKeyDown (code : UInt8)
  | mode
  | config
  deriving DecidableEq, Repr

/-- The answer to a question. -/
inductive Answer where
  /-- A register, unless there is none. -/
  | register (value : Option UInt8)
  | registers (v : Bank 16)
  | address (a : UInt16)
  | byte (b : UInt8)
  | word (w : UInt16)
  /-- Why there is no such byte or word. -/
  | fault (f : Fault)
  | screen (s : Screen)
  | timer (t : UInt8)
  | bool (b : Bool)
  | mode (mode : Mode)
  | config (c : Config)
  deriving DecidableEq

/-- A call of the host. -/
inductive Call where
  | reset
  | load (program : List UInt8)
  /-- Loads what a reader yields, or `none` if it fails. -/
  | loadFile (contents : Option (List UInt8))
  /-- Puts bytes anywhere in memory. -/
  | poke (address : UInt16) (bytes : List UInt8)
  | step
  | tick
  | input (code : UInt8) (isDown : Bool)
  /-- Takes the screen if it has been drawn to. -/
  | refresh
  | ask (q : Query)
  deriving DecidableEq, Repr

/-- What the host hears of a call. -/
inductive Reply where
  | done
  | refused (fault : Fault)
  | stepped (outcome : Outcome)
  /-- Whether the machine was beeping before a tick. -/
  | ticked (wasSounding : Bool)
  /-- The screen, if it had been drawn to. -/
  | refreshed (screen : Option Screen)
  | answered (a : Answer)
  deriving DecidableEq

/-- The answer to a question about memory. -/
def Answer.ofExcept {α : Type} (found : α → Answer) : Except Fault α → Answer
  | .ok a => found a
  | .error f => .fault f

/-- What is heard of a call that can be refused, and the machine afterwards. -/
def Reply.settle : Except Fault Unit × Machine → Reply × Machine
  | (.ok (), m) => (.done, m)
  | (.error f, m) => (.refused f, m)

namespace Machine

section

variable {M : Type → Type} [Monad M] [Substrate M]

/-- Answers a question. -/
def answerOn (m : Machine) : Query → M Answer
  | .register x => return .register (m.register? x)
  | .registers => return .registers m.v
  | .index => return .address m.index
  | .programCounter => return .address m.pc
  | .byte a => do return .ofExcept .byte (← Action.byte a.toNat m).1
  | .word a => do return .ofExcept .word (← Action.word a.toNat m).1
  | .screen => return .screen m.screen
  | .delayTimer => return .timer m.timers.delay
  | .soundTimer => return .timer m.timers.sound
  | .isSounding => return .bool m.timers.isSounding
  | .isKeyDown code => return .bool (m.keypad.isDown code)
  | .mode => return .mode m.mode
  | .config => return .config m.config

/-- Makes a call on a substrate: the reply, and the machine afterwards. -/
def callOn (m : Machine) : Call → M (Reply × Machine)
  | .reset => do return (.done, ← m.resetOn)
  | .load program => do return Reply.settle (← Action.load program m)
  | .loadFile contents => do return Reply.settle (← Action.loadFile contents m)
  | .poke address bytes => do return Reply.settle (← Action.poke address bytes m)
  | .step => do
    let stepped ← Action.step m
    return (.stepped (.ofExcept stepped.1), stepped.2)
  | .tick => do
    let ticked ← m.tickOn
    return (.ticked ticked.1, ticked.2)
  | .input code isDown => do return Reply.settle (← Action.input code isDown m)
  | .refresh => return (.refreshed m.refresh.1, m.refresh.2)
  | .ask q => do return (.answered (← m.answerOn q), m)

end

/-- Makes a call: the reply, and the machine afterwards. -/
def call (m : Machine) (c : Call) : Reply × Machine :=
  callOn (M := Id) m c

/-- The machine after a sequence of calls. -/
def after (m : Machine) (calls : List Call) : Machine :=
  calls.foldl (fun m c => (m.call c).2) m

/-- The replies to a sequence of calls. -/
def replies (m : Machine) : List Call → List Reply
  | [] => []
  | c :: cs => (m.call c).1 :: replies (m.call c).2 cs

@[simp] theorem after_nil (m : Machine) : m.after [] = m := rfl

@[simp] theorem after_cons (m : Machine) (c : Call) (cs : List Call) :
    m.after (c :: cs) = (m.call c).2.after cs := rfl

/-- A sequence may be cut anywhere. -/
theorem after_append (m : Machine) (cs ds : List Call) :
    m.after (cs ++ ds) = (m.after cs).after ds := by
  simp [after]

end Machine

end ChipEight
