import ChipEight.Machine.Execute

/-!
# ChipEight.Machine.Step

One step of the machine: fetch, decode, execute.

A step ends in one of three ways (`Outcome`). It is suspended while the machine waits for a key; it
executes the instruction at the program counter; or it fails.
-/

namespace ChipEight

inductive Outcome where
  | suspended
  /-- The instruction at `address` has been executed. -/
  | executed (address : UInt16) (instruction : Instruction Register)
  | failed (fault : Fault)
  deriving DecidableEq, Repr

/-- How a step ends that may end with a fault. -/
def Outcome.ofExcept : Except Fault Outcome → Outcome
  | .ok outcome => outcome
  | .error fault => .failed fault

def Action.step {M : Type → Type} [Monad M] [Substrate M] : Action M Outcome := do
  match (← machine).mode with
  | .awaiting _ => return .suspended
  | .running =>
    let address := (← machine).pc
    let opcode ← word address.toNat
    advance
    match Instruction.decode opcode with
    | none => fail (.unknownOpcode opcode address)
    | some i =>
      execute i
      return .executed address i

namespace Machine

/-- One step. -/
def step (m : Machine) : Outcome × Machine :=
  let stepped := Action.step (M := Id) m
  (.ofExcept stepped.1, stepped.2)

/-- What a step finds at the program counter. -/
inductive Fetched where
  /-- The machine is waiting for a key and fetches nothing. -/
  | nothing
  | outside (fault : Fault)
  | unknown (opcode : UInt16)
  | instruction (opcode : UInt16) (instruction : Instruction Register)
  deriving DecidableEq, Repr

/-- What the next step will find. -/
def fetch (m : Machine) : Fetched :=
  match m.mode with
  | .awaiting _ => .nothing
  | .running =>
    match m.memory.word m.pc.toNat with
    | .error f => .outside f
    | .ok opcode =>
      match Instruction.decode opcode with
      | none => .unknown opcode
      | some i => .instruction opcode i

end Machine

end ChipEight
