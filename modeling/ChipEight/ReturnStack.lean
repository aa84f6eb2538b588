/-!
# ChipEight.ReturnStack

The addresses that open calls return to, up to a limit.

They lie in a row of slots, that of the first call in the first slot. Only the slots of open calls
mean anything: a slot above them keeps whatever was left there. `frames` is the view that
statements about the stack are made in.
-/

namespace ChipEight

/-- The room that the machine has for return addresses. -/
def ReturnStack.maxDepth : Nat := 16

/-- The return addresses of the calls that are open. -/
structure ReturnStack where
  /-- The number of calls that may be open at a time. -/
  limit : Nat
  /-- The number of calls that are open. -/
  depth : Nat
  slots : Vector UInt16 ReturnStack.maxDepth
  deriving DecidableEq, Repr

namespace ReturnStack

/-- A stack without open calls. A configured depth beyond the room there is counts as that room. -/
def empty (depth : Nat) : ReturnStack :=
  ⟨min depth maxDepth, 0, Vector.replicate maxDepth 0⟩

/-- Whether no further call can be opened. -/
def isFull (s : ReturnStack) : Bool :=
  s.limit ≤ s.depth

/-- Whether no call is open. -/
def isEmpty (s : ReturnStack) : Bool :=
  s.depth = 0

/-- What lies in the slot of the latest call. -/
def top (s : ReturnStack) : UInt16 :=
  s.slots[s.depth - 1]?.getD 0

/-- Puts an address into the first slot that no open call has. -/
def write (s : ReturnStack) (address : UInt16) : ReturnStack :=
  { s with slots := s.slots.setIfInBounds s.depth address }

/-- Opens a call that returns to `address`. -/
def push (s : ReturnStack) (address : UInt16) : ReturnStack :=
  { s.write address with depth := s.depth + 1 }

/-- Closes the latest call. Its slot is left as it is. -/
def pop (s : ReturnStack) : ReturnStack :=
  { s with depth := s.depth - 1 }

/-- The return addresses of the open calls, that of the first call first. -/
def frames (s : ReturnStack) : List UInt16 :=
  s.slots.toList.take s.depth

/-! ### Parts -/

section Parts

variable (s : ReturnStack) (a : UInt16)

@[simp] theorem limit_push : (s.push a).limit = s.limit := rfl

@[simp] theorem depth_push : (s.push a).depth = s.depth + 1 := rfl

@[simp] theorem depth_pop : s.pop.depth = s.depth - 1 := rfl

@[simp] theorem slots_pop : s.pop.slots = s.slots := rfl

end Parts

theorem isEmpty_iff {s : ReturnStack} : s.isEmpty = true ↔ s.depth = 0 := by
  simp [isEmpty]

theorem isFull_iff {s : ReturnStack} : s.isFull = true ↔ s.limit ≤ s.depth := by
  simp [isFull]

end ReturnStack

end ChipEight
