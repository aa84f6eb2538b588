/-!
# ChipEight.Keypad

The keypad: sixteen keys, each up or down.

Programs and hosts speak of keys by their code, which is any byte. A code above fifteen belongs to
no key; such a key cannot be pressed, and so is never down.
-/

namespace ChipEight

def Key.count : Nat := 16

/-- One of the sixteen keys. -/
abbrev Key := Fin 16

namespace Key

/-- The key with a given code. -/
def ofCode? (code : UInt8) : Option Key :=
  if h : code.toNat < 16 then some ⟨code.toNat, h⟩ else none

def code (k : Key) : UInt8 :=
  UInt8.ofNat k.val

theorem toNat_code (k : Key) : k.code.toNat = k.val := by
  revert k; decide

/-- Every key is found by its code. -/
@[simp] theorem ofCode?_code (k : Key) : ofCode? k.code = some k := by
  revert k; decide

theorem ofCode?_isSome_iff {c : UInt8} : (ofCode? c).isSome = true ↔ c.toNat < 16 := by
  unfold ofCode?
  split <;> simp [*]

/-- A key that is found by a code has that code. -/
theorem code_of_ofCode? {c : UInt8} {k : Key} (h : ofCode? c = some k) : k.code = c := by
  unfold ofCode? at h
  split at h <;> cases h
  exact UInt8.ofNat_toNat

end Key

/-- Which keys are down. -/
structure Keypad where
  /-- For each key, whether it is down. -/
  down : Vector Bool 16
  deriving DecidableEq

namespace Keypad

def released : Keypad :=
  ⟨Vector.replicate 16 false⟩

/-- Whether the key with the given code is down. -/
def isDown (p : Keypad) (code : UInt8) : Bool :=
  p.down.toArray.getD code.toNat false

def set (p : Keypad) (k : Key) (isDown : Bool) : Keypad :=
  ⟨p.down.set k isDown⟩

theorem isDown_code (p : Keypad) (k : Key) : p.isDown k.code = p.down[k] := by
  simp [isDown, Key.toNat_code]

theorem isDown_set (p : Keypad) (k : Key) (isDown : Bool) (code : UInt8) :
    (p.set k isDown).isDown code = if code = k.code then isDown else p.isDown code := by
  have hcode : code = k.code ↔ k.val = code.toNat := by
    rw [← UInt8.toNat_inj, Key.toNat_code, eq_comm]
  simp only [Keypad.isDown, Keypad.set, Vector.toArray_set, Array.getD_eq_getD_getElem?,
    Array.getElem?_set, hcode]
  split <;> rfl

@[simp] theorem isDown_released (code : UInt8) : released.isDown code = false := by
  simp only [isDown, released, Vector.toArray_replicate, Array.getD_eq_getD_getElem?,
    Array.getElem?_replicate]
  split <;> rfl

/-- A code that no key has is never that of a key that is down. -/
theorem isDown_of_lt (p : Keypad) {code : UInt8} (h : 15 < code.toNat) : p.isDown code = false := by
  rw [isDown, Array.getD_eq_getD_getElem?, Array.getElem?_eq_none, Option.getD_none]
  rw [Vector.size_toArray]
  omega

/-- Keypads are told apart by the keys that are down. -/
theorem ext_isDown {p q : Keypad} (h : ∀ code, p.isDown code = q.isDown code) : p = q := by
  obtain ⟨down⟩ := p
  obtain ⟨down'⟩ := q
  congr 1
  ext i hi
  simpa [isDown_code] using h (Key.code ⟨i, hi⟩)

end Keypad

end ChipEight
