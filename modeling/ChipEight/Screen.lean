import ChipEight.Substrate

/-!
# ChipEight.Screen

The screen: 64 columns and 32 rows of pixels that are on or off.

A row is a word of 64 bits with column 0 as its most significant bit; `pixel` is the view that
statements about screens are made in. A sprite is a list of bytes,
one for each of its rows, whose most significant bits are the left-most pixels. Drawing flips the
pixels under the set bits of a sprite; what runs off one edge comes back at the opposite one.
-/

namespace ChipEight

/-- The pixels of the screen. -/
structure Screen where
  /-- The rows from top to bottom. -/
  rows : Vector (BitVec 64) 32
  deriving DecidableEq

namespace Screen

def width : Nat := 64

def height : Nat := 32

def blank : Screen :=
  ⟨Vector.replicate 32 0⟩

def pixel (s : Screen) (column : Fin 64) (row : Fin 32) : Bool :=
  s.rows[row].getMsbD column

/-! ### Drawing -/

/-- Row `y`, counted around the bottom edge. -/
def row (s : Screen) (y : Nat) : BitVec 64 :=
  s.rows[y % 32]

/-- Flips the pixels of row `y` that are set in `mask`. -/
def flipRow (s : Screen) (y : Nat) (mask : BitVec 64) : Screen :=
  ⟨s.rows.set (y % 32) (s.row y ^^^ mask)⟩

/-- Whether the pixel in a column of row `y` is on. -/
def isOn (s : Screen) (column y : Nat) : Bool :=
  (s.row y).getMsbD column

section Drawing

variable {M : Type → Type} [Monad M] [Substrate M]

/-- Flips a pixel. The second component says whether it was on. -/
def flip (s : Screen) (column row : Nat) : M (Screen × Bool) := do
  Substrate.rely (column < width)
  Substrate.rely (row < height)
  return (s.flipRow row (BitVec.twoPow 64 (63 - column)), s.isOn column row)

/-- Draws bit `k` of a sprite's row, counted from the left, whose bit 0 belongs to column `x`. The
second component says whether a pixel that was on has been turned off so far. -/
def drawBit (x row : Nat) (b : UInt8) (drawn : Screen × Bool) (k : Nat) : M (Screen × Bool) := do
  Substrate.rely (k ≤ 7)
  if b.toNat.testBit (7 - k) then
    Substrate.rely (x + k < Substrate.sizeCount)
    let (s, wasOn) ← drawn.1.flip ((x + k) % width) row
    return (s, drawn.2 || wasOn)
  else return drawn

/-- Draws row `k` of a sprite whose row 0 belongs to row `y`. -/
def drawRow (x y : Nat) (drawn : Screen × Bool) (row : UInt8 × Nat) : M (Screen × Bool) := do
  Substrate.rely (y + row.2 < Substrate.sizeCount)
  (List.range 8).foldlM (drawBit x ((y + row.2) % height) row.1) drawn

/-- Draws a sprite with its upper left corner at column `x` and row `y`. The second component says
whether a pixel that was on has been turned off on the way. -/
def drawSprite (s : Screen) (x y : Nat) (sprite : List UInt8) : M (Screen × Bool) :=
  sprite.zipIdx.foldlM (drawRow x y) (s, false)

end Drawing

def light (s : Screen) (column : Fin 64) (row : Fin 32) : Screen :=
  ⟨s.rows.set row (s.rows[row] ||| (BitVec.twoPow 64 (63 - column)))⟩

/-! ### Pixels -/

/-- A screen is known by its pixels. -/
@[ext] theorem ext {s t : Screen} (h : ∀ column row, s.pixel column row = t.pixel column row) :
    s = t := by
  cases s with | mk rows =>
  cases t with | mk rows' =>
  congr 1
  apply Vector.ext
  intro r hr
  apply BitVec.eq_of_getMsbD_eq
  intro c hc
  exact h ⟨c, hc⟩ ⟨r, hr⟩

@[simp] theorem pixel_blank (column : Fin 64) (row : Fin 32) :
    blank.pixel column row = false := by
  simp [pixel, blank]

/-- Flipping a row changes the pixels under the mask in that row and no others. -/
theorem pixel_flipRow (s : Screen) (y : Nat) (mask : BitVec 64) (c : Fin 64) (r : Fin 32) :
    (s.flipRow y mask).pixel c r =
      (s.pixel c r ^^ (decide (y % 32 = r.val) && mask.getMsbD c)) := by
  unfold pixel flipRow row
  by_cases h : y % 32 = r.val
  · simp [h]
  · simp [h]

/-- Turning a pixel on leaves the others as they are. -/
theorem pixel_light (s : Screen) (c c' : Fin 64) (r r' : Fin 32) :
    (s.light c r).pixel c' r' = (s.pixel c' r' || (decide (c = c') && decide (r = r'))) := by
  unfold pixel light
  have hc := c.isLt
  have hc' := c'.isLt
  by_cases hr : r = r'
  · subst hr
    by_cases h : c = c'
    · subst h
      simp [BitVec.getMsbD_eq_getLsbD]
      omega
    · have : c.val ≠ c'.val := fun e => h (Fin.ext e)
      simp [h, BitVec.getMsbD_eq_getLsbD]
      omega
  · have : r.val ≠ r'.val := fun e => hr (Fin.ext e)
    simp [hr, this]

/-! ### Text -/

def pixelChar (on : Bool) : Char :=
  if on then '#' else '.'

/-- A row as text, ended by a line break. -/
def rowChars (s : Screen) (row : Fin 32) : List Char :=
  (List.finRange 64).map (fun column => pixelChar (s.pixel column row)) ++ ['\n']

/-- The screen as text, row by row from the top. -/
def text (s : Screen) : String :=
  String.ofList ((List.finRange 32).flatMap s.rowChars)

end Screen

end ChipEight
