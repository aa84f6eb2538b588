import ChipEight.Screen

/-!
# ChipEight.Proofs.Screen.Text

**The text of a screen is a picture of it.** The rows of a screen have texts of the same length, so
one knows where in the text a row begins, and from there where each of its pixels is
(`getElem?_text`). A screen can be read off its text, pixel by pixel.
-/

namespace ChipEight.Screen

variable {s t : Screen} {a b : Bool}

/-! ### Rows -/

theorem pixelChar_inj (h : pixelChar a = pixelChar b) : a = b := by
  revert a b
  decide

theorem length_pixelChars (s : Screen) (r : Fin 32) :
    ((List.finRange 64).map fun c => pixelChar (s.pixel c r)).length = 64 := by
  rw [List.length_map, List.length_finRange]

theorem length_rowChars (s : Screen) (r : Fin 32) : (s.rowChars r).length = 65 := by
  rw [rowChars, List.length_append, length_pixelChars, List.length_singleton]

theorem getElem?_rowChars (s : Screen) (r : Fin 32) (c : Fin 64) :
    (s.rowChars r)[c.val]? = some (pixelChar (s.pixel c r)) := by
  have hlt : c.val < ((List.finRange 64).map fun c => pixelChar (s.pixel c r)).length :=
    (s.length_pixelChars r).symm ▸ c.isLt
  rw [rowChars, List.getElem?_append_left hlt, List.getElem?_eq_getElem hlt, List.getElem_map,
    List.getElem_finRange]
  rfl

theorem getElem?_rowChars_end (s : Screen) (r : Fin 32) : (s.rowChars r)[64]? = some '\n' := by
  rw [rowChars, List.getElem?_append_right (Nat.le_of_eq (s.length_pixelChars r)),
    length_pixelChars]
  rfl

/-! ### All of them -/

/-- Rows of the same length, one after the other: the `j`-th of row `i` is found `j` places after
the `i` rows before it. -/
theorem getElem?_flatMap {α β : Type} {f : α → List β} {width : Nat}
    (hf : ∀ a, (f a).length = width) (rows : List α) (i : Nat) {j : Nat} (hj : j < width) :
    (rows.flatMap f)[width * i + j]? = rows[i]?.bind fun a => (f a)[j]? := by
  induction rows generalizing i with
  | nil => simp
  | cons a rows ih =>
    rw [List.flatMap_cons]
    cases i with
    | zero =>
      rw [Nat.mul_zero, Nat.zero_add, List.getElem?_append_left (by rw [hf]; exact hj)]
      rfl
    | succ i =>
      rw [Nat.mul_succ, List.getElem?_append_right (by rw [hf]; omega), hf,
        show width * i + width + j - width = width * i + j by omega, ih, List.getElem?_cons_succ]

theorem getElem?_text (s : Screen) (r : Fin 32) {j : Nat} (hj : j < 65) :
    s.text.toList[65 * r.val + j]? = (s.rowChars r)[j]? := by
  rw [text, String.toList_ofList, getElem?_flatMap s.length_rowChars _ _ hj,
    List.getElem?_eq_getElem (by rw [List.length_finRange]; exact r.isLt), List.getElem_finRange]
  rfl

theorem getElem?_text_pixel (s : Screen) (r : Fin 32) (c : Fin 64) :
    s.text.toList[65 * r.val + c.val]? = some (pixelChar (s.pixel c r)) := by
  rw [s.getElem?_text r (by omega), getElem?_rowChars]

theorem length_text (s : Screen) : s.text.length = 32 * 65 := by
  rw [text, String.length_ofList, List.length_flatMap]
  simp only [length_rowChars, List.map_const', List.length_finRange, List.sum_replicate_nat]

/-- No two screens have the same text. -/
theorem text_inj (h : s.text = t.text) : s = t := by
  ext c r
  have hc := s.getElem?_text_pixel r c
  rw [h, getElem?_text_pixel, Option.some_inj] at hc
  exact (pixelChar_inj hc).symm

/-! ### Pixels of one's choice -/

/-- A screen with given pixels. -/
def ofPixels (on : Fin 64 → Fin 32 → Bool) : Screen :=
  ⟨.ofFn fun r => (BitVec.ofBoolListBE (List.ofFn fun c => on c r)).cast List.length_ofFn⟩

theorem pixel_ofPixels (on : Fin 64 → Fin 32 → Bool) (c : Fin 64) (r : Fin 32) :
    (ofPixels on).pixel c r = on c r := by
  have hrow : (ofPixels on).rows[r] =
      (BitVec.ofBoolListBE (List.ofFn fun c => on c r)).cast List.length_ofFn :=
    Vector.getElem_ofFn r.isLt
  rw [pixel, hrow, BitVec.getMsbD_cast, BitVec.getMsbD_ofBoolListBE, List.getD_eq_getElem?_getD,
    List.getElem?_ofFn, dif_pos c.isLt]
  rfl

/-- **The text of a screen is a picture of it.** It has a line of 64 characters and a line break for
each of the 32 rows. The character at a column of a line says whether the pixel there is on, and
nothing is between the lines. Whichever pixels are to be on, there is a screen that has just them;
and screens with the same text are the same. -/
theorem text_is_picture (s : Screen) :
    s.text.length = 32 * 65 ∧
    (∀ (r : Fin 32) (c : Fin 64),
      s.text.toList[65 * r.val + c.val]? = some (if s.pixel c r = true then '#' else '.')) ∧
    (∀ r : Fin 32, s.text.toList[65 * r.val + 64]? = some '\n') ∧
    (∀ on : Fin 64 → Fin 32 → Bool, ∃ t : Screen, ∀ c r, t.pixel c r = on c r) ∧
    ∀ t : Screen, s.text = t.text → s = t := by
  refine ⟨s.length_text, s.getElem?_text_pixel, fun r => ?_, fun on => ⟨ofPixels on, ?_⟩,
    fun t => text_inj⟩
  · rw [s.getElem?_text r (by decide), getElem?_rowChars_end]
  · exact pixel_ofPixels on

/-- Two pixels at opposite ends are turned on in one order and in the other. The texts agree, and so
do the screens. -/
theorem lit_in_either_order :
    let s := (blank.light 2 1).light 63 31
    let t := (blank.light 63 31).light 2 1
    s.text.length = 2080 ∧ s.text.toList[67]? = some '#' ∧ s.text.toList[66]? = some '.' ∧
      s.text.toList[2079]? = some '\n' ∧ s.text = t.text ∧ s = t := by
  intro s t
  obtain ⟨hon, hoff, hrows⟩ : s.pixel 2 1 = true ∧ s.pixel 1 1 = false ∧
      ∀ r : Fin 32, s.rowChars r = t.rowChars r := by
    decide +kernel
  have htext : s.text = t.text := by rw [text, funext hrows, text]
  obtain ⟨hlength, hpixel, hbreak, -, hinj⟩ := text_is_picture s
  exact ⟨hlength, (hpixel 1 2).trans (by rw [hon]; rfl), (hpixel 1 1).trans (by rw [hoff]; rfl),
    hbreak 31, htext, hinj t htext⟩

end ChipEight.Screen
