import ChipEight.ReturnStack

/-!
# ChipEight.Proofs.ReturnStack

The stack of return addresses as a list. `Fits` is what holds of the stacks that a machine ever has;
while it does, opening a call appends its return address to `frames` and closing one takes the last
address away. What lies above the open calls plays no part in either.
-/

namespace ChipEight.ReturnStack

/-- No more calls are open than may be, and there is a slot for each that may. -/
structure Fits (s : ReturnStack) : Prop where
  /-- No more calls are open than may be. -/
  depth_le : s.depth ≤ s.limit
  /-- There is a slot for each call that may be open. -/
  limit_le : s.limit ≤ maxDepth

/-! ### Opening and closing calls -/

variable {s : ReturnStack}

theorem fits_empty (d : Nat) : (empty d).Fits :=
  ⟨Nat.zero_le _, Nat.min_le_right _ _⟩

theorem Fits.push (h : s.Fits) (hf : s.isFull = false) (a : UInt16) : (s.push a).Fits := by
  have : ¬ s.limit ≤ s.depth := by simpa [isFull] using hf
  exact ⟨by simp only [depth_push, limit_push]; omega, h.limit_le⟩

theorem Fits.pop (h : s.Fits) : s.pop.Fits :=
  ⟨Nat.le_trans (Nat.sub_le _ _) h.depth_le, h.limit_le⟩

theorem Fits.depth_lt (h : s.Fits) (hf : s.isFull = false) : s.depth < maxDepth := by
  have : ¬ s.limit ≤ s.depth := by simpa [isFull] using hf
  have := h.limit_le
  omega

theorem Fits.top_lt (h : s.Fits) : s.depth - 1 < maxDepth := by
  have := h.depth_le
  have := h.limit_le
  unfold maxDepth at *
  omega

/-! ### The view as a list -/

theorem length_frames (h : s.Fits) : s.frames.length = s.depth := by
  have := h.depth_le
  have := h.limit_le
  simp only [frames, List.length_take, Vector.length_toList]
  omega

theorem frames_push (h : s.depth < maxDepth) (a : UInt16) :
    (s.push a).frames = s.frames ++ [a] := by
  have hlen : s.slots.toList.length = maxDepth := Vector.length_toList
  have hset : (s.push a).slots.toList = s.slots.toList.set s.depth a := by
    simp [push, write, Vector.toList, Vector.setIfInBounds]
  rw [frames, frames, hset, depth_push, List.take_add_one, List.take_set_of_le (Nat.le_refl _),
    List.getElem?_set_self (by omega)]
  rfl

theorem frames_pop (h : s.Fits) : s.pop.frames = s.frames.dropLast := by
  rw [List.dropLast_eq_take, length_frames h, frames, frames, List.take_take, slots_pop, depth_pop]
  congr 1
  omega

/-- The latest call is the last of the list. -/
theorem getLast?_frames (h : s.Fits) (hne : s.isEmpty = false) :
    s.frames.getLast? = some s.top := by
  have hd : s.depth ≠ 0 := by simpa [isEmpty] using hne
  have hlt : s.depth - 1 < maxDepth := h.top_lt
  rw [List.getLast?_eq_getElem?, length_frames h, frames, List.getElem?_take_of_lt (by omega), top,
    Vector.getElem?_eq_getElem hlt, Option.getD_some, Vector.getElem?_toList,
    Vector.getElem?_eq_getElem hlt]

theorem isEmpty_iff_frames (h : s.Fits) : s.isEmpty = true ↔ s.frames = [] := by
  rw [isEmpty_iff, ← length_frames h, List.length_eq_zero_iff]

theorem isFull_iff_frames (h : s.Fits) : s.isFull = true ↔ s.frames.length = s.limit := by
  have := h.depth_le
  rw [isFull_iff, length_frames h]
  omega

/-! ### Slots of no open call -/

/-- The same calls are open on two stacks, and as many may be. The slots above may differ. -/
structure Alike (s t : ReturnStack) : Prop where
  limit_eq : t.limit = s.limit
  depth_eq : t.depth = s.depth
  frames_eq : t.frames = s.frames

variable {t : ReturnStack}

theorem Alike.refl (s : ReturnStack) : s.Alike s :=
  ⟨rfl, rfl, rfl⟩

theorem Alike.symm (h : s.Alike t) : t.Alike s :=
  ⟨h.limit_eq.symm, h.depth_eq.symm, h.frames_eq.symm⟩

theorem Alike.trans {u : ReturnStack} (h : s.Alike t) (h' : t.Alike u) : s.Alike u :=
  ⟨h'.limit_eq.trans h.limit_eq, h'.depth_eq.trans h.depth_eq, h'.frames_eq.trans h.frames_eq⟩

theorem Alike.fits (h : s.Alike t) (hs : s.Fits) : t.Fits :=
  ⟨by rw [h.depth_eq, h.limit_eq]; exact hs.depth_le, by rw [h.limit_eq]; exact hs.limit_le⟩

theorem Alike.isEmpty_eq (h : s.Alike t) : t.isEmpty = s.isEmpty := by
  rw [isEmpty, isEmpty, h.depth_eq]

theorem Alike.isFull_eq (h : s.Alike t) : t.isFull = s.isFull := by
  rw [isFull, isFull, h.depth_eq, h.limit_eq]

theorem Alike.top_eq (h : s.Alike t) (hs : s.Fits) (hne : s.isEmpty = false) : t.top = s.top := by
  have ht := getLast?_frames (h.fits hs) (h.isEmpty_eq.trans hne)
  rw [h.frames_eq, getLast?_frames hs hne] at ht
  exact (Option.some.inj ht).symm

theorem Alike.push (h : s.Alike t) (hs : s.Fits) (hf : s.isFull = false) (a : UInt16) :
    (s.push a).Alike (t.push a) where
  limit_eq := h.limit_eq
  depth_eq := by rw [depth_push, depth_push, h.depth_eq]
  frames_eq := by
    have hlt := hs.depth_lt hf
    rw [frames_push hlt, frames_push (h.depth_eq ▸ hlt), h.frames_eq]

theorem Alike.pop (h : s.Alike t) (hs : s.Fits) : s.pop.Alike t.pop where
  limit_eq := h.limit_eq
  depth_eq := by rw [depth_pop, depth_pop, h.depth_eq]
  frames_eq := by rw [frames_pop hs, frames_pop (h.fits hs), h.frames_eq]

end ChipEight.ReturnStack
