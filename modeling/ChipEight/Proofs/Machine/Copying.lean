import ChipEight.Machine.Call
import ChipEight.Proofs.Machine.Effect

/-!
# ChipEight.Proofs.Machine.Copying

**Copies between memory and registers go both ways.** What the first registers are written to at the
index is read back into them, on any machine that still has the block there (`exists_reload`).
Reading a block and writing it back leaves memory as it was (`memory_store_load`). Whether the last
register is taken in is only a matter of how many there are (`execute_withInclusive`). The decimal
digits of a byte are digits, and stand for it (`value_decimal`).

The instructions rely on nothing, so all of this holds on every substrate.
-/

namespace ChipEight

namespace Action

variable {M : Type → Type} [Monad M] [LawfulMonad M] [Substrate M]

/-- The decimal digits of a byte stand for it. -/
theorem value_decimal (b : UInt8) :
    (b / 100).toNat ≤ 9 ∧ (b / 10 % 10).toNat ≤ 9 ∧ (b % 10).toNat ≤ 9 ∧
      100 * (b / 100).toNat + 10 * (b / 10 % 10).toNat + (b % 10).toNat = b.toNat := by
  have hb := b.toNat_lt
  have hhundreds : (b / 100).toNat = b.toNat / 100 := UInt8.toNat_div b 100
  have htens : (b / 10 % 10).toNat = b.toNat / 10 % 10 := by
    rw [UInt8.toNat_mod, UInt8.toNat_div]
    rfl
  have hones : (b % 10).toNat = b.toNat % 10 := UInt8.toNat_mod b 10
  omega

omit [LawfulMonad M] [Substrate M] in
/-- What is guarded by a block ends well exactly if the block lies in memory. -/
theorem exists_of_guarded {x : Action M Unit} {address length : Nat} {m m' : Machine}
    {P : Machine → Prop} (h : x m = pure (guarded (Memory.blockFault? address length) m () m'))
    (hP : address + length ≤ Memory.size → P m') :
    ∃ e w, x m = pure (e, w) ∧ (e = .ok () ↔ address + length ≤ Memory.size) ∧
      (e = .ok () → P w) := by
  cases hf : Memory.blockFault? address length with
  | none =>
    have hfits := Memory.blockFault?_eq_none_iff.mp hf
    exact ⟨.ok (), m', by rw [h, hf]; rfl, by simp [hfits], fun _ => hP hfits⟩
  | some f =>
    have hfits : ¬address + length ≤ Memory.size := by
      rw [← Memory.blockFault?_eq_none_iff, hf]
      simp
    exact ⟨.error f, m, by rw [h, hf]; rfl, by simp [hfits], by simp⟩

end Action

namespace Machine

variable {M : Type → Type} [Monad M] [LawfulMonad M] [Substrate M] {m n : Machine} {x y : Register}
  {bs : List UInt8}

/-! ### There and back -/

/-- A block that has been put into memory is found at each of its places. -/
theorem getElem?_put (h : m.index.toNat + bs.length ≤ Memory.size) {j : Nat} (hj : j < bs.length) :
    (m.put m.index.toNat bs).memory.bytes[m.index.toNat + j]? = bs[j]? := by
  show (m.memory.bytes.write m.index.toNat bs)[m.index.toNat + j]? = bs[j]?
  rw [Bank.getElem?_write, if_pos (by omega), Nat.add_sub_cancel_left]

theorem getElem?_put_of_outside {a : Nat}
    (h : a < m.index.toNat ∨ m.index.toNat + bs.length ≤ a) :
    (m.put m.index.toNat bs).memory.bytes[a]? = m.memory.bytes[a]? := by
  show (m.memory.bytes.write m.index.toNat bs)[a]? = m.memory.bytes[a]?
  rw [Bank.getElem?_write, if_neg (by omega)]

/-- The registers that are stored, by their number. -/
theorem getElem?_registers (v : Bank 16) (length : Nat) (z : Register) :
    (v.read 0 length)[z.val]? = if z.val < length then some (v.get z) else none := by
  rw [Bank.getElem?_read, Nat.zero_add, Vector.getElem?_eq_getElem z.isLt]
  rfl

/-- Reading a block puts its bytes into the first registers and leaves the others. -/
theorem get_write (v : Bank 16) (bs : List UInt8) (z : Register) :
    (v.write 0 bs).get z = bs[z.val]?.getD (v.get z) := by
  have hwrite := Bank.getElem?_write v 0 bs z.val
  rw [Vector.getElem?_eq_getElem z.isLt, Vector.getElem?_eq_getElem z.isLt] at hwrite
  show (v.write 0 bs)[z.val] = bs[z.val]?.getD v[z.val]
  rw [← Option.some_inj, hwrite]
  split
  · next h =>
    have hz : z.val < bs.length := by omega
    simp [hz]
  · next h =>
    have hz : bs.length ≤ z.val := by have := z.isLt; omega
    simp [hz]

/-- A machine that has the block of another where that has its index can read it. -/
theorem exists_reload (hindex : n.index = m.index) (hlen : n.config.copyLength x = bs.length)
    (hfits : m.index.toNat + bs.length ≤ Memory.size)
    (hagree : ∀ j, j < bs.length → n.memory.bytes[m.index.toNat + j]? =
      (m.put m.index.toNat bs).memory.bytes[m.index.toNat + j]?) :
    ∃ w, (Action.execute (.loadRegisters x) : Action M Unit) n = pure (.ok (), w) ∧
      w = { n with v := w.v } ∧ ∀ z : Register, w.v.get z = bs[z.val]?.getD (n.v.get z) := by
  have hblock : n.memory.block n.index.toNat bs.length = bs := by
    rw [hindex]
    exact (Bank.read_congr hagree).trans (Bank.read_write hfits)
  refine ⟨n.loadBlock bs.length, ?_, rfl, fun z => ?_⟩
  · rw [Action.execute_loadRegisters, hlen, hindex, Memory.blockFault?_eq_none_iff.mpr hfits]
    rfl
  · rw [loadBlock, hblock, get_write]

theorem length_registers (m : Machine) (x : Register) :
    (m.v.read 0 (m.config.copyLength x)).length = m.config.copyLength x := by
  have hle := m.config.copyLength_le x
  exact Bank.length_read (by omega)

/-- Registers that have been stored are read back in the same mode. -/
theorem reload_registers (hindex : n.index = m.index)
    (hinclusive : n.config.inclusive = m.config.inclusive)
    (hfits : m.index.toNat + m.config.copyLength x ≤ Memory.size)
    (hagree : ∀ j, j < m.config.copyLength x → n.memory.bytes[m.index.toNat + j]? =
      (m.put m.index.toNat (m.v.read 0 (m.config.copyLength x))).memory.bytes[
        m.index.toNat + j]?) :
    ∃ w, (Action.execute (.loadRegisters x) : Action M Unit) n = pure (.ok (), w) ∧
      w = { n with v := w.v } ∧ ∀ z : Register, w.v.get z =
        if z.val < m.config.copyLength x then m.v.get z else n.v.get z := by
  have hlen := m.length_registers x
  have hcopy : n.config.copyLength x = (m.v.read 0 (m.config.copyLength x)).length := by
    rw [hlen, Config.copyLength, hinclusive, Config.copyLength]
  obtain ⟨w, hexecute, hw, hget⟩ := exists_reload (M := M) hindex hcopy (hlen.symm ▸ hfits)
    fun j hj => hagree j (hlen ▸ hj)
  refine ⟨w, hexecute, hw, fun z => ?_⟩
  rw [hget, getElem?_registers]
  split <;> rfl

/-- Decimal digits that have been stored are read into the first three registers. -/
theorem reload_decimal {b : UInt8} (hindex : n.index = m.index)
    (hinclusive : n.config.inclusive = true) (hfits : m.index.toNat + 3 ≤ Memory.size)
    (hagree : ∀ j, j < 3 → n.memory.bytes[m.index.toNat + j]? =
      (m.put m.index.toNat (Action.decimal b)).memory.bytes[m.index.toNat + j]?) :
    ∃ w, (Action.execute (.loadRegisters 2) : Action M Unit) n = pure (.ok (), w) ∧
      w.v.get 0 = b / 100 ∧ w.v.get 1 = b / 10 % 10 ∧ w.v.get 2 = b % 10 := by
  have hcopy : n.config.copyLength 2 = (Action.decimal b).length := by
    rw [Config.copyLength, hinclusive]
    rfl
  obtain ⟨w, hexecute, -, hget⟩ := exists_reload (M := M) hindex hcopy hfits hagree
  exact ⟨w, hexecute, hget 0, hget 1, hget 2⟩

/-- Reading a block and then writing it back leaves memory as it was. -/
theorem memory_store_load {length : Nat} (hlen : length ≤ 16)
    (hfits : m.index.toNat + length ≤ Memory.size) :
    ((m.loadBlock length).put m.index.toNat ((m.loadBlock length).v.read 0 length)).memory =
      m.memory := by
  have hblock : (m.memory.block m.index.toNat length).length = length := Bank.length_read hfits
  have hread : (m.loadBlock length).v.read 0 length = m.memory.block m.index.toNat length := by
    have hwritten : (m.v.write 0 (m.memory.block m.index.toNat length)).read 0
        (m.memory.block m.index.toNat length).length = m.memory.block m.index.toNat length :=
      Bank.read_write (by omega)
    rwa [hblock] at hwritten
  rw [hread]
  exact congrArg Memory.mk (Bank.write_read hfits)

theorem load_then_store (m : Machine) (x : Register) :
    ∃ e w w', (Action.execute (.loadRegisters x) : Action M Unit) m = pure (e, w) ∧
      (Action.execute (.storeRegisters x) : Action M Unit) w = pure (e, w') ∧
      w'.memory = m.memory := by
  rw [Action.execute_loadRegisters]
  cases hf : Memory.blockFault? m.index.toNat (m.config.copyLength x) with
  | some f =>
    refine ⟨.error f, m, m, rfl, ?_, rfl⟩
    rw [Action.execute_storeRegisters, hf]
    rfl
  | none =>
    refine ⟨.ok (), m.loadBlock (m.config.copyLength x), _, rfl, ?_,
      memory_store_load (m.config.copyLength_le x) (Memory.blockFault?_eq_none_iff.mp hf)⟩
    rw [Action.execute_storeRegisters]
    show pure (Action.guarded (Memory.blockFault? m.index.toNat (m.config.copyLength x)) _ () _) = _
    rw [hf]
    rfl

/-! ### How many registers -/

/-- The machine with copies that take in their last register or do not. -/
def withInclusive (m : Machine) (inclusive : Bool) : Machine :=
  { m with config.inclusive := inclusive }

theorem guarded_withInclusive (fault : Option Fault) (m m' : Machine) (inclusive : Bool) :
    Action.guarded fault (m.withInclusive inclusive) () (m'.withInclusive inclusive) =
      ((Action.guarded fault m () m').1,
        (Action.guarded fault m () m').2.withInclusive inclusive) := by
  cases fault <;> rfl

theorem storeRegisters_withInclusive {inclusive : Bool} {length : Nat}
    (h : (m.withInclusive inclusive).config.copyLength x = length) :
    let stored := Action.guarded (Memory.blockFault? m.index.toNat length) m ()
      (m.put m.index.toNat (m.v.read 0 length))
    (Action.execute (.storeRegisters x) : Action M Unit) (m.withInclusive inclusive) =
      pure (stored.1, stored.2.withInclusive inclusive) := by
  intro stored
  rw [Action.execute_storeRegisters, h]
  exact congrArg pure (guarded_withInclusive _ m (m.put m.index.toNat (m.v.read 0 length)) _)

theorem loadRegisters_withInclusive {inclusive : Bool} {length : Nat}
    (h : (m.withInclusive inclusive).config.copyLength x = length) :
    let loaded := Action.guarded (Memory.blockFault? m.index.toNat length) m () (m.loadBlock length)
    (Action.execute (.loadRegisters x) : Action M Unit) (m.withInclusive inclusive) =
      pure (loaded.1, loaded.2.withInclusive inclusive) := by
  intro loaded
  rw [Action.execute_loadRegisters, h]
  exact congrArg pure (guarded_withInclusive _ m (m.loadBlock length) _)

/-- Leaving the last register out is the same as taking in the one before. -/
theorem execute_withInclusive (m : Machine) (h : x.val = y.val + 1) :
    (∃ e, ∃ w : Machine,
      (Action.execute (.storeRegisters x) : Action M Unit) (m.withInclusive false) =
        pure (e, w.withInclusive false) ∧
      (Action.execute (.storeRegisters y) : Action M Unit) (m.withInclusive true) =
        pure (e, w.withInclusive true)) ∧
    ∃ e, ∃ w : Machine,
      (Action.execute (.loadRegisters x) : Action M Unit) (m.withInclusive false) =
        pure (e, w.withInclusive false) ∧
      (Action.execute (.loadRegisters y) : Action M Unit) (m.withInclusive true) =
        pure (e, w.withInclusive true) := by
  have hx : (m.withInclusive false).config.copyLength x = y.val + 1 := h
  have hy : (m.withInclusive true).config.copyLength y = y.val + 1 := rfl
  exact ⟨⟨_, _, storeRegisters_withInclusive hx, storeRegisters_withInclusive hy⟩,
    _, _, loadRegisters_withInclusive hx, loadRegisters_withInclusive hy⟩

/-- **Copies round-trip**, on every machine and in both modes, wherever the index is. Registers are
stored exactly if their block lies in memory. Then each is at its place and the rest of memory is as
before; and any machine that has the same block at the same index reads the same registers, and
keeps its others. A block that is read and stored again leaves memory as it was. Leaving out the
last register does what taking in the one before does, faults included. The three bytes of a decimal
are digits that stand for the register, and read as a block they are the first three registers. -/
theorem copies_round_trip (m : Machine) (x : Register) :
    let I := m.index.toNat
    let length := if m.config.inclusive then x.val + 1 else x.val
    (∃ e w, (Action.execute (.storeRegisters x) : Action M Unit) m = pure (e, w) ∧
      (e = .ok () ↔ I + length ≤ 0x1000) ∧
      (e = .ok () → w = { m with memory := w.memory } ∧
        (∀ z : Register, z.val < length → w.memory.bytes[I + z.val]? = some (m.v.get z)) ∧
        (∀ a, a < I ∨ I + length ≤ a → w.memory.bytes[a]? = m.memory.bytes[a]?) ∧
        ∀ n : Machine, n.index = m.index → n.config.inclusive = m.config.inclusive →
          (∀ j, j < length → n.memory.bytes[I + j]? = w.memory.bytes[I + j]?) →
          ∃ n', (Action.execute (.loadRegisters x) : Action M Unit) n = pure (.ok (), n') ∧
            n' = { n with v := n'.v } ∧
            ∀ z : Register, n'.v.get z = if z.val < length then m.v.get z else n.v.get z)) ∧
    (∃ e w w', (Action.execute (.loadRegisters x) : Action M Unit) m = pure (e, w) ∧
      (Action.execute (.storeRegisters x) : Action M Unit) w = pure (e, w') ∧
      w'.memory = m.memory) ∧
    (∀ y : Register, x.val = y.val + 1 →
      (∃ e, ∃ w : Machine,
        (Action.execute (.storeRegisters x) : Action M Unit) (m.withInclusive false) =
          pure (e, w.withInclusive false) ∧
        (Action.execute (.storeRegisters y) : Action M Unit) (m.withInclusive true) =
          pure (e, w.withInclusive true)) ∧
      ∃ e, ∃ w : Machine,
        (Action.execute (.loadRegisters x) : Action M Unit) (m.withInclusive false) =
          pure (e, w.withInclusive false) ∧
        (Action.execute (.loadRegisters y) : Action M Unit) (m.withInclusive true) =
          pure (e, w.withInclusive true)) ∧
    ∃ e w, (Action.execute (.storeDecimal x) : Action M Unit) m = pure (e, w) ∧
      (e = .ok () ↔ I + 3 ≤ 0x1000) ∧
      (e = .ok () → w = { m with memory := w.memory } ∧ ∃ b₀ b₁ b₂ : UInt8,
        w.memory.bytes[I]? = some b₀ ∧ w.memory.bytes[I + 1]? = some b₁ ∧
        w.memory.bytes[I + 2]? = some b₂ ∧ b₀.toNat ≤ 9 ∧ b₁.toNat ≤ 9 ∧ b₂.toNat ≤ 9 ∧
        100 * b₀.toNat + 10 * b₁.toNat + b₂.toNat = (m.v.get x).toNat ∧
        ∀ n : Machine, n.index = m.index → n.config.inclusive = true →
          (∀ j, j < 3 → n.memory.bytes[I + j]? = w.memory.bytes[I + j]?) →
          ∃ n', (Action.execute (.loadRegisters 2) : Action M Unit) n = pure (.ok (), n') ∧
            n'.v.get 0 = b₀ ∧ n'.v.get 1 = b₁ ∧ n'.v.get 2 = b₂) := by
  intro I length
  have hlen : (m.v.read 0 length).length = length := m.length_registers x
  refine ⟨Action.exists_of_guarded (Action.execute_storeRegisters x m) fun hfits => ?_,
    m.load_then_store x, fun y h => m.execute_withInclusive h,
    Action.exists_of_guarded (Action.execute_storeDecimal x m) fun hfits => ?_⟩
  · refine ⟨rfl, fun z hz => ?_, fun a ha => getElem?_put_of_outside (hlen.symm ▸ ha),
      fun n hindex hinclusive hagree => reload_registers hindex hinclusive hfits hagree⟩
    have hregister : (m.v.read 0 length)[z.val]? = some (m.v.get z) := by
      rw [getElem?_registers, if_pos hz]
    exact (getElem?_put (hlen.symm ▸ hfits) (hlen.symm ▸ hz)).trans hregister
  · obtain ⟨h₀, h₁, h₂, hvalue⟩ := Action.value_decimal (m.v.get x)
    have hdigit (j : Nat) (hj : j < 3) :
        (m.put m.index.toNat (Action.decimal m.v[x])).memory.bytes[m.index.toNat + j]? =
          (Action.decimal m.v[x])[j]? :=
      getElem?_put hfits hj
    exact ⟨rfl, _, _, _, hdigit 0 (by decide), hdigit 1 (by decide), hdigit 2 (by decide),
      h₀, h₁, h₂, hvalue,
      fun n hindex hinclusive hagree => reload_decimal hindex hinclusive hfits hagree⟩

set_option maxRecDepth 20000 in
/-- Three registers, without the fourth, are stored in the last three bytes of memory and read back
into cleared ones; so are the decimal digits of 254. -/
theorem copies_at_end :
    let m := (new { inclusive := false } (Random.Key.ofSeed 0)).after
      [.load [0x60, 0xFE, 0x62, 0x0C, 0x63, 0x0D, 0xAF, 0xFD], .step, .step, .step, .step]
    (∃ w n', (Action.execute (.storeRegisters 3) : Action Option Unit) m = some (.ok (), w) ∧
      w.memory.bytes[0xFFF]? = some 0x0C ∧
      (Action.execute (.loadRegisters 3) : Action Option Unit) { w with v := .zeros } =
        some (.ok (), n') ∧
      n'.v.get 2 = 0x0C ∧ n'.v.get 3 = 0) ∧
    (∃ e, ∃ w : Machine,
      (Action.execute (.storeRegisters 3) : Action Option Unit) (m.withInclusive false) =
        some (e, w.withInclusive false) ∧
      (Action.execute (.storeRegisters 2) : Action Option Unit) (m.withInclusive true) =
        some (e, w.withInclusive true)) ∧
    ∃ w n', (Action.execute (.storeDecimal 0) : Action Option Unit) m = some (.ok (), w) ∧
      (Action.execute (.loadRegisters 2) : Action Option Unit) (w.withInclusive true) =
        some (.ok (), n') ∧
      100 * (n'.v.get 0).toNat + 10 * (n'.v.get 1).toNat + (n'.v.get 2).toNat = 254 := by
  intro m
  obtain ⟨hmode, hindex, hbyte, hv⟩ : m.config.inclusive = false ∧ m.index = 0xFFD ∧
      (m.v.get 0).toNat = 254 ∧ m.v.get 2 = 0x0C := by decide +kernel
  clear_value m
  have hlength : (if m.config.inclusive then 3 + 1 else 3) = 3 := by rw [hmode]; rfl
  obtain ⟨⟨e, w, hstore, hok, hstored⟩, -, hleft, -⟩ := copies_round_trip (M := Option) m 3
  obtain rfl := hok.mpr (by rw [hindex]; exact hlength ▸ by decide)
  obtain ⟨hw, hbytes, -, hreload⟩ := hstored rfl
  obtain ⟨-, -, -, e', w', hdecimal, hok', hdigits⟩ := copies_round_trip (M := Option) m 0
  obtain rfl := hok'.mpr (by rw [hindex]; decide)
  obtain ⟨hw', b₀, b₁, b₂, -, -, -, -, -, -, hvalue, hread⟩ := hdigits rfl
  refine ⟨?_, (hleft 2 rfl).1, ?_⟩
  · obtain ⟨n', hload, -, hget⟩ := hreload { w with v := .zeros } (by rw [hw]) (by rw [hw])
      fun j _ => rfl
    have hlast := hbytes 2 (lt_of_lt_of_eq (by decide) hlength.symm)
    rw [hindex, hv] at hlast
    refine ⟨w, n', hstore, hlast, hload, ?_, ?_⟩
    · exact (hget 2).trans ((if_pos (hlength.symm ▸ (by decide : 2 < 3))).trans hv)
    · exact (hget 3).trans ((if_neg (hlength.symm ▸ (by decide : ¬3 < 3))).trans (Bank.get_zeros 3))
  · obtain ⟨n', hload, h₀, h₁, h₂⟩ :=
      hread (w'.withInclusive true) (by rw [hw']; rfl) rfl fun j _ => rfl
    exact ⟨w', n', hdecimal, hload, by rw [h₀, h₁, h₂, hvalue, hbyte]⟩

end Machine

end ChipEight
