import ChipEight.Instruction.Opcode

/-!
# ChipEight.Proofs.Instruction.Decoding

**Which words are which instructions.** The fields of a word make up the word, so an instruction
that has been decoded is encoded as the word that it came from. The operands that decoding finds are
in the ranges of their fields.
-/

namespace ChipEight

namespace Opcode

/-! ### Fields -/

theorem nnn_lt (op : UInt16) : (nnn op).toNat < 0x1000 := by
  rw [nnn, UInt16.toNat_ofNat']
  omega

theorem n_lt (op : UInt16) : (n op).toNat < 0x10 := by
  rw [n, UInt8.toNat_ofNat']
  omega

theorem ofAddress_fields (op : UInt16) : ofAddress (family op) (nnn op) = op := by
  apply UInt16.toNat_inj.mp
  have hop := op.toNat_lt
  simp only [ofAddress, family, nnn, UInt16.toNat_ofNat']
  omega

theorem family_ofAddress {f : Nat} {a : UInt16} (hf : f < 0x10) (ha : a.toNat < 0x1000) :
    family (ofAddress f a) = f := by
  rw [family, ofAddress, UInt16.toNat_ofNat']
  omega

theorem nnn_ofAddress (f : Nat) {a : UInt16} (ha : a.toNat < 0x1000) :
    nnn (ofAddress f a) = a := by
  apply UInt16.toNat_inj.mp
  simp only [nnn, ofAddress, UInt16.toNat_ofNat']
  omega

theorem ofByte_fields (op : UInt16) : ofByte (family op) (x op) (kk op) = op := by
  apply UInt16.toNat_inj.mp
  have hop := op.toNat_lt
  simp only [ofByte, family, x, kk, UInt16.toNat_ofNat', UInt8.toNat_ofNat']
  omega

theorem ofPair_fields (op : UInt16) : ofPair (family op) (x op) (y op) (n op) = op := by
  apply UInt16.toNat_inj.mp
  have hop := op.toNat_lt
  simp only [ofPair, family, x, y, n, UInt16.toNat_ofNat', UInt8.toNat_ofNat']
  omega

end Opcode

namespace Instruction

variable {op : UInt16} {i : Instruction Register} {x y : Register}

/-! ### Decoding and encoding -/

theorem encode_of_arithmetic {n : UInt8} (h : ofArithmetic? x y n = some i) :
    i.encode = Opcode.ofPair 0x8 x y n := by
  unfold ofArithmetic? at h
  split at h <;> cases h <;> rename_i hn <;> simp only [encode, Opcode.ofPair, hn] <;> rfl

theorem encode_of_keyTest {kk : UInt8} (h : ofKeyTest? x kk = some i) :
    i.encode = Opcode.ofByte 0xE x kk := by
  unfold ofKeyTest? at h
  split at h <;> cases h <;> rename_i hkk <;> simp only [encode, Opcode.ofByte, hkk] <;> rfl

theorem encode_of_transfer {kk : UInt8} (h : ofTransfer? x kk = some i) :
    i.encode = Opcode.ofByte 0xF x kk := by
  unfold ofTransfer? at h
  split at h <;> cases h <;> rename_i hkk <;> simp only [encode, Opcode.ofByte, hkk] <;> rfl

/-- An instruction is encoded as the word that it has been decoded from. -/
theorem encode_of_decode (h : decode op = some i) : i.encode = op := by
  have haddress := Opcode.ofAddress_fields op
  have hbyte := Opcode.ofByte_fields op
  have hpair := Opcode.ofPair_fields op
  unfold decode at h
  dsimp only at h
  split at h <;> rename_i hf <;> try rw [hf] at haddress hbyte hpair
  case h_1 =>
    split at h
    · next hnnn =>
      cases h
      rw [← haddress, hnnn]
      rfl
    · split at h <;> cases h
      · next hnnn =>
        rw [← haddress, hnnn]
        rfl
      · exact haddress
  case h_6 | h_10 =>
    split at h <;> cases h
    next hn => rw [hn] at hpair; exact hpair
  case h_9 => rw [encode_of_arithmetic h, hpair]
  case h_15 => rw [encode_of_keyTest h, hbyte]
  case h_16 => rw [encode_of_transfer h, hbyte]
  case h_17 => cases h
  all_goals cases h; first | exact haddress | exact hbyte | exact hpair

/-! ### Operands -/

/-- What holds of the operands of instructions that have been decoded: addresses have twelve bits
and sprites less than sixteen rows. -/
def Proper {ρ : Type} : Instruction ρ → Prop
  | .hostRoutine nnn | .jump nnn | .call nnn | .setIndex nnn | .jumpPlus nnn => nnn.toNat < 0x1000
  | .draw _ _ n => n.toNat < 0x10
  | _ => True

theorem proper_of_arithmetic {n : UInt8} (h : ofArithmetic? x y n = some i) : i.Proper := by
  unfold ofArithmetic? at h
  split at h <;> cases h <;> trivial

theorem proper_of_keyTest {kk : UInt8} (h : ofKeyTest? x kk = some i) : i.Proper := by
  unfold ofKeyTest? at h
  split at h <;> cases h <;> trivial

theorem proper_of_transfer {kk : UInt8} (h : ofTransfer? x kk = some i) : i.Proper := by
  unfold ofTransfer? at h
  split at h <;> cases h <;> trivial

/-- Only proper instructions are ever decoded. -/
theorem proper_of_decode (h : decode op = some i) : i.Proper := by
  have hnnn := Opcode.nnn_lt op
  have hn := Opcode.n_lt op
  unfold decode at h
  dsimp only at h
  split at h
  case h_9 => exact proper_of_arithmetic h
  case h_15 => exact proper_of_keyTest h
  case h_16 => exact proper_of_transfer h
  all_goals (try split at h) <;> (try split at h) <;> cases h <;> first | assumption | trivial

/-! ### Calls and returns -/

/-- The only word that closes a call. -/
theorem decode_eq_ret_iff : decode op = some .ret ↔ op = 0x00EE :=
  ⟨fun h => (encode_of_decode h).symm, fun h => h ▸ rfl⟩

/-- The words that open a call are those of family `2`. -/
theorem decode_eq_call_iff {nnn : UInt16} :
    decode op = some (.call nnn) ↔ Opcode.family op = 0x2 ∧ nnn = Opcode.nnn op := by
  constructor
  · intro h
    have hlt : nnn.toNat < 0x1000 := proper_of_decode h
    rw [← encode_of_decode h]
    exact ⟨Opcode.family_ofAddress (by decide) hlt, (Opcode.nnn_ofAddress _ hlt).symm⟩
  · rintro ⟨hf, rfl⟩
    unfold decode
    rw [hf]
    rfl

end Instruction

end ChipEight
