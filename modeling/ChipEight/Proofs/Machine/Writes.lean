import ChipEight.Proofs.Machine.History
import ChipEight.Proofs.Machine.Refusal

/-!
# ChipEight.Proofs.Machine.Writes

**Memory is what has been written last.** `Machine.writes` lists the blocks that calls have put into
memory since the last reset: those of the host, as far as they have not been refused, and those of
the instructions that have been executed. A byte in memory is that of the latest block that covers
its address, and if there is none, it is as it was when the machine was switched on
(`lastByte`, `recalls_after`).

Bytes are all that there is to memory. Words are made of two of them, and what a step fetches is the
word at the program counter.
-/

namespace ChipEight

/-- A block of bytes that has been put into memory. -/
structure Write where
  start : Nat
  bytes : List UInt8
  deriving DecidableEq, Repr

/-- The byte that a write has put at an address, if it covers the address. -/
def Write.byte? (w : Write) (address : Nat) : Option UInt8 :=
  if w.start ≤ address then w.bytes[address - w.start]? else none

/-- Whether an instruction writes to memory. -/
def Instruction.stores {ρ : Type} : Instruction ρ → Bool
  | .storeDecimal _ | .storeRegisters _ => true
  | _ => false

/-! ### Bytes in memory -/

namespace Memory

/-- The font is at the bottom of memory at first, and nothing above it. -/
theorem getElem?_initial {address : Nat} (h : address < size) :
    initial.bytes[address]? = some (Font.sheet.getD address 0) := by
  have hlen : Font.sheet.length < size := by decide
  rw [initial, write, Bank.getElem?_write, Bank.getElem?_zeros, if_pos h, Font.origin,
    Nat.sub_zero, Nat.zero_add, List.getD_eq_getElem?_getD]
  by_cases hfont : address < Font.sheet.length
  · rw [if_pos ⟨Nat.zero_le _, hfont, h⟩, List.getElem?_eq_getElem hfont, Option.getD_some]
  · rw [if_neg fun hall => hfont hall.2.1, List.getElem?_eq_none (Nat.le_of_not_lt hfont),
      Option.getD_none]

/-- A byte is that of a write or, if the write does not cover it, what has been there before. -/
theorem getElem?_write (m : Memory) (w : Write) {address : Nat} (h : address < size) :
    (m.write w.start w.bytes).bytes[address]? = (w.byte? address).or m.bytes[address]? := by
  rw [write, Bank.getElem?_write, Write.byte?]
  by_cases hstart : w.start ≤ address
  · rw [if_pos hstart]
    by_cases hend : address < w.start + w.bytes.length
    · rw [if_pos ⟨hstart, hend, h⟩, List.getElem?_eq_getElem (by omega), Option.some_or]
    · rw [if_neg fun hall => hend hall.2.1, List.getElem?_eq_none (by omega), Option.none_or]
  · rw [if_neg fun hall => hstart hall.1, if_neg hstart, Option.none_or]

end Memory

namespace Machine

/-! ### What is written -/

/-- The block that an instruction puts into memory: the digits of a register, or registers. -/
def stored? (m : Machine) : Instruction Register → Option Write
  | .storeDecimal x => some ⟨m.index.toNat, Action.decimal (m.v.get x)⟩
  | .storeRegisters x => some ⟨m.index.toNat, m.v.read 0 (m.config.copyLength x)⟩
  | _ => none

/-- The block that a call puts into memory, going by its reply. -/
def written? (m : Machine) (c : Call) : Reply → Option Write
  | .done => c.block?.map fun block => ⟨block.1, block.2⟩
  | .stepped (.executed _ i) => m.stored? i
  | _ => none

/-- The blocks that have been put into memory since the last reset, the latest one first, after
calls that have been preceded by the writes `ws`. -/
def writesFrom (m : Machine) (ws : List Write) : List Call → List Write
  | [] => ws
  | c :: cs =>
    let called := m.call c
    called.2.writesFrom (if c = .reset then [] else (m.written? c called.1).toList ++ ws) cs

/-- The blocks that a sequence of calls has put into memory since the last reset in it, the latest
one first. -/
def writes (m : Machine) (calls : List Call) : List Write :=
  m.writesFrom [] calls

variable {m m' : Machine} {c : Call} {r : Reply} {ws : List Write}

theorem stored?_eq_none {i : Instruction Register} (h : i.stores = false) : m.stored? i = none := by
  cases i <;> first | rfl | cases h

theorem memory_perform (m : Machine) (i : Instruction Register) :
    (m.perform i).memory = (m.stored? i).elim m.memory fun w => m.memory.write w.start w.bytes := by
  cases i <;> rfl

/-- Nothing but a reset changes memory otherwise than by what is written. -/
theorem memory_of_transition (ht : m.Transition c r m') (hc : c ≠ .reset) :
    m'.memory = (m.written? c r).elim m.memory fun w => m.memory.write w.start w.bytes := by
  cases ht with
  | reset => exact absurd rfl hc
  | written hf hb =>
    rw [written?, hb]
    rfl
  | stepped hs =>
    cases hs with
    | executed hm hw hd hf => exact memory_perform m.advance _
    | _ => rfl
  | _ => rfl

/-! ### Calls that write nothing -/

theorem memory_of_no_write (ht : m.Transition c r m') (hc : c ≠ .reset) (hb : c.block? = none)
    (hr : ∀ a i, r = .stepped (.executed a i) → i.stores = false) : m'.memory = m.memory := by
  have hnone : m.written? c r = none := by
    cases r with
    | done => rw [written?, hb, Option.map_none]
    | stepped o =>
      cases o with
      | executed a i => exact stored?_eq_none (hr a i rfl)
      | _ => rfl
    | _ => rfl
  rw [memory_of_transition ht hc, hnone, Option.elim_none]

/-- While nothing is written, what is executed is what has been in memory at first. -/
theorem word_of_mem_executed {cs : List Call} (hcs : ∀ c ∈ cs, c ≠ .reset ∧ c.block? = none)
    (hno : ∀ e ∈ m.executed cs, e.2.stores = false) {a : UInt16} {i : Instruction Register}
    (h : (a, i) ∈ m.executed cs) :
    ∃ op, m.wordAt a = .ok op ∧ Instruction.decode op = some i := by
  simp only [Prod.forall, mem_executed_iff, wordAt_eq] at hno h ⊢
  induction cs generalizing m with
  | nil => cases h
  | cons c cs ih =>
    obtain ⟨hc, hrest⟩ := List.forall_mem_cons.mp hcs
    simp only [replies, List.mem_cons] at hno h
    rcases h with hr | hmem
    · have ht := m.call_transition c
      rw [← hr] at ht
      generalize (m.call c).2 = m' at ht
      cases ht with
      | stepped hs =>
        cases hs with
        | executed hm hw hd hf => exact ⟨_, hw, hd⟩
    · have hsame : (m.call c).2.memory = m.memory :=
        memory_of_no_write (m.call_transition c) hc.1 hc.2 fun b j hr => hno b j (.inl hr.symm)
      rw [← hsame]
      exact ih hrest (fun b j hj => hno b j (.inr hj)) hmem

/-! ### The last write -/

/-- The byte that is found at an address after writes, the latest one first: that of the first write
that covers the address, or that of the font, or zero. -/
def lastByte (ws : List Write) (address : Nat) : UInt8 :=
  (ws.findSome? (·.byte? address)).getD (Font.sheet.getD address 0)

/-- The memory of a machine is what has been written last. -/
def Recalls (ws : List Write) (m : Machine) : Prop :=
  ∀ address < Memory.size, m.memory.bytes[address]? = some (lastByte ws address)

theorem recalls_nil (h : m.memory = .initial) : Recalls [] m := by
  intro address ha
  rw [h, Memory.getElem?_initial ha]
  rfl

theorem Recalls.cons (h : Recalls ws m) {w : Write}
    (hm : m'.memory = m.memory.write w.start w.bytes) : Recalls (w :: ws) m' := by
  intro address ha
  rw [hm, Memory.getElem?_write _ _ ha, h address ha, lastByte, lastByte, List.findSome?_cons]
  cases w.byte? address <;> rfl

theorem Recalls.append (h : Recalls ws m) {w : Option Write}
    (hm : m'.memory = w.elim m.memory fun w => m.memory.write w.start w.bytes) :
    Recalls (w.toList ++ ws) m' := by
  cases w with
  | some w => exact h.cons hm
  | none =>
    intro address ha
    rw [hm]
    exact h address ha

theorem recalls_after (h : Recalls ws m) (calls : List Call) :
    Recalls (m.writesFrom ws calls) (m.after calls) := by
  induction calls generalizing m ws with
  | nil => exact h
  | cons c cs ih =>
    refine ih ?_
    split
    · next hc =>
      subst hc
      exact recalls_nil rfl
    · next hc => exact h.append (memory_of_transition (m.call_transition c) hc)

/-! ### Writing and reading -/

/-- Which pokes are refused, and why. -/
theorem reply_poke (m : Machine) (a : UInt16) (bytes : List UInt8) :
    let reply := (m.call (.poke a bytes)).1
    (reply = .done ↔ a.toNat + bytes.length ≤ 0x1000) ∧
    (reply = .refused (.noSuchAddress a.toNat) ↔
      0x1000 < a.toNat ∨ (a.toNat = 0x1000 ∧ 0 < bytes.length)) ∧
    (reply = .refused (.blockOverrun a.toNat bytes.length) ↔
      a.toNat < 0x1000 ∧ 0x1000 < a.toNat + bytes.length) := by
  intro reply
  have hreply : reply =
      (Memory.blockFault? a.toNat bytes.length).elim .done .refused := by
    unfold reply
    rw [call_of_block rfl, Call.fault?]
    cases Memory.blockFault? a.toNat bytes.length <;> rfl
  rw [hreply]
  by_cases hstart : 0x1000 < a.toNat ∨ (a.toNat = 0x1000 ∧ 0 < bytes.length)
  · rw [Memory.blockFault?_of_start hstart]
    simp only [Option.elim, reduceCtorEq, Reply.refused.injEq, false_iff, true_iff]
    omega
  · by_cases hend : a.toNat < 0x1000 ∧ 0x1000 < a.toNat + bytes.length
    · rw [Memory.blockFault?_of_end hend.1 hend.2]
      simp only [Option.elim, reduceCtorEq, Reply.refused.injEq, false_iff, true_iff]
      omega
    · have hfits : a.toNat + bytes.length ≤ 0x1000 := by omega
      rw [Memory.blockFault?_eq_none_iff.mpr hfits]
      simp only [Option.elim, reduceCtorEq, false_iff, true_iff]
      omega

theorem reply_load (m : Machine) (program : List UInt8) :
    (m.call (.load program)).1 =
      if program.length ≤ 3584 then .done else .refused (.programTooLong program.length 3584) := by
  have hcapacity : programCapacity = 3584 := rfl
  rw [call_of_block rfl, Call.fault?, Call.programFault?, hcapacity]
  by_cases h : program.length ≤ 3584
  · rw [if_pos h, if_neg (Nat.not_lt.mpr h)]
    rfl
  · rw [if_neg h, if_pos (Nat.lt_of_not_le h)]
    rfl

/-- A file is loaded as what is in it. -/
theorem call_loadFile (m : Machine) (program : List UInt8) :
    m.call (.loadFile (some program)) = m.call (.load program) := by
  rw [call_of_block rfl, call_of_block rfl]
  rfl

theorem wordAt_of_lt (m : Machine) {a : UInt16} (h : a.toNat < 0xFFF) :
    ∃ high low word, m.byteAt a = .ok high ∧ m.byteAt (a + 1) = .ok low ∧
      m.wordAt a = .ok word ∧ word.toNat = high.toNat * 0x100 + low.toNat := by
  have hnext : (a + 1).toNat = a.toNat + 1 := by
    rw [UInt16.toNat_add]
    simp
    omega
  have hlt : a.toNat + 1 < Memory.size := Nat.succ_lt_succ h
  have hhigh : m.byteAt a = .ok m.memory.bytes[a.toNat] :=
    (m.byteAt_eq a).trans (Memory.byte_of_lt (Nat.lt_of_succ_lt hlt))
  have hlow : m.byteAt (a + 1) = .ok m.memory.bytes[a.toNat + 1] := by
    rw [byteAt_eq, hnext, Memory.byte_of_lt hlt]
  refine ⟨_, _, _, hhigh, hlow, (m.wordAt_eq a).trans (Memory.word_of_lt hlt), ?_⟩
  have := m.memory.bytes[a.toNat].toNat_lt
  have := m.memory.bytes[a.toNat + 1].toNat_lt
  refine UInt16.toNat_ofNat_of_lt' ?_
  unfold UInt16.size
  omega

theorem wordAt_of_le (m : Machine) {a : UInt16} (h : 0xFFF ≤ a.toNat) :
    m.wordAt a = .error (.noSuchAddress (max a.toNat 0x1000)) :=
  (m.wordAt_eq a).trans (Memory.word_of_le (Nat.succ_le_succ h))

/-- What a step fetches is the word at the program counter. -/
theorem step_of_wordAt (hm : m.mode = .running) :
    (∀ f, m.wordAt m.pc = .error f → m.step = (.failed f, m)) ∧
    ∀ op, m.wordAt m.pc = .ok op →
      (Instruction.decode op = none →
        m.step = (.failed (.unknownOpcode op m.pc), { m with pc := m.pc + 2 })) ∧
      ∀ i, Instruction.decode op = some i →
        Action.step m = (do
          Action.execute i
          return .executed m.pc i : Action Id Outcome) { m with pc := m.pc + 2 } := by
  rw [wordAt_eq]
  refine ⟨fun f hw => step_of_lost hm hw, fun op hw => ⟨fun hd => ?_, fun i hd => ?_⟩⟩
  · exact steps_iff.mp (.unknown hm hw hd)
  · rw [Action.step_of_word hm hw, hd]
    rfl

/-- **Memory is what has been written last**, after any calls of the host. A byte is that of the
latest block that covers its address since the last reset, and that of the font or zero if there is
none. Bytes may be poked wherever they end in memory. They are refused where they start past its
end, or at the end without being none, and where they start in memory and end past it. A program
may have 3584 bytes, also if it comes from a file, which may fail instead. A word is made of the
bytes at its address and after it, and is missing for the first of them that is; and it is what a
running step fetches at the program counter. -/
theorem memory_is_last_write (config : Config) (entropy : Random.Key) (calls : List Call) :
    let m := (new config entropy).after calls
    (∀ a : UInt16, a.toNat < 0x1000 →
      m.byteAt a = .ok (lastByte ((new config entropy).writes calls) a.toNat)) ∧
    (∀ (a : UInt16) (bytes : List UInt8),
      let reply := (m.call (.poke a bytes)).1
      (reply = .done ↔ a.toNat + bytes.length ≤ 0x1000) ∧
      (reply = .refused (.noSuchAddress a.toNat) ↔
        0x1000 < a.toNat ∨ (a.toNat = 0x1000 ∧ 0 < bytes.length)) ∧
      (reply = .refused (.blockOverrun a.toNat bytes.length) ↔
        a.toNat < 0x1000 ∧ 0x1000 < a.toNat + bytes.length)) ∧
    (∀ program : List UInt8,
      (m.call (.load program)).1 = (if program.length ≤ 3584 then .done
        else .refused (.programTooLong program.length 3584)) ∧
      m.call (.loadFile (some program)) = m.call (.load program)) ∧
    m.call (.loadFile none) = (.refused .unreadable, m) ∧
    (∀ a : UInt16, a.toNat < 0xFFF →
      ∃ high low word, m.byteAt a = .ok high ∧ m.byteAt (a + 1) = .ok low ∧
        m.wordAt a = .ok word ∧ word.toNat = high.toNat * 0x100 + low.toNat) ∧
    (∀ a : UInt16, 0xFFF ≤ a.toNat →
      m.wordAt a = .error (.noSuchAddress (max a.toNat 0x1000))) ∧
    (m.mode = .running →
      (∀ f, m.wordAt m.pc = .error f → m.step = (.failed f, m)) ∧
      ∀ op, m.wordAt m.pc = .ok op →
        (Instruction.decode op = none →
          m.step = (.failed (.unknownOpcode op m.pc), { m with pc := m.pc + 2 })) ∧
        ∀ i, Instruction.decode op = some i →
          Action.step m = (do
            Action.execute i
            return .executed m.pc i : Action Id Outcome) { m with pc := m.pc + 2 }) := by
  intro m
  refine ⟨fun a ha => ?_, m.reply_poke, fun program => ⟨m.reply_load program, ?_⟩, ?_,
    fun a => m.wordAt_of_lt, fun a => m.wordAt_of_le, step_of_wordAt⟩
  · have hnew : (new config entropy).memory = .initial := rfl
    have hbyte := recalls_after (recalls_nil hnew) calls a.toNat ha
    rw [byteAt_eq, Memory.byte, hbyte]
    rfl
  · exact m.call_loadFile program
  · exact transition_iff.mp (.refused rfl)

set_option maxRecDepth 20000 in
/-- A program that is loaded over a poke and then overwrites itself, and a poke that comes to
nothing because it does not fit. -/
theorem overwritten_by_itself :
    let calls : List Call := [.poke 0x202 [1, 2], .load [0xA2, 0x02, 0x60, 0x12, 0xF0, 0x55],
      .step, .step, .step, .poke 0xFFF [1, 2]]
    let m := (new {} (Random.Key.ofSeed 0)).after calls
    m.byteAt 0x202 = .ok 0x12 ∧ m.byteAt 0x203 = .ok 0x12 ∧ m.byteAt 0xFFF = .ok 0 := by
  intro calls m
  have hwrites : (new {} (Random.Key.ofSeed 0)).writes calls =
      [⟨0x202, [0x12]⟩, ⟨0x200, [0xA2, 0x02, 0x60, 0x12, 0xF0, 0x55]⟩, ⟨0x202, [1, 2]⟩] := by
    decide +kernel
  have hbyte := (memory_is_last_write {} (Random.Key.ofSeed 0) calls).1
  rw [hwrites] at hbyte
  exact ⟨hbyte 0x202 (by decide), hbyte 0x203 (by decide), hbyte 0xFFF (by decide)⟩

end Machine

end ChipEight
