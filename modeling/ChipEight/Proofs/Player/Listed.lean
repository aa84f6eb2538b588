import ChipEight.Proofs.Machine.Writes
import ChipEight.Proofs.Player.Cycles
import Mathlib.Data.List.Induction

/-!
# ChipEight.Proofs.Player.Listed

**A listing is what has been executed.** It has one entry for each address at which an instruction
has been executed, in ascending order, and the entry is the latest instruction there
(`Listing.IsLatest`). If a program never writes to memory, every entry is what lay at its address
when the program had been loaded.
-/

namespace ChipEight

open Machine

/-! ### Listings -/

namespace Listing

/-- Of the instructions that have been executed at an address, one is the latest. -/
def IsLatest (executed : List (UInt16 × Instruction Register)) (a : UInt16)
    (i : Instruction Register) : Prop :=
  ∃ before since, executed = before ++ (a, i) :: since ∧ ∀ e ∈ since, e.1 ≠ a

variable {es : List (UInt16 × Instruction Register)} {a b : UInt16} {i j : Instruction Register}

theorem not_isLatest_nil : ¬IsLatest [] a i := by
  rintro ⟨before, since, h, -⟩
  simp at h

theorem isLatest_concat :
    IsLatest (es ++ [(b, j)]) a i ↔ if b = a then j = i else IsLatest es a i := by
  constructor
  · rintro ⟨before, since, h, hlast⟩
    rcases cases_of_concat_eq h with ⟨rfl, hij, -⟩ | ⟨since', hes, rfl⟩
    · cases hij
      simp
    · rw [List.forall_mem_append, List.forall_mem_singleton] at hlast
      rw [if_neg hlast.2]
      exact ⟨before, since', hes, hlast.1⟩
  · split
    · next h =>
      subst h
      rintro rfl
      exact ⟨es, [], rfl, by simp⟩
    · next hne =>
      rintro ⟨before, since, rfl, hlast⟩
      refine ⟨before, since ++ [(b, j)], by simp, ?_⟩
      exact List.forall_mem_append.mpr ⟨hlast, List.forall_mem_singleton.mpr hne⟩

/-- There is a latest instruction at an address exactly if there is any. -/
theorem exists_isLatest_iff : (∃ i, IsLatest es a i) ↔ ∃ i, (a, i) ∈ es := by
  induction es using List.reverseRecOn with
  | nil => simp [not_isLatest_nil]
  | append_singleton es e ih =>
    obtain ⟨b, j⟩ := e
    simp only [isLatest_concat, List.mem_append, List.mem_singleton, Prod.mk.injEq]
    by_cases h : b = a
    · simp [h]
    · simp [h, Ne.symm h, ih]

/-- What is listed at an address is the latest instruction there. -/
theorem mem_toList_extend : (a, i) ∈ (extend ∅ es).toList ↔ IsLatest es a i := by
  rw [Std.ExtTreeMap.mem_toList_iff_getElem?_eq_some]
  induction es using List.reverseRecOn with
  | nil => simp [extend, not_isLatest_nil]
  | append_singleton es e ih =>
    obtain ⟨b, j⟩ := e
    have hinsert : extend ∅ (es ++ [(b, j)]) = (extend ∅ es).insert b j := extend_append ..
    rw [hinsert, isLatest_concat, Std.ExtTreeMap.getElem?_insert]
    by_cases h : b = a
    · simp [h]
    · simp [h, ih]

theorem pairwise_toList (listing : Listing Register) :
    listing.toList.Pairwise fun e f => e.1 < f.1 :=
  listing.ordered_keys_toList.imp Std.compare_eq_lt.mp

end Listing

/-! ### Runs -/

/-- While a program does not write to memory, it executes what lay there when it had been
loaded. -/
theorem Script.word_of_mem_executed_play (o : Options) (entropy : Random.Key) {bytes : List UInt8}
    (hfits : bytes.length ≤ Machine.programCapacity) {a : UInt16} {i : Instruction Register}
    (hno : ∀ e ∈ (Machine.new o.config entropy).executed (play o entropy (.contents bytes)),
      e.2.stores = false)
    (h : (a, i) ∈ (Machine.new o.config entropy).executed (play o entropy (.contents bytes))) :
    ∃ op, ((Machine.new o.config entropy).put Machine.programOrigin bytes).wordAt a = .ok op ∧
      Instruction.decode op = some i := by
  obtain ⟨rest, hplay, hrest⟩ := exists_play_eq_cons o entropy hfits
  have hquiet : ∀ c ∈ rest, c ≠ .reset ∧ c.block? = none :=
    hrest (fun k _ isDown => ⟨nofun, rfl⟩) ⟨nofun, rfl⟩ ⟨nofun, rfl⟩ ⟨nofun, rfl⟩
  have hexecuted : (Machine.new o.config entropy).executed (play o entropy (.contents bytes)) =
      ((Machine.new o.config entropy).put Machine.programOrigin bytes).executed rest := by
    rw [hplay, executed_of_ne_step (by simp), call_loadFile_of_fits _ hfits]
  rw [hexecuted] at hno h
  exact word_of_mem_executed hquiet hno h

/-- **A listing is what has been executed.** Say that a program fits and that a listing is asked
for. Then the program is loaded and played, and behind the screen a list of entries is printed: the
address, the mnemonic, and an empty line if the instruction may lead elsewhere. The addresses are in
ascending order, so there is one entry for each. They are those at which an instruction has been
executed, whether or not the run has failed in the end, and the entry is the latest of these. If no
instruction that has been executed writes to memory, the entries are what lay at their addresses
when the program had been loaded. -/
theorem listing_is_what_ran (o : Options) (name : String) {bytes : List UInt8}
    (entropy : Random.Key) (threshold : Option Level)
    (hfits : bytes.length ≤ Machine.programCapacity) (hlisting : o.listing = true) :
    let m := Machine.new o.config entropy
    let calls := Script.play o entropy (.contents bytes)
    let loaded := m.put Machine.programOrigin bytes
    (∃ begun, Run.begin? o name (.contents bytes) entropy threshold = .ok begun ∧
      (begun.frames o o.frames).2.machine = m.after calls) ∧
    ∃ entries : List (UInt16 × Instruction Register),
      (play o name (.contents bytes) entropy threshold).output = (m.after calls).screen.text ++
        String.join (entries.map fun e => Text.address e.1.toNat ++ "  " ++ e.2.mnemonic ++ "\n" ++
          if e.2.mayBranch then "\n" else "") ∧
      entries.Pairwise (fun e f => e.1 < f.1) ∧
      (∀ a, (∃ i, (a, i) ∈ entries) ↔ ∃ i, (a, i) ∈ m.executed calls) ∧
      (∀ a i, (a, i) ∈ entries ↔ Listing.IsLatest (m.executed calls) a i) ∧
      ((∀ e ∈ m.executed calls, e.2.stores = false) →
        ∀ e ∈ entries, ∃ op, loaded.wordAt e.1 = .ok op ∧ Instruction.decode op = some e.2) := by
  intro m calls loaded
  obtain ⟨begun, hbegin, -, hfollows⟩ := Run.follows_play o name entropy threshold hfits
  have houtput := (play_of_fits o name entropy threshold hfits).1
  rw [if_pos hlisting] at houtput
  let listing := Listing.extend ∅ (m.executed calls)
  have hlatest (a : UInt16) (i : Instruction Register) :
      (a, i) ∈ listing.toList ↔ Listing.IsLatest (m.executed calls) a i :=
    Listing.mem_toList_extend
  refine ⟨⟨begun, hbegin, hfollows.machine_eq⟩, listing.toList, houtput,
    Listing.pairwise_toList listing, fun a => ?_, hlatest, ?_⟩
  · simp only [hlatest]
    exact Listing.exists_isLatest_iff
  · rintro hno ⟨a, i⟩ hmem
    obtain ⟨before, since, hexecuted, -⟩ := (hlatest a i).mp hmem
    have hran : (a, i) ∈ m.executed calls := by simp [hexecuted]
    exact Script.word_of_mem_executed_play o entropy hfits hno hran

set_option maxRecDepth 20000 in
/-- Of a loop that is cut off in its second round, both instructions are listed. -/
theorem loop_listed :
    let o : Options := { frames := 1, cycles := 3, listing := true }
    let bytes : List UInt8 := [0x61, 0x05, 0x12, 0x00]
    let m := Machine.new o.config (Random.Key.ofSeed 0)
    let calls := Script.play o (Random.Key.ofSeed 0) (.contents bytes)
    ∃ entries : List (UInt16 × Instruction Register),
      (play o "" (.contents bytes) (Random.Key.ofSeed 0) none).output =
        (m.after calls).screen.text ++ String.join (entries.map fun e =>
          Text.address e.1.toNat ++ "  " ++ e.2.mnemonic ++ "\n" ++
            if e.2.mayBranch then "\n" else "") ∧
      (0x200, .setByte 1 5) ∈ entries ∧ (0x202, .jump 0x200) ∈ entries ∧
      ∀ e ∈ entries, ∃ op, (m.put Machine.programOrigin bytes).wordAt e.1 = .ok op ∧
        Instruction.decode op = some e.2 := by
  intro o bytes m calls
  have hexecuted : m.executed calls =
      [(0x200, .setByte 1 5), (0x202, .jump 0x200), (0x200, .setByte 1 5)] := by
    decide +kernel
  have hfits : bytes.length ≤ Machine.programCapacity := by decide
  obtain ⟨-, entries, houtput, -, -, hlatest, hloaded⟩ :=
    listing_is_what_ran o "" (Random.Key.ofSeed 0) none hfits rfl
  refine ⟨entries, houtput, (hlatest _ _).mpr ?_, (hlatest _ _).mpr ?_, hloaded ?_⟩
  · exact ⟨[(0x200, .setByte 1 5), (0x202, .jump 0x200)], [], hexecuted, by decide⟩
  · exact ⟨[(0x200, .setByte 1 5)], [(0x200, .setByte 1 5)], hexecuted, by decide⟩
  · rw [hexecuted]
    decide

end ChipEight
