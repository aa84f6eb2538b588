import ChipEight.Proofs.Machine.Parts
import ChipEight.Proofs.Machine.Trace

/-!
# ChipEight.Proofs.Machine.KeyMoves

**Keys are where they were moved last.** `Machine.keyMoves` lists the moves of keys that have been
accepted since the last reset. A key is down if the latest of its moves was a press, and it is up if
that was not so or if there was none (`latched_after`). Whether the press was one that the machine
has been waiting for makes no difference, and nothing that the program does moves a key. So the two
instructions that ask for a key are answered by what the host has done.
-/

namespace ChipEight.Machine

/-! ### Moves -/

/-- The moves of keys since the last reset, the latest first, after a call and its reply. A move
that has been refused is none. -/
def noteMove (moves : List (UInt8 × Bool)) : Call × Reply → List (UInt8 × Bool)
  | (.reset, _) => []
  | (.input code isDown, .done) => (code, isDown) :: moves
  | _ => moves

/-- The moves of keys that have been accepted since the last reset in a sequence of calls, the
latest first: the code of the key, and whether it was a press. -/
def keyMoves (m : Machine) (calls : List Call) : List (UInt8 × Bool) :=
  (m.trace calls).foldl noteMove []

/-- Every key is where the latest of its moves has put it, or up. -/
def Latched (moves : List (UInt8 × Bool)) (m : Machine) : Prop :=
  ∀ code, m.keypad.isDown code = (moves.lookup code).getD false

variable {m m' : Machine} {c : Call} {r : Reply} {moves : List (UInt8 × Bool)} {code : UInt8}

theorem latched_switchedOn (config : Config) (random : Random.Stream) :
    Latched [] (switchedOn config random) :=
  Keypad.isDown_released

theorem Latched.of_keypad_eq (h : Latched moves m) (hk : m'.keypad = m.keypad) :
    Latched moves m' := by
  intro code
  rw [hk]
  exact h code

/-- Moving a key is the latest of its moves, and none of any other. -/
theorem Latched.set (h : Latched moves m) {k : Key} (hk : Key.ofCode? code = some k) {isDown : Bool}
    (hm : m'.keypad = m.keypad.set k isDown) : Latched ((code, isDown) :: moves) m' := by
  intro other
  rw [hm, Keypad.isDown_set, Key.code_of_ofCode? hk, List.lookup_cons]
  by_cases hother : other = code
  · simp [hother]
  · rw [if_neg hother, beq_eq_false_iff_ne.mpr hother, h other]

theorem Latched.transition (ht : m.Transition c r m') (h : Latched moves m) :
    Latched (noteMove moves (c, r)) m' := by
  cases ht with
  | reset => exact latched_switchedOn _ _
  | refused hf =>
    cases c with
    | reset => cases hf
    | _ => exact h
  | written hf hb =>
    cases c with
    | reset | input code isDown => cases hb
    | _ => exact h
  | stepped hs => exact h.of_keypad_eq (keypad_of_steps hs)
  | moved hk hmode => exact h.set hk rfl
  | resumed hk hm => exact h.set hk rfl
  | _ => exact h

theorem latched_after (config : Config) (entropy : Random.Key) (calls : List Call) :
    Latched ((new config entropy).keyMoves calls) ((new config entropy).after calls) :=
  trace_induction (P := Latched) (fun _ _ _ _ _ ht h => h.transition ht)
    (latched_switchedOn config _) calls

/-! ### Asking for a key -/

theorem Latched.isDown_iff (h : Latched moves m) (code : UInt8) :
    m.keypad.isDown code = true ↔ code.toNat ≤ 15 ∧ moves.lookup code = some true := by
  have hlast : m.keypad.isDown code = true ↔ moves.lookup code = some true := by
    rw [h code]
    cases moves.lookup code <;> simp
  rw [hlast]
  refine (and_iff_right_of_imp fun hpressed => Nat.le_of_not_lt fun hcode => ?_).symm
  rw [← hlast, m.keypad.isDown_of_lt hcode] at hpressed
  cases hpressed

theorem advance_passOver (m : Machine) (condition : Bool) :
    m.advance.passOver condition =
      { m with pc := if condition then m.pc + 4 else m.pc + 2 } := by
  have hpc : m.pc + 2 + 2 = m.pc + 4 := UInt16.add_assoc _ _ _
  cases condition with
  | false => rfl
  | true => simp [passOver, advance, hpc]

theorem Latched.step_of_skipIfPressed (h : Latched moves m) {a : UInt16} {x : Register}
    (hs : m.step.1 = .executed a (.skipIfPressed x)) :
    m.step.2 = { m with
      pc := if (m.v.get x).toNat ≤ 15 ∧ moves.lookup (m.v.get x) = some true
        then m.pc + 4 else m.pc + 2 } := by
  have hstep : m.step.2 = m.advance.passOver (m.keypad.isDown (m.v.get x)) := step_of_executed hs
  rw [hstep, advance_passOver]
  simp only [h.isDown_iff]

theorem Latched.step_of_skipUnlessPressed (h : Latched moves m) {a : UInt16} {x : Register}
    (hs : m.step.1 = .executed a (.skipUnlessPressed x)) :
    m.step.2 = { m with
      pc := if (m.v.get x).toNat ≤ 15 ∧ moves.lookup (m.v.get x) = some true
        then m.pc + 2 else m.pc + 4 } := by
  have hstep : m.step.2 = m.advance.passOver (!m.keypad.isDown (m.v.get x)) := step_of_executed hs
  have hnot : (!m.keypad.isDown (m.v.get x)) = true ↔ ¬m.keypad.isDown (m.v.get x) = true := by
    simp
  rw [hstep, advance_passOver]
  simp only [hnot, h.isDown_iff, ite_not]

/-! ### Moving a key -/

theorem call_input_of_lt (m : Machine) {code : UInt8} (h : 15 < code.toNat) (isDown : Bool) :
    m.call (.input code isDown) = (.refused (.noSuchKey code), m) := by
  have hnone : Key.ofCode? code = none := dif_neg (by omega)
  exact transition_iff.mp (.refused (by simp [Call.fault?, hnone]))

/-- A move of a key is accepted, whether or not the machine waits for a key, and the machine runs
after every press. -/
theorem call_input_of_le (m : Machine) {code : UInt8} (h : code.toNat ≤ 15) (isDown : Bool) :
    (m.call (.input code isDown)).1 = .done ∧
    (isDown = true → (m.call (.input code isDown)).2.mode = .running) ∧
    ∀ other, (m.call (.input code isDown)).2.keypad.isDown other =
      if other = code then isDown else m.keypad.isDown other := by
  have hsome : (Key.ofCode? code).isSome = true :=
    Key.ofCode?_isSome_iff.mpr (Nat.lt_succ_of_le h)
  have ht := m.call_transition (.input code isDown)
  generalize m.call (.input code isDown) = called at ht ⊢
  obtain ⟨r, m'⟩ := called
  cases ht with
  | refused hf =>
    obtain ⟨k, hk⟩ := Option.isSome_iff_exists.mp hsome
    simp [Call.fault?, hk] at hf
  | written hf hb => cases hb
  | moved hk hmode =>
    refine ⟨rfl, fun hpress => hmode.resolve_left (by simp [hpress]), fun other => ?_⟩
    rw [Keypad.isDown_set, Key.code_of_ofCode? hk]
  | resumed hk hm =>
    refine ⟨rfl, fun _ => rfl, fun other => ?_⟩
    show (m.keypad.set _ true).isDown other = _
    rw [Keypad.isDown_set, Key.code_of_ofCode? hk]

/-- **Keys are where they were moved last**, after any calls of the host. A key is down exactly if
the latest of its moves that has been accepted since the last reset was a press. No key has a code
above fifteen: such a code is never down, and a move of it is refused and changes nothing. All other
moves are accepted and put that one key where they say, also a press that the machine has been
waiting for. So an instruction that skips if the key in `Vx` is down skips exactly if there is such
a key and its latest move was a press, and one that skips unless it is down skips exactly if not. -/
theorem keys_are_last_moves (config : Config) (entropy : Random.Key) (calls : List Call) :
    let m := (new config entropy).after calls
    let last (code : UInt8) : Option Bool := ((new config entropy).keyMoves calls).lookup code
    (∀ code, (m.call (.ask (.isKeyDown code))).1 = .answered (.bool ((last code).getD false))) ∧
    (∀ code : UInt8, 15 < code.toNat →
      (m.call (.ask (.isKeyDown code))).1 = .answered (.bool false) ∧
      ∀ isDown, m.call (.input code isDown) = (.refused (.noSuchKey code), m)) ∧
    (∀ (code : UInt8) (isDown : Bool), code.toNat ≤ 15 →
      let called := m.call (.input code isDown)
      called.1 = .done ∧ (isDown = true → called.2.mode = .running) ∧
      ∀ other, called.2.keypad.isDown other =
        if other = code then isDown else m.keypad.isDown other) ∧
    (∀ a x, m.step.1 = .executed a (.skipIfPressed x) →
      m.step.2 = { m with
        pc := if (m.v.get x).toNat ≤ 15 ∧ last (m.v.get x) = some true
          then m.pc + 4 else m.pc + 2 }) ∧
    ∀ a x, m.step.1 = .executed a (.skipUnlessPressed x) →
      m.step.2 = { m with
        pc := if (m.v.get x).toNat ≤ 15 ∧ last (m.v.get x) = some true
          then m.pc + 2 else m.pc + 4 } := by
  intro m last
  have h : Latched _ m := latched_after config entropy calls
  have hask (code : UInt8) :
      (m.call (.ask (.isKeyDown code))).1 = .answered (.bool (m.keypad.isDown code)) := rfl
  refine ⟨fun code => ?_, fun code hcode => ⟨?_, m.call_input_of_lt hcode⟩,
    fun code isDown hcode => m.call_input_of_le hcode isDown, fun a x => h.step_of_skipIfPressed,
    fun a x => h.step_of_skipUnlessPressed⟩
  · rw [hask, h code]
  · rw [hask, m.keypad.isDown_of_lt hcode]

set_option maxRecDepth 20000 in
/-- Key 5 is let go, waited for and pressed, and a program skips because of it. A key is refused
meanwhile. -/
theorem pressed_while_waiting :
    let calls : List Call := [.load [0x61, 0x05, 0xF2, 0x0A, 0xE1, 0x9E], .step, .input 5 false,
      .step, .input 21 false, .input 5 true]
    let m := (new {} (Random.Key.ofSeed 0)).after calls
    m.step.1 = .executed 0x204 (.skipIfPressed 1) ∧ m.step.2 = { m with pc := m.pc + 4 } ∧
    (m.call (.ask (.isKeyDown 21))).1 = .answered (.bool false) := by
  intro calls m
  obtain ⟨hs, hx, hlast⟩ : m.step.1 = .executed 0x204 (.skipIfPressed 1) ∧ m.v.get 1 = 5 ∧
      (new {} (Random.Key.ofSeed 0)).keyMoves calls = [(5, true), (5, false)] := by
    decide +kernel
  obtain ⟨-, hcode, -, hskip, -⟩ := keys_are_last_moves {} (Random.Key.ofSeed 0) calls
  refine ⟨hs, ?_, (hcode 21 (by decide)).1⟩
  rw [hskip _ _ hs, hx, hlast]
  rfl

end ChipEight.Machine
