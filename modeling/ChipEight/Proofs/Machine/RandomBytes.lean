import ChipEight.Proofs.Machine.Parts
import ChipEight.Proofs.Machine.Trace

/-!
# ChipEight.Proofs.Machine.RandomBytes

**Where random bytes come from.** A machine has drawn as many words from its stream as it has
executed random instructions, over its whole life: a reset makes all else anew but goes on with the
stream, a byte that is masked away counts like any other, and nothing else draws a word
(`random_after`). That is so whatever the words are (`words_in_order`). Those of a new machine are
the words of its key, and so the byte that the next random instruction gets is known from the seed
and from what the host has heard.
-/

namespace ChipEight

/-- Whether the reply is to a step that has executed a random instruction. -/
def Reply.tellsRandom : Reply → Bool
  | .stepped (.executed _ (.random _ _)) => true
  | _ => false

namespace Machine

variable {m m' : Machine} {c : Call} {r : Reply}

theorem random_switchedOn (config : Config) (random : Random.Stream) :
    (switchedOn config random).random = random := rfl

theorem config_switchedOn (config : Config) (random : Random.Stream) :
    (switchedOn config random).config = config := rfl

theorem call_reset (m : Machine) : m.call .reset = (.done, switchedOn m.config m.random) :=
  transition_iff.mp .reset

/-- A call draws a word if it has executed a random instruction, and otherwise none. -/
theorem random_of_transition (ht : m.Transition c r m') :
    m'.random = if r.tellsRandom then m.random.next else m.random := by
  cases ht with
  | reset => exact random_switchedOn m.config m.random
  | stepped hs =>
    cases hs with
    | @executed op i hm hw hd hf => cases i <;> rfl
    | _ => rfl
  | _ => rfl

/-- As many words have been drawn as random instructions have been executed. -/
theorem random_after (m : Machine) (calls : List Call) :
    (m.after calls).random = { m.random with
      drawn := m.random.drawn + (m.replies calls).countP Reply.tellsRandom } := by
  induction calls generalizing m with
  | nil => rfl
  | cons c cs ih =>
    rw [after_cons, ih, random_of_transition (m.call_transition c), replies, List.countP_cons]
    cases (m.call c).1.tellsRandom with
    | false => rfl
    | true =>
      simp only [if_true, Random.Stream.next, Random.Stream.mk.injEq, true_and]
      omega

theorem step_of_random {a : UInt16} {x : Register} {kk : UInt8}
    (h : m.step.1 = .executed a (.random x kk)) :
    m.step.2 = { m with
      pc := m.pc + 2, v := m.v.set x (m.random.byte &&& kk) x.isLt, random := m.random.next } := by
  rw [step_of_executed h]
  rfl

theorem config_of_transition (ht : m.Transition c r m') : m'.config = m.config := by
  cases ht with
  | reset => exact config_switchedOn m.config m.random
  | stepped hs => exact config_of_steps hs
  | _ => rfl

theorem config_after (m : Machine) (calls : List Call) : (m.after calls).config = m.config := by
  refine after_induction (P := fun n => n.config = m.config) (fun n c r n' ht h => ?_) rfl calls
  exact (config_of_transition ht).trans h

/-- Words are drawn in order, whatever they are. The next random instruction gets the first one that
has not been drawn, and a reset leaves a machine from whose stream as many have been drawn. -/
theorem words_in_order (m : Machine) (calls : List Call) :
    let n := m.after calls
    let k := m.random.drawn + (m.replies calls).countP Reply.tellsRandom
    n.random = ⟨m.random.word, k⟩ ∧
    (∀ a x kk, n.step.1 = .executed a (.random x kk) →
      n.step.2 = { n with
        pc := n.pc + 2, v := n.v.set x ((m.random.word k).toUInt8 &&& kk) x.isLt,
        random := ⟨m.random.word, k + 1⟩ }) ∧
    (n.call .reset).2 = switchedOn m.config ⟨m.random.word, k⟩ := by
  intro n k
  have hrandom : n.random = ⟨m.random.word, k⟩ := random_after m calls
  refine ⟨hrandom, fun a x kk hs => ?_, ?_⟩
  · rw [step_of_random hs, hrandom]
    rfl
  · rw [call_reset, hrandom, config_after]

/-- **Random bytes come in order.** Say that a machine has executed `k` random instructions in the
course of any calls. Then the next one that it executes puts the low byte of word `k` of its stream
into the register, masked, and leaves word `k + 1` for the one after. No other call draws a word.
And if the machine is reset, it is a new machine from whose stream `k` words have been drawn:
whatever is called then is answered alike. -/
theorem random_bytes_in_order (config : Config) (entropy : Random.Key) (calls : List Call) :
    let word := Random.word (config.seed.elim entropy Random.Key.ofSeed)
    let m := (new config entropy).after calls
    let k := ((new config entropy).replies calls).countP Reply.tellsRandom
    let fresh := { new config entropy with
      random := Nat.repeat Random.Stream.next k (new config entropy).random }
    m.random = ⟨word, k⟩ ∧
    (∀ a x kk, m.step.1 = .executed a (.random x kk) →
      m.step.2 = { m with
        pc := m.pc + 2, v := m.v.set x ((word k).toUInt8 &&& kk) x.isLt,
        random := ⟨word, k + 1⟩ }) ∧
    (∀ c, (m.call c).1.tellsRandom = false → (m.call c).2.random = m.random) ∧
    (m.call .reset).2 = fresh ∧
    ∀ more, (m.call .reset).2.replies more = fresh.replies more := by
  intro word m k fresh
  have hk : (new config entropy).random.drawn + k = k := Nat.zero_add k
  obtain ⟨hrandom, hstep, hreset⟩ := words_in_order (new config entropy) calls
  rw [hk] at hrandom hstep hreset
  have hfresh : (m.call .reset).2 = fresh := by
    unfold fresh
    rw [hreset, Random.Stream.repeat_next, hk]
    rfl
  refine ⟨hrandom, hstep, fun c hc => ?_, hfresh, fun more => by rw [hfresh]⟩
  rw [random_of_transition (m.call_transition c), if_neg (by simp [hc])]

set_option maxRecDepth 20000 in
/-- The second byte of a machine that has masked away its first one before it has been reset. -/
theorem second_byte_after_reset :
    let calls : List Call := [.load [0xC0, 0x00], .step, .step, .reset, .load [0xC1, 0x0F]]
    let m := (new { seed := some 7 } (Random.Key.ofSeed 0)).after calls
    m.step.1 = .executed 0x200 (.random 1 0x0F) ∧
    m.step.2 = { m with
      pc := m.pc + 2, v := m.v.set 1 ((Random.word (Random.Key.ofSeed 7) 1).toUInt8 &&& 0x0F),
      random := ⟨Random.word (Random.Key.ofSeed 7), 2⟩ } := by
  intro calls m
  obtain ⟨hs, hk⟩ : m.step.1 = .executed 0x200 (.random 1 0x0F) ∧
      ((new { seed := some 7 } (Random.Key.ofSeed 0)).replies calls).countP
        Reply.tellsRandom = 1 := by
    decide +kernel
  have h := (random_bytes_in_order { seed := some 7 } (Random.Key.ofSeed 0) calls).2.1 _ _ _ hs
  rw [hk] at h
  exact ⟨hs, h⟩

end Machine

end ChipEight
