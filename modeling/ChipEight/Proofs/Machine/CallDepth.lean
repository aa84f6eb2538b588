import ChipEight.Proofs.Machine.Nesting

/-!
# ChipEight.Proofs.Machine.CallDepth

**Room for more calls makes no difference to a run that does not need it.** The number of calls that
a machine has been set up for is compared with the number of open calls when one more is opened, and
is used for nothing else. `Machine.withDepth` is the same machine set up for another number. As long
as no call fails for want of room, and always if the room is the same, it takes the same steps
(`Steps.withDepth`). So the two machines are heard to do the same, and they stay the same machine
but for that number (`Nests.run_withDepth`).
-/

namespace ChipEight

/-- What a machine is heard to reply that has been set up for `depth` calls, where the same machine
set up for another number replies `r`. Only the answer that tells how it is set up differs. -/
def Reply.withDepth (depth : Nat) : Reply → Reply
  | .answered (.config c) => .answered (.config { c with callDepth := depth })
  | r => r

namespace Machine

/-- The same machine, set up for `depth` calls. -/
def withDepth (m : Machine) (depth : Nat) : Machine :=
  { m with config.callDepth := depth, stack.limit := min depth ReturnStack.maxDepth }

variable {config : Config} {depth : Nat} {opened : List UInt16} {m m' : Machine}
  {i : Instruction Register} {o : Outcome} {c : Call} {r : Reply} {calls : List Call}

theorem switchedOn_withDepth (config : Config) (random : Random.Stream) (depth : Nat) :
    switchedOn { config with callDepth := depth } random =
      (switchedOn config random).withDepth depth := rfl

theorem new_withDepth (config : Config) (entropy : Random.Key) (depth : Nat) :
    new { config with callDepth := depth } entropy = (new config entropy).withDepth depth :=
  switchedOn_withDepth config _ depth

/-! ### Steps -/

/-- What stands in an instruction's way does so with more room for calls too, unless it is that
there is no more room. -/
theorem fault?_withDepth (hle : m.stack.limit ≤ min depth 16)
    (h : m.stack.limit = min depth 16 ∨ ∀ k, m.fault? i ≠ some (.tooManyCalls k)) :
    (m.withDepth depth).fault? i = m.fault? i := by
  cases i with
  | call nnn =>
    -- a stack that is not full has room with the greater limit too; a full one has the same limit
    cases hfull : m.stack.isFull with
    | false =>
      have hlt : ¬m.stack.limit ≤ m.stack.depth := by simpa [ReturnStack.isFull] using hfull
      have hfree : (m.withDepth depth).stack.isFull = false := by
        show decide (min depth 16 ≤ m.stack.depth) = false
        rw [decide_eq_false_iff_not]
        omega
      rw [fault?_call_eq_none_iff.mpr hfull, fault?_call_eq_none_iff.mpr hfree]
    | true =>
      have heq := h.resolve_right fun hroom => hroom m.stack.limit (if_pos hfull)
      have hstack : (m.withDepth depth).stack = m.stack := by
        rw [withDepth, ReturnStack.maxDepth, ← heq]
      rw [fault?, fault?, hstack]
  | _ => rfl

theorem perform_withDepth (m : Machine) (i : Instruction Register) (depth : Nat) :
    (m.withDepth depth).perform i = (m.perform i).withDepth depth := by
  cases i <;> rfl

theorem Steps.withDepth (hs : m.Steps o m') (hle : m.stack.limit ≤ min depth 16)
    (h : m.stack.limit = min depth 16 ∨ ∀ k, o ≠ .failed (.tooManyCalls k)) :
    (m.withDepth depth).Steps o (m'.withDepth depth) := by
  -- the word that is fetched does not depend on the stack, so only faults are to be compared
  cases hs with
  | suspended hm => exact .suspended hm
  | lost hm hw => exact .lost hm hw
  | unknown hm hw hd => exact .unknown (m := m.withDepth depth) hm hw hd
  | @stopped op i f hm hw hd hf =>
    have hroom : m.stack.limit = min depth 16 ∨
        ∀ k, m.advance.fault? i ≠ some (.tooManyCalls k) := by
      refine h.imp_right fun ho k hk => ho k ?_
      rw [Option.some.inj (hf.symm.trans hk)]
    exact .stopped (m := m.withDepth depth) hm hw hd
      ((fault?_withDepth (m := m.advance) hle hroom).trans hf)
  | @executed op i hm hw hd hf =>
    have hfree : ∀ k, m.advance.fault? i ≠ some (.tooManyCalls k) := by simp [hf]
    rw [← perform_withDepth]
    exact .executed (m := m.withDepth depth) hm hw hd
      ((fault?_withDepth (m := m.advance) hle (.inr hfree)).trans hf)

/-! ### Calls of the host -/

theorem answer_withDepth (m : Machine) (q : Query) (depth : Nat) :
    .answered ((m.withDepth depth).answer q) = (Reply.answered (m.answer q)).withDepth depth := by
  cases q with
  | byte address =>
    have hsame : (m.withDepth depth).answer (.byte address) = m.answer (.byte address) := rfl
    rw [hsame, answer]
    cases m.memory.byte address.toNat <;> rfl
  | word address =>
    have hsame : (m.withDepth depth).answer (.word address) = m.answer (.word address) := rfl
    rw [hsame, answer]
    cases m.memory.word address.toNat <;> rfl
  | _ => rfl

theorem Transition.withDepth (ht : m.Transition c r m') (hle : m.stack.limit ≤ min depth 16)
    (h : m.stack.limit = min depth 16 ∨ ∀ k, r ≠ .stepped (.failed (.tooManyCalls k))) :
    (m.withDepth depth).Transition c (r.withDepth depth) (m'.withDepth depth) := by
  cases ht with
  | reset => exact .reset
  | refused hf => exact .refused hf
  | written hf hb => exact .written hf hb
  | stepped hs =>
    refine .stepped (hs.withDepth hle (h.imp_right fun hr k ho => hr k ?_))
    rw [ho]
  | ticked => exact .ticked
  | moved hk hmode => exact .moved hk hmode
  | resumed hk hm => exact .resumed hk hm
  | refreshed => exact .refreshed
  | @answered q => exact answer_withDepth m q depth ▸ .answered

/-- A machine with as much room for calls as another, or more, goes through the same calls of the
host in the same way, if the room is the same or the other is never heard to want any. -/
theorem Nests.run_withDepth (hn : Nests config opened m)
    (hle : min config.callDepth 16 ≤ min depth 16)
    (h : min config.callDepth 16 = min depth 16 ∨
      ∀ k, .stepped (.failed (.tooManyCalls k)) ∉ m.replies calls) :
    (m.withDepth depth).replies calls = (m.replies calls).map (Reply.withDepth depth) ∧
      (m.withDepth depth).after calls = (m.after calls).withDepth depth := by
  induction calls generalizing m opened with
  | nil => exact ⟨rfl, rfl⟩
  | cons c cs ih =>
    -- the limit never changes, so the other calls find the machines related as the first one does
    have ht := m.call_transition c
    have hfirst : m.stack.limit = min depth 16 ∨
        ∀ k, (m.call c).1 ≠ .stepped (.failed (.tooManyCalls k)) := by
      rw [hn.limit_eq]
      exact h.imp_right fun hno k hr => hno k (hr ▸ List.mem_cons_self)
    have hrest := h.imp_right fun hno k hr => hno k (List.mem_cons_of_mem _ hr)
    have hcall := transition_iff.mp (ht.withDepth (hn.limit_eq ▸ hle) hfirst)
    obtain ⟨hreplies, hafter⟩ := ih (hn.transition ht) hrest
    constructor
    · rw [replies, hcall, hreplies, replies, List.map_cons]
    · rw [after_cons, hcall, hafter, after_cons]

/-- **Room for more calls makes no difference to a run that does not need it.** Let two new machines
be set up in the same way but for the calls that may be open, and let the same calls be made of
both. Suppose that one of them has no more room than the other and that none of its steps fails
because too many calls are open; or that both have been set up for sixteen calls at least. Then each
call is replied to in the same way, but for the answer that tells how a machine is set up; and after
each call both are the same machine, but for how many calls may be open. -/
theorem deeper_stack_unnoticed (config : Config) (depth : Nat) (entropy : Random.Key)
    (calls : List Call) :
    let m := new config entropy
    let n := new { config with callDepth := depth } entropy
    (config.callDepth ≤ depth ∧ ∀ k, .stepped (.failed (.tooManyCalls k)) ∉ m.replies calls) ∨
        (16 ≤ config.callDepth ∧ 16 ≤ depth) →
      n.replies calls = (m.replies calls).map (Reply.withDepth depth) ∧
      ∀ before, before <+: calls → n.after before = (m.after before).withDepth depth := by
  intro m n h
  have hn : Nests config [] m := nests_switchedOn config _
  have hle : min config.callDepth 16 ≤ min depth 16 := by omega
  have hroom : min config.callDepth 16 = min depth 16 ∨
      ∀ k, .stepped (.failed (.tooManyCalls k)) ∉ m.replies calls :=
    h.symm.imp (by omega) And.right
  have hnew : n = m.withDepth depth := new_withDepth config entropy depth
  rw [hnew]
  refine ⟨(hn.run_withDepth hle hroom).1, ?_⟩
  rintro before ⟨since, rfl⟩
  rw [replies_append] at hroom
  have hbefore := hroom.imp_right fun hno k hk => hno k (List.mem_append_left _ hk)
  exact (hn.run_withDepth hle hbefore).2

set_option maxRecDepth 20000 in
/-- A subroutine is called, and the return from it is followed by one too many; there is room for
one call, or for two. And a subroutine calls itself, for which there is room sixteen times, however
many times it is set up for. -/
theorem called_with_room_to_spare :
    let calls : List Call :=
      [.load [0x22, 0x04, 0x00, 0xEE, 0x00, 0xEE], .step, .step, .step, .ask .config]
    let n := new { callDepth := 2 } (Random.Key.ofSeed 0)
    n.replies calls =
        [.done, .stepped (.executed 0x200 (.call 0x204)), .stepped (.executed 0x204 .ret),
          .stepped (.failed .noOpenCall), .answered (.config { callDepth := 2 })] ∧
      n.after calls =
        ((new { callDepth := 1 } (Random.Key.ofSeed 0)).after calls).withDepth 2 ∧
    .stepped (.failed (.tooManyCalls 16)) ∈
      (new { callDepth := 1000000 } (Random.Key.ofSeed 0)).replies
        (.load [0x22, 0x00] :: List.replicate 17 .step) := by
  intro calls n
  have hreplies : (new { callDepth := 1 } (Random.Key.ofSeed 0)).replies calls =
      [.done, .stepped (.executed 0x200 (.call 0x204)), .stepped (.executed 0x204 .ret),
        .stepped (.failed .noOpenCall), .answered (.config { callDepth := 1 })] := by
    decide +kernel
  have hfull : .stepped (.failed (.tooManyCalls 16)) ∈
      (new {} (Random.Key.ofSeed 0)).replies (.load [0x22, 0x00] :: List.replicate 17 .step) := by
    decide +kernel
  obtain ⟨hn, hafter⟩ := deeper_stack_unnoticed { callDepth := 1 } 2 (Random.Key.ofSeed 0) calls
    (.inl ⟨by decide, by simp [hreplies]⟩)
  refine ⟨by rw [hn, hreplies]; rfl, hafter calls (List.prefix_refl _), ?_⟩
  rw [(deeper_stack_unnoticed {} 1000000 (Random.Key.ofSeed 0) _ (.inr (by decide))).1]
  exact List.mem_map_of_mem hfull

end Machine

end ChipEight
