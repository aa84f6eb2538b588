/-!
# ChipEight.Substrate

What machines run on.

Code relies on conditions that it does not test: that an index is one of a bank's, that a sum fits
into its word. A *substrate* says what becomes of such a condition. `Id` takes it on trust, and
that is what machines run on. `Option` checks it, and code that relies on a condition that does not
hold comes to nothing. Since code is written once for all substrates, a run on `Option` that comes
to something is the run on `Id`, and in it everything that was relied on held.
-/

namespace ChipEight

/-- What becomes of the conditions that code relies on. -/
class Substrate (M : Type → Type) [Monad M] where
  /-- Whether conditions are checked. -/
  checks : Bool
  /-- Relies on a condition. -/
  rely (condition : Prop) [Decidable condition] : M Unit
  /-- A condition that holds makes no difference, nor does one that is not checked. -/
  rely_eq_pure : ∀ {c : Prop} [Decidable c], (checks = true → c) → rely c = pure ()

/-- Conditions are taken on trust. -/
instance : Substrate Id where
  checks := false
  rely _ _ := pure ()
  rely_eq_pure _ := rfl

/-- Conditions are checked. -/
instance : Substrate Option where
  checks := true
  rely c _ := if c then some () else none
  rely_eq_pure h := if_pos (h rfl)

namespace Substrate

@[simp] theorem checks_id : checks Id = false := rfl

@[simp] theorem checks_option : checks Option = true := rfl

/-- Code goes on after a condition that holds, or that is not checked. -/
theorem rely_bind {M : Type → Type} [Monad M] [LawfulMonad M] [Substrate M] {α : Type}
    {c : Prop} [Decidable c] (h : checks M = true → c) (x : Unit → M α) :
    (rely c >>= x) = x () := by
  rw [rely_eq_pure h, pure_bind]

/-- The number of sizes and indices that there are: they are words of 64 bits. -/
def sizeCount : Nat := 0x10000000000000000

end Substrate

end ChipEight
