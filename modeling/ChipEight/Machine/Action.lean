import ChipEight.Machine.Basic

/-!
# ChipEight.Machine.Action

What a machine does, step by step, on any substrate.

An action works on the machine that it is given. It may end early with a fault; what it has done to
the machine by then stays done.
-/

namespace ChipEight

/-- Something that a machine does on the substrate `M`. -/
def Action (M : Type → Type) (α : Type) : Type :=
  Machine → M (Except Fault α × Machine)

namespace Action

variable {M : Type → Type} [Monad M] {α β : Type}

instance : Monad (Action M) where
  pure a := fun m => pure (.ok a, m)
  bind x f := fun m => do
    match ← x m with
    | (.ok a, m') => f a m'
    | (.error fault, m') => pure (.error fault, m')

def machine : Action M Machine :=
  fun m => pure (.ok m, m)

def update (f : Machine → Machine) : Action M Unit :=
  fun m => pure (.ok (), f m)

def fail (fault : Fault) : Action M α :=
  fun m => pure (.error fault, m)

/-- Does something that does not touch the machine. -/
def lift (x : M α) : Action M α :=
  fun m => do return (.ok (← x), m)

/-- Goes on with what has been found, or ends with the fault that there was instead. -/
def ofExcept : Except Fault α → Action M α
  | .ok a => pure a
  | .error fault => fail fault

def rely [Substrate M] (condition : Prop) [Decidable condition] : Action M Unit :=
  lift (Substrate.rely condition)

/-! ### One thing after another -/

@[simp] theorem update_apply (f : Machine → Machine) (m : Machine) :
    (update f : Action M Unit) m = pure (.ok (), f m) := rfl

omit [Monad M] in
@[simp] theorem ite_apply {c : Prop} [Decidable c] (x y : Action M α) (m : Machine) :
    (if c then x else y) m = if c then x m else y m := by
  split <;> rfl

variable [LawfulMonad M]

/-- What comes after an action that has ended well. -/
theorem bind_of_ok {x : Action M α} {f : α → Action M β} {m m' : Machine} {a : α}
    (h : x m = pure (.ok a, m')) : (x >>= f) m = f a m' := by
  simp [bind, h]

/-- Nothing comes after a fault. -/
theorem bind_of_error {x : Action M α} {f : α → Action M β} {m m' : Machine} {fault : Fault}
    (h : x m = pure (.error fault, m')) : (x >>= f) m = pure (.error fault, m') := by
  simp [bind, h]

@[simp] theorem machine_bind (f : Machine → Action M β) (m : Machine) :
    (machine >>= f) m = f m m :=
  bind_of_ok rfl

@[simp] theorem update_bind (g : Machine → Machine) (f : Unit → Action M β) (m : Machine) :
    (update g >>= f) m = f () (g m) :=
  bind_of_ok rfl

theorem lift_apply {x : M α} {a : α} (h : x = pure a) (m : Machine) :
    lift x m = pure (.ok a, m) := by
  simp [lift, h]

theorem rely_apply [Substrate M] {c : Prop} [Decidable c] (h : Substrate.checks M = true → c)
    (m : Machine) : (rely c : Action M Unit) m = pure (.ok (), m) :=
  lift_apply (Substrate.rely_eq_pure h) m

end Action

end ChipEight
