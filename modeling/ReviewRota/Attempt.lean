import ReviewRota.Error

/-!
# ReviewRota.Attempt

Attempts: computations on a state that may fail.  A failed attempt still
answers a state, since what it did before it failed is not undone by
itself; undoing is what transactions and savepoints are for.
-/

namespace ReviewRota

/-- A computation on a state that answers a value or an error, and the
state afterwards. -/
def Attempt (σ α : Type) : Type := σ → Except Error α × σ

namespace Attempt

variable {σ α β : Type}

/-- Goes on with the value of an attempt that succeeds. -/
def andThen (a : Attempt σ α) (next : α → Attempt σ β) : Attempt σ β := fun s =>
  match a s with
  | (.ok value, s) => next value s
  | (.error e, s) => (.error e, s)

instance : Monad (Attempt σ) where
  pure value := fun s => (.ok value, s)
  bind := andThen

/-- The attempt that fails at once. -/
def fail (e : Error) : Attempt σ α := fun s => (.error e, s)

/-- The attempt that answers what is known already. -/
def ofExcept (result : Except Error α) : Attempt σ α := fun s => (result, s)

/-- The value, or the error if there is none. -/
def orFail (value : Option α) (e : Error) : Attempt σ α :=
  match value with
  | some a => pure a
  | none => fail e

/-- The attempt with its result, good or bad, as its value. -/
def result (a : Attempt σ α) : Attempt σ (Except Error α) := fun s =>
  let (r, s) := a s
  (.ok r, s)

/-! ## Laws -/

theorem pure_run (value : α) (s : σ) : (pure value : Attempt σ α) s = (.ok value, s) := rfl

theorem bind_run (a : Attempt σ α) (next : α → Attempt σ β) (s : σ) :
    (a >>= next) s =
      match a s with
      | (.ok value, s) => next value s
      | (.error e, s) => (.error e, s) := rfl

/-- Of two attempts that succeed in a row, each succeeds. -/
theorem exists_of_bind_run {a : Attempt σ α} {next : α → Attempt σ β} {b : β} {s last : σ}
    (h : (a >>= next) s = (.ok b, last)) :
    ∃ value middle, a s = (.ok value, middle) ∧ next value middle = (.ok b, last) := by
  rw [bind_run] at h
  rcases hrun : a s with ⟨_ | value, middle⟩
  · rw [hrun] at h
    cases congrArg Prod.fst h
  · rw [hrun] at h
    exact ⟨value, middle, rfl, h⟩

private theorem andThen_pure (a : Attempt σ α) : a.andThen pure = a := by
  funext s
  unfold andThen
  rcases a s with ⟨_ | _, _⟩ <;> rfl

private theorem andThen_andThen {γ : Type} (a : Attempt σ α) (f : α → Attempt σ β)
    (g : β → Attempt σ γ) : (a.andThen f).andThen g = a.andThen fun x => (f x).andThen g := by
  funext s
  unfold andThen
  rcases a s with ⟨_ | _, _⟩ <;> rfl

instance : LawfulMonad (Attempt σ) :=
  LawfulMonad.mk' (Attempt σ) andThen_pure (fun _ _ => rfl) andThen_andThen

end Attempt

end ReviewRota
