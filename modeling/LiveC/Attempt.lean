import LiveC.Failure
/-!
# Attempts

An `Attempt S α` works on a state and gives a value or a `Failure`. What it did to the state before
it failed stays done. `Attempt.capture` makes a failure a value, and `Attempt.onSecond` runs an
attempt on the second part of a pair of states.
-/

namespace LiveC

theorem Except.map_map {ε α β γ : Type} (f : α → β) (g : β → γ) (x : Except ε α) :
    (x.map f).map g = x.map fun a => g (f a) := by cases x <;> rfl

theorem Except.exists_of_map_eq_ok {ε α β : Type} {f : α → β} {x : Except ε α} {b : β}
    (h : x.map f = .ok b) : ∃ a, x = .ok a ∧ f a = b := by
  cases x with
  | error e => exact absurd h (by simp [Except.map])
  | ok a => exact ⟨a, rfl, Except.ok.inj h⟩

/-- A computation on a state that gives a value or a failure, and the state it leaves. -/
def Attempt (S α : Type) : Type := S → Except Failure α × S

namespace Attempt

variable {S T α β : Type}

/-- Give a value and leave the state alone. -/
def give (a : α) : Attempt S α := fun s => (.ok a, s)

/-- Go on with the value of an attempt, unless it failed. -/
def next (x : Attempt S α) (f : α → Attempt S β) : Attempt S β := fun s =>
  match x s with
  | (.ok a, s) => f a s
  | (.error e, s) => (.error e, s)

instance : Monad (Attempt S) where
  pure := give
  bind := next

@[simp] theorem pure_apply (a : α) (s : S) : (pure a : Attempt S α) s = (.ok a, s) := rfl

theorem bind_apply (x : Attempt S α) (f : α → Attempt S β) (s : S) :
    (x >>= f) s = match x s with
      | (.ok a, s) => f a s
      | (.error e, s) => (.error e, s) := rfl

theorem bind_of_ok {x : Attempt S α} {s s' : S} {a : α} (h : x s = (.ok a, s'))
    (f : α → Attempt S β) : (x >>= f) s = f a s' := by
  rw [bind_apply, h]

theorem bind_of_error {x : Attempt S α} {s s' : S} {e : Failure} (h : x s = (.error e, s'))
    (f : α → Attempt S β) : (x >>= f) s = (.error e, s') := by
  rw [bind_apply, h]

theorem bind_eq_ok {x : Attempt S α} {f : α → Attempt S β} {s s'' : S} {b : β}
    (h : (x >>= f) s = (.ok b, s'')) : ∃ a s', x s = (.ok a, s') ∧ f a s' = (.ok b, s'') := by
  rcases hx : x s with ⟨_ | a, s'⟩
  · rw [bind_of_error hx] at h
    simp at h
  · rw [bind_of_ok hx] at h
    exact ⟨a, s', rfl, h⟩

theorem bind_assoc {γ : Type} (x : Attempt S α) (f : α → Attempt S β)
    (g : β → Attempt S γ) : ((x >>= f) >>= g) = x >>= fun a => f a >>= g := by
  funext s
  rcases h : x s with ⟨e | a, s'⟩
  · rw [bind_of_error (bind_of_error h f), bind_of_error h]
  · rw [bind_of_ok h, bind_apply, bind_of_ok h, bind_apply]

/-- A value that is only changed at the end. -/
theorem bind_pure_apply (x : Attempt S α) (g : α → β) (s : S) :
    (x >>= fun a => pure (g a)) s = ((x s).1.map g, (x s).2) := by
  rcases h : x s with ⟨e | a, s'⟩
  · rw [bind_of_error h]
    rfl
  · rw [bind_of_ok h]
    rfl

/-- Fail. -/
def fail (e : Failure) : Attempt S α := fun s => (.error e, s)

/-- The value or the failure of something that does not touch the state. -/
def ofExcept (x : Except Failure α) : Attempt S α := fun s => (x, s)

/-- The state. -/
def state : Attempt S S := fun s => (.ok s, s)

/-- Change the state. -/
def change (f : S → S) : Attempt S Unit := fun s => (.ok (), f s)

/-- Take a value out of the state. -/
def take (f : S → α × S) : Attempt S α := fun s =>
  let (a, s) := f s
  (.ok a, s)

/-- The value or the failure of an attempt, as a value. -/
def capture (x : Attempt S α) : Attempt S (Except Failure α) := fun s =>
  let (r, s) := x s
  (.ok r, s)

/-- An attempt on the second part of a pair of states. -/
def onSecond (x : Attempt S α) : Attempt (T × S) α := fun (t, s) =>
  let (r, s) := x s
  (r, (t, s))

/-- Do something after an attempt, whether or not it failed. -/
def andThenAlways (x : Attempt S α) (y : Attempt S Unit) : Attempt S α := fun s =>
  let (r, s) := x s
  (r, (y s).2)

/-- One attempt for every element of a list, in order, until one fails. -/
def each : List α → (α → Attempt S Unit) → Attempt S Unit
  | [], _ => pure ()
  | a :: as, f => do
    f a
    each as f

/-- One attempt for every element of a list, in order, until one fails; how many said yes. -/
def count : List α → (α → Attempt S Bool) → Attempt S Nat
  | [], _ => pure 0
  | a :: as, f => do
    let yes ← f a
    let n ← count as f
    return if yes then n + 1 else n

/-- Counting is going through the list. -/
theorem count_bind_pure (l : List α) (f : α → Attempt S Bool) :
    (count l f >>= fun _ => pure ()) = each l fun a => f a >>= fun _ => pure () := by
  induction l with
  | nil => rfl
  | cons a l ih =>
    rw [count, each, bind_assoc, bind_assoc]
    refine congrArg (f a >>= ·) (funext fun yes => ?_)
    rw [bind_assoc]
    exact ih

end Attempt

end LiveC
