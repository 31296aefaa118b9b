import Mathlib.Data.List.Forall2

/-!
# Computations that may fail

What the parts of a computation in steps came to, given what the whole came to.
-/

namespace Flowline

variable {ε α β : Type} {x : Except ε α} {b : β} {e : ε}

theorem map_eq_ok {f : α → β} (h : x.map f = .ok b) : ∃ a, x = .ok a ∧ f a = b := by
  cases x with
  | error e => cases h
  | ok a =>
      cases h
      exact ⟨a, rfl, rfl⟩

theorem map_eq_error_iff {f : α → β} : x.map f = .error e ↔ x = .error e := by
  cases x <;> simp [Except.map]

theorem bind_eq_ok {f : α → Except ε β} (h : x.bind f = .ok b) : ∃ a, x = .ok a ∧ f a = .ok b := by
  cases x with
  | error e => cases h
  | ok a => exact ⟨a, rfl, h⟩

theorem mapM_eq_ok_iff {f : α → Except ε β} {as : List α} {bs : List β} :
    as.mapM f = .ok bs ↔ List.Forall₂ (fun a b => f a = .ok b) as bs := by
  induction as generalizing bs with
  | nil => cases bs <;> simp [pure, Except.pure]
  | cons a rest ih =>
      rw [List.mapM_cons]
      cases first : f a with
      | error e => cases bs <;> simp [first, bind, Except.bind]
      | ok b =>
          cases later : rest.mapM f with
          | error e => cases bs <;> simp [first, ← ih, later, bind, Except.bind]
          | ok others =>
              cases bs <;> simp [first, ← ih, later, bind, Except.bind, pure, Except.pure]

theorem eq_ok_of_toOption {a : α} (some : x.toOption = some a) : x = .ok a := by
  cases x with
  | error e => cases some
  | ok b => exact congrArg Except.ok (Option.some.inj some)

end Flowline
