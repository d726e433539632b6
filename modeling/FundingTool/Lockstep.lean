import Mathlib.Data.List.Forall2

/-!
# Computations in lockstep

Two computations that may fail go in lockstep when both fail with the same error, or
both return and their results are related.  The rules below follow the structure of a
computation, so that two readings of one program text are compared operation by
operation.
-/

namespace FundingTool

variable {ε α β γ δ : Type}

/-- Both fail with the same error, or both return results related by `R`. -/
def Lockstep (R : α → β → Prop) : Except ε α → Except ε β → Prop
  | .ok a, .ok b => R a b
  | .error e, .error e' => e = e'
  | _, _ => False

namespace Lockstep

variable {R R' : α → β → Prop} {S : γ → δ → Prop}

theorem ok {a : α} {b : β} (h : R a b) :
    Lockstep R (.ok a : Except ε α) (.ok b : Except ε β) := h

theorem error {e : ε} : Lockstep R (.error e : Except ε α) (.error e) := rfl

theorem mono (himp : ∀ a b, R a b → R' a b) {x : Except ε α} {y : Except ε β}
    (h : Lockstep R x y) : Lockstep R' x y := by
  cases x <;> cases y
  case ok.ok a b => exact himp a b h
  all_goals exact h

/-- **The sequencing rule.** -/
theorem bind {x : Except ε α} {y : Except ε β} {f : α → Except ε γ} {g : β → Except ε δ}
    (h : Lockstep R x y) (hrest : ∀ a b, R a b → Lockstep S (f a) (g b)) :
    Lockstep S (x >>= f) (y >>= g) := by
  cases x <;> cases y
  case ok.ok a b => exact hrest a b h
  case error.error e e' => exact h
  all_goals cases h

theorem mapError {ε' : Type} (f : ε → ε') {x : Except ε α} {y : Except ε β}
    (h : Lockstep R x y) : Lockstep R (x.mapError f) (y.mapError f) := by
  cases x <;> cases y
  case ok.ok a b => exact h
  case error.error e e' => exact congrArg f h
  all_goals cases h

theorem map {f : α → γ} {g : β → δ} {x : Except ε α} {y : Except ε β} (h : Lockstep R x y)
    (himp : ∀ a b, R a b → S (f a) (g b)) : Lockstep S (x.map f) (y.map g) := by
  cases x <;> cases y
  case ok.ok a b => exact himp a b h
  all_goals exact h

/-- **The rule for a list**: elements in relation are treated in lockstep. -/
theorem mapM {f : α → Except ε γ} {g : β → Except ε δ}
    (hstep : ∀ a b, R a b → Lockstep S (f a) (g b)) {xs : List α} {ys : List β}
    (h : List.Forall₂ R xs ys) : Lockstep (List.Forall₂ S) (xs.mapM f) (ys.mapM g) := by
  induction h with
  | nil => exact .nil
  | cons hab _ ih =>
      rw [List.mapM_cons, List.mapM_cons]
      apply bind (hstep _ _ hab)
      intro c d hcd
      apply bind ih
      intro cs ds hcds
      exact List.Forall₂.cons hcd hcds

/-- **The rule for an accumulator** that starts and stays in relation. -/
theorem foldlM {f : γ → α → Except ε γ} {g : δ → β → Except ε δ}
    (hstep : ∀ c d a b, S c d → R a b → Lockstep S (f c a) (g d b)) {xs : List α} {ys : List β}
    (h : List.Forall₂ R xs ys) {c : γ} {d : δ} (hstart : S c d) :
    Lockstep S (xs.foldlM f c) (ys.foldlM g d) := by
  induction h generalizing c d with
  | nil => exact hstart
  | cons hab _ ih =>
      rw [List.foldlM_cons, List.foldlM_cons]
      apply bind (hstep _ _ _ _ hstart hab)
      intro c' d' hcd
      exact ih hcd

theorem of_eq {x y : Except ε α} (h : y = x) : Lockstep (fun a b => b = a) x y := by
  subst h
  rcases y with e | a
  · exact error
  · exact ok rfl

theorem of_map {f : α → β} {x : Except ε α} {y : Except ε β} (h : y = x.map f) :
    Lockstep (fun a b => b = f a) x y := by
  subst h
  rcases x with e | a
  · exact error
  · exact ok rfl

/-- In lockstep along a function: one computation is the other with its result mapped. -/
theorem eq_map {f : α → β} {x : Except ε α} {y : Except ε β}
    (h : Lockstep (fun a b => b = f a) x y) : y = x.map f := by
  cases x <;> cases y
  case ok.ok a b => exact congrArg Except.ok h
  case error.error e e' => exact congrArg Except.error h.symm
  all_goals cases h

end Lockstep

end FundingTool
