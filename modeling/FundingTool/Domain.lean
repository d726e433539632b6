import Mathlib.Init

/-!
# Computations with an explicit domain

A computation that may fail is described by the condition under which it returns and the
value it then returns.  The rules compose such descriptions along the structure of a
program; an accumulator is described by what is required along its way (`Along`).
-/

namespace FundingTool

variable {ε ε' α β γ : Type}

theorem ok_bind (a : α) (f : α → Except ε β) : ((.ok a : Except ε α) >>= f) = f a := rfl

theorem bind_eq_ok {x : Except ε α} {f : α → Except ε β} {b : β} (h : (x >>= f) = .ok b) :
    ∃ a, x = .ok a ∧ f a = .ok b := by
  rcases x with e | a
  · cases h
  · exact ⟨a, rfl, h⟩

theorem mapError_eq_ok {f : ε → ε'} {x : Except ε α} {a : α} (h : x.mapError f = .ok a) :
    x = .ok a := by
  rcases x with e | b
  · cases h
  · exact congrArg Except.ok (Except.ok.inj h)

/-- Returns `a` exactly when `P` holds. -/
structure DefinedWhen (P : Prop) (a : α) (x : Except ε α) : Prop where
  returns : P → x = .ok a
  fails : ¬ P → ∃ e, x = .error e

/-- What is returned, or a default. -/
def valueOf [Inhabited α] : Except ε α → α
  | .ok a => a
  | .error _ => default

namespace DefinedWhen

variable {P Q : Prop} {a : α} {b : β}

theorem ok : DefinedWhen True a (.ok a : Except ε α) :=
  ⟨fun _ => rfl, fun h => absurd trivial h⟩

theorem of_ite [Decidable P] {x : Except ε α} {e : ε} (h : P → DefinedWhen Q a x) :
    DefinedWhen (P ∧ Q) a (if P then x else .error e) := by
  by_cases hP : P
  · rw [if_pos hP]
    exact ⟨fun hPQ => (h hP).returns hPQ.2, fun hPQ => (h hP).fails fun hQ => hPQ ⟨hP, hQ⟩⟩
  · rw [if_neg hP]
    exact ⟨fun hPQ => absurd hPQ.1 hP, fun _ => ⟨e, rfl⟩⟩

/-- **The sequencing rule.** -/
theorem bind {x : Except ε α} {f : α → Except ε β} (h : DefinedWhen P a x)
    (hrest : P → DefinedWhen Q b (f a)) : DefinedWhen (P ∧ Q) b (x >>= f) := by
  by_cases hP : P
  · rw [h.returns hP]
    exact ⟨fun hPQ => (hrest hP).returns hPQ.2,
      fun hPQ => (hrest hP).fails fun hQ => hPQ ⟨hP, hQ⟩⟩
  · obtain ⟨e, he⟩ := h.fails hP
    rw [he]
    exact ⟨fun hPQ => absurd hPQ.1 hP, fun _ => ⟨e, rfl⟩⟩

/-- The condition may be put differently, and so may the value where it holds. -/
theorem congr {x : Except ε α} {a' : α} (h : DefinedWhen P a x) (hPQ : Q ↔ P)
    (ha : P → a = a') : DefinedWhen Q a' x := by
  constructor
  · intro hQ
    rw [h.returns (hPQ.mp hQ), ha (hPQ.mp hQ)]
  · exact fun hQ => h.fails fun hP => hQ (hPQ.mpr hP)

/-- **The rule for a list.** -/
theorem mapM {f : α → Except ε β} {g : α → β} {R : α → Prop} {xs : List α}
    (h : ∀ x ∈ xs, DefinedWhen (R x) (g x) (f x)) :
    DefinedWhen (∀ x ∈ xs, R x) (xs.map g) (xs.mapM f) := by
  induction xs with
  | nil => exact ok.congr (by simp) fun _ => rfl
  | cons x rest ih =>
      rw [List.mapM_cons]
      have hrest := ih fun y hy => h y (List.mem_cons_of_mem _ hy)
      refine congr ((h x List.mem_cons_self).bind fun _ => hrest.bind fun _ => ok) ?_ fun _ => rfl
      simp

end DefinedWhen

/-- What an accumulator meets on its way satisfies `R`. -/
def Along (R : γ → α → Prop) (g : γ → α → γ) : γ → List α → Prop
  | _, [] => True
  | c, x :: xs => R c x ∧ Along R g (g c x) xs

/-- **The rule for an accumulator.** -/
theorem DefinedWhen.foldlM {f : γ → α → Except ε γ} {g : γ → α → γ} {R : γ → α → Prop}
    {xs : List α} (h : ∀ c, ∀ x ∈ xs, DefinedWhen (R c x) (g c x) (f c x)) (c : γ) :
    DefinedWhen (Along R g c xs) (xs.foldl g c) (xs.foldlM f c) := by
  induction xs generalizing c with
  | nil => exact ok
  | cons x rest ih =>
      rw [List.foldlM_cons]
      exact (h c x List.mem_cons_self).bind
        fun _ => ih (fun d y hy => h d y (List.mem_cons_of_mem _ hy)) _

end FundingTool
