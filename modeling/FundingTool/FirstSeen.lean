import Mathlib.Data.List.Nodup
import Mathlib.Data.List.Sort

/-!
# First occurrences

A list is read once, and an element is kept when its key has not been seen.  What is kept
are the first occurrences (`find_of_mem_firstSeen`) in the order of the list, and elements
whose key has been seen may be inserted anywhere without effect (`Repeating.firstSeen_eq`).
A stable sort afterwards orders by the sort key first and by occurrence second.
-/

namespace FundingTool.FirstSeen

variable {α κ : Type} [DecidableEq κ] (key : α → κ)

/-! ## 1. Keeping what is first seen -/

def firstSeen : List κ → List α → List α
  | _, [] => []
  | seen, x :: xs =>
      if key x ∈ seen then firstSeen seen xs else x :: firstSeen (key x :: seen) xs

variable {key} {seen : List κ} {xs : List α} {x : α} {k : κ}

theorem mem_keys_firstSeen :
    k ∈ (firstSeen key seen xs).map key ↔ k ∈ xs.map key ∧ k ∉ seen := by
  induction xs generalizing seen with
  | nil => simp [firstSeen]
  | cons x xs ih =>
      rw [firstSeen]
      by_cases hseen : key x ∈ seen
      · rw [if_pos hseen, ih, List.map_cons, List.mem_cons]
        constructor
        · exact fun h => ⟨Or.inr h.1, h.2⟩
        · rintro ⟨rfl | h, hk⟩
          · exact absurd hseen hk
          · exact ⟨h, hk⟩
      · rw [if_neg hseen, List.map_cons, List.mem_cons, ih, List.map_cons, List.mem_cons,
          List.mem_cons]
        constructor
        · rintro (rfl | ⟨h, hk⟩)
          · exact ⟨Or.inl rfl, hseen⟩
          · exact ⟨Or.inr h, fun hmem => hk (Or.inr hmem)⟩
        · rintro ⟨h, hk⟩
          by_cases heq : k = key x
          · exact Or.inl heq
          · exact Or.inr ⟨h.resolve_left heq, fun hmem => hk (hmem.resolve_left heq)⟩

theorem firstSeen_nodup (seen : List κ) (xs : List α) :
    ((firstSeen key seen xs).map key).Nodup := by
  induction xs generalizing seen with
  | nil => exact List.nodup_nil
  | cons x xs ih =>
      rw [firstSeen]
      split
      · exact ih seen
      · rw [List.map_cons, List.nodup_cons]
        exact ⟨fun hmem => (mem_keys_firstSeen.mp hmem).2 List.mem_cons_self, ih _⟩

theorem find_of_mem_firstSeen (h : x ∈ firstSeen key seen xs) :
    xs.find? (fun y => decide (key y = key x)) = some x := by
  induction xs generalizing seen with
  | nil => cases h
  | cons y ys ih =>
      rw [firstSeen] at h
      by_cases hseen : key y ∈ seen
      · rw [if_pos hseen] at h
        have hne : key y ≠ key x := by
          intro heq
          rw [heq] at hseen
          exact (mem_keys_firstSeen.mp (List.mem_map_of_mem h)).2 hseen
        rw [List.find?_cons_of_neg (by simp [hne]), ih h]
      · rw [if_neg hseen] at h
        rcases List.mem_cons.mp h with rfl | h
        · exact List.find?_cons_of_pos (by simp)
        · have hne : key y ≠ key x := fun heq =>
            (mem_keys_firstSeen.mp (List.mem_map_of_mem h)).2 (heq ▸ List.mem_cons_self)
          rw [List.find?_cons_of_neg (by simp [hne]), ih h]

variable (key) in
/-- Where the key of `x` occurs first. -/
def occurrence (xs : List α) (x : α) : Nat := xs.findIdx fun y => decide (key y = key x)

theorem occurrence_cons_self (x : α) (xs : List α) : occurrence key (x :: xs) x = 0 := by
  simp [occurrence, List.findIdx_cons]

theorem occurrence_cons_ne {y : α} (h : key x ≠ key y) :
    occurrence key (x :: xs) y = occurrence key xs y + 1 := by
  simp [occurrence, List.findIdx_cons, h]

theorem firstSeen_pairwise (seen : List κ) (xs : List α) :
    (firstSeen key seen xs).Pairwise fun x y => occurrence key xs x < occurrence key xs y := by
  induction xs generalizing seen with
  | nil => exact List.Pairwise.nil
  | cons x xs ih =>
      have hunseen : ∀ {seen' : List κ} {y : α}, key x ∈ seen' → y ∈ firstSeen key seen' xs →
          key x ≠ key y := by
        intro seen' y hx hy heq
        exact (mem_keys_firstSeen.mp (List.mem_map_of_mem hy)).2 (heq ▸ hx)
      have hlater : ∀ {seen' : List κ}, key x ∈ seen' → (firstSeen key seen' xs).Pairwise
          fun y z => occurrence key (x :: xs) y < occurrence key (x :: xs) z := by
        intro seen' hx
        refine (ih seen').imp_of_mem fun hy hz hlt => ?_
        rw [occurrence_cons_ne (hunseen hx hy), occurrence_cons_ne (hunseen hx hz)]
        exact Nat.succ_lt_succ hlt
      rw [firstSeen]
      by_cases hseen : key x ∈ seen
      · rw [if_pos hseen]
        exact hlater hseen
      · rw [if_neg hseen, List.pairwise_cons]
        refine ⟨fun y hy => ?_, hlater List.mem_cons_self⟩
        rw [occurrence_cons_self, occurrence_cons_ne (hunseen List.mem_cons_self hy)]
        exact Nat.succ_pos _

/-! ## 2. Repetitions -/

/-- The second list is the first with elements inserted whose keys have been seen. -/
inductive Repeating (key : α → κ) : List κ → List α → List α → Prop
  | nil {seen : List κ} : Repeating key seen [] []
  | keep {seen : List κ} {xs ys : List α} {x : α} : Repeating key (key x :: seen) xs ys →
      Repeating key seen (x :: xs) (x :: ys)
  | again {seen : List κ} {xs ys : List α} {x : α} : key x ∈ seen → Repeating key seen xs ys →
      Repeating key seen xs (x :: ys)

/-- **Repetitions have no effect.** -/
theorem Repeating.firstSeen_eq {ys : List α} {seen' : List κ} (h : Repeating key seen xs ys)
    (hsub : ∀ k ∈ seen, k ∈ seen') : firstSeen key seen' ys = firstSeen key seen' xs := by
  induction h generalizing seen' with
  | nil => rfl
  | @keep seen xs ys x _ ih =>
      rw [firstSeen, firstSeen]
      by_cases hseen : key x ∈ seen'
      · rw [if_pos hseen, if_pos hseen]
        refine ih fun k hk => ?_
        rcases List.mem_cons.mp hk with rfl | hk
        · exact hseen
        · exact hsub k hk
      · rw [if_neg hseen, if_neg hseen, ih fun k hk => ?_]
        rcases List.mem_cons.mp hk with rfl | hk
        · exact List.mem_cons_self
        · exact List.mem_cons_of_mem _ (hsub k hk)
  | again hseen _ ih =>
      rw [firstSeen, if_pos (hsub _ hseen)]
      exact ih hsub

omit [DecidableEq κ] in
theorem Repeating.refl (seen : List κ) (xs : List α) : Repeating key seen xs xs := by
  induction xs generalizing seen with
  | nil => exact .nil
  | cons x xs ih => exact .keep (ih _)

omit [DecidableEq κ] in
/-- Repetitions after a part of the list, of keys seen before or in that part. -/
theorem Repeating.append {extra ys zs : List α} (xs : List α)
    (hextra : ∀ x ∈ extra, key x ∈ seen ∨ key x ∈ xs.map key)
    (hrest : Repeating key ((xs.map key).reverse ++ seen) ys zs) :
    Repeating key seen (xs ++ ys) (xs ++ extra ++ zs) := by
  induction xs generalizing seen with
  | nil =>
      induction extra with
      | nil => exact hrest
      | cons x extra ih =>
          refine .again ((hextra x List.mem_cons_self).resolve_right (by simp)) ?_
          exact ih fun y hy => hextra y (List.mem_cons_of_mem _ hy)
  | cons x xs ih =>
      refine .keep (ih ?_ ?_)
      · intro y hy
        rcases hextra y hy with h | h
        · exact Or.inl (List.mem_cons_of_mem _ h)
        · rcases List.mem_cons.mp h with h | h
          · exact Or.inl (h ▸ List.mem_cons_self)
          · exact Or.inr h
      · simpa using hrest

omit [DecidableEq κ] in
theorem Repeating.map {β : Type} {f : β → α} {ys zs : List β}
    (h : Repeating (key ∘ f) seen ys zs) : Repeating key seen (ys.map f) (zs.map f) := by
  induction h with
  | nil => exact .nil
  | keep _ ih => exact .keep ih
  | again hseen _ ih => exact .again hseen ih

/-! ## 3. Stable sorting -/

/-- Ordered by `f`, equal elements by `index`. -/
def Before (f : α → Int) (index : α → Nat) (x y : α) : Prop :=
  f x < f y ∨ f x = f y ∧ index x < index y

theorem pairwise_orderedInsert {f : α → Int} {index : α → Nat}
    (hsorted : xs.Pairwise (Before f index)) (hfirst : ∀ y ∈ xs, index x < index y) :
    (xs.orderedInsert (fun a b => f a ≤ f b) x).Pairwise (Before f index) := by
  induction xs with
  | nil => exact List.pairwise_singleton _ _
  | cons y ys ih =>
      obtain ⟨hy, hys⟩ := List.pairwise_cons.mp hsorted
      rw [List.orderedInsert_cons]
      by_cases hle : f x ≤ f y
      · rw [if_pos hle, List.pairwise_cons]
        refine ⟨fun z hz => ?_, hsorted⟩
        have hxz : f x ≤ f z := by
          rcases List.mem_cons.mp hz with rfl | hz
          · exact hle
          · rcases hy z hz with hlt | ⟨heq, -⟩
            · exact le_of_lt (lt_of_le_of_lt hle hlt)
            · exact heq ▸ hle
        rcases lt_or_eq_of_le hxz with hlt | heq
        · exact Or.inl hlt
        · exact Or.inr ⟨heq, hfirst z hz⟩
      · rw [if_neg hle, List.pairwise_cons]
        refine ⟨fun z hz => ?_, ih hys fun z hz => hfirst z (List.mem_cons_of_mem _ hz)⟩
        rcases List.mem_orderedInsert _ |>.mp hz with rfl | hz
        · exact Or.inl (not_le.mp hle)
        · exact hy z hz

/-- **Insertion sort is stable**: what comes in the order of `index` leaves it so where `f`
    does not decide. -/
theorem pairwise_insertionSort {f : α → Int} {index : α → Nat}
    (h : xs.Pairwise fun x y => index x < index y) :
    (xs.insertionSort fun a b => f a ≤ f b).Pairwise (Before f index) := by
  induction xs with
  | nil => exact List.Pairwise.nil
  | cons x xs ih =>
      obtain ⟨hx, hxs⟩ := List.pairwise_cons.mp h
      rw [List.insertionSort_cons]
      exact pairwise_orderedInsert (ih hxs) fun y hy => hx y ((List.mem_insertionSort _).mp hy)

end FundingTool.FirstSeen
