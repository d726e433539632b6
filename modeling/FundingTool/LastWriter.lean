import Mathlib.Data.List.Induction

/-!
# The last writer wins

A map that is written to: a value is assigned to a key, or every key of some kind is erased.
What a key holds is the value last assigned to it and not erased since (`IsLatest`); `latest`
computes it write by write.
-/

namespace FundingTool.LastWriter

variable {κ ν : Type}

/-! ## 1. Writes -/

inductive Write (κ ν : Type)
  | assign (key : κ) (value : ν)
  | erase (which : κ → Bool)

/-- The write decides what the key holds. -/
def Write.Touches (key : κ) : Write κ ν → Prop
  | .assign key' _ => key' = key
  | .erase which => which key = true

/-- The value was assigned to the key, and no later write touches it. -/
def IsLatest (writes : List (Write κ ν)) (key : κ) (value : ν) : Prop :=
  ∃ before after, writes = before ++ .assign key value :: after ∧
    ∀ w ∈ after, ¬ w.Touches key

/-- One more write. -/
theorem isLatest_concat {writes : List (Write κ ν)} {w : Write κ ν} {key : κ} {value : ν} :
    IsLatest (writes ++ [w]) key value ↔
      w = .assign key value ∨ ¬ w.Touches key ∧ IsLatest writes key value := by
  constructor
  · rintro ⟨before, after, heq, hafter⟩
    rcases List.eq_nil_or_concat after with rfl | ⟨rest, last, rfl⟩
    · have hlast := (List.append_inj' heq rfl).2
      exact .inl (List.cons.inj hlast).1
    · rw [List.concat_eq_append, ← List.cons_append, ← List.append_assoc] at heq
      obtain ⟨hwrites, hlast⟩ := List.append_inj' heq rfl
      have hw : w = last := (List.cons.inj hlast).1
      rw [List.concat_eq_append] at hafter
      refine .inr ⟨hw ▸ hafter last (List.mem_append_right rest List.mem_cons_self), ?_⟩
      exact ⟨before, rest, hwrites, fun w' hw' => hafter w' (List.mem_append_left _ hw')⟩
  · rintro (rfl | ⟨huntouched, before, after, rfl, hafter⟩)
    · exact ⟨writes, [], rfl, fun w hw => by cases hw⟩
    · refine ⟨before, after ++ [w], by rw [List.append_assoc, List.cons_append], ?_⟩
      intro w' hw'
      rcases List.mem_append.mp hw' with hw' | hw'
      · exact hafter w' hw'
      · exact List.mem_singleton.mp hw' ▸ huntouched

/-! ## 2. What a key holds -/

variable [DecidableEq κ]

/-- What a key holds after a write. -/
def Write.result (key : κ) (held : Option ν) : Write κ ν → Option ν
  | .assign key' value => if key' = key then some value else held
  | .erase which => if which key then none else held

/-- The value a key holds after all writes. -/
def latest (writes : List (Write κ ν)) (key : κ) : Option ν :=
  writes.foldl (Write.result key) none

/-- A write that touches a key decides; any other leaves the key as it was. -/
theorem result_eq_some_iff {w : Write κ ν} {key : κ} {held : Option ν} {value : ν} :
    w.result key held = some value ↔
      w = .assign key value ∨ ¬ w.Touches key ∧ held = some value := by
  cases w with
  | assign key' value' =>
      simp only [Write.result, Write.Touches, Write.assign.injEq]
      by_cases hkey : key' = key
      · rw [if_pos hkey, Option.some.injEq]
        exact ⟨fun hvalue => .inl ⟨hkey, hvalue⟩,
          fun h => h.elim And.right fun hother => absurd hkey hother.1⟩
      · rw [if_neg hkey]
        exact ⟨fun hheld => .inr ⟨hkey, hheld⟩,
          fun h => h.elim (fun hsame => absurd hsame.1 hkey) And.right⟩
  | erase which =>
      simp only [Write.result, Write.Touches, reduceCtorEq, false_or]
      by_cases hwhich : which key = true
      · rw [if_pos hwhich]
        exact ⟨fun h => (by cases h), fun h => absurd hwhich h.1⟩
      · rw [if_neg hwhich]
        exact ⟨fun hheld => ⟨hwhich, hheld⟩, And.right⟩

theorem latest_append (writes writes' : List (Write κ ν)) (key : κ) :
    latest (writes ++ writes') key = writes'.foldl (Write.result key) (latest writes key) :=
  List.foldl_append

/-- **What a key holds is what was last assigned to it.** -/
theorem latest_eq_some_iff {writes : List (Write κ ν)} {key : κ} {value : ν} :
    latest writes key = some value ↔ IsLatest writes key value := by
  induction writes using List.reverseRecOn generalizing value with
  | nil =>
      constructor
      · intro h
        cases h
      · rintro ⟨before, after, heq, -⟩
        cases before <;> cases heq
  | append_singleton writes w ih =>
      rw [isLatest_concat, latest_append, ← ih]
      exact result_eq_some_iff

end FundingTool.LastWriter
