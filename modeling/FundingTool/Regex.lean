import Mathlib.Data.List.Infix

/-!
# Backtracking patterns

A pattern is given by what is read next, so what is left of it after some characters is one
of its own parts (`inner`).  `remainders` lists what each way of matching leaves unread, the
preferred way first.

A match that stops before the end of a text does not see what follows (`remainders_append`),
and a pattern whose classes do not tell some characters apart does not either
(`remainders_map`).
-/

namespace FundingTool

/-! ## 1. Patterns -/

inductive Regex (α : Type)
  /-- Nothing more is read. -/
  | done
  /-- `[p]` -/
  | one (p : α → Bool) (next : Regex α)
  /-- `[p]*` -/
  | star (p : α → Bool) (next : Regex α)
  /-- `(?:a|b)`, with what follows it in both branches. -/
  | alt (a b : Regex α)

namespace Regex

variable {α : Type}

/-- `[p]?` -/
def opt (p : α → Bool) (next : Regex α) : Regex α := alt (one p next) next

/-- `[p]{n}` -/
def times (n : Nat) (p : α → Bool) (next : Regex α) : Regex α :=
  match n with
  | 0 => next
  | n + 1 => one p (times n p next)

/-- As many characters as possible first. -/
def starRemainders (p : α → Bool) (next : List α → List (List α)) : List α → List (List α)
  | [] => next []
  | c :: cs => if p c then starRemainders p next cs ++ next (c :: cs) else next (c :: cs)

/-- What each way of matching leaves unread, in the order in which they are tried. -/
def remainders : Regex α → List α → List (List α)
  | done, text => [text]
  | one _ _, [] => []
  | one p next, c :: cs => if p c then next.remainders cs else []
  | star p next, text => starRemainders p next.remainders text
  | alt a b, text => a.remainders text ++ b.remainders text

/-- Some character is read by every match. -/
def consumes : Regex α → Bool
  | done => false
  | one _ _ => true
  | star _ next => next.consumes
  | alt a b => a.consumes && b.consumes

theorem starRemainders_suffix {p : α → Bool} {next : List α → List (List α)}
    (hnext : ∀ text, ∀ r ∈ next text, r <:+ text) (text : List α) :
    ∀ r ∈ starRemainders p next text, r <:+ text := by
  induction text with
  | nil => exact hnext []
  | cons c cs ih =>
      intro r hr
      rw [starRemainders] at hr
      by_cases hc : p c = true
      · rw [if_pos hc, List.mem_append] at hr
        rcases hr with hr | hr
        · exact (ih r hr).trans (List.suffix_cons c cs)
        · exact hnext _ r hr
      · rw [if_neg hc] at hr
        exact hnext _ r hr

theorem suffix_of_mem_remainders (R : Regex α) :
    ∀ text : List α, ∀ r ∈ R.remainders text, r <:+ text := by
  induction R with
  | done =>
      intro text r hr
      rw [remainders, List.mem_singleton] at hr
      rw [hr]
  | one p next ih =>
      rintro (_ | ⟨c, cs⟩) r hr
      · cases hr
      · rw [remainders] at hr
        by_cases hc : p c = true
        · rw [if_pos hc] at hr
          exact (ih cs r hr).trans (List.suffix_cons c cs)
        · rw [if_neg hc] at hr
          cases hr
  | star p next ih => exact starRemainders_suffix ih
  | alt a b iha ihb =>
      intro text r hr
      rw [remainders, List.mem_append] at hr
      exact hr.elim (iha text r) (ihb text r)

theorem length_lt_of_starRemainders {p : α → Bool} {next : List α → List (List α)}
    (hnext : ∀ text, ∀ r ∈ next text, r.length < text.length) (text : List α) :
    ∀ r ∈ starRemainders p next text, r.length < text.length := by
  induction text with
  | nil => exact hnext []
  | cons c cs ih =>
      intro r hr
      rw [starRemainders] at hr
      by_cases hc : p c = true
      · rw [if_pos hc, List.mem_append] at hr
        rcases hr with hr | hr
        · exact (ih r hr).trans (Nat.lt_succ_self cs.length)
        · exact hnext _ r hr
      · rw [if_neg hc] at hr
        exact hnext _ r hr

theorem length_lt_of_consumes (R : Regex α) (hR : R.consumes = true) :
    ∀ text : List α, ∀ r ∈ R.remainders text, r.length < text.length := by
  induction R with
  | done => cases hR
  | one p next ih =>
      rintro (_ | ⟨c, cs⟩) r hr
      · cases hr
      · rw [remainders] at hr
        by_cases hc : p c = true
        · rw [if_pos hc] at hr
          exact Nat.lt_succ_of_le (suffix_of_mem_remainders next cs r hr).length_le
        · rw [if_neg hc] at hr
          cases hr
  | star p next ih => exact length_lt_of_starRemainders (ih hR)
  | alt a b iha ihb =>
      intro text r hr
      rw [consumes, Bool.and_eq_true] at hR
      rw [remainders, List.mem_append] at hr
      exact hr.elim (iha hR.1 text r) (ihb hR.2 text r)

/-! ## 2. Patterns that stop before the end of a text -/

def starReaches (p : α → Bool) (next : List α → Bool) : List α → Bool
  | [] => true
  | c :: cs => p c && starReaches p next cs || next (c :: cs)

/-- Some way of matching gets to the end of the text. -/
def reaches : Regex α → List α → Bool
  | done, text => text.isEmpty
  | one _ _, [] => true
  | one p next, c :: cs => p c && next.reaches cs
  | star p next, text => starReaches p next.reaches text
  | alt a b, text => a.reaches text || b.reaches text

/-- What may be left to read once one character has been read. -/
def inner : Regex α → List (Regex α)
  | done => []
  | one _ next => next :: next.inner
  | star p next => star p next :: next.inner
  | alt a b => a.inner ++ b.inner

theorem starRemainders_append {p : α → Bool} {next : List α → List (List α)}
    {stuck : List α → Bool} {w : List α}
    (hnext : ∀ text, stuck text = false → next (text ++ w) = (next text).map (· ++ w))
    (text : List α) (htext : starReaches p stuck text = false) :
    starRemainders p next (text ++ w) = (starRemainders p next text).map (· ++ w) := by
  induction text with
  | nil => cases htext
  | cons c cs ih =>
      rw [starReaches, Bool.or_eq_false_iff] at htext
      have hown := hnext _ htext.2
      rw [List.cons_append] at hown ⊢
      rw [starRemainders, starRemainders]
      by_cases hc : p c = true
      · rw [hc, Bool.true_and] at htext
        rw [if_pos hc, if_pos hc, ih htext.1, hown, List.map_append]
      · rw [if_neg hc, if_neg hc, hown]

/-- **Locality.**  A match that stops before the end of a text does not see what follows. -/
theorem remainders_append (R : Regex α) (w : List α) :
    ∀ text : List α, R.reaches text = false →
      R.remainders (text ++ w) = (R.remainders text).map (· ++ w) := by
  induction R with
  | done => exact fun _ _ => rfl
  | one p next ih =>
      rintro (_ | ⟨c, cs⟩) htext
      · cases htext
      · rw [reaches] at htext
        rw [List.cons_append, remainders, remainders]
        by_cases hc : p c = true
        · rw [hc, Bool.true_and] at htext
          rw [if_pos hc, if_pos hc, ih cs htext]
        · rw [if_neg hc, if_neg hc, List.map_nil]
  | star p next ih => exact starRemainders_append ih
  | alt a b iha ihb =>
      intro text htext
      rw [reaches, Bool.or_eq_false_iff] at htext
      rw [remainders, remainders, iha text htext.1, ihb text htext.2, List.map_append]

theorem starReaches_cons_append {p : α → Bool} {next : List α → Bool} {z : List α}
    (hnext : ∀ c q, next (c :: (q ++ z)) = false) (hz : starReaches p next z = false) (c : α)
    (q : List α) : starReaches p next (c :: (q ++ z)) = false := by
  induction q generalizing c with
  | nil =>
      have hown := hnext c []
      rw [List.nil_append] at hown ⊢
      rw [starReaches, hz, Bool.and_false, hown, Bool.or_false]
  | cons d q ih =>
      rw [starReaches, List.cons_append, ih d, Bool.and_false, ← List.cons_append,
        hnext c (d :: q), Bool.or_false]

/-- When nothing that may be left to read gets to the end of `z`, no match that begins before
    `z` does. -/
theorem reaches_cons_append {z : List α} (R : Regex α)
    (hz : ∀ S ∈ R.inner, S.reaches z = false) :
    ∀ c q, R.reaches (c :: (q ++ z)) = false := by
  induction R with
  | done => exact fun _ _ => rfl
  | one p next ih =>
      rw [inner, List.forall_mem_cons] at hz
      intro c q
      rw [reaches]
      rcases q with _ | ⟨d, q⟩
      · rw [List.nil_append, hz.1, Bool.and_false]
      · rw [List.cons_append, ih hz.2, Bool.and_false]
  | star p next ih =>
      rw [inner, List.forall_mem_cons] at hz
      exact starReaches_cons_append (ih hz.2) hz.1
  | alt a b iha ihb =>
      rw [inner, List.forall_mem_append] at hz
      intro c q
      rw [reaches, iha hz.1, ihb hz.2, Bool.or_false]

/-! ## 3. Patterns that do not tell some characters apart -/

variable {f : α → α}

/-- Every class of the pattern treats a character and its image alike. -/
def Invariant (f : α → α) : Regex α → Prop
  | done => True
  | one p next => (∀ c, p (f c) = p c) ∧ next.Invariant f
  | star p next => (∀ c, p (f c) = p c) ∧ next.Invariant f
  | alt a b => a.Invariant f ∧ b.Invariant f

theorem Invariant.inner {R : Regex α} (hR : R.Invariant f) : ∀ S ∈ R.inner, S.Invariant f := by
  induction R with
  | done => exact fun S hS => absurd hS List.not_mem_nil
  | one p next ih => exact List.forall_mem_cons.mpr ⟨hR.2, ih hR.2⟩
  | star p next ih => exact List.forall_mem_cons.mpr ⟨hR, ih hR.2⟩
  | alt a b iha ihb => exact List.forall_mem_append.mpr ⟨iha hR.1, ihb hR.2⟩

theorem reaches_map {R : Regex α} (hR : R.Invariant f) :
    ∀ text : List α, R.reaches (text.map f) = R.reaches text := by
  induction R with
  | done => exact fun _ => List.isEmpty_map
  | one p next ih =>
      rintro (_ | ⟨c, cs⟩)
      · rfl
      · rw [List.map_cons, reaches, reaches, hR.1, ih hR.2]
  | star p next ih =>
      intro text
      show starReaches p next.reaches (text.map f) = starReaches p next.reaches text
      induction text with
      | nil => rfl
      | cons c cs ihtext =>
          have hnext := ih hR.2 (c :: cs)
          rw [List.map_cons] at hnext ⊢
          rw [starReaches, starReaches, hR.1, ihtext, hnext]
  | alt a b iha ihb => exact fun text => by rw [reaches, reaches, iha hR.1, ihb hR.2]

end Regex

end FundingTool
