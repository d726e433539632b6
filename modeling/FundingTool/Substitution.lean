import Mathlib.Data.List.TakeWhile
import FundingTool.Regex

/-!
# Substitution

`Substitution.sub` replaces, from left to right, the matches of a pattern whose kept groups
come first and whose last part is a run of dropped characters.

A match that begins before some `head` either ends before it or takes in all of it, as long
as no unfinished pattern reads through the head (`Blocks`, `scan_of_blocks`).
-/

namespace FundingTool

structure Substitution (α : Type) where
  /-- The groups that the replacement repeats. -/
  kept : Regex α
  /-- The class of the run that follows them. -/
  dropped : α → Bool
  /-- What stands in place of the run. -/
  mark : List α
  consumes : kept.consumes = true

namespace Substitution

variable {α : Type}

/-! ## 1. Replacing the matches -/

/-- What is unread after the kept groups, and after the whole pattern. -/
def findAt (σ : Substitution α) (text : List α) : Option (List α × List α) :=
  ((σ.kept.remainders text).flatMap fun unread =>
    ((Regex.star σ.dropped .done).remainders unread).map (unread, ·)).head?

/-- `re.sub` after `skip` more characters, which belong to the last match. -/
def scan (σ : Substitution α) : Nat → List α → List α
  | _, [] => []
  | skip + 1, _ :: cs => σ.scan skip cs
  | 0, c :: cs =>
      match σ.findAt (c :: cs) with
      | none => c :: σ.scan 0 cs
      | some (unread, rest) =>
          (c :: cs).take ((c :: cs).length - unread.length) ++ σ.mark ++
            σ.scan (cs.length - rest.length) cs

def sub (σ : Substitution α) (text : List α) : List α := σ.scan 0 text

/-- What the scan of `p` gives when `z` follows, and how many characters of `z` belong to the
    last match. -/
def carry (σ : Substitution α) : Nat → List α → List α → List α × Nat
  | skip, [], _ => ([], skip)
  | skip + 1, _ :: cs, z => σ.carry skip cs z
  | 0, c :: cs, z =>
      match σ.findAt (c :: (cs ++ z)) with
      | none => (c :: (σ.carry 0 cs z).1, (σ.carry 0 cs z).2)
      | some (unread, rest) =>
          ((c :: (cs ++ z)).take ((c :: (cs ++ z)).length - unread.length) ++ σ.mark ++
              (σ.carry ((cs ++ z).length - rest.length) cs z).1,
            (σ.carry ((cs ++ z).length - rest.length) cs z).2)

variable {σ : Substitution α}

theorem head?_star_done (p : α → Bool) (text : List α) :
    ((Regex.star p .done).remainders text).head? = some (text.dropWhile p) := by
  show (Regex.starRemainders p Regex.done.remainders text).head? = _
  induction text with
  | nil => rfl
  | cons c cs ih =>
      rw [Regex.starRemainders]
      by_cases hc : p c = true
      · rw [if_pos hc, List.head?_append, ih, List.dropWhile_cons_of_pos hc]
        rfl
      · rw [if_neg hc, List.dropWhile_cons_of_neg hc]
        rfl

theorem findAt_eq (σ : Substitution α) (text : List α) :
    σ.findAt text =
      (σ.kept.remainders text).head?.map fun unread => (unread, unread.dropWhile σ.dropped) := by
  unfold findAt
  rcases σ.kept.remainders text with _ | ⟨unread, others⟩
  · rfl
  · rw [List.flatMap_cons, List.head?_append, List.head?_map, head?_star_done]
    rfl

theorem findAt_none {text : List α} (h : σ.kept.remainders text = []) : σ.findAt text = none := by
  rw [findAt_eq, h]
  rfl

theorem findAt_length {text unread rest : List α} (h : σ.findAt text = some (unread, rest)) :
    unread.length < text.length ∧ rest.length ≤ unread.length := by
  rw [findAt_eq, Option.map_eq_some_iff] at h
  obtain ⟨_, hhead, heq⟩ := h
  cases heq
  exact ⟨Regex.length_lt_of_consumes σ.kept σ.consumes text _ (List.mem_of_head? hhead),
    (List.dropWhile_suffix σ.dropped).length_le⟩

/-! ## 2. Scanning a text in parts -/

theorem scan_drop (skip : Nat) (text : List α) :
    σ.scan skip text = σ.scan 0 (text.drop skip) := by
  induction text generalizing skip with
  | nil => rw [List.drop_nil, scan, scan]
  | cons c cs ih =>
      rcases skip with _ | skip
      · rfl
      · rw [scan, List.drop_succ_cons, ih]

theorem scan_append (skip : Nat) (p z : List α) :
    σ.scan skip (p ++ z) = (σ.carry skip p z).1 ++ σ.scan (σ.carry skip p z).2 z := by
  induction p generalizing skip with
  | nil => rfl
  | cons c cs ih =>
      rcases skip with _ | skip
      · rw [List.cons_append, scan, carry]
        rcases σ.findAt (c :: (cs ++ z)) with _ | ⟨unread, rest⟩
        · simp only [ih 0, List.cons_append]
        · simp only [ih ((cs ++ z).length - rest.length), List.append_assoc]
      · exact ih skip

theorem carry_of_le {skip : Nat} {p : List α} (h : p.length ≤ skip) (z : List α) :
    σ.carry skip p z = ([], skip - p.length) := by
  induction p generalizing skip with
  | nil => rfl
  | cons c cs ih =>
      rcases skip with _ | skip
      · exact absurd h (Nat.not_succ_le_zero cs.length)
      · rw [carry, ih (Nat.le_of_succ_le_succ h), List.length_cons, Nat.succ_sub_succ]

theorem carry_none {c : α} {cs z : List α} (h : σ.findAt (c :: (cs ++ z)) = none) :
    σ.carry 0 (c :: cs) z = (c :: (σ.carry 0 cs z).1, (σ.carry 0 cs z).2) := by
  rw [carry, h]

theorem carry_some {c : α} {cs z unread rest : List α}
    (h : σ.findAt (c :: (cs ++ z)) = some (unread, rest)) :
    σ.carry 0 (c :: cs) z =
      ((c :: (cs ++ z)).take ((c :: (cs ++ z)).length - unread.length) ++ σ.mark ++
          (σ.carry ((cs ++ z).length - rest.length) cs z).1,
        (σ.carry ((cs ++ z).length - rest.length) cs z).2) := by
  rw [carry, h]

/-- A match that goes beyond `p` is marked at the end of what `p` gives. -/
theorem carry_mark {p z : List α} {skip : Nat} (hskip : skip ≤ p.length)
    (h : (σ.carry skip p z).2 ≠ 0) : ∃ a, (σ.carry skip p z).1 = a ++ σ.mark := by
  induction p generalizing skip with
  | nil => exact absurd (Nat.le_zero.mp hskip) h
  | cons c cs ih =>
      rcases skip with _ | skip
      · rcases hfind : σ.findAt (c :: (cs ++ z)) with _ | ⟨unread, rest⟩
        · rw [carry_none hfind] at h ⊢
          obtain ⟨a, ha⟩ := ih (Nat.zero_le _) h
          exact ⟨c :: a, congrArg (c :: ·) ha⟩
        · rw [carry_some hfind] at h ⊢
          by_cases hwithin : (cs ++ z).length - rest.length ≤ cs.length
          · obtain ⟨a, ha⟩ := ih hwithin h
            simp only [ha]
            exact ⟨_, (List.append_assoc _ _ _).symm⟩
          · simp only [carry_of_le (Nat.le_of_not_le hwithin), List.append_nil]
            exact ⟨_, rfl⟩
      · exact ih (Nat.le_of_succ_le_succ hskip) h

theorem scan_match {kept unread rest : List α}
    (h : σ.findAt (kept ++ unread) = some (unread, rest)) :
    σ.scan 0 (kept ++ unread) = kept ++ (σ.mark ++ σ.scan 0 rest) := by
  obtain ⟨hunread, hrest⟩ := findAt_length h
  rcases kept with _ | ⟨c, cs⟩
  · exact absurd hunread (Nat.lt_irrefl _)
  · have hsuffix : rest <:+ cs ++ unread := by
      rw [findAt_eq, Option.map_eq_some_iff] at h
      obtain ⟨_, -, heq⟩ := h
      cases heq
      exact (List.dropWhile_suffix σ.dropped).trans (List.suffix_append cs unread)
    have htake : (c :: (cs ++ unread)).take ((c :: (cs ++ unread)).length - unread.length) =
        c :: cs := by
      rw [← List.cons_append, List.length_append, Nat.add_sub_cancel, List.take_left]
    rw [List.cons_append] at h ⊢
    rw [scan, h]
    simp only
    rw [htake, scan_drop, ← List.suffix_iff_eq_drop.mp hsuffix, List.append_assoc]

theorem scan_of_no_match {z w : List α}
    (h : ∀ z', z' ≠ [] → z' <:+ z → σ.kept.remainders (z' ++ w) = []) :
    σ.scan 0 (z ++ w) = z ++ σ.scan 0 w := by
  induction z with
  | nil => rfl
  | cons c cs ih =>
      have hown := h (c :: cs) (List.cons_ne_nil c cs) List.suffix_rfl
      rw [List.cons_append] at hown ⊢
      rw [scan, findAt_none hown, List.cons_append,
        ← ih fun z' hne hz' => h z' hne (hz'.trans (List.suffix_cons c cs))]

/-- A character that may open the pattern, but begins no match without it, changes nothing. -/
theorem scan_opt {p : α → Bool} {opened : Substitution α}
    (hkept : opened.kept = .opt p σ.kept) (hdropped : opened.dropped = σ.dropped)
    (hmark : opened.mark = σ.mark)
    (hp : ∀ c cs, p c = true → σ.kept.remainders (c :: cs) = []) (skip : Nat) (text : List α) :
    opened.scan skip text = σ.scan skip text := by
  induction text generalizing skip with
  | nil => rw [scan, scan]
  | cons c cs ih =>
      rcases skip with _ | skip
      · by_cases hc : p c = true
        · -- the opening character is kept, so the match might as well begin after it
          have hopened : opened.findAt (c :: cs) = σ.findAt cs := by
            rw [findAt_eq, findAt_eq, hkept, hdropped, Regex.opt, Regex.remainders,
              Regex.remainders, if_pos hc, hp c cs hc, List.append_nil]
          rw [scan, hopened, scan, findAt_none (hp c cs hc)]
          rcases cs with _ | ⟨d, ds⟩
          · rcases hfind : σ.findAt [] with _ | ⟨unread, rest⟩
            · simp only [ih]
            · exact absurd (findAt_length hfind).1 (Nat.not_lt_zero _)
          · rcases hfind : σ.findAt (d :: ds) with _ | ⟨unread, rest⟩
            · simp only [ih]
            · obtain ⟨hunread, hrest⟩ := findAt_length hfind
              rw [List.length_cons] at hunread
              have hskip : (d :: ds).length - rest.length = ds.length - rest.length + 1 := by
                rw [List.length_cons]
                omega
              have htake : (c :: d :: ds).length - unread.length =
                  (d :: ds).length - unread.length + 1 := by
                simp only [List.length_cons]
                omega
              simp only [ih]
              rw [hskip, htake, List.take_succ_cons, scan, scan, hfind, hmark]
              simp only [List.cons_append]
        · have hopened : opened.findAt (c :: cs) = σ.findAt (c :: cs) := by
            rw [findAt_eq, findAt_eq, hkept, hdropped, Regex.opt, Regex.remainders,
              Regex.remainders, if_neg hc, List.nil_append]
          rw [scan, hopened, scan, hmark]
          simp only [ih]
      · exact ih skip

/-! ## 3. A match before a head -/

/-- A head that every match begun before it leaves unfinished, and that a run of dropped
    characters does not stop in. -/
structure Blocks (σ : Substitution α) (head : List α) : Prop where
  ne_nil : head ≠ []
  unfinished : ∀ R ∈ σ.kept.inner, R.reaches head = false
  runs : ∀ c ∈ head.tail, σ.dropped c = true

/-- What a run leaves reaches back to before the head. -/
theorem Blocks.length_le {head q unread : List α} (hb : σ.Blocks head)
    (hunread : unread <:+ q ++ head) (hne : unread.dropWhile σ.dropped ≠ []) :
    head.length ≤ (unread.dropWhile σ.dropped).length := by
  obtain ⟨c, cs, hrest⟩ := List.exists_cons_of_ne_nil hne
  have hstop : σ.dropped c = false := by
    have hnot := List.head_dropWhile_not σ.dropped hne
    simpa only [hrest, List.head_cons] using hnot
  by_contra hshort
  have hsuffix : unread.dropWhile σ.dropped <:+ head :=
    List.suffix_of_suffix_length_le ((List.dropWhile_suffix σ.dropped).trans hunread)
      (List.suffix_append q head) (Nat.le_of_not_le hshort)
  rcases head with _ | ⟨d, tail⟩
  · exact hb.ne_nil rfl
  · rcases List.suffix_cons_iff.mp hsuffix with heq | htail
    · exact hshort (Nat.le_of_eq (congrArg List.length heq.symm))
    · rw [hrest] at htail
      have hdropped := hb.runs c (htail.subset List.mem_cons_self)
      rw [hstop] at hdropped
      cases hdropped

/-- What follows the head changes no match begun before it, but its end. -/
theorem Blocks.findAt_append {head : List α} (hb : σ.Blocks head) (y : List α) (c : α)
    (cs : List α) :
    σ.findAt (c :: (cs ++ (head ++ y))) =
      ((σ.kept.remainders (c :: (cs ++ head))).head?.map fun unread =>
        (unread ++ y, (unread ++ y).dropWhile σ.dropped)) := by
  have hreaches := Regex.reaches_cons_append σ.kept hb.unfinished c cs
  have hlocal := Regex.remainders_append σ.kept y (c :: (cs ++ head)) hreaches
  rw [List.cons_append, List.append_assoc] at hlocal
  rw [findAt_eq, hlocal, List.head?_map, Option.map_map]
  rfl

/-- **Where a match begun in `p` ends.**  Before the head, or past all of it and as much of
    what follows as is dropped; what it gives does not depend on what follows. -/
theorem carry_cases {head : List α} (hb : σ.Blocks head) (y : List α) {p : List α} {skip : Nat}
    (hskip : skip ≤ p.length) :
    ((σ.carry skip p head).2 = 0 ∧ σ.carry skip p (head ++ y) = σ.carry skip p head) ∨
      (σ.carry skip p head).2 = head.length ∧
        σ.carry skip p (head ++ y) =
          ((σ.carry skip p head).1, head.length + (y.takeWhile σ.dropped).length) := by
  induction p generalizing skip with
  | nil => exact Or.inl ⟨Nat.le_zero.mp hskip, rfl⟩
  | cons c cs ih =>
      rcases skip with _ | skip
      · have hlong := hb.findAt_append y c cs
        have hshort := findAt_eq σ (c :: (cs ++ head))
        rcases hfirst : (σ.kept.remainders (c :: (cs ++ head))).head? with _ | unread
        · rw [hfirst] at hlong hshort
          rw [carry_none hlong, carry_none hshort]
          rcases ih (Nat.zero_le _) with ⟨hzero, heq⟩ | ⟨hall, heq⟩
          · exact Or.inl ⟨hzero, by rw [heq]⟩
          · exact Or.inr ⟨hall, by rw [heq]⟩
        · rw [hfirst] at hlong hshort
          have hmem := List.mem_of_head? hfirst
          have hsuffix := Regex.suffix_of_mem_remainders σ.kept _ unread hmem
          have htake : (c :: (cs ++ (head ++ y))).take
                ((c :: (cs ++ (head ++ y))).length - (unread ++ y).length) =
              (c :: (cs ++ head)).take ((c :: (cs ++ head)).length - unread.length) := by
            have htext : c :: (cs ++ (head ++ y)) = (c :: (cs ++ head)) ++ y := by
              rw [List.cons_append, List.append_assoc]
            rw [htext, List.length_append, List.length_append, Nat.add_sub_add_right,
              List.take_append_of_le_length (Nat.sub_le _ _)]
          rw [carry_some hlong, carry_some hshort, htake]
          by_cases hne : unread.dropWhile σ.dropped = []
          · -- the run goes on to the end of the head, and then through `y`
            refine Or.inr ?_
            have hlength : (y.takeWhile σ.dropped).length + (y.dropWhile σ.dropped).length =
                y.length := by
              rw [← List.length_append, List.takeWhile_append_dropWhile]
            have hends : (unread ++ y).dropWhile σ.dropped = y.dropWhile σ.dropped := by
              rw [List.dropWhile_append, hne, List.isEmpty_nil, if_pos rfl]
            have hin : (cs ++ head).length - (unread.dropWhile σ.dropped).length =
                cs.length + head.length := by
              rw [hne, List.length_append, List.length_nil, Nat.sub_zero]
            have hout : (cs ++ (head ++ y)).length - (y.dropWhile σ.dropped).length =
                cs.length + (head.length + (y.takeWhile σ.dropped).length) := by
              simp only [List.length_append]
              omega
            rw [hends, hin, hout, carry_of_le (Nat.le_add_right _ _),
              carry_of_le (Nat.le_add_right _ _)]
            simp only [Nat.add_sub_cancel_left, and_self]
          · have hbefore : unread <:+ (c :: cs) ++ head := hsuffix
            have hback := hb.length_le hbefore hne
            have hends : (unread ++ y).dropWhile σ.dropped =
                unread.dropWhile σ.dropped ++ y := by
              rw [List.dropWhile_append, if_neg fun h => hne (List.isEmpty_iff.mp h)]
            have hsame : (cs ++ (head ++ y)).length -
                  (unread.dropWhile σ.dropped ++ y).length =
                (cs ++ head).length - (unread.dropWhile σ.dropped).length := by
              simp only [List.length_append]
              omega
            have hwithin : (cs ++ head).length - (unread.dropWhile σ.dropped).length ≤
                cs.length := by
              rw [List.length_append]
              omega
            rw [hends, hsame]
            rcases ih hwithin with ⟨hzero, heq⟩ | ⟨hall, heq⟩
            · exact Or.inl ⟨hzero, by rw [heq]⟩
            · exact Or.inr ⟨hall, by rw [heq]⟩
      · exact ih (Nat.le_of_succ_le_succ hskip)

/-- **A scan in front of a head.**  Either the head is next to be scanned, or a match takes it
    in and goes on through what follows. -/
theorem scan_of_blocks {head : List α} (hb : σ.Blocks head) (p y : List α) :
    ((σ.carry 0 p head).2 = 0 ∧
        σ.scan 0 (p ++ (head ++ y)) = (σ.carry 0 p head).1 ++ σ.scan 0 (head ++ y)) ∨
      (σ.carry 0 p head).2 = head.length ∧
        σ.scan 0 (p ++ (head ++ y)) =
          (σ.carry 0 p head).1 ++ σ.scan 0 (y.dropWhile σ.dropped) := by
  rcases carry_cases hb y (Nat.zero_le p.length) with ⟨hzero, heq⟩ | ⟨hall, heq⟩
  · refine Or.inl ⟨hzero, ?_⟩
    rw [scan_append, heq, hzero]
  · refine Or.inr ⟨hall, ?_⟩
    have hdrop : (head ++ y).drop (head.length + (y.takeWhile σ.dropped).length) =
        y.dropWhile σ.dropped := by
      rw [List.drop_length_add_append]
      calc y.drop (y.takeWhile σ.dropped).length
          = (y.takeWhile σ.dropped ++ y.dropWhile σ.dropped).drop
              (y.takeWhile σ.dropped).length := by rw [List.takeWhile_append_dropWhile]
        _ = y.dropWhile σ.dropped := List.drop_append_length
    rw [scan_append, heq, scan_drop, hdrop]

end Substitution

end FundingTool
