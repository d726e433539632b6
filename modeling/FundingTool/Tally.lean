import Mathlib.Algebra.BigOperators.Group.List.Basic
import FundingTool.OrderedDict

/-!
# Sums by key

Items with a key are added up in a dictionary whose missing values count as zero.  The value
of a key is the sum of its items (`get?_ofItems`), whatever the order (`get?_ofItems_perm`),
and the values together are the sum of all (`total_ofItems`).
-/

namespace FundingTool.OrderedDict

variable {κ μ : Type}

section Values

variable [AddCommMonoid μ]

/-- The sum of the values. -/
def total (d : OrderedDict κ μ) : μ := (d.entries.map Prod.snd).sum

/-- The sum of two values, of which either may be missing. -/
def addValues : Option μ → Option μ → Option μ
  | none, y => y
  | x, none => x
  | some x, some y => some (x + y)

end Values

variable [DecidableEq κ] [AddCommMonoid μ]

/-- `d[key] += x` -/
def tally (d : OrderedDict κ μ) (item : κ × μ) : OrderedDict κ μ :=
  d.set item.1 ((d.get? item.1).getD 0 + item.2)

def ofItems (items : List (κ × μ)) : OrderedDict κ μ := items.foldl tally empty

/-- The sum of the items of a key. -/
def share (items : List (κ × μ)) (k : κ) : μ :=
  ((items.filter fun item => decide (item.1 = k)).map Prod.snd).sum

/-! ## 1. One item -/

theorem sum_assign (k : κ) (x : μ) (entries : List (κ × μ)) :
    ((assign k (((entries.find? fun e => decide (e.1 = k)).map Prod.snd).getD 0 + x)
        entries).map Prod.snd).sum =
      (entries.map Prod.snd).sum + x := by
  induction entries with
  | nil => simp [assign]
  | cons e rest ih =>
      obtain ⟨key, value⟩ := e
      by_cases h : key = k
      · rw [List.find?_cons_of_pos (by exact decide_eq_true h), assign, if_pos h]
        simp only [Option.map_some, Option.getD_some, List.map_cons, List.sum_cons]
        rw [add_right_comm]
      · rw [List.find?_cons_of_neg (by simpa using h), assign, if_neg h]
        simp only [List.map_cons, List.sum_cons]
        rw [ih, add_assoc]

theorem total_tally (d : OrderedDict κ μ) (item : κ × μ) :
    (d.tally item).total = d.total + item.2 :=
  sum_assign item.1 item.2 d.entries

theorem get?_tally (d : OrderedDict κ μ) (item : κ × μ) (k : κ) :
    (d.tally item).get? k =
      if k = item.1 then some ((d.get? item.1).getD 0 + item.2) else d.get? k :=
  get?_set d item.1 k _

/-! ## 2. Any number of items -/

theorem share_cons (item : κ × μ) (items : List (κ × μ)) (k : κ) :
    share (item :: items) k = (if item.1 = k then item.2 else 0) + share items k := by
  unfold share
  by_cases h : item.1 = k
  · rw [List.filter_cons_of_pos (by exact decide_eq_true h), if_pos h, List.map_cons,
      List.sum_cons]
  · rw [List.filter_cons_of_neg (by simpa using h), if_neg h, zero_add]

theorem share_append (items more : List (κ × μ)) (k : κ) :
    share (items ++ more) k = share items k + share more k := by
  unfold share
  rw [List.filter_append, List.map_append, List.sum_append]

theorem share_of_not_mem {items : List (κ × μ)} {k : κ} (h : k ∉ items.map Prod.fst) :
    share items k = 0 := by
  have hnone : items.filter (fun item => decide (item.1 = k)) = [] := by
    rw [List.filter_eq_nil_iff]
    intro item hitem hkey
    exact h (List.mem_map.mpr ⟨item, hitem, of_decide_eq_true hkey⟩)
  rw [share, hnone, List.map_nil, List.sum_nil]

theorem total_foldl_tally (d : OrderedDict κ μ) (items : List (κ × μ)) :
    (items.foldl tally d).total = d.total + (items.map Prod.snd).sum := by
  induction items generalizing d with
  | nil => rw [List.foldl_nil, List.map_nil, List.sum_nil, add_zero]
  | cons item items ih =>
      rw [List.foldl_cons, ih, total_tally, List.map_cons, List.sum_cons, add_assoc]

theorem get?_foldl_tally (d : OrderedDict κ μ) (items : List (κ × μ)) (k : κ) :
    (items.foldl tally d).get? k =
      if k ∈ items.map Prod.fst then some ((d.get? k).getD 0 + share items k)
      else d.get? k := by
  induction items generalizing d with
  | nil => rfl
  | cons item items ih =>
      rw [List.foldl_cons, ih, get?_tally, share_cons, List.map_cons]
      simp only [List.mem_cons]
      by_cases hown : k = item.1
      · subst hown
        rw [if_pos rfl, if_pos rfl, if_pos (Or.inl rfl)]
        by_cases hlater : item.1 ∈ items.map Prod.fst
        · rw [if_pos hlater, Option.getD_some, add_assoc]
        · rw [if_neg hlater, share_of_not_mem hlater, add_zero]
      · have hother : ¬ item.1 = k := fun h => hown h.symm
        rw [if_neg hown, if_neg hother, zero_add]
        simp only [hown, false_or]

/-- **The values together** are the sum of all items. -/
theorem total_ofItems (items : List (κ × μ)) :
    (ofItems items).total = (items.map Prod.snd).sum := by
  have hempty : (empty : OrderedDict κ μ).total = 0 := rfl
  rw [ofItems, total_foldl_tally, hempty, zero_add]

/-- **The value of a key** is the sum of its items; a key without items has none. -/
theorem get?_ofItems (items : List (κ × μ)) (k : κ) :
    (ofItems items).get? k =
      if k ∈ items.map Prod.fst then some (share items k) else none := by
  rw [ofItems, get?_foldl_tally, get?_empty, Option.getD_none, zero_add]

theorem get?_ofItems_perm {items items' : List (κ × μ)} (h : items'.Perm items) (k : κ) :
    (ofItems items').get? k = (ofItems items).get? k := by
  have hshare : share items' k = share items k := ((h.filter _).map Prod.snd).sum_eq
  have hmem : k ∈ items'.map Prod.fst ↔ k ∈ items.map Prod.fst := (h.map Prod.fst).mem_iff
  simp only [get?_ofItems, hshare, hmem]

/-- **Two lists one after the other** add up key by key. -/
theorem get?_ofItems_append (items more : List (κ × μ)) (k : κ) :
    (ofItems (items ++ more)).get? k =
      addValues ((ofItems items).get? k) ((ofItems more).get? k) := by
  rw [get?_ofItems, get?_ofItems, get?_ofItems, share_append, List.map_append]
  simp only [List.mem_append]
  by_cases hleft : k ∈ items.map Prod.fst
  · rw [if_pos (Or.inl hleft), if_pos hleft]
    by_cases hright : k ∈ more.map Prod.fst
    · rw [if_pos hright]
      rfl
    · rw [if_neg hright, share_of_not_mem hright, add_zero]
      rfl
  · rw [if_neg hleft, share_of_not_mem hleft, zero_add]
    simp only [hleft, false_or]
    rfl

end FundingTool.OrderedDict
