import FundingTool.OrderedDict
import Mathlib.Data.List.Dedup
import Mathlib.Data.List.Perm.Subperm

/-!
# Dictionaries that forget the entry unused for longest

An ordered dictionary whose assignments move the key to the end, and which drops its first
entry when it has grown past a bound.  A key is forgotten only when at least as many other
keys as the bound have been assigned since its own last assignment.
-/

namespace FundingTool.OrderedDict

variable {κ ν : Type}

/-- The number of different elements of a list. -/
def distinct [DecidableEq κ] (keys : List κ) : Nat := keys.dedup.length

/-- `if len(d) > bound: d.popitem(last=False)` -/
def evictOver (bound : Nat) (d : OrderedDict κ ν) : OrderedDict κ ν :=
  if d.entries.length > bound then d.popFirst else d

/-- The key is there, and every entry after it has one of these keys. -/
def UsedBefore (d : OrderedDict κ ν) (k : κ) (v : ν) (later : List κ) : Prop :=
  ∃ before after, d.entries = before ++ (k, v) :: after ∧ ∀ e ∈ after, e.1 ∈ later

theorem length_evictOver {bound : Nat} {d : OrderedDict κ ν} (h : d.entries.length ≤ bound + 1) :
    (d.evictOver bound).entries.length ≤ bound := by
  unfold evictOver
  by_cases hover : d.entries.length > bound
  · rw [if_pos hover]
    simp only [popFirst, List.length_tail]
    omega
  · rw [if_neg hover]
    exact Nat.le_of_not_lt hover

theorem mem_evictOver {bound : Nat} {d : OrderedDict κ ν} {e : κ × ν}
    (h : e ∈ (d.evictOver bound).entries) : e ∈ d.entries := by
  unfold evictOver at h
  by_cases hover : d.entries.length > bound
  · rw [if_pos hover] at h
    exact List.mem_of_mem_tail h
  · rw [if_neg hover] at h
    exact h

variable [DecidableEq κ]

theorem UsedBefore.get? {d : OrderedDict κ ν} {k : κ} {v : ν} {later : List κ}
    (h : d.UsedBefore k v later) : d.get? k = some v := by
  obtain ⟨before, after, hentries, -⟩ := h
  rw [get?_eq_some_iff, hentries]
  exact List.mem_append_right _ List.mem_cons_self

/-- An eviction forgets keys and changes no value. -/
theorem get?_evictOver (bound : Nat) (d : OrderedDict κ ν) (k : κ) :
    (d.evictOver bound).get? k = d.get? k ∨ (d.evictOver bound).get? k = none := by
  rcases hget : (d.evictOver bound).get? k with _ | v
  · exact Or.inr rfl
  · exact Or.inl (get?_eq_some_iff.mpr (mem_evictOver (get?_eq_some_iff.mp hget))).symm

theorem entries_setLast (d : OrderedDict κ ν) (k : κ) (v : ν) :
    (d.setLast k v).entries = d.entries.filter (fun e => decide (e.1 ≠ k)) ++ [(k, v)] := by
  apply assign_of_not_mem
  intro e he
  exact (mem_erase.mp he).2

/-- Of two assignments of a key in a row the second counts. -/
theorem setLast_setLast (d : OrderedDict κ ν) (k : κ) (v w : ν) :
    (d.setLast k v).setLast k w = d.setLast k w := by
  apply ext_entries
  rw [entries_setLast, entries_setLast, entries_setLast, List.filter_append, List.filter_filter]
  simp

theorem length_setLast (d : OrderedDict κ ν) (k : κ) (v : ν) :
    (d.setLast k v).entries.length ≤ d.entries.length + 1 := by
  rw [entries_setLast, List.length_append]
  exact Nat.add_le_add_right (List.length_filter_le _ _) 1

theorem length_setLast_of_mem {d : OrderedDict κ ν} {k : κ} {w : ν} (h : d.get? k = some w)
    (v : ν) : (d.setLast k v).entries.length ≤ d.entries.length := by
  have hmem := get?_eq_some_iff.mp h
  have hlt : (d.entries.filter fun e => decide (e.1 ≠ k)).length < d.entries.length := by
    rw [List.length_filter_lt_length_iff_exists]
    exact ⟨(k, w), hmem, by simp⟩
  rw [entries_setLast, List.length_append]
  exact hlt

theorem usedBefore_setLast_self (d : OrderedDict κ ν) (k : κ) (v : ν) :
    (d.setLast k v).UsedBefore k v [] :=
  ⟨_, [], entries_setLast d k v, nofun⟩

/-- Another key that is assigned comes after the key. -/
theorem UsedBefore.setLast {d : OrderedDict κ ν} {k : κ} {v : ν} {later : List κ}
    (h : d.UsedBefore k v later) {other : κ} (hne : other ≠ k) (w : ν) :
    (d.setLast other w).UsedBefore k v (later ++ [other]) := by
  obtain ⟨before, after, hentries, hafter⟩ := h
  refine ⟨before.filter fun e => decide (e.1 ≠ other),
    after.filter (fun e => decide (e.1 ≠ other)) ++ [(other, w)], ?_, ?_⟩
  · have hkept : decide ((k, v).1 ≠ other) = true := decide_eq_true (Ne.symm hne)
    rw [entries_setLast, hentries, List.filter_append, List.filter_cons, if_pos hkept,
      List.append_assoc, List.cons_append]
  · intro e he
    rcases List.mem_append.mp he with hold | hnew
    · exact List.mem_append_left _ (hafter e (List.mem_of_mem_filter hold))
    · rw [List.mem_singleton.mp hnew]
      exact List.mem_append_right _ List.mem_cons_self

omit [DecidableEq κ] in
theorem UsedBefore.mono {d : OrderedDict κ ν} {k : κ} {v : ν} {later later' : List κ}
    (h : d.UsedBefore k v later) (hsub : ∀ key ∈ later, key ∈ later') :
    d.UsedBefore k v later' := by
  obtain ⟨before, after, hentries, hafter⟩ := h
  exact ⟨before, after, hentries, fun e he => hsub _ (hafter e he)⟩

/-- **Who is evicted.**  A key stays while fewer other keys than the bound were assigned
    after it. -/
theorem UsedBefore.evictOver {d : OrderedDict κ ν} {k : κ} {v : ν} {later : List κ}
    (h : d.UsedBefore k v later) {bound : Nat} (hfew : distinct later < bound) :
    (d.evictOver bound).UsedBefore k v later := by
  obtain ⟨before, after, hentries, hafter⟩ := h
  unfold OrderedDict.evictOver
  by_cases hover : d.entries.length > bound
  · rw [if_pos hover]
    have hnodup := d.nodup
    rw [hentries, List.map_append, List.map_cons] at hnodup
    have hafterNodup : (after.map Prod.fst).Nodup :=
      (List.nodup_cons.mp (List.nodup_append.mp hnodup).2.1).2
    have hsub : after.map Prod.fst ⊆ later.dedup := by
      intro key hkey
      obtain ⟨e, he, rfl⟩ := List.mem_map.mp hkey
      exact List.mem_dedup.mpr (hafter e he)
    have hshort : (after.map Prod.fst).length ≤ distinct later :=
      (hafterNodup.subperm hsub).length_le
    rw [List.length_map] at hshort
    -- So the first entry is not the one of the key.
    rcases before with _ | ⟨first, rest⟩
    · rw [hentries, List.nil_append, List.length_cons] at hover
      omega
    · refine ⟨rest, after, ?_, hafter⟩
      simp only [popFirst, hentries, List.cons_append, List.tail_cons]
  · rw [if_neg hover]
    exact ⟨before, after, hentries, hafter⟩

end FundingTool.OrderedDict
