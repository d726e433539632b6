import Mathlib.Data.List.Nodup

/-!
# Insertion-ordered dictionaries

A finite map that remembers the order in which its keys arrived: assigning to a
present key keeps its place, a new key goes last.  No key occurs twice, and a value
of the type carries the proof of that.  Lookup is characterised once by membership
in the list of entries (`get?_eq_some_iff`); the operations are then described by
the entries they leave.
-/

namespace FundingTool

structure OrderedDict (κ ν : Type) where
  entries : List (κ × ν)
  nodup : (entries.map Prod.fst).Nodup

namespace OrderedDict

variable {κ ν : Type}

def empty : OrderedDict κ ν := ⟨[], List.nodup_nil⟩

def keys (d : OrderedDict κ ν) : List κ := d.entries.map Prod.fst

def filter (d : OrderedDict κ ν) (p : κ → ν → Bool) : OrderedDict κ ν where
  entries := d.entries.filter fun e => p e.1 e.2
  nodup := d.nodup.sublist (List.Sublist.map _ List.filter_sublist)

variable [DecidableEq κ]

def get? (d : OrderedDict κ ν) (k : κ) : Option ν :=
  (d.entries.find? fun e => decide (e.1 = k)).map Prod.snd

def erase (d : OrderedDict κ ν) (k : κ) : OrderedDict κ ν :=
  d.filter fun k' _ => decide (k' ≠ k)

/-- The entries after `d[k] = v`. -/
def assign (k : κ) (v : ν) : List (κ × ν) → List (κ × ν)
  | [] => [(k, v)]
  | (k', v') :: rest => if k' = k then (k, v) :: rest else (k', v') :: assign k v rest

theorem mem_keys_assign {k : κ} {v : ν} {entries : List (κ × ν)} {k' : κ} :
    k' ∈ (assign k v entries).map Prod.fst ↔ k' = k ∨ k' ∈ entries.map Prod.fst := by
  induction entries with
  | nil => simp [assign]
  | cons e rest ih =>
      obtain ⟨key, value⟩ := e
      by_cases h : key = k
      · subst h; simp [assign]
      · simp only [assign, if_neg h, List.map_cons, List.mem_cons, ih]
        exact or_left_comm

theorem nodup_assign {k : κ} {v : ν} {entries : List (κ × ν)}
    (h : (entries.map Prod.fst).Nodup) : ((assign k v entries).map Prod.fst).Nodup := by
  induction entries with
  | nil => simp [assign]
  | cons e rest ih =>
      obtain ⟨key, value⟩ := e
      simp only [List.map_cons, List.nodup_cons] at h
      by_cases hk : key = k
      · subst hk; simpa [assign] using h
      · simp only [assign, if_neg hk, List.map_cons, List.nodup_cons]
        refine ⟨?_, ih h.2⟩
        rw [mem_keys_assign]
        rintro (heq | hmem)
        · exact hk heq
        · exact h.1 hmem

def set (d : OrderedDict κ ν) (k : κ) (v : ν) : OrderedDict κ ν :=
  ⟨assign k v d.entries, nodup_assign d.nodup⟩

/-- `d[k] = v; d.move_to_end(k)` -/
def setLast (d : OrderedDict κ ν) (k : κ) (v : ν) : OrderedDict κ ν := (d.erase k).set k v

omit [DecidableEq κ] in
/-- `d.popitem(last=False)`, on a dictionary that may be empty. -/
def popFirst (d : OrderedDict κ ν) : OrderedDict κ ν :=
  ⟨d.entries.tail, d.nodup.sublist (List.Sublist.map _ (List.tail_sublist _))⟩

/-! ## Lookup -/

omit [DecidableEq κ] in
theorem entry_unique {entries : List (κ × ν)} (h : (entries.map Prod.fst).Nodup)
    {k : κ} {v w : ν} (hv : (k, v) ∈ entries) (hw : (k, w) ∈ entries) : v = w := by
  have := List.inj_on_of_nodup_map h hv hw rfl
  simpa using this

theorem get?_eq_some_iff {d : OrderedDict κ ν} {k : κ} {v : ν} :
    d.get? k = some v ↔ (k, v) ∈ d.entries := by
  unfold get?
  constructor
  · intro h
    rw [Option.map_eq_some_iff] at h
    obtain ⟨⟨key, value⟩, hfind, rfl⟩ := h
    have hkey : key = k := by simpa using List.find?_some hfind
    subst hkey
    exact List.mem_of_find?_eq_some hfind
  · intro h
    rcases hfind : d.entries.find? fun e => decide (e.1 = k) with _ | ⟨key, value⟩
    · rw [List.find?_eq_none] at hfind
      exact absurd (hfind _ h) (by simp)
    · have hkey : key = k := by simpa using List.find?_some hfind
      subst hkey
      have hvalue : value = v := entry_unique d.nodup (List.mem_of_find?_eq_some hfind) h
      rw [hfind, hvalue]
      rfl

theorem get?_eq_none_iff {d : OrderedDict κ ν} {k : κ} :
    d.get? k = none ↔ ∀ v, (k, v) ∉ d.entries := by
  constructor
  · intro h v hmem
    rw [get?_eq_some_iff.mpr hmem] at h
    simp at h
  · intro h
    rcases hget : d.get? k with _ | v
    · rfl
    · exact absurd (get?_eq_some_iff.mp hget) (h v)

@[simp] theorem get?_empty (k : κ) : (empty : OrderedDict κ ν).get? k = none := rfl

theorem mem_keys {d : OrderedDict κ ν} {k : κ} : k ∈ d.keys ↔ ∃ v, d.get? k = some v := by
  simp only [keys, List.mem_map, get?_eq_some_iff]
  constructor
  · rintro ⟨⟨key, value⟩, hmem, rfl⟩
    exact ⟨value, hmem⟩
  · rintro ⟨v, hmem⟩
    exact ⟨(k, v), hmem, rfl⟩

/-! ## What an assignment and a deletion leave -/

theorem assign_of_not_mem {k : κ} {v : ν} {entries : List (κ × ν)}
    (h : ∀ e ∈ entries, e.1 ≠ k) : assign k v entries = entries ++ [(k, v)] := by
  induction entries with
  | nil => rfl
  | cons e rest ih =>
      obtain ⟨key, value⟩ := e
      have hne : key ≠ k := h _ List.mem_cons_self
      have hrest : ∀ e ∈ rest, e.1 ≠ k := fun e he => h e (List.mem_cons_of_mem _ he)
      simp only [assign, if_neg hne, ih hrest, List.cons_append]

theorem mem_assign {entries : List (κ × ν)} (h : (entries.map Prod.fst).Nodup)
    {k k' : κ} {v v' : ν} : (k', v') ∈ assign k v entries ↔
      k' = k ∧ v' = v ∨ k' ≠ k ∧ (k', v') ∈ entries := by
  induction entries with
  | nil => simp [assign]
  | cons e rest ih =>
      obtain ⟨key, value⟩ := e
      simp only [List.map_cons, List.nodup_cons] at h
      by_cases hk : key = k
      · subst hk
        simp only [assign, if_true, List.mem_cons, Prod.mk.injEq]
        constructor
        · rintro (hnew | hold)
          · exact Or.inl hnew
          · have hne : k' ≠ key := by
              rintro rfl
              exact h.1 (List.mem_map_of_mem (f := Prod.fst) hold)
            exact Or.inr ⟨hne, Or.inr hold⟩
        · rintro (hnew | ⟨hne, hold | hold⟩)
          · exact Or.inl hnew
          · exact absurd hold.1 hne
          · exact Or.inr hold
      · simp only [assign, if_neg hk, List.mem_cons, Prod.mk.injEq, ih h.2]
        constructor
        · rintro (⟨rfl, rfl⟩ | hnew | ⟨hne, hold⟩)
          · exact Or.inr ⟨hk, Or.inl ⟨rfl, rfl⟩⟩
          · exact Or.inl hnew
          · exact Or.inr ⟨hne, Or.inr hold⟩
        · rintro (hnew | ⟨hne, hold | hold⟩)
          · exact Or.inr (Or.inl hnew)
          · exact Or.inl hold
          · exact Or.inr (Or.inr ⟨hne, hold⟩)

theorem mem_set {d : OrderedDict κ ν} {k k' : κ} {v v' : ν} :
    (k', v') ∈ (d.set k v).entries ↔ k' = k ∧ v' = v ∨ k' ≠ k ∧ (k', v') ∈ d.entries :=
  mem_assign d.nodup

theorem get?_set (d : OrderedDict κ ν) (k k' : κ) (v : ν) :
    (d.set k v).get? k' = if k' = k then some v else d.get? k' := by
  by_cases h : k' = k
  · rw [if_pos h, get?_eq_some_iff, mem_set]
    exact Or.inl ⟨h, rfl⟩
  · rw [if_neg h]
    apply Option.ext
    intro w
    rw [get?_eq_some_iff, get?_eq_some_iff, mem_set]
    simp [h]

@[simp] theorem get?_set_self (d : OrderedDict κ ν) (k : κ) (v : ν) :
    (d.set k v).get? k = some v := by
  rw [get?_set, if_pos rfl]

theorem get?_set_ne (d : OrderedDict κ ν) {k k' : κ} (v : ν) (h : k' ≠ k) :
    (d.set k v).get? k' = d.get? k' := by
  rw [get?_set, if_neg h]

omit [DecidableEq κ] in
theorem mem_filter {d : OrderedDict κ ν} {p : κ → ν → Bool} {k : κ} {v : ν} :
    (k, v) ∈ (d.filter p).entries ↔ (k, v) ∈ d.entries ∧ p k v = true := by
  simp [filter]

theorem get?_filter (d : OrderedDict κ ν) (p : κ → ν → Bool) (k : κ) :
    (d.filter p).get? k = (d.get? k).filter (p k) := by
  apply Option.ext
  intro v
  rw [get?_eq_some_iff, mem_filter, Option.filter_eq_some_iff, get?_eq_some_iff]

theorem mem_erase {d : OrderedDict κ ν} {k k' : κ} {v : ν} :
    (k', v) ∈ (d.erase k).entries ↔ (k', v) ∈ d.entries ∧ k' ≠ k := by
  simp [erase, mem_filter]

theorem get?_erase (d : OrderedDict κ ν) (k k' : κ) :
    (d.erase k).get? k' = if k' = k then none else d.get? k' := by
  by_cases h : k' = k
  · rw [if_pos h, get?_eq_none_iff]
    intro v hmem
    exact (mem_erase.mp hmem).2 h
  · rw [if_neg h]
    apply Option.ext
    intro w
    rw [get?_eq_some_iff, get?_eq_some_iff, mem_erase]
    simp [h]

@[simp] theorem get?_erase_self (d : OrderedDict κ ν) (k : κ) : (d.erase k).get? k = none := by
  rw [get?_erase, if_pos rfl]

theorem get?_erase_ne (d : OrderedDict κ ν) {k k' : κ} (h : k' ≠ k) :
    (d.erase k).get? k' = d.get? k' := by
  rw [get?_erase, if_neg h]

theorem get?_setLast (d : OrderedDict κ ν) (k k' : κ) (v : ν) :
    (d.setLast k v).get? k' = if k' = k then some v else d.get? k' := by
  rw [setLast, get?_set, get?_erase]
  by_cases h : k' = k
  · rw [if_pos h, if_pos h]
  · rw [if_neg h, if_neg h, if_neg h]

omit [DecidableEq κ] in
theorem length_le_one {d : OrderedDict κ ν} {k : κ} (h : ∀ e ∈ d.entries, e.1 = k) :
    d.entries.length ≤ 1 := by
  have hnodup := d.nodup
  rcases hentries : d.entries with _ | ⟨first, _ | ⟨second, rest⟩⟩
  · simp
  · simp
  · rw [hentries] at h hnodup
    have heq : first.1 = second.1 := (h first (by simp)).trans (h second (by simp)).symm
    simp [heq] at hnodup

/-! ## A function of the values -/

section Map

variable {μ : Type}

omit [DecidableEq κ] in
theorem keys_map_entries (entries : List (κ × ν)) (f : ν → μ) :
    (entries.map (Prod.map id f)).map Prod.fst = entries.map Prod.fst := by
  rw [List.map_map]
  rfl

/-- Every value replaced by a function of it. -/
def map (d : OrderedDict κ ν) (f : ν → μ) : OrderedDict κ μ where
  entries := d.entries.map (Prod.map id f)
  nodup := by rw [keys_map_entries]; exact d.nodup

omit [DecidableEq κ] in
theorem ext_entries {d d' : OrderedDict κ ν} (h : d.entries = d'.entries) : d = d' := by
  obtain ⟨entries, nodup⟩ := d
  obtain ⟨entries', nodup'⟩ := d'
  simp only at h
  subst h
  rfl

omit [DecidableEq κ] in
theorem keys_map (d : OrderedDict κ ν) (f : ν → μ) : (d.map f).keys = d.keys :=
  keys_map_entries d.entries f

theorem get?_map (d : OrderedDict κ ν) (f : ν → μ) (k : κ) :
    (d.map f).get? k = (d.get? k).map f := by
  simp only [get?, map, List.find?_map, Option.map_map]
  rfl

theorem map_assign (k : κ) (v : ν) (entries : List (κ × ν)) (f : ν → μ) :
    (assign k v entries).map (Prod.map id f) = assign k (f v) (entries.map (Prod.map id f)) := by
  induction entries with
  | nil => rfl
  | cons e rest ih =>
      obtain ⟨key, value⟩ := e
      by_cases h : key = k
      · simp [assign, h]
      · simp [assign, h, ih]

theorem map_set (d : OrderedDict κ ν) (f : ν → μ) (k : κ) (v : ν) :
    (d.set k v).map f = (d.map f).set k (f v) :=
  ext_entries (map_assign k v d.entries f)

omit [DecidableEq κ] in
theorem map_filter_keys (d : OrderedDict κ ν) (f : ν → μ) (keep : κ → Bool) :
    (d.filter fun k _ => keep k).map f = (d.map f).filter fun k _ => keep k := by
  apply ext_entries
  simp only [map, filter, List.filter_map]
  rfl

theorem map_erase (d : OrderedDict κ ν) (f : ν → μ) (k : κ) :
    (d.erase k).map f = (d.map f).erase k :=
  map_filter_keys d f fun k' => decide (k' ≠ k)

end Map

/-! ## From entries -/

/-- `dict(entries)`: of two entries with one key the later counts. -/
def ofEntries (entries : List (κ × ν)) : OrderedDict κ ν :=
  entries.foldl (fun d e => d.set e.1 e.2) empty

theorem entries_foldl_set {entries : List (κ × ν)} {d : OrderedDict κ ν}
    (h : ((d.entries ++ entries).map Prod.fst).Nodup) :
    (entries.foldl (fun d e => d.set e.1 e.2) d).entries = d.entries ++ entries := by
  induction entries generalizing d with
  | nil => exact (List.append_nil _).symm
  | cons e rest ih =>
      have hnew : ∀ e' ∈ d.entries, e'.1 ≠ e.1 := by
        intro e' he' hsame
        rw [List.map_append, List.nodup_append] at h
        exact h.2.2 _ (List.mem_map_of_mem he') _ (List.mem_map_of_mem List.mem_cons_self) hsame
      have hset : (d.set e.1 e.2).entries = d.entries ++ [e] := assign_of_not_mem hnew
      rw [List.foldl_cons, ih (by simpa [hset] using h), hset]
      simp

/-- A dictionary is made again from its entries. -/
theorem ofEntries_entries (d : OrderedDict κ ν) : ofEntries d.entries = d :=
  ext_entries (entries_foldl_set d.nodup)

end OrderedDict

/-- Reading a list of which every item can be read. -/
theorem mapM_some {α β : Type} {read : α → Option β} {f : α → β} {items : List α}
    (h : ∀ a ∈ items, read a = some (f a)) : items.mapM read = some (items.map f) := by
  induction items with
  | nil => rfl
  | cons a rest ih =>
      have hrest := ih fun a ha => h a (List.mem_cons_of_mem _ ha)
      simp [h a List.mem_cons_self, hrest]

end FundingTool
