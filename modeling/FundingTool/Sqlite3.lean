import Mathlib.Init

/-!
# Python's `sqlite3` connections

What a connection adds to a database: the transaction it opens of itself before the first
statement that modifies data, unless its `isolation_level` is `None`, and the `with` block,
which commits an open transaction or rolls it back and otherwise does nothing.

The database is any type `τ`, a statement any function on it.  Without an isolation level
every statement is stored as it is done, and a batch that stops leaves a prefix; with one,
nothing is stored before the commit.
-/

namespace FundingTool.Sqlite3

variable {τ ρ : Type}

/-! ## 1. Connections -/

/-- `sqlite3.Connection`: what the file holds, and what an open transaction has made of it. -/
structure Connection (τ : Type) where
  isolationLevel : Option String
  stored : τ
  transaction : Option τ

def connect (isolationLevel : Option String) (stored : τ) : Connection τ :=
  ⟨isolationLevel, stored, none⟩

/-- What becomes of a statement; a process that dies does nothing any more. -/
inductive Fate
  | done
  | raises
  | dies
deriving DecidableEq, Repr

/-- How the body of a `with` block ends. -/
inductive Ending
  | returned
  | raised
  | died
deriving DecidableEq, Repr

namespace Connection

/-- The transaction opened before a statement that modifies data. -/
def beginImplicit (c : Connection τ) : Connection τ :=
  match c.isolationLevel, c.transaction with
  | some _, none => { c with transaction := some c.stored }
  | _, _ => c

/-- A statement that is done. -/
def modify (f : τ → τ) (c : Connection τ) : Connection τ :=
  match c.transaction with
  | none => { c with stored := f c.stored }
  | some t => { c with transaction := some (f t) }

/-- The statement for one row after the other; one that raises has no effect. -/
def runRows (insert : ρ → τ → τ) :
    List ρ → (Nat → Fate) → Connection τ → Connection τ × Ending
  | [], _, c => (c, .returned)
  | row :: rest, fate, c =>
      match fate 0 with
      | .done => runRows insert rest (fun n => fate (n + 1)) (c.modify (insert row))
      | .raises => (c, .raised)
      | .dies => (c, .died)

def executemany (insert : ρ → τ → τ) (rows : List ρ) (fate : Nat → Fate) (c : Connection τ) :
    Connection τ × Ending :=
  c.beginImplicit.runRows insert rows fate

/-- `__exit__`, where it is reached, with the fate of its commit. -/
def exit (c : Connection τ) (commit : Fate) : Ending → Connection τ
  | .returned =>
      match c.transaction, commit with
      | some t, .done => { c with stored := t, transaction := none }
      | _, _ => { c with transaction := none }
  | _ => { c with transaction := none }

end Connection

/-- `with connect(...) as conn: conn.executemany(...)`: what the file holds afterwards. -/
def withExecutemany (isolationLevel : Option String) (insert : ρ → τ → τ) (rows : List ρ)
    (fate : Nat → Fate) (stored : τ) : τ :=
  let (c, ending) := (connect isolationLevel stored).executemany insert rows fate
  (c.exit (fate rows.length) ending).stored

/-! ## 2. What is stored -/

/-- The statements done before the first one that is not. -/
def performed (fate : Nat → Fate) : Nat → Nat
  | 0 => 0
  | n + 1 =>
      match fate 0 with
      | .done => performed (fun n => fate (n + 1)) n + 1
      | _ => 0

/-- All rows inserted, in order. -/
def inserted (insert : ρ → τ → τ) : List ρ → τ → τ
  | [], t => t
  | row :: rest, t => inserted insert rest (insert row t)

theorem inserted_append (insert : ρ → τ → τ) (rows rows' : List ρ) (t : τ) :
    inserted insert (rows ++ rows') t = inserted insert rows' (inserted insert rows t) := by
  induction rows generalizing t with
  | nil => rfl
  | cons row rest ih => exact ih (insert row t)

theorem runRows_autocommit (insert : ρ → τ → τ) (rows : List ρ) (fate : Nat → Fate)
    {c : Connection τ} (h : c.transaction = none) :
    (c.runRows insert rows fate).1 =
      { c with stored := inserted insert (rows.take (performed fate rows.length)) c.stored } := by
  induction rows generalizing fate c with
  | nil => rfl
  | cons row rest ih =>
      simp only [Connection.runRows, List.length_cons, performed]
      rcases fate 0 with _ | _ | _
      · have hmodify : c.modify (insert row) = { c with stored := insert row c.stored } := by
          unfold Connection.modify
          rw [h]
        simp only [hmodify]
        exact ih _ h
      · rfl
      · rfl

theorem runRows_transaction (insert : ρ → τ → τ) (rows : List ρ) (fate : Nat → Fate)
    {c : Connection τ} {t : τ} (h : c.transaction = some t) :
    (c.runRows insert rows fate).1.stored = c.stored ∧
      ((c.runRows insert rows fate).2 = .returned →
        (c.runRows insert rows fate).1.transaction = some (inserted insert rows t)) := by
  induction rows generalizing fate c t with
  | nil => exact ⟨rfl, fun _ => h⟩
  | cons row rest ih =>
      simp only [Connection.runRows]
      rcases fate 0 with _ | _ | _
      · have hmodify : c.modify (insert row) = { c with transaction := some (insert row t) } := by
          unfold Connection.modify
          rw [h]
        simp only [hmodify]
        exact ih _ rfl
      · exact ⟨rfl, nofun⟩
      · exact ⟨rfl, nofun⟩

theorem withExecutemany_of_run {isolationLevel : Option String} {insert : ρ → τ → τ}
    {rows : List ρ} {fate : Nat → Fate} {stored : τ} {c : Connection τ} {ending : Ending}
    (h : (connect isolationLevel stored).executemany insert rows fate = (c, ending)) :
    withExecutemany isolationLevel insert rows fate stored =
      (c.exit (fate rows.length) ending).stored := by
  unfold withExecutemany
  rw [h]

/-- **In autocommit mode** the rows before the first failure are stored. -/
theorem withExecutemany_autocommit (insert : ρ → τ → τ) (rows : List ρ) (fate : Nat → Fate)
    (stored : τ) : withExecutemany none insert rows fate stored =
      inserted insert (rows.take (performed fate rows.length)) stored := by
  have hrows := runRows_autocommit insert rows fate (c := connect none stored) rfl
  rcases hrun : (connect none stored).executemany insert rows fate with ⟨c, ending⟩
  have hc : c = ⟨none, inserted insert (rows.take (performed fate rows.length)) stored, none⟩ :=
    (congrArg Prod.fst hrun).symm.trans hrows
  rw [withExecutemany_of_run hrun, hc]
  cases ending <;> rfl

/-- **With an isolation level** all rows are stored, or none. -/
theorem withExecutemany_transaction (level : String) (insert : ρ → τ → τ) (rows : List ρ)
    (fate : Nat → Fate) (stored : τ) :
    withExecutemany (some level) insert rows fate stored = stored ∨
      withExecutemany (some level) insert rows fate stored = inserted insert rows stored := by
  have hrows := runRows_transaction insert rows fate (c := ⟨some level, stored, some stored⟩) rfl
  rcases hrun : (connect (some level) stored).executemany insert rows fate with ⟨c, ending⟩
  have hbegun : (⟨some level, stored, some stored⟩ : Connection τ).runRows insert rows fate =
      (c, ending) := hrun
  rw [hbegun] at hrows
  obtain ⟨hstored, htransaction⟩ := hrows
  have hsame : c.stored = stored := hstored
  rw [withExecutemany_of_run hrun]
  cases ending with
  | returned =>
      have hopen : c.transaction = some (inserted insert rows stored) := htransaction rfl
      simp only [Connection.exit, hopen]
      rcases fate rows.length with _ | _ | _
      · exact Or.inr rfl
      · exact Or.inl hsame
      · exact Or.inl hsame
  | raised => exact Or.inl hsame
  | died => exact Or.inl hsame

end FundingTool.Sqlite3
