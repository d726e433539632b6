import Mathlib.Init

/-!
# Reading comma-separated values (RFC 4180)

A file is a sequence of records, one a line; a record is a sequence of cells, separated by
commas.  A cell stands as it is, or between quotes; between quotes any character may stand,
and a quote is doubled.  A line ends with CR LF or with LF alone, and the last one may lack
its end.

`read` is the reader as a machine over the characters, `Written` what a cell may be written
as.  `read_join` says that a table of which every row has two cells or more is read back,
whichever way each cell is written.  A row of one empty cell at the end of a file cannot be
told from the end of the line before it.  Where every line has its end, as in `read_lines`, a
row has to have a cell.
-/

namespace FundingTool.Rfc4180

variable {α : Type} [DecidableEq α]

/-! ## 1. The reader -/

/-- The four characters with a meaning. -/
structure Marks (α : Type) where
  comma : α
  quote : α
  lf : α
  cr : α
  distinct : [comma, quote, lf, cr].Nodup

/-- Where the reader stands: before a cell, in a plain one, between quotes, after a quote that
    ends them or is the first of two, or between CR and LF. -/
inductive Mode
  | start
  | plain
  | quoted
  | quoteSeen
  | crSeen
deriving DecidableEq, Repr

structure Reader (α : Type) where
  mode : Mode
  cell : List α
  row : List (List α)
  table : List (List (List α))

namespace Reader

def empty : Reader α := ⟨.start, [], [], []⟩

def endCell (r : Reader α) : Reader α := ⟨.start, [], r.row ++ [r.cell], r.table⟩

def endRow (r : Reader α) : Reader α := ⟨.start, [], [], r.table ++ [r.row ++ [r.cell]]⟩

def push (r : Reader α) (mode : Mode) (c : α) : Reader α :=
  { r with mode := mode, cell := r.cell ++ [c] }

/-- What ends a cell; anything else is left to `other`. -/
def separator (m : Marks α) (r : Reader α) (c : α) (other : Option (Reader α)) :
    Option (Reader α) :=
  if c = m.comma then some r.endCell
  else if c = m.lf then some r.endRow
  else if c = m.cr then some { r with mode := .crSeen }
  else other

/-- One character; `none` where the text is not of the format. -/
def step (m : Marks α) (r : Reader α) (c : α) : Option (Reader α) :=
  match r.mode with
  | .start =>
      if c = m.quote then some { r with mode := .quoted }
      else r.separator m c (some (r.push .plain c))
  | .plain => if c = m.quote then none else r.separator m c (some (r.push .plain c))
  | .quoted =>
      if c = m.quote then some { r with mode := .quoteSeen } else some (r.push .quoted c)
  | .quoteSeen => if c = m.quote then some (r.push .quoted c) else r.separator m c none
  | .crSeen => if c = m.lf then some r.endRow else none

/-- The end of the text: of a cell that has begun, or of a line. -/
def finish (r : Reader α) : Option (List (List (List α))) :=
  match r.mode with
  | .quoted => none
  | .crSeen => none
  | .start => if r.row = [] then some r.table else some r.endRow.table
  | _ => some r.endRow.table

def run (m : Marks α) : Reader α → List α → Option (Reader α)
  | r, [] => some r
  | r, c :: rest => (r.step m c).bind fun r' => r'.run m rest

end Reader

def read (m : Marks α) (text : List α) : Option (List (List (List α))) :=
  (Reader.empty.run m text).bind Reader.finish

/-! ## 2. Writing -/

/-- Every quote twice. -/
def double (m : Marks α) (cell : List α) : List α :=
  cell.flatMap fun c => if c = m.quote then [c, c] else [c]

def isMark (m : Marks α) (c : α) : Bool :=
  c = m.comma || c = m.quote || c = m.lf || c = m.cr

/-- A cell between quotes, or as it is where it has none of the marks. -/
def Written (m : Marks α) (cell text : List α) : Prop :=
  text = m.quote :: (double m cell ++ [m.quote]) ∨ text = cell ∧ ∀ c ∈ cell, isMark m c = false

/-- The pieces with a separator between them. -/
def join (separator : α) : List (List α) → List α
  | [] => []
  | [piece] => piece
  | piece :: next :: rest => piece ++ separator :: join separator (next :: rest)

/-! ## 3. Reading what is written -/

section

variable {m : Marks α} {r : Reader α}

omit [DecidableEq α] in
theorem Marks.ne (m : Marks α) : m.comma ≠ m.quote ∧ m.lf ≠ m.quote ∧ m.lf ≠ m.comma := by
  have hdistinct := m.distinct
  simp only [List.nodup_cons, List.mem_cons, List.not_mem_nil, or_false, not_or] at hdistinct
  obtain ⟨⟨hquote, hlf, -⟩, ⟨hquoteLf, -⟩, -⟩ := hdistinct
  exact ⟨hquote, Ne.symm hquoteLf, Ne.symm hlf⟩

theorem run_append (m : Marks α) (r : Reader α) (text rest : List α) :
    r.run m (text ++ rest) = (r.run m text).bind fun r' => r'.run m rest := by
  induction text generalizing r with
  | nil => rfl
  | cons c cs ih =>
      rw [List.cons_append, Reader.run, Reader.run]
      rcases r.step m c with _ | next
      · rfl
      · exact ih next

/-- The reader has read the cell and nothing after it. -/
def Reader.HasRead (r : Reader α) (cell : List α) : Prop :=
  r.cell = cell ∧ (r.mode = .start ∧ cell = [] ∨ r.mode = .plain ∨ r.mode = .quoteSeen)

theorem isMark_iff {c : α} :
    isMark m c = false ↔ c ≠ m.comma ∧ c ≠ m.quote ∧ c ≠ m.lf ∧ c ≠ m.cr := by
  simp only [isMark, Bool.or_eq_false_iff, decide_eq_false_iff_not, and_assoc]

theorem separator_other {c : α} (hc : isMark m c = false) (other : Option (Reader α)) :
    r.separator m c other = other := by
  obtain ⟨hcomma, -, hlf, hcr⟩ := isMark_iff.mp hc
  rw [Reader.separator, if_neg hcomma, if_neg hlf, if_neg hcr]

/-- A plain cell, from its second character on. -/
theorem run_plain {cell : List α} (hcell : ∀ c ∈ cell, isMark m c = false)
    (hmode : r.mode = .plain) :
    r.run m cell = some { r with mode := .plain, cell := r.cell ++ cell } := by
  induction cell generalizing r with
  | nil =>
      rw [List.append_nil, ← hmode]
      rfl
  | cons c cs ih =>
      have hc := hcell c List.mem_cons_self
      have hstep : r.step m c = some (r.push .plain c) := by
        rw [Reader.step, hmode]
        simp only
        rw [if_neg (isMark_iff.mp hc).2.1, separator_other hc]
      rw [Reader.run, hstep, Option.bind_some,
        ih (fun d hd => hcell d (List.mem_cons_of_mem c hd)) rfl]
      simp only [Reader.push, List.append_assoc, List.singleton_append]

theorem run_unquoted {cell : List α} (hcell : ∀ c ∈ cell, isMark m c = false)
    (hmode : r.mode = .start) (hempty : r.cell = []) :
    ∃ r', r.run m cell = some r' ∧ r'.HasRead cell ∧ r'.row = r.row ∧ r'.table = r.table := by
  rcases cell with _ | ⟨c, cs⟩
  · exact ⟨r, rfl, ⟨hempty, .inl ⟨hmode, rfl⟩⟩, rfl, rfl⟩
  · have hc := hcell c List.mem_cons_self
    have hstep : r.step m c = some (r.push .plain c) := by
      rw [Reader.step, hmode]
      simp only
      rw [if_neg (isMark_iff.mp hc).2.1, separator_other hc]
    refine ⟨{ r with mode := .plain, cell := c :: cs }, ?_, ⟨rfl, .inr (.inl rfl)⟩, rfl, rfl⟩
    rw [Reader.run, hstep, Option.bind_some,
      run_plain (fun d hd => hcell d (List.mem_cons_of_mem c hd)) rfl]
    simp only [Reader.push, hempty, List.nil_append, List.singleton_append]

/-- Between quotes every character is read as it is, and two quotes as one. -/
theorem run_double (m : Marks α) (cell : List α) (hmode : r.mode = .quoted) :
    r.run m (double m cell) = some { r with cell := r.cell ++ cell } := by
  induction cell generalizing r with
  | nil =>
      rw [List.append_nil]
      rfl
  | cons c cs ih =>
      have hread : r.run m (if c = m.quote then [c, c] else [c]) = some (r.push .quoted c) := by
        by_cases hc : c = m.quote
        · rw [if_pos hc]
          simp only [Reader.run, Reader.step, hmode, if_pos hc, Option.bind_some, Reader.push]
        · rw [if_neg hc]
          simp only [Reader.run, Reader.step, hmode, if_neg hc, Option.bind_some]
      have hsplit : double m (c :: cs) =
          (if c = m.quote then [c, c] else [c]) ++ double m cs := List.flatMap_cons
      rw [hsplit, run_append, hread, Option.bind_some, ih rfl]
      simp only [Reader.push, List.append_assoc, List.singleton_append, hmode]

theorem run_quoted (m : Marks α) (cell : List α) (hmode : r.mode = .start)
    (hempty : r.cell = []) :
    ∃ r', r.run m (m.quote :: (double m cell ++ [m.quote])) = some r' ∧ r'.HasRead cell ∧
      r'.row = r.row ∧ r'.table = r.table := by
  refine ⟨{ r with mode := .quoteSeen, cell := cell }, ?_, ⟨rfl, .inr (.inr rfl)⟩, rfl, rfl⟩
  have hopen : r.step m m.quote = some { r with mode := .quoted } := by
    rw [Reader.step, hmode]
    exact if_pos rfl
  rw [Reader.run, hopen, Option.bind_some, run_append, run_double m cell rfl, Option.bind_some,
    hempty, List.nil_append]
  simp only [Reader.run, Reader.step, if_pos, Option.bind_some]

/-- **A cell is read**, whichever way it is written. -/
theorem run_written {cell text : List α} (h : Written m cell text) (hmode : r.mode = .start)
    (hempty : r.cell = []) :
    ∃ r', r.run m text = some r' ∧ r'.HasRead cell ∧ r'.row = r.row ∧ r'.table = r.table := by
  rcases h with rfl | ⟨rfl, hcell⟩
  · exact run_quoted m cell hmode hempty
  · exact run_unquoted hcell hmode hempty

theorem step_comma {cell : List α} (h : r.HasRead cell) : r.step m m.comma = some r.endCell := by
  obtain ⟨-, ⟨hmode, -⟩ | hmode | hmode⟩ := h <;> rw [Reader.step, hmode] <;> simp only <;>
    rw [if_neg m.ne.1, Reader.separator, if_pos rfl]

theorem step_lf {cell : List α} (h : r.HasRead cell) : r.step m m.lf = some r.endRow := by
  obtain ⟨-, ⟨hmode, -⟩ | hmode | hmode⟩ := h <;> rw [Reader.step, hmode] <;> simp only <;>
    rw [if_neg m.ne.2.1, Reader.separator, if_neg m.ne.2.2, if_pos rfl]

omit [DecidableEq α] in
theorem finish_of_hasRead {cell : List α} (h : r.HasRead cell) (hrow : r.row ≠ []) :
    r.finish = some r.endRow.table := by
  obtain ⟨-, ⟨hmode, -⟩ | hmode | hmode⟩ := h <;> rw [Reader.finish, hmode]
  exact if_neg hrow

end

/-! ## 4. Rows and tables -/

section

variable {m : Marks α} {r : Reader α} {print : List α → List α}

/-- The cells of a row, up to the end of the last one. -/
theorem run_row (hprint : ∀ cell, Written m cell (print cell)) (first : List α)
    (rest : List (List α)) (hmode : r.mode = .start) (hempty : r.cell = []) :
    ∃ r' cell, r.run m (join m.comma ((first :: rest).map print)) = some r' ∧
      r'.HasRead cell ∧ r'.row ++ [cell] = r.row ++ first :: rest ∧
      r'.row.length = r.row.length + rest.length ∧ r'.table = r.table := by
  induction rest generalizing first r with
  | nil =>
      obtain ⟨r', hrun, hread, hrow, htable⟩ := @run_written α _ m r _ _ (hprint first) hmode hempty
      exact ⟨r', first, hrun, hread, by rw [hrow], by rw [hrow]; rfl, htable⟩
  | cons second rest ih =>
      obtain ⟨r₁, hrun₁, hread₁, hrow₁, htable₁⟩ :=
        @run_written α _ m r _ _ (hprint first) hmode hempty
      obtain ⟨r', cell, hrun, hread, hcells, hlength, htable⟩ :=
        @ih r₁.endCell second rfl rfl
      refine ⟨r', cell, ?_, hread, ?_, ?_, htable.trans htable₁⟩
      · have hsplit : join m.comma ((first :: second :: rest).map print) =
            print first ++ m.comma :: join m.comma ((second :: rest).map print) := rfl
        rw [hsplit, run_append, hrun₁, Option.bind_some, Reader.run, step_comma hread₁,
          Option.bind_some]
        exact hrun
      · rw [hcells]
        simp only [Reader.endCell, hread₁.1, hrow₁, List.append_assoc, List.singleton_append]
      · rw [hlength]
        simp only [Reader.endCell, hrow₁, List.length_append, List.length_cons, List.length_nil]
        omega

/-- The rows of a table, up to the end of the last cell. -/
theorem run_table (hprint : ∀ cell, Written m cell (print cell)) (first : List (List α))
    (rest : List (List (List α))) (hwide : ∀ row ∈ first :: rest, 2 ≤ row.length)
    (hstart : r.mode = .start ∧ r.cell = [] ∧ r.row = []) :
    ∃ r' cell, r.run m (join m.lf ((first :: rest).map fun row =>
        join m.comma (row.map print))) = some r' ∧
      r'.HasRead cell ∧ r'.row ≠ [] ∧ r'.endRow.table = r.table ++ first :: rest := by
  obtain ⟨hmode, hempty, hrow⟩ := hstart
  induction rest generalizing first r with
  | nil =>
      have hlength := hwide first List.mem_cons_self
      rcases first with _ | ⟨head, tail⟩
      · exact absurd hlength (Nat.not_succ_le_zero 1)
      obtain ⟨r', cell, hrun, hread, hcells, hcount, htable⟩ :=
        run_row hprint head tail hmode hempty
      refine ⟨r', cell, hrun, hread, ?_, ?_⟩
      · rintro hnil
        rw [hnil, hrow, List.length_nil] at hcount
        rw [List.length_cons] at hlength
        omega
      · rw [Reader.endRow, hread.1, hcells, htable, hrow, List.nil_append]
  | cons second rest ih =>
      have hlength := hwide first List.mem_cons_self
      rcases first with _ | ⟨head, tail⟩
      · exact absurd hlength (Nat.not_succ_le_zero 1)
      obtain ⟨r₁, cell₁, hrun₁, hread₁, hcells₁, -, htable₁⟩ :=
        run_row hprint head tail hmode hempty
      have hend : r₁.endRow.table = r.table ++ [head :: tail] := by
        rw [Reader.endRow, hread₁.1, hcells₁, htable₁, hrow, List.nil_append]
      obtain ⟨r', cell, hrun, hread, hne, htable⟩ :=
        @ih r₁.endRow second (fun row hmem => hwide row (List.mem_cons_of_mem _ hmem)) rfl rfl rfl
      refine ⟨r', cell, ?_, hread, hne, ?_⟩
      · have hsplit : join m.lf (((head :: tail) :: second :: rest).map fun row =>
              join m.comma (row.map print)) =
            join m.comma ((head :: tail).map print) ++ m.lf ::
              join m.lf ((second :: rest).map fun row => join m.comma (row.map print)) := rfl
        rw [hsplit, run_append, hrun₁, Option.bind_some, Reader.run, step_lf hread₁,
          Option.bind_some]
        exact hrun
      · rw [htable, hend, List.append_assoc, List.singleton_append]

/-- **A written table is read back**, if every row has two cells or more. -/
theorem read_join (hprint : ∀ cell, Written m cell (print cell))
    (table : List (List (List α))) (hwide : ∀ row ∈ table, 2 ≤ row.length) :
    read m (join m.lf (table.map fun row => join m.comma (row.map print))) = some table := by
  rcases table with _ | ⟨first, rest⟩
  · rfl
  · obtain ⟨r', cell, hrun, hread, hne, htable⟩ :=
      @run_table α _ m Reader.empty print hprint first rest hwide ⟨rfl, rfl, rfl⟩
    rw [read, hrun, Option.bind_some, finish_of_hasRead hread hne, htable]
    rfl

/-- CR and LF behind the last cell of a row. -/
theorem run_crLf {cell : List α} (h : r.HasRead cell) (rest : List α) :
    r.run m (m.cr :: m.lf :: rest) = r.endRow.run m rest := by
  have hdistinct := m.distinct
  simp only [List.nodup_cons, List.mem_cons, List.not_mem_nil, or_false, not_or] at hdistinct
  obtain ⟨⟨-, -, hcomma⟩, ⟨-, hquote⟩, hlf, -⟩ := hdistinct
  have hseparator : ∀ other, r.separator m m.cr other = some { r with mode := .crSeen } := by
    intro other
    rw [Reader.separator, if_neg (Ne.symm hcomma), if_neg (Ne.symm hlf), if_pos rfl]
  have hcr : r.step m m.cr = some { r with mode := .crSeen } := by
    obtain ⟨-, ⟨hmode, -⟩ | hmode | hmode⟩ := h <;> rw [Reader.step, hmode] <;> simp only <;>
      rw [if_neg (Ne.symm hquote), hseparator]
  have hend : ({ r with mode := .crSeen } : Reader α).step m m.lf = some r.endRow := by
    rw [Reader.step]
    exact if_pos rfl
  rw [Reader.run, hcr, Option.bind_some, Reader.run, hend, Option.bind_some]

/-- **A table of lines is read back**, each of which ends with CR and LF and has a cell. -/
theorem read_lines (hprint : ∀ cell, Written m cell (print cell))
    (table : List (List (List α))) (hcells : ∀ row ∈ table, row ≠ []) :
    read m (table.flatMap fun row => join m.comma (row.map print) ++ [m.cr, m.lf]) =
      some table := by
  have hlines : ∀ (table : List (List (List α))) (r : Reader α), (∀ row ∈ table, row ≠ []) →
      r.mode = .start → r.cell = [] → r.row = [] →
        r.run m (table.flatMap fun row => join m.comma (row.map print) ++ [m.cr, m.lf]) =
          some ⟨.start, [], [], r.table ++ table⟩ := by
    intro table
    induction table with
    | nil =>
        rintro ⟨mode, cell, row, lines⟩ - rfl rfl rfl
        rw [List.append_nil]
        rfl
    | cons row table ih =>
        intro r hcells hmode hempty hrow
        obtain ⟨hfirst, hrest⟩ := List.forall_mem_cons.mp hcells
        obtain ⟨first, others, rfl⟩ := List.exists_cons_of_ne_nil hfirst
        obtain ⟨r', cell, hrun, hread, hcell, -, htable⟩ :=
          run_row hprint first others hmode hempty
        have hendRow : r'.endRow = ⟨.start, [], [], r.table ++ [first :: others]⟩ := by
          rw [Reader.endRow, hread.1, hcell, htable, hrow, List.nil_append]
        rw [List.flatMap_cons, List.append_assoc, run_append, hrun, Option.bind_some]
        refine (run_crLf hread _).trans ?_
        rw [hendRow]
        refine (ih ⟨.start, [], [], r.table ++ [first :: others]⟩ hrest rfl rfl rfl).trans ?_
        rw [List.append_assoc, List.singleton_append]
  rw [read, hlines table Reader.empty hcells rfl rfl rfl, Option.bind_some]
  rfl

end

end FundingTool.Rfc4180
