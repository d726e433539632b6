import FundingTool.Rfc4180

/-!
# The exported tables (`formatters.ts`, `HistoryTable.tsx`, `PaymentTable.tsx`)

`csvEscape` puts a cell between quotes where it has a comma, a quote or a line break, and
doubles the quotes in it; both `exportCsv` functions join the cells of a row with `,` and the
rows with `\n`.  A string of JavaScript is a sequence of 16-bit code units, paired surrogates
or not.
-/

namespace FundingTool.CsvExport

open FundingTool.Rfc4180

/-! ## 1. Strings -/

abbrev JsString := List UInt16

/-- A character of the first 65536. -/
def codeUnit (c : Char) : UInt16 := UInt16.ofNat c.toNat

/-- A literal of the source; all of its characters are among the first 65536. -/
def literal (s : String) : JsString := s.toList.map codeUnit

/-- `pieces.join(separator)` for a separator of one code unit -/
def joinWith (separator : Char) (pieces : List JsString) : JsString :=
  join (codeUnit separator) pieces

/-! ## 2. `csvEscape` -/

/-- `/[,"\n\r]/` -/
def special : List UInt16 := [',', '"', '\n', '\r'].map codeUnit

/-- `s.replace(/"/g, "\"\"")` -/
def replaceQuotes (s : JsString) : JsString :=
  s.flatMap fun c => if c = codeUnit '"' then [codeUnit '"', codeUnit '"'] else [c]

def csvEscape (s : JsString) : JsString :=
  if s.any fun c => c ∈ special then codeUnit '"' :: (replaceQuotes s ++ [codeUnit '"']) else s

example : csvEscape (literal "he said \"hi\"") = literal "\"he said \"\"hi\"\"\"" := by
  decide +kernel

/-! ## 3. `exportCsv` -/

/-- `[header, ...rows].map((r) => r.map((c) => csvEscape(String(c))).join(",")).join("\n")` -/
def csvOf (table : List (List JsString)) : JsString :=
  joinWith '\n' (table.map fun row => joinWith ',' (row.map csvEscape))

/-- `IncomeRecord` of the frontend. -/
structure IncomeRecord where
  timestamp : JsString
  symbol : JsString
  amountUsdt : JsString
  tranId : JsString
deriving DecidableEq, Repr

/-- `FundingPayment` of the frontend. -/
structure FundingPayment where
  timestamp : JsString
  rate : JsString
  markPrice : JsString
  quantityBase : JsString
  notionalQuote : JsString
  paymentQuote : JsString
deriving DecidableEq, Repr

section

variable (formatTimestamp : JsString → JsString)

/-- The table `exportCsv` of `HistoryTable` writes; `sorted` are the records as shown. -/
def historyTable (sorted : List IncomeRecord) : List (List JsString) :=
  ["时间", "合约", "金额（USDT）", "交易 ID"].map literal ::
    sorted.map fun r => [formatTimestamp r.timestamp, r.symbol, r.amountUsdt, r.tranId]

/-- The table `exportCsv` of `PaymentTable` writes. -/
def paymentTable (sorted : List FundingPayment) : List (List JsString) :=
  ["时间", "费率", "标记价", "持仓", "名义", "收益"].map literal ::
    sorted.map fun p => [formatTimestamp p.timestamp, p.rate, p.markPrice, p.quantityBase,
      p.notionalQuote, p.paymentQuote]

end

/-! ## 4. Reading an exported table -/

/-- The marks of RFC 4180 in a string of JavaScript. -/
def csvMarks : Marks UInt16 where
  comma := codeUnit ','
  quote := codeUnit '"'
  lf := codeUnit '\n'
  cr := codeUnit '\r'
  distinct := by decide

theorem mem_special_iff (c : UInt16) : c ∈ special ↔ isMark csvMarks c = true := by
  simp only [isMark, Bool.or_eq_true, decide_eq_true_eq, or_assoc]
  simp only [special, csvMarks, List.map_cons, List.map_nil, List.mem_cons, List.not_mem_nil,
    or_false]

/-- Two quotes for every quote are every quote twice. -/
theorem replaceQuotes_eq (s : JsString) : replaceQuotes s = double csvMarks s := by
  unfold replaceQuotes double
  congr 1
  funext c
  by_cases hc : c = csvMarks.quote
  · rw [if_pos hc, hc]
    rfl
  · rw [if_neg hc]
    exact if_neg hc

theorem written_csvEscape (s : JsString) : Written csvMarks s (csvEscape s) := by
  unfold csvEscape
  by_cases hspecial : (s.any fun c => c ∈ special) = true
  · rw [if_pos hspecial]
    exact .inl (congrArg (codeUnit '"' :: · ++ [codeUnit '"']) (replaceQuotes_eq s))
  · rw [if_neg hspecial]
    refine .inr ⟨rfl, ?_⟩
    intro c hc
    rw [Bool.eq_false_iff]
    intro hmark
    refine hspecial (List.any_eq_true.mpr ⟨c, hc, ?_⟩)
    exact decide_eq_true ((mem_special_iff c).mpr hmark)

theorem read_csvOf {table : List (List JsString)} (hwide : ∀ row ∈ table, 2 ≤ row.length) :
    read csvMarks (csvOf table) = some table :=
  read_join written_csvEscape table hwide

theorem exports_rectangular (formatTimestamp : JsString → JsString) (records : List IncomeRecord)
    (payments : List FundingPayment) :
    (∀ row ∈ historyTable formatTimestamp records, row.length = 4) ∧
      ∀ row ∈ paymentTable formatTimestamp payments, row.length = 6 := by
  constructor
  · intro row hrow
    rcases List.mem_cons.mp hrow with rfl | hrow
    · rfl
    · obtain ⟨r, -, rfl⟩ := List.mem_map.mp hrow
      rfl
  · intro row hrow
    rcases List.mem_cons.mp hrow with rfl | hrow
    · rfl
    · obtain ⟨p, -, rfl⟩ := List.mem_map.mp hrow
      rfl

/-- Both exports are read back, whatever the records hold. -/
theorem exports_read_back (formatTimestamp : JsString → JsString) (records : List IncomeRecord)
    (payments : List FundingPayment) :
    read csvMarks (csvOf (historyTable formatTimestamp records)) =
        some (historyTable formatTimestamp records) ∧
      read csvMarks (csvOf (paymentTable formatTimestamp payments)) =
        some (paymentTable formatTimestamp payments) := by
  obtain ⟨hhistory, hpayment⟩ := exports_rectangular formatTimestamp records payments
  constructor
  · refine read_csvOf ?_
    intro row hrow
    rw [hhistory row hrow]
    decide
  · refine read_csvOf ?_
    intro row hrow
    rw [hpayment row hrow]
    decide

/-- **What is exported can be read in one way only.** -/
theorem csv_decodable {k : Nat} (hk : 2 ≤ k) {table : List (List JsString)}
    (htable : ∀ row ∈ table, row.length = k) :
    read csvMarks (csvOf table) = some table ∧
      ∀ (k' : Nat) (other : List (List JsString)), 2 ≤ k' → (∀ row ∈ other, row.length = k') →
        csvOf other = csvOf table → other = table := by
  have hread : read csvMarks (csvOf table) = some table :=
    read_csvOf fun row hrow => (htable row hrow).symm ▸ hk
  refine ⟨hread, ?_⟩
  intro k' other hk' hother hsame
  have hreadOther : read csvMarks (csvOf other) = some other :=
    read_csvOf fun row hrow => (hother row hrow).symm ▸ hk'
  rw [hsame, hread] at hreadOther
  exact (Option.some.inj hreadOther).symm

/-- Cells with each of the marks, and empty ones. -/
theorem csv_decodable_marks :
    read csvMarks (csvOf [[literal "a,b", literal ""], [literal "\"", literal "x\r\ny"]]) =
      some [[literal "a,b", literal ""], [literal "\"", literal "x\r\ny"]] :=
  (csv_decodable (Nat.le_refl 2) (by decide)).1

end FundingTool.CsvExport
