import FundingTool.LogScrubber

/-!
# Signatures in the log

A field with a request signature stands somewhere in a message.  `scrub` should give the same
text whatever the signature.  It does not when the text before the field ends in an API key,
a secret or a signature without a value: the name of the field is taken for that value, and
the signature that follows stays.

`scrub_eq_iff` says when two messages that differ in the signature alone are scrubbed alike.
The three passes are followed on the text as a function of the signature: it stands in the
field (`Whole`), after a mark without a name (`Leaks`), or nowhere (`Hidden`).
-/

namespace FundingTool.LogScrubber

open FundingTool.Regex FundingTool.Substitution

/-! ## 1. Fields -/

/-- `signature=V`, `signature: V`, `'signature': 'V'`, `"signature": "V"` -/
inductive Spelling
  | equals
  | colon
  | single
  | double
deriving DecidableEq, Repr

def Spelling.field (spelling : Spelling) (name value : String) : String :=
  match spelling with
  | .equals => name ++ "=" ++ value
  | .colon => name ++ ": " ++ value
  | .single => "'" ++ name ++ "': '" ++ value ++ "'"
  | .double => "\"" ++ name ++ "\": \"" ++ value ++ "\""

/-- `signature` in any letter case. -/
def IsName (name : String) : Prop := name.toList.map foldCase = "signature".toList

def hexDigits : List Char := "0123456789abcdef".toList

/-- A non-empty text of lower-case hexadecimal digits. -/
def IsHex (value : List Char) : Prop := value ≠ [] ∧ value.all hexDigits.contains = true

/-- Empty, or it begins with a character that ends a value. -/
def Terminated (text : List Char) : Prop := text.head?.all endsValue = true

instance (name : String) : Decidable (IsName name) := inferInstanceAs (Decidable (_ = _))

instance (value : List Char) : Decidable (IsHex value) := inferInstanceAs (Decidable (_ ∧ _))

instance (text : List Char) : Decidable (Terminated text) := inferInstanceAs (Decidable (_ = _))

/-- What a value that is open before the field takes in. -/
def Spelling.opening (spelling : Spelling) (name : List Char) : List Char :=
  match spelling with
  | .equals => name ++ ['=']
  | .colon => name ++ [':']
  | .single => '\'' :: name
  | .double => '"' :: name

/-- What stands between the opening and the value. -/
def Spelling.gap : Spelling → List Char
  | .equals => []
  | .colon => [' ']
  | .single => ['\'', ':', ' ', '\'']
  | .double => ['"', ':', ' ', '"']

def Spelling.closing : Spelling → List Char
  | .equals => []
  | .colon => []
  | .single => ['\'']
  | .double => ['"']

theorem toList_field (spelling : Spelling) (name value : String) :
    (spelling.field name value).toList =
      spelling.opening name.toList ++ (spelling.gap ++ (value.toList ++ spelling.closing)) := by
  cases spelling <;> simp [Spelling.field, Spelling.opening, Spelling.gap, Spelling.closing]

/-! ## 2. The patterns without their opening quote -/

def apiKeyAfterQuote : Substitution Char where
  kept := afterQuote apiKeyName (times 6 isAlnum done)
  dropped := isValue
  mark := ['…']
  consumes := rfl

def apiSecretAfterQuote : Substitution Char where
  kept := afterQuote apiSecretName done
  dropped := isValue
  mark := ['*', '*', '*']
  consumes := rfl

def signatureAfterQuote : Substitution Char where
  kept := afterQuote signatureName done
  dropped := isValue
  mark := ['*', '*', '*']
  consumes := rfl

/-! ## 3. Case -/

/-- The characters that `foldCase` moves. -/
def folded : List Char := "ABCDEFGHIJKLMNOPQRSTUVWXYZİıſ\u212a".toList

theorem mem_folded_of_upper {c : Char} (h : c.val ≥ 'A'.val ∧ c.val ≤ 'Z'.val) : c ∈ folded := by
  have hall : ∀ n < 26, folded.contains (Char.ofNat (65 + n)) = true := by decide
  have hlow : 65 ≤ c.toNat := h.1
  have hhigh : c.toNat ≤ 90 := h.2
  have hmem := hall (c.toNat - 65) (by omega)
  rw [Nat.add_sub_cancel' hlow, Char.ofNat_toNat] at hmem
  exact List.contains_iff_mem.mp hmem

theorem foldCase_cases (c : Char) : foldCase c = c ∨ c ∈ folded := by
  unfold foldCase
  by_cases hi : c = 'İ' ∨ c = 'ı'
  · exact Or.inr (hi.elim (fun h => h ▸ by decide) fun h => h ▸ by decide)
  · by_cases hs : c = 'ſ'
    · exact Or.inr (hs ▸ by decide)
    · by_cases hk : c = '\u212a'
      · exact Or.inr (hk ▸ by decide)
      · rw [if_neg hi, if_neg hs, if_neg hk]
        by_cases hupper : c.val ≥ 'A'.val ∧ c.val ≤ 'Z'.val
        · exact Or.inr (mem_folded_of_upper hupper)
        · have hlower : c.toLower = c := dif_neg hupper
          exact Or.inl hlower

theorem foldCase_foldCase (c : Char) : foldCase (foldCase c) = foldCase c := by
  rcases foldCase_cases c with h | h
  · rw [h, h]
  · have hall : folded.all (fun d => foldCase (foldCase d) == foldCase d) = true := by decide
    exact beq_iff_eq.mp (List.all_eq_true.mp hall c h)

theorem invariant_of_folded {p : Char → Bool}
    (h : folded.all (fun d => p (foldCase d) == p d) = true) (c : Char) :
    p (foldCase c) = p c := by
  rcases foldCase_cases c with hsame | hmem
  · rw [hsame]
  · exact beq_iff_eq.mp (List.all_eq_true.mp h c hmem)

theorem endsValue_foldCase : ∀ c, endsValue (foldCase c) = endsValue c :=
  invariant_of_folded (by decide)

theorem invariant_done : (done : Regex Char).Invariant foldCase := trivial

theorem invariant_word {next : Regex Char} (h : next.Invariant foldCase) (letters : List Char) :
    (letters.foldr (fun letter => one (isLetter letter)) next).Invariant foldCase := by
  induction letters with
  | nil => exact h
  | cons letter letters ih =>
      refine ⟨fun c => ?_, ih⟩
      rw [isLetter, isLetter, foldCase_foldCase]

theorem invariant_opt {p : Char → Bool} {next : Regex Char} (hp : ∀ c, p (foldCase c) = p c)
    (h : next.Invariant foldCase) : (opt p next).Invariant foldCase := ⟨⟨hp, h⟩, h⟩

theorem invariant_separator {next : Regex Char} (h : next.Invariant foldCase) :
    (separator next).Invariant foldCase := by
  have hquote : ∀ c, isQuote (foldCase c) = isQuote c := invariant_of_folded (by decide)
  have hspace : ∀ c, isPySpace (foldCase c) = isPySpace c := invariant_of_folded (by decide)
  have hsign : ∀ c, isSign (foldCase c) = isSign c := invariant_of_folded (by decide)
  exact invariant_opt hquote ⟨hspace, hsign, hspace, invariant_opt hquote h⟩

theorem invariant_times {p : Char → Bool} {next : Regex Char} (hp : ∀ c, p (foldCase c) = p c)
    (h : next.Invariant foldCase) (n : Nat) : (times n p next).Invariant foldCase := by
  induction n with
  | zero => exact h
  | succ n ih => exact ⟨hp, ih⟩

theorem invariant_apiKey : apiKeyAfterQuote.kept.Invariant foldCase := by
  have halnum : ∀ c, isAlnum (foldCase c) = isAlnum c := invariant_of_folded (by decide)
  have hdash : ∀ c, isDash (foldCase c) = isDash c := invariant_of_folded (by decide)
  have hvalue : (separator (times 6 isAlnum done)).Invariant foldCase :=
    invariant_separator (invariant_times halnum invariant_done 6)
  exact ⟨invariant_word hvalue _,
    invariant_word (invariant_opt hdash (invariant_word hvalue _)) _⟩

theorem invariant_apiSecret : apiSecretAfterQuote.kept.Invariant foldCase := by
  have hdash : ∀ c, isDash (foldCase c) = isDash c := invariant_of_folded (by decide)
  exact invariant_word (invariant_opt hdash
    (invariant_word (invariant_separator invariant_done) _)) _

theorem invariant_signature : signatureAfterQuote.kept.Invariant foldCase :=
  invariant_word (invariant_separator invariant_done) _

/-! ## 4. Where no match begins -/

theorem map_opening (spelling : Spelling) {name : List Char}
    (h : name.map foldCase = "signature".toList) :
    (spelling.opening name).map foldCase = spelling.opening "signature".toList := by
  cases spelling with
  | equals => rw [Spelling.opening, List.map_append, h]; rfl
  | colon => rw [Spelling.opening, List.map_append, h]; rfl
  | single => rw [Spelling.opening, List.map_cons, h]; rfl
  | double => rw [Spelling.opening, List.map_cons, h]; rfl

/-- Only the first character of an opening may end a value. -/
theorem isValue_of_mem_tail_opening (spelling : Spelling) {name : List Char}
    (h : name.map foldCase = "signature".toList) :
    ∀ c ∈ (spelling.opening name).tail, isValue c = true := by
  have hlower : (spelling.opening "signature".toList).tail.all isValue = true := by
    cases spelling <;> decide
  intro c hc
  have hmem : foldCase c ∈ (spelling.opening "signature".toList).tail := by
    rw [← map_opening spelling h, ← List.map_tail]
    exact List.mem_map_of_mem hc
  have hvalue := List.all_eq_true.mp hlower _ hmem
  rw [isValue, endsValue_foldCase] at hvalue
  exact hvalue

theorem blocks_opening {σ : Substitution Char} (hσ : σ.kept.Invariant foldCase)
    (hdropped : σ.dropped = isValue)
    (hlower : ∀ spelling : Spelling, ∀ R ∈ σ.kept.inner,
      R.reaches (spelling.opening "signature".toList) = false)
    (spelling : Spelling) {name : List Char} (h : name.map foldCase = "signature".toList) :
    σ.Blocks (spelling.opening name) where
  ne_nil hnil := by
    have hmap := map_opening spelling h
    rw [hnil] at hmap
    cases spelling <;> cases hmap
  unfinished R hR := by
    rw [← reaches_map (hσ.inner R hR), map_opening spelling h]
    exact hlower spelling R hR
  runs := by
    rw [hdropped]
    exact isValue_of_mem_tail_opening spelling h

/-- The last character of a mark. -/
def IsMark (c : Char) : Prop := c = '…' ∨ c = '*'

/-- A character at which none of the patterns begins, unless a `p` follows. -/
def Plain (c : Char) : Prop := foldCase c ≠ 'x' ∧ foldCase c ≠ 's'

def isPlain (c : Char) : Bool := foldCase c != 'x' && foldCase c != 's' && foldCase c != 'p'

theorem plain_of_all {cs : List Char} (h : cs.all isPlain = true) :
    ∀ c ∈ cs, Plain c ∧ foldCase c ≠ 'p' := by
  intro c hc
  have hplain := List.all_eq_true.mp h c hc
  rw [isPlain, Bool.and_eq_true, Bool.and_eq_true, bne_iff_ne, bne_iff_ne, bne_iff_ne] at hplain
  exact hplain

/-- What the three passes have in common. -/
structure Pass (σ : Substitution Char) : Prop where
  dropped : σ.dropped = isValue
  mark : ∃ before m, σ.mark = before ++ [m] ∧ IsMark m
  opening : ∀ (spelling : Spelling) {name : List Char},
    name.map foldCase = "signature".toList → σ.Blocks (spelling.opening name)
  marks : ∀ m, IsMark m → σ.Blocks [m]
  quiet : ∀ c cs, Plain c → (foldCase c = 'a' → ∀ d ∈ cs.head?, foldCase d ≠ 'p') →
    σ.kept.remainders (c :: cs) = []

theorem blocks_mark {σ : Substitution Char} (hfirst : ∀ R ∈ σ.kept.inner, R.reaches ['…'] = false)
    (hsecond : ∀ R ∈ σ.kept.inner, R.reaches ['*'] = false) (m : Char) (hm : IsMark m) :
    σ.Blocks [m] where
  ne_nil := List.cons_ne_nil m []
  unfinished := by
    rcases hm with rfl | rfl
    · exact hfirst
    · exact hsecond
  runs c hc := absurd hc List.not_mem_nil

theorem word_no_match {text : String} {letter : Char} {letters : List Char}
    (htext : text.toList = letter :: letters) {next : Regex Char} {c : Char} {cs : List Char}
    (h : foldCase c ≠ foldCase letter) : (word text next).remainders (c :: cs) = [] := by
  have hletter : isLetter letter c = false := beq_eq_false_iff_ne.mpr h
  rw [word, htext, List.foldr_cons, remainders, hletter, if_neg Bool.false_ne_true]

/-- The names of a secret begin with `x`, or with `ap`. -/
theorem word_api_no_match {next : Regex Char} {c : Char} {cs : List Char}
    (hp : foldCase c = 'a' → ∀ d ∈ cs.head?, foldCase d ≠ 'p') :
    (word "api" next).remainders (c :: cs) = [] := by
  have hword : word "api" next = one (isLetter 'a') (word "pi" next) := rfl
  rw [hword, remainders]
  by_cases ha : isLetter 'a' c = true
  · rw [if_pos ha]
    rcases cs with _ | ⟨d, ds⟩
    · rfl
    · exact @word_no_match "pi" 'p' ['i'] rfl next d ds (hp (beq_iff_eq.mp ha) d rfl)
  · rw [if_neg ha]

theorem apiKey_no_match {c : Char} {cs : List Char} (hx : foldCase c ≠ 'x')
    (hp : foldCase c = 'a' → ∀ d ∈ cs.head?, foldCase d ≠ 'p') :
    apiKeyAfterQuote.kept.remainders (c :: cs) = [] := by
  unfold apiKeyAfterQuote afterQuote apiKeyName
  rw [remainders, word_api_no_match hp, word_no_match rfl hx, List.append_nil]

theorem apiSecret_no_match {c : Char} {cs : List Char}
    (hp : foldCase c = 'a' → ∀ d ∈ cs.head?, foldCase d ≠ 'p') :
    apiSecretAfterQuote.kept.remainders (c :: cs) = [] :=
  word_api_no_match hp

theorem signature_no_match {c : Char} {cs : List Char} (hs : foldCase c ≠ 's') :
    signatureAfterQuote.kept.remainders (c :: cs) = [] :=
  @word_no_match "signature" 's' "ignature".toList rfl _ c cs hs

theorem pass_apiKey : Pass apiKeyAfterQuote where
  dropped := rfl
  mark := ⟨[], '…', rfl, Or.inl rfl⟩
  opening := blocks_opening invariant_apiKey rfl fun spelling => by
    cases spelling <;> decide +kernel
  marks := blocks_mark (by decide +kernel) (by decide +kernel)
  quiet _ _ hc hp := apiKey_no_match hc.1 hp

theorem pass_apiSecret : Pass apiSecretAfterQuote where
  dropped := rfl
  mark := ⟨['*', '*'], '*', rfl, Or.inr rfl⟩
  opening := blocks_opening invariant_apiSecret rfl fun spelling => by
    cases spelling <;> decide +kernel
  marks := blocks_mark (by decide +kernel) (by decide +kernel)
  quiet _ _ _ hp := apiSecret_no_match hp

theorem pass_signature : Pass signatureAfterQuote where
  dropped := rfl
  mark := ⟨['*', '*'], '*', rfl, Or.inr rfl⟩
  opening := blocks_opening invariant_signature rfl fun spelling => by
    cases spelling <;> decide +kernel
  marks := blocks_mark (by decide +kernel) (by decide +kernel)
  quiet _ _ hc _ := signature_no_match hc.2

/-! ## 5. The text as a function of the signature -/

theorem foldCase_ne_of_endsValue {c letter : Char} (hletter : endsValue letter = false)
    (hc : endsValue c = true) : foldCase c ≠ letter := by
  intro h
  rw [← endsValue_foldCase, h, hletter] at hc
  cases hc

theorem plain_of_endsValue {c : Char} (hc : endsValue c = true) : Plain c :=
  ⟨foldCase_ne_of_endsValue (by decide) hc, foldCase_ne_of_endsValue (by decide) hc⟩

theorem Terminated.endsValue {u : List Char} (hu : Terminated u) :
    ∀ d ∈ u.head?, endsValue d = true := by
  rcases u with _ | ⟨c, cs⟩
  · exact fun d hd => by cases hd
  · rintro _ ⟨⟩
    exact hu

/-- Where no character begins a match, unless a `p` follows, and none is a `p`. -/
theorem scan_quiet {σ : Substitution Char} {P : Char → Prop}
    (hquiet : ∀ c cs, P c → (foldCase c = 'a' → ∀ d ∈ cs.head?, foldCase d ≠ 'p') →
      σ.kept.remainders (c :: cs) = [])
    {z u : List Char} (hz : ∀ c ∈ z, P c ∧ foldCase c ≠ 'p') (hu : Terminated u) :
    σ.scan 0 (z ++ u) = z ++ σ.scan 0 u := by
  refine scan_of_no_match fun z' hne hsuffix => ?_
  obtain ⟨c, cs, rfl⟩ := List.exists_cons_of_ne_nil hne
  refine hquiet c (cs ++ u) (hz c (hsuffix.subset List.mem_cons_self)).1 fun _ => ?_
  rcases cs with _ | ⟨d, ds⟩
  · exact fun d hd => foldCase_ne_of_endsValue (by decide) (hu.endsValue d hd)
  · rintro _ ⟨⟩
    exact (hz d (hsuffix.subset (List.mem_cons_of_mem c List.mem_cons_self))).2

variable {σ : Substitution Char} {u : List Char}

theorem Pass.scan_terminated (hσ : Pass σ) (hu : Terminated u) : Terminated (σ.scan 0 u) := by
  rcases u with _ | ⟨c, cs⟩
  · rw [scan]
    exact hu
  · have hc : endsValue c = true := hu
    have hnone := hσ.quiet c cs (plain_of_endsValue hc) fun ha =>
      absurd ha (foldCase_ne_of_endsValue (by decide) hc)
    rw [scan, findAt_none hnone]
    exact hc

theorem all_of_isHex {P : Char → Bool} (hP : hexDigits.all P = true) {v : List Char}
    (hv : IsHex v) : v.all P = true :=
  List.all_eq_true.mpr fun c hc =>
    List.all_eq_true.mp hP c (List.contains_iff_mem.mp (List.all_eq_true.mp hv.2 c hc))

theorem plain_of_isHex {v : List Char} (hv : IsHex v) : ∀ c ∈ v, Plain c ∧ foldCase c ≠ 'p' :=
  plain_of_all (all_of_isHex (by decide) hv)

theorem isValue_of_isHex {v : List Char} (hv : IsHex v) : ∀ c ∈ v, isValue c = true :=
  List.all_eq_true.mp (all_of_isHex (by decide) hv)

theorem plain_of_mem_gap (spelling : Spelling) :
    ∀ c ∈ spelling.gap, Plain c ∧ foldCase c ≠ 'p' :=
  plain_of_all (by cases spelling <;> decide)

theorem dropWhile_terminated (hu : Terminated u) : u.dropWhile isValue = u := by
  rcases u with _ | ⟨c, cs⟩
  · rfl
  · have hc : isValue c = false := congrArg (!·) hu
    rw [List.dropWhile_cons_of_neg (by rw [hc]; exact Bool.false_ne_true)]

theorem dropWhile_hex {v : List Char} (hv : IsHex v) (hu : Terminated u) :
    (v ++ u).dropWhile isValue = u := by
  rw [List.dropWhile_append_of_pos (isValue_of_isHex hv), dropWhile_terminated hu]

/-- A value that has taken in the opening stops at the gap. -/
theorem dropWhile_gap {spelling : Spelling} (h : spelling ≠ .equals) (y : List Char) :
    (spelling.gap ++ y).dropWhile isValue = spelling.gap ++ y := by
  cases spelling with
  | equals => exact absurd rfl h
  | colon => rfl
  | single => rfl
  | double => rfl

/-- The field is whole. -/
def Whole (spelling : Spelling) (name p u : List Char) (text : List Char → List Char) : Prop :=
  ∀ v, IsHex v → text v = p ++ (spelling.opening name ++ (spelling.gap ++ (v ++ u)))

/-- The signature stands without its name. -/
def Leaks (spelling : Spelling) (text : List Char → List Char) : Prop :=
  ∃ a m u, IsMark m ∧ Terminated u ∧
    ∀ v, IsHex v → text v = a ++ ([m] ++ (spelling.gap ++ (v ++ u)))

/-- The signature is gone. -/
def Hidden (text : List Char → List Char) : Prop := ∃ out, ∀ v, IsHex v → text v = out

variable {spelling : Spelling} {name p : List Char} {text : List Char → List Char}

theorem Pass.scan_gap (hσ : Pass σ) (hu : Terminated u) {v : List Char} (hv : IsHex v) :
    σ.scan 0 (spelling.gap ++ (v ++ u)) = spelling.gap ++ (v ++ σ.scan 0 u) := by
  have hplain : ∀ c ∈ spelling.gap ++ v, Plain c ∧ foldCase c ≠ 'p' :=
    List.forall_mem_append.mpr ⟨plain_of_mem_gap spelling, plain_of_isHex hv⟩
  rw [← List.append_assoc, scan_quiet hσ.quiet hplain hu, List.append_assoc]

/-- No pattern begins at a mark. -/
theorem Pass.scan_mark (hσ : Pass σ) {m : Char} (hm : IsMark m) (y : List Char) :
    σ.scan 0 ([m] ++ y) = [m] ++ σ.scan 0 y := by
  have hplain : Plain m ∧ foldCase m ≠ 'a' := by
    unfold Plain
    rcases hm with rfl | rfl <;> decide
  have hnone := hσ.quiet m y hplain.1 fun ha => absurd ha hplain.2
  rw [List.singleton_append, scan, findAt_none hnone, List.singleton_append]

/-- What a match that has taken in a head leaves of the field. -/
theorem Pass.after_head (hσ : Pass σ) (hu : Terminated u) {out : List Char}
    (hmark : ∃ a, out = a ++ σ.mark)
    (htext : ∀ v, IsHex v →
      text v = out ++ σ.scan 0 ((spelling.gap ++ (v ++ u)).dropWhile σ.dropped)) :
    if spelling = .equals then Hidden text else Leaks spelling text := by
  rw [hσ.dropped] at htext
  by_cases heq : spelling = .equals
  · rw [if_pos heq]
    refine ⟨out ++ σ.scan 0 u, fun v hv => ?_⟩
    rw [htext v hv, heq]
    show out ++ σ.scan 0 ((v ++ u).dropWhile isValue) = _
    rw [dropWhile_hex hv hu]
  · rw [if_neg heq]
    obtain ⟨a, rfl⟩ := hmark
    obtain ⟨before, m, hmark, hm⟩ := hσ.mark
    refine ⟨a ++ before, m, σ.scan 0 u, hm, hσ.scan_terminated hu, fun v hv => ?_⟩
    rw [htext v hv, dropWhile_gap heq, hσ.scan_gap hu hv, hmark]
    simp only [List.append_assoc]

/-- **A leak stays a leak**, whichever pass comes next. -/
theorem Leaks.scan (hσ : Pass σ) (hne : spelling ≠ .equals) (h : Leaks spelling text) :
    Leaks spelling fun v => σ.scan 0 (text v) := by
  obtain ⟨a, m, u, hm, hu, htext⟩ := h
  have hblocks := hσ.marks m hm
  by_cases htaken : (σ.carry 0 a [m]).2 = 0
  · refine ⟨(σ.carry 0 a [m]).1, m, σ.scan 0 u, hm, hσ.scan_terminated hu, fun v hv => ?_⟩
    rcases scan_of_blocks hblocks a (spelling.gap ++ (v ++ u)) with ⟨-, hscan⟩ | ⟨hall, -⟩
    · show σ.scan 0 (text v) = _
      rw [htext v hv, hscan, hσ.scan_mark hm, hσ.scan_gap hu hv]
    · rw [htaken] at hall
      cases hall
  · have hleak := @Pass.after_head σ u spelling (fun v => σ.scan 0 (text v)) hσ hu _
      (carry_mark (Nat.zero_le _) htaken) fun v hv => by
        rcases scan_of_blocks hblocks a (spelling.gap ++ (v ++ u)) with ⟨hzero, -⟩ | ⟨-, hscan⟩
        · exact absurd hzero htaken
        · rw [htext v hv, hscan]
    rwa [if_neg hne] at hleak

/-- **One pass over a whole field**: the head is next, or a value open before it has taken
    it in. -/
theorem Whole.scan (hσ : Pass σ) (hname : name.map foldCase = "signature".toList)
    (hu : Terminated u) (h : Whole spelling name p u text) :
    ((σ.carry 0 p (spelling.opening name)).2 = 0 ∧ ∀ v, IsHex v →
        σ.scan 0 (text v) = (σ.carry 0 p (spelling.opening name)).1 ++
          σ.scan 0 (spelling.opening name ++ (spelling.gap ++ (v ++ u)))) ∨
      (σ.carry 0 p (spelling.opening name)).2 ≠ 0 ∧
        if spelling = .equals then Hidden fun v => σ.scan 0 (text v)
        else Leaks spelling fun v => σ.scan 0 (text v) := by
  have hblocks := hσ.opening spelling hname
  by_cases htaken : (σ.carry 0 p (spelling.opening name)).2 = 0
  · refine Or.inl ⟨htaken, fun v hv => ?_⟩
    rcases scan_of_blocks hblocks p (spelling.gap ++ (v ++ u)) with ⟨-, hscan⟩ | ⟨hall, -⟩
    · rw [h v hv, hscan]
    · rw [htaken] at hall
      exact absurd (List.length_eq_zero_iff.mp hall.symm) hblocks.ne_nil
  · refine Or.inr ⟨htaken, @Pass.after_head σ u spelling (fun v => σ.scan 0 (text v)) hσ hu _
      (carry_mark (Nat.zero_le _) htaken) fun v hv => ?_⟩
    rcases scan_of_blocks hblocks p (spelling.gap ++ (v ++ u)) with ⟨hzero, -⟩ | ⟨-, hscan⟩
    · exact absurd hzero htaken
    · rw [h v hv, hscan]

/-- The API key and secret passes leave a field alone that they come to. -/
theorem scan_opening {P : Char → Prop}
    (hquiet : ∀ c cs, P c → (foldCase c = 'a' → ∀ d ∈ cs.head?, foldCase d ≠ 'p') →
      σ.kept.remainders (c :: cs) = [])
    (hP : ∀ c, foldCase c ≠ 'x' → P c) (hname : name.map foldCase = "signature".toList)
    (hu : Terminated u) {v : List Char} (hv : IsHex v) :
    σ.scan 0 (spelling.opening name ++ (spelling.gap ++ (v ++ u))) =
      spelling.opening name ++ (spelling.gap ++ (v ++ σ.scan 0 u)) := by
  have hlower : (spelling.opening "signature".toList).all (fun d => d != 'x' && d != 'p') =
      true := by
    cases spelling <;> decide
  have hopening : ∀ c ∈ spelling.opening name, P c ∧ foldCase c ≠ 'p' := by
    intro c hc
    have hfold : foldCase c ∈ (spelling.opening name).map foldCase := List.mem_map_of_mem hc
    rw [map_opening spelling hname] at hfold
    have hletter := List.all_eq_true.mp hlower _ hfold
    rw [Bool.and_eq_true, bne_iff_ne, bne_iff_ne] at hletter
    exact ⟨hP c hletter.1, hletter.2⟩
  have hrest : ∀ c ∈ spelling.gap ++ v, P c ∧ foldCase c ≠ 'p' := by
    intro c hc
    have hplain : Plain c ∧ foldCase c ≠ 'p' := by
      rcases List.mem_append.mp hc with hc | hc
      · exact plain_of_mem_gap spelling c hc
      · exact plain_of_isHex hv c hc
    exact ⟨hP c hplain.1.1, hplain.2⟩
  have hscan := scan_quiet hquiet (List.forall_mem_append.mpr ⟨hopening, hrest⟩) hu
  simpa only [List.append_assoc] using hscan

theorem remainders_word (letters : List Char) (next : Regex Char) {name : List Char}
    (h : name.map foldCase = letters.map foldCase) (rest : List Char) :
    (letters.foldr (fun letter => one (isLetter letter)) next).remainders (name ++ rest) =
      next.remainders rest := by
  induction letters generalizing name with
  | nil =>
      rw [List.map_nil, List.map_eq_nil_iff] at h
      rw [h]
      rfl
  | cons letter letters ih =>
      rcases name with _ | ⟨c, cs⟩
      · cases h
      · rw [List.map_cons, List.map_cons, List.cons.injEq] at h
        rw [List.foldr_cons, List.cons_append, remainders, isLetter, h.1, beq_self_eq_true,
          if_pos rfl, ih h.2]

/-- What stands between the name and the value. -/
def Spelling.after : Spelling → List Char
  | .equals => ['=']
  | .colon => [':', ' ']
  | .single => ['\'', ':', ' ', '\'']
  | .double => ['"', ':', ' ', '"']

theorem head?_separator (spelling : Spelling) {v : List Char} (hv : IsHex v) (u : List Char) :
    ((separator done).remainders (spelling.after ++ (v ++ u))).head? = some (v ++ u) := by
  obtain ⟨c, cs, rfl⟩ := List.exists_cons_of_ne_nil hv.1
  have hspace : isPySpace c = false := by
    have hall := @all_of_isHex (fun d => !isPySpace d) (by decide) _ hv
    exact (Bool.not_eq_true' _).mp (List.all_eq_true.mp hall c List.mem_cons_self)
  have hquote : isQuote c = false := by
    have hall := @all_of_isHex (fun d => !isQuote d) (by decide) _ hv
    exact (Bool.not_eq_true' _).mp (List.all_eq_true.mp hall c List.mem_cons_self)
  have hequals : isQuote '=' = false ∧ isPySpace '=' = false ∧ isSign '=' = true := by decide
  have hcolon : isQuote ':' = false ∧ isPySpace ':' = false ∧ isSign ':' = true := by decide
  have hblank : isQuote ' ' = false ∧ isPySpace ' ' = true ∧ isSign ' ' = false := by decide
  have hsingle : isQuote '\'' = true ∧ isPySpace '\'' = false := by decide
  have hdouble : isQuote '"' = true ∧ isPySpace '"' = false := by decide
  cases spelling <;>
    simp [Spelling.after, separator, opt, remainders, starRemainders, hspace, hquote, hequals,
      hcolon, hblank, hsingle, hdouble]

/-- **The signature pass** takes the value of a field that it comes to. -/
theorem scan_signature (spelling : Spelling) (hname : name.map foldCase = "signature".toList)
    (hu : Terminated u) {v : List Char} (hv : IsHex v) :
    signatureAfterQuote.scan 0 (spelling.opening name ++ (spelling.gap ++ (v ++ u))) =
      spelling.opening name ++ (spelling.gap ++
        (['*', '*', '*'] ++ signatureAfterQuote.scan 0 u)) := by
  have hfirst : (signatureAfterQuote.kept.remainders
      (name ++ (spelling.after ++ (v ++ u)))).head? = some (v ++ u) := by
    have hletters : name.map foldCase = "signature".toList.map foldCase := by
      rw [hname]
      decide
    have hword := remainders_word "signature".toList (separator done) hletters
      (spelling.after ++ (v ++ u))
    rw [← head?_separator spelling hv u, ← hword]
    rfl
  have hfind : signatureAfterQuote.findAt ((name ++ spelling.after) ++ (v ++ u)) =
      some (v ++ u, u) := by
    have hdropped : signatureAfterQuote.dropped = isValue := rfl
    rw [findAt_eq, List.append_assoc, hfirst, Option.map_some, hdropped, dropWhile_hex hv hu]
  have hmatch := scan_match hfind
  have hquote : ∀ q, foldCase q ≠ 's' → ∀ cs : List Char,
      signatureAfterQuote.scan 0 (q :: cs) = q :: signatureAfterQuote.scan 0 cs := by
    intro q hq cs
    rw [scan, findAt_none (signature_no_match hq)]
  have hmark : signatureAfterQuote.mark = ['*', '*', '*'] := rfl
  rw [hmark] at hmatch
  simp only [List.append_assoc] at hmatch
  cases spelling with
  | equals => simpa [Spelling.opening, Spelling.gap, Spelling.after] using hmatch
  | colon => simpa [Spelling.opening, Spelling.gap, Spelling.after] using hmatch
  | single =>
      show signatureAfterQuote.scan 0 ('\'' :: (name ++ _)) = _
      rw [hquote '\'' (by decide)]
      exact congrArg ('\'' :: ·) hmatch
  | double =>
      show signatureAfterQuote.scan 0 ('"' :: (name ++ _)) = _
      rw [hquote '"' (by decide)]
      exact congrArg ('"' :: ·) hmatch

theorem Hidden.scan (h : Hidden text) : Hidden fun v => σ.scan 0 (text v) := by
  obtain ⟨out, htext⟩ := h
  exact ⟨σ.scan 0 out, fun v hv => congrArg (σ.scan 0) (htext v hv)⟩

theorem Pass.scan_outcome (hσ : Pass σ)
    (h : if spelling = .equals then Hidden text else Leaks spelling text) :
    if spelling = .equals then Hidden fun v => σ.scan 0 (text v)
    else Leaks spelling fun v => σ.scan 0 (text v) := by
  by_cases heq : spelling = .equals
  · rw [if_pos heq] at h ⊢
    exact h.scan
  · rw [if_neg heq] at h ⊢
    exact h.scan hσ heq

/-! ## 6. Which signatures are hidden -/

/-- The field is `signature=V`, or none of the three passes has a match that begins before the
    field and takes in its name. -/
def Intact (spelling : Spelling) (name p : List Char) : Prop :=
  let opening := spelling.opening name
  let keyed := apiKeyAfterQuote.carry 0 p opening
  let secreted := apiSecretAfterQuote.carry 0 keyed.1 opening
  spelling = .equals ∨
    keyed.2 = 0 ∧ secreted.2 = 0 ∧ (signatureAfterQuote.carry 0 secreted.1 opening).2 = 0

instance (spelling : Spelling) (name p : List Char) : Decidable (Intact spelling name p) := by
  unfold Intact
  infer_instance

/-- The three passes, on characters. -/
def scrubbed (text : List Char) : List Char :=
  signatureAfterQuote.scan 0 (apiSecretAfterQuote.scan 0 (apiKeyAfterQuote.scan 0 text))

/-- The quote that a pattern may begin with stays in any case. -/
theorem Pass.scan_boundary (hσ : Pass σ) {pattern : Substitution Char}
    (hkept : pattern.kept = .opt isQuote σ.kept) (hdropped : pattern.dropped = σ.dropped)
    (hmark : pattern.mark = σ.mark) (text : List Char) : pattern.sub text = σ.scan 0 text := by
  refine scan_opt hkept hdropped hmark (fun c cs hc => ?_) 0 text
  have hends : endsValue c = true := by
    rw [endsValue, hc, Bool.or_true, Bool.true_or]
  exact hσ.quiet c cs (plain_of_endsValue hends) fun ha =>
    absurd ha (foldCase_ne_of_endsValue (by decide) hends)

theorem scrub_eq (text : String) : scrub text = String.ofList (scrubbed text.toList) := by
  have hkey := @Pass.scan_boundary _ pass_apiKey apiKeyPattern rfl rfl rfl
  have hsecret := @Pass.scan_boundary _ pass_apiSecret apiSecretPattern rfl rfl rfl
  have hsignature := @Pass.scan_boundary _ pass_signature signaturePattern rfl rfl rfl
  unfold scrub scrubbed
  simp only [hkey, hsecret, hsignature]

/-- Once a match has taken in the name, the field is not intact, unless it is `signature=V`. -/
theorem outcome_of_taken
    (h : if spelling = .equals then Hidden text else Leaks spelling text)
    (htaken : spelling ≠ .equals → ¬ Intact spelling name p) :
    Intact spelling name p ∧ Hidden text ∨ ¬ Intact spelling name p ∧ Leaks spelling text := by
  by_cases heq : spelling = .equals
  · rw [if_pos heq] at h
    exact Or.inl ⟨Or.inl heq, h⟩
  · rw [if_neg heq] at h
    exact Or.inr ⟨htaken heq, h⟩

/-- **What becomes of a signature**: it is hidden in an intact field, and stands in the log in
    any other. -/
theorem scrubbed_cases (hname : name.map foldCase = "signature".toList) (hu : Terminated u)
    (h : Whole spelling name p u text) :
    Intact spelling name p ∧ (Hidden fun v => scrubbed (text v)) ∨
      ¬ Intact spelling name p ∧ Leaks spelling fun v => scrubbed (text v) := by
  rcases h.scan pass_apiKey hname hu with ⟨hkey, hkeyed⟩ | ⟨hkey, hout⟩
  · have hu' := pass_apiKey.scan_terminated hu
    have hwhole : Whole spelling name (apiKeyAfterQuote.carry 0 p (spelling.opening name)).1
        (apiKeyAfterQuote.scan 0 u) fun v => apiKeyAfterQuote.scan 0 (text v) := by
      intro v hv
      refine (hkeyed v hv).trans ?_
      rw [scan_opening (fun _ _ => apiKey_no_match) (fun _ hx => hx) hname hu hv]
    rcases hwhole.scan pass_apiSecret hname hu' with ⟨hsecret, hsecreted⟩ | ⟨hsecret, hout⟩
    · have hu'' := pass_apiSecret.scan_terminated hu'
      have hwhole' : Whole spelling name
          (apiSecretAfterQuote.carry 0
            (apiKeyAfterQuote.carry 0 p (spelling.opening name)).1 (spelling.opening name)).1
          (apiSecretAfterQuote.scan 0 (apiKeyAfterQuote.scan 0 u))
          fun v => apiSecretAfterQuote.scan 0 (apiKeyAfterQuote.scan 0 (text v)) := by
        intro v hv
        refine (hsecreted v hv).trans ?_
        rw [scan_opening (fun _ _ (_ : True) => apiSecret_no_match)
          (fun _ _ => trivial) hname hu' hv]
      rcases hwhole'.scan pass_signature hname hu'' with ⟨hown, hsigned⟩ | ⟨hown, hout⟩
      · exact Or.inl ⟨Or.inr ⟨hkey, hsecret, hown⟩, _, fun v hv =>
          (hsigned v hv).trans (congrArg (_ ++ ·) (scan_signature spelling hname hu'' hv))⟩
      · exact outcome_of_taken hout fun heq hintact =>
          hintact.elim heq fun hfree => hown hfree.2.2
    · exact outcome_of_taken (pass_signature.scan_outcome hout) fun heq hintact =>
        hintact.elim heq fun hfree => hsecret hfree.2.1
  · exact outcome_of_taken
      (pass_signature.scan_outcome (pass_apiSecret.scan_outcome hout)) fun heq hintact =>
        hintact.elim heq fun hfree => hkey hfree.1

theorem terminated_closing (spelling : Spelling) {t : List Char} (ht : Terminated t) :
    Terminated (spelling.closing ++ t) := by
  cases spelling with
  | equals => exact ht
  | colon => exact ht
  | single => rfl
  | double => rfl

/-- **Two signatures are scrubbed alike** exactly when they are the same or no value that is
    open before their field takes in its name. -/
theorem scrub_eq_iff (spelling : Spelling) {name v₁ v₂ t : String} (p : String)
    (hname : IsName name) (hv₁ : IsHex v₁.toList) (hv₂ : IsHex v₂.toList)
    (ht : Terminated t.toList) :
    scrub (p ++ spelling.field name v₁ ++ t) = scrub (p ++ spelling.field name v₂ ++ t) ↔
      v₁ = v₂ ∨ Intact spelling name.toList p.toList := by
  have htext : ∀ v : String, (p ++ spelling.field name v ++ t).toList =
      p.toList ++ (spelling.opening name.toList ++
        (spelling.gap ++ (v.toList ++ (spelling.closing ++ t.toList)))) := by
    intro v
    simp only [String.toList_append, toList_field, List.append_assoc]
  have hu := terminated_closing spelling ht
  have hwhole : Whole spelling name.toList p.toList (spelling.closing ++ t.toList)
      fun v => p.toList ++ (spelling.opening name.toList ++
        (spelling.gap ++ (v ++ (spelling.closing ++ t.toList)))) := fun _ _ => rfl
  rw [scrub_eq, scrub_eq, htext, htext, String.ofList_inj]
  rcases scrubbed_cases hname hu hwhole with ⟨hintact, out, hhidden⟩ | ⟨hintact, hleaks⟩
  · exact iff_of_true ((hhidden _ hv₁).trans (hhidden _ hv₂).symm) (Or.inr hintact)
  · obtain ⟨a, m, u, -, -, hstands⟩ := hleaks
    constructor
    · intro heq
      have hends := (hstands _ hv₁).symm.trans (heq.trans (hstands _ hv₂))
      simp only [List.append_cancel_left_eq, List.append_cancel_right_eq] at hends
      exact Or.inl (String.toList_inj.mp hends)
    · rintro (rfl | hfree)
      · rfl
      · exact absurd hfree hintact

theorem scrub_eq_iff_query :
    scrub ("api_key=&" ++ Spelling.field .colon "Signature" "ab" ++ " ok") =
        scrub ("api_key=&" ++ Spelling.field .colon "Signature" "cd" ++ " ok") ↔
      "ab" = "cd" ∨ Intact .colon "Signature".toList "api_key=&".toList :=
  scrub_eq_iff .colon "api_key=&" (by decide) (by decide) (by decide) (by decide)

/-- An empty header value before the field: its name is read as the API key. -/
theorem scrub_shows_signature :
    scrub ("X-MBX-APIKEY= " ++ Spelling.field .colon "signature" "beef" ++ "") =
        "X-MBX-APIKEY= signat… beef" ∧
      scrub ("X-MBX-APIKEY= " ++ Spelling.field .colon "signature" "beef" ++ "") ≠
        scrub ("X-MBX-APIKEY= " ++ Spelling.field .colon "signature" "cafe" ++ "") := by
  decide +kernel

end FundingTool.LogScrubber
