import FundingTool.JsonText
import Mathlib.Data.List.TakeWhile

/-!
# Reading JSON back

`loads_dumps`: in every style, a document is read as the value it was printed from.
`loads_prefix`: a document that begins with `{` is not read from any proper prefix of its text,
since what is read of a text is read of it with anything behind (`Extends`).

The induction on a value has one case a constructor (`Value.induct`); what it carries is that a
printed value is read with as much fuel as it has characters, and what follows it left alone.

`line_dumps` and `ascii_dumps` are what the files rest on that hold such texts.
-/

namespace FundingTool.JsonText

/-! ## 1. Characters -/

theorem hexValue_hexDigit {n : Nat} (h : n < 16) : hexValue (hexDigit n) = some n := by
  have hall : ∀ n : Fin 16, hexValue (hexDigit n) = some n.val := by decide
  exact hall ⟨n, h⟩

theorem run_readHexDigit {n : Nat} (h : n < 16) (text : List Char) :
    readHexDigit.run (hexDigit n :: text) = some (n, text) := by
  have hnext : next.run (hexDigit n :: text) = some (hexDigit n, text) := rfl
  simp only [readHexDigit, StateT.run_bind, hnext, Option.bind_eq_bind, Option.bind_some,
    hexValue_hexDigit h]
  rfl

theorem hexEscape_append (n : Nat) (text : List Char) :
    hexEscape n ++ text = '\\' :: 'u' :: ((hexEscape n).drop 2 ++ text) := rfl

/-- The escape of a code unit, up to its digits. -/
theorem run_readHex {n : Nat} (h : n < 65536) (text : List Char) :
    readHex.run ((hexEscape n).drop 2 ++ text) = some (n, text) := by
  have hdigits : (hexEscape n).drop 2 ++ text = hexDigit (n / 4096) :: hexDigit (n / 256 % 16) ::
      hexDigit (n / 16 % 16) :: hexDigit (n % 16) :: text := rfl
  have hvalue : 4096 * (n / 4096) + 256 * (n / 256 % 16) + 16 * (n / 16 % 16) + n % 16 = n := by
    omega
  rw [hdigits]
  simp only [readHex, StateT.run_bind, Option.bind_eq_bind, Option.bind_some,
    run_readHexDigit (show n / 4096 < 16 by omega), run_readHexDigit (Nat.mod_lt _ (by decide)),
    StateT.run_pure, hvalue]
  rfl

theorem run_expect (c : Char) (text : List Char) :
    (expect c).run (c :: text) = some ((), text) := by
  have hnext : next.run (c :: text) = some (c, text) := rfl
  simp only [expect, StateT.run_bind, hnext, Option.bind_eq_bind, Option.bind_some, if_true]
  rfl

/-- A character is outside the surrogates. -/
theorem char_range (c : Char) : c.toNat < 55296 ∨ 57343 < c.toNat ∧ c.toNat < 1114112 := by
  rcases c.valid with h | h
  · exact .inl h
  · exact .inr h

/-- A character that is escaped as one code unit. -/
theorem run_readUnicode_small {c : Char} (h : c.toNat < 65536) (text : List Char) :
    readUnicode.run ((hexEscape c.toNat).drop 2 ++ text) = some (c, text) := by
  have hrange : c.toNat < 55296 ∨ 57343 < c.toNat := by
    have := char_range c
    omega
  simp only [readUnicode, StateT.run_bind, run_readHex h, Option.bind_eq_bind, Option.bind_some]
  rw [if_pos hrange, Char.ofNat_toNat]
  rfl

theorem run_readUnicode_halves {a b : Nat} (ha : a < 1024) (hb : b < 1024) (text : List Char) :
    readUnicode.run ((hexEscape (55296 + a)).drop 2 ++ (hexEscape (56320 + b) ++ text)) =
      some (Char.ofNat (65536 + a * 1024 + b), text) := by
  have hhigh : 55296 + a < 65536 := by omega
  have hlow : 56320 + b < 65536 := by omega
  have hvalue : 65536 + (55296 + a - 55296) * 1024 + (56320 + b - 56320) =
      65536 + a * 1024 + b := by omega
  have hfirst : ¬ (55296 + a < 55296 ∨ 57343 < 55296 + a) := by omega
  have hsecond : 55296 + a < 56320 := by omega
  have hthird : 56320 ≤ 56320 + b ∧ 56320 + b < 57344 := by omega
  rw [hexEscape_append (56320 + b)]
  simp only [readUnicode, StateT.run_bind, run_readHex hhigh, Option.bind_eq_bind,
    Option.bind_some, if_neg hfirst, if_pos hsecond, run_expect, run_readHex hlow, if_pos hthird,
    hvalue]
  rfl

/-- A character that is escaped as two. -/
theorem run_readUnicode_large {c : Char} (h : 65536 ≤ c.toNat) (text : List Char) :
    readUnicode.run ((hexEscape (55296 + (c.toNat - 65536) / 1024)).drop 2 ++
      (hexEscape (56320 + (c.toNat - 65536) % 1024) ++ text)) = some (c, text) := by
  have hrange := char_range c
  have hvalue : 65536 + (c.toNat - 65536) / 1024 * 1024 + (c.toNat - 65536) % 1024 = c.toNat := by
    omega
  rw [run_readUnicode_halves (by omega) (by omega), hvalue, Char.ofNat_toNat]

theorem readEscape_short {c letter : Char} (h : (c, letter) ∈ shortEscapes) (text : List Char) :
    readEscape.run (letter :: text) = some (c, text) := by
  simp only [shortEscapes, List.mem_cons, Prod.mk.injEq, List.not_mem_nil, or_false] at h
  rcases h with ⟨rfl, rfl⟩ | ⟨rfl, rfl⟩ | ⟨rfl, rfl⟩ | ⟨rfl, rfl⟩ | ⟨rfl, rfl⟩ | ⟨rfl, rfl⟩ |
    ⟨rfl, rfl⟩ <;> rfl

theorem mem_of_lookup {α β : Type} [BEq α] [LawfulBEq α] {pairs : List (α × β)} {a : α} {b : β}
    (h : pairs.lookup a = some b) : (a, b) ∈ pairs := by
  obtain ⟨before, after, heq, -⟩ := List.lookup_eq_some_iff.mp h
  exact heq ▸ List.mem_append_right _ List.mem_cons_self

/-- **What a character is written as**: its short escape, one code unit, itself, or two code
    units. -/
theorem escapeChar_cases (ascii : Bool) (c : Char) :
    (∃ letter, (c, letter) ∈ shortEscapes ∧ escapeChar ascii c = ['\\', letter]) ∨
    (escapeChar ascii c = hexEscape c.toNat ∧ c.toNat < 65536) ∨
    (escapeChar ascii c = [c] ∧ c ≠ '"' ∧ c ≠ '\\' ∧ 32 ≤ c.toNat ∧
      (ascii = true → c.toNat < 127)) ∨
    (65536 ≤ c.toNat ∧ escapeChar ascii c =
      hexEscape (55296 + (c.toNat - 65536) / 1024) ++
        hexEscape (56320 + (c.toNat - 65536) % 1024)) := by
  rcases hshort : shortEscapes.lookup c with _ | letter
  · have hquote : c ≠ '"' := by
      rintro rfl
      cases hshort
    have hbackslash : c ≠ '\\' := by
      rintro rfl
      cases hshort
    simp only [escapeChar, hshort]
    by_cases hcontrol : c.toNat < 32
    · rw [if_pos hcontrol]
      exact .inr (.inl ⟨rfl, by omega⟩)
    rw [if_neg hcontrol]
    by_cases hplain : (!ascii || decide (c.toNat < 127)) = true
    · rw [if_pos hplain]
      refine .inr (.inr (.inl ⟨rfl, hquote, hbackslash, Nat.le_of_not_lt hcontrol, ?_⟩))
      rintro rfl
      exact of_decide_eq_true hplain
    rw [if_neg hplain]
    by_cases hsmall : c.toNat < 65536
    · rw [if_pos hsmall]
      exact .inr (.inl ⟨rfl, hsmall⟩)
    · rw [if_neg hsmall]
      exact .inr (.inr (.inr ⟨Nat.le_of_not_lt hsmall, rfl⟩))
  · refine .inl ⟨letter, mem_of_lookup hshort, ?_⟩
    simp only [escapeChar, hshort]

/-! ## 2. Strings -/

theorem run_next (c : Char) (text : List Char) : next.run (c :: text) = some (c, text) := rfl

/-- A character that a backslash introduces. -/
theorem readString_escaped {c : Char} {escape : List Char} {text : List Char} (fuel : Nat)
    (h : readEscape.run (escape ++ text) = some (c, text)) :
    (readString (fuel + 1)).run ('\\' :: (escape ++ text)) =
      ((readString fuel).run text).map fun (cs, rest) => (c :: cs, rest) := by
  simp only [readString, StateT.run_bind, run_next, Option.bind_eq_bind, Option.bind_some]
  rw [if_neg (by decide), if_true]
  simp only [StateT.run_bind, h, Option.bind_eq_bind, Option.bind_some]
  rcases (readString fuel).run text with _ | ⟨cs, rest⟩ <;> rfl

theorem readEscape_unicode (text : List Char) :
    readEscape.run ('u' :: text) = readUnicode.run text := rfl

theorem readString_escapeChar (ascii : Bool) (c : Char) (fuel : Nat) (text : List Char) :
    (readString (fuel + 1)).run (escapeChar ascii c ++ text) =
      ((readString fuel).run text).map fun (cs, rest) => (c :: cs, rest) := by
  rcases escapeChar_cases ascii c with ⟨letter, hmem, heq⟩ | ⟨heq, hsmall⟩ |
    ⟨heq, hquote, hbackslash, hlarge, -⟩ | ⟨hlarge, heq⟩ <;> rw [heq]
  · exact @readString_escaped _ [letter] _ fuel (readEscape_short hmem text)
  · refine @readString_escaped _ ('u' :: (hexEscape c.toNat).drop 2) _ fuel ?_
    rw [List.cons_append, readEscape_unicode]
    exact run_readUnicode_small hsmall text
  · simp only [List.singleton_append, readString, StateT.run_bind, run_next, Option.bind_eq_bind,
      Option.bind_some]
    rw [if_neg hquote, if_neg hbackslash, if_neg (Nat.not_lt.mpr hlarge), StateT.run_bind]
    rcases (readString fuel).run text with _ | ⟨cs, rest⟩ <;> rfl
  · rw [List.append_assoc, hexEscape_append]
    refine @readString_escaped _ ('u' :: ((hexEscape _).drop 2 ++ hexEscape _)) _ fuel ?_
    rw [List.cons_append, readEscape_unicode, List.append_assoc]
    exact run_readUnicode_large hlarge text

theorem escapeChar_length (ascii : Bool) (c : Char) : 0 < (escapeChar ascii c).length := by
  rcases escapeChar_cases ascii c with ⟨letter, -, heq⟩ | ⟨heq, -⟩ | ⟨heq, -⟩ | ⟨-, heq⟩ <;>
    rw [heq]
  · exact Nat.succ_pos _
  · exact Nat.succ_pos _
  · exact Nat.succ_pos _
  · exact Nat.succ_pos _

theorem run_readString (ascii : Bool) (cs : List Char) {fuel : Nat}
    (hfuel : (cs.flatMap (escapeChar ascii)).length < fuel) (text : List Char) :
    (readString fuel).run (cs.flatMap (escapeChar ascii) ++ '"' :: text) = some (cs, text) := by
  induction cs generalizing fuel with
  | nil =>
      obtain ⟨fuel, rfl⟩ := Nat.exists_eq_succ_of_ne_zero (Nat.ne_of_gt hfuel)
      rfl
  | cons c cs ih =>
      obtain ⟨fuel, rfl⟩ := Nat.exists_eq_succ_of_ne_zero (Nat.ne_of_gt (Nat.zero_lt_of_lt hfuel))
      have hpos := escapeChar_length ascii c
      simp only [List.flatMap_cons, List.length_append] at hfuel
      rw [List.flatMap_cons, List.append_assoc, readString_escapeChar, ih (by omega)]
      rfl

/-! ## 3. Words and numbers -/

/-- What follows is no part of a word or a number. -/
def Stops (tail : List Char) : Prop := ∀ c rest, tail = c :: rest → isBare c = false

theorem stops_cons {c : Char} (h : isBare c = false) (rest : List Char) : Stops (c :: rest) := by
  intro c' rest' heq
  cases heq
  exact h

theorem not_isSpace_of_isBare {c : Char} (h : isBare c = true) : isSpace c = false := by
  by_contra hspace
  simp only [isSpace, Bool.not_eq_false, Bool.or_eq_true, decide_eq_true_eq] at hspace
  rcases hspace with ((rfl | rfl) | rfl) | rfl <;> exact absurd h (by decide)

theorem isBare_of_step {state state' : NumberState} {c : Char} (h : state.step c = some state') :
    isBare c = true := by
  have hdigit : c.isDigit = true → isBare c = true := by
    intro hc
    simp only [isBare, Char.isAlphanum, hc, Bool.or_true, Bool.true_or]
  by_contra hbare
  have hother : c.isDigit = false ∧ c ≠ '-' ∧ c ≠ '0' ∧ c ≠ '.' ∧ c ≠ 'e' ∧ c ≠ 'E' ∧ c ≠ '+' := by
    refine ⟨Bool.eq_false_iff.mpr fun hc => hbare (hdigit hc), ?_, ?_, ?_, ?_, ?_, ?_⟩ <;>
      rintro rfl <;> exact hbare (by decide)
  obtain ⟨h₁, h₂, h₃, h₄, h₅, h₆, h₇⟩ := hother
  cases state <;> simp [NumberState.step, h₁, h₂, h₃, h₄, h₅, h₆, h₇] at h

theorem isBare_of_foldlM {literal : List Char} {state state' : NumberState}
    (h : literal.foldlM NumberState.step state = some state') :
    ∀ c ∈ literal, isBare c = true := by
  induction literal generalizing state with
  | nil => exact List.forall_mem_nil _
  | cons c cs ih =>
      rw [List.foldlM_cons] at h
      rcases hstep : state.step c with _ | next
      · rw [hstep] at h
        cases h
      · rw [hstep] at h
        exact List.forall_mem_cons.mpr ⟨isBare_of_step hstep, ih h⟩

theorem Number.isBare (n : Number) : ∀ c ∈ n.literal, isBare c = true := by
  have hvalid := n.valid
  unfold isNumber at hvalid
  rcases hrun : n.literal.foldlM NumberState.step .start with _ | state
  · rw [hrun] at hvalid
    cases hvalid
  · exact isBare_of_foldlM hrun

theorem takeWhile_stops {bare tail : List Char} (hbare : ∀ c ∈ bare, isBare c = true)
    (hstops : Stops tail) :
    (bare ++ tail).takeWhile isBare = bare ∧ (bare ++ tail).dropWhile isBare = tail := by
  rw [List.takeWhile_append_of_pos hbare, List.dropWhile_append_of_pos hbare]
  rcases tail with _ | ⟨c, rest⟩
  · exact ⟨List.append_nil _, rfl⟩
  · have hc := hstops c rest rfl
    rw [List.takeWhile_cons_of_neg (by rw [hc]; decide),
      List.dropWhile_cons_of_neg (by rw [hc]; decide)]
    exact ⟨List.append_nil _, rfl⟩

theorem isBare_word (w : Word) : ∀ c ∈ w.text, isBare c = true := by
  have hall : w.text.all isBare = true := by cases w <;> rfl
  exact List.all_eq_true.mp hall

theorem run_readBare_word (w : Word) {c : Char} {rest tail : List Char} (hw : w.text = c :: rest)
    (hstops : Stops tail) : (readBare c).run (rest ++ tail) = some (.word w, tail) := by
  have hbare : ∀ c ∈ rest, isBare c = true := by
    intro c hc
    exact isBare_word w c (hw ▸ List.mem_cons_of_mem _ hc)
  have hfind : Word.all.find? (fun word => word.text = w.text) = some w := by cases w <;> rfl
  obtain ⟨htake, hdrop⟩ := takeWhile_stops hbare hstops
  simp only [readBare, StateT.run, htake, hdrop, ← hw, hfind]

theorem run_readBare_number (n : Number) {c : Char} {rest tail : List Char}
    (hn : n.literal = c :: rest) (hstops : Stops tail) :
    (readBare c).run (rest ++ tail) = some (.num n, tail) := by
  have hbare : ∀ c ∈ rest, isBare c = true :=
    fun c hc => n.isBare c (hn ▸ List.mem_cons_of_mem _ hc)
  have hfind : Word.all.find? (fun word => word.text = n.literal) = none := by
    have hwords : ∀ w ∈ Word.all, isNumber w.text = false := by decide
    rw [List.find?_eq_none]
    intro w hw heq
    have hword : w.text = n.literal := of_decide_eq_true heq
    exact Bool.false_ne_true ((hwords w hw).symm.trans (hword ▸ n.valid))
  obtain ⟨htake, hdrop⟩ := takeWhile_stops hbare hstops
  simp only [readBare, StateT.run, htake, hdrop, ← hn, hfind, n.valid, dif_pos]

/-! ## 4. Values -/

theorem Value.induct {P : Value → Prop} (word : ∀ w, P (.word w)) (num : ∀ n, P (.num n))
    (str : ∀ s, P (.str s)) (arr : ∀ items, (∀ v ∈ items, P v) → P (.arr items))
    (obj : ∀ members, (∀ m ∈ members, P m.2) → P (.obj members)) : ∀ v, P v := by
  refine @Value.rec P (fun items => ∀ v ∈ items, P v) (fun members => ∀ m ∈ members, P m.2)
    (fun m => P m.2) word num str arr obj (List.forall_mem_nil _) ?_ (List.forall_mem_nil _) ?_ ?_
  · exact fun v items hv hitems => List.forall_mem_cons.mpr ⟨hv, hitems⟩
  · exact fun m members hm hmembers => List.forall_mem_cons.mpr ⟨hm, hmembers⟩
  · exact fun _ _ hv => hv

/-- A text that begins a value: neither blank nor the end of an array. -/
def Begins (text : List Char) : Prop :=
  ∃ c rest, text = c :: rest ∧ isSpace c = false ∧ c ≠ ']'

theorem begins_bare {text : List Char} (hne : text ≠ []) (hbare : ∀ c ∈ text, isBare c = true) :
    Begins text := by
  rcases text with _ | ⟨c, rest⟩
  · exact absurd rfl hne
  · have hc := hbare c List.mem_cons_self
    refine ⟨c, rest, rfl, not_isSpace_of_isBare hc, ?_⟩
    rintro rfl
    cases hc

theorem begins_write (style : Style) (depth : Nat) (v : Value) : Begins (write style depth v) := by
  cases v with
  | word w =>
      simp only [write]
      exact begins_bare (by cases w <;> decide) (isBare_word w)
  | num n =>
      simp only [write]
      refine begins_bare (fun hnil => ?_) n.isBare
      have hvalid := n.valid
      rw [hnil] at hvalid
      cases hvalid
  | str s =>
      simp only [write]
      exact ⟨_, _, rfl, rfl, by decide⟩
  | arr items =>
      cases items <;> simp only [write] <;> exact ⟨_, _, rfl, rfl, by decide⟩
  | obj members =>
      cases members <;> simp only [write] <;> exact ⟨_, _, rfl, rfl, by decide⟩

theorem exists_fuel {style : Style} {depth fuel : Nat} {v : Value}
    (h : (write style depth v).length ≤ fuel) : ∃ n, fuel = n + 1 := by
  refine Nat.exists_eq_succ_of_ne_zero fun hzero => ?_
  obtain ⟨c, rest, htext, -⟩ := begins_write style depth v
  rw [htext, hzero] at h
  exact Nat.not_succ_le_zero _ h

section

variable {α : Type} {f : Char → Reader α} {text : List Char}

/-- What comes behind white space. -/
theorem run_token_blank {blank : List Char} (h : ∀ c ∈ blank, isSpace c = true) :
    (token >>= f).run (blank ++ text) = (token >>= f).run text := by
  have htoken : token.run (blank ++ text) = token.run text := by
    simp only [token, StateT.run, List.dropWhile_append_of_pos h]
  rw [StateT.run_bind, htoken, StateT.run_bind]

theorem token_run {c : Char} (h : isSpace c = false) : token.run (c :: text) = some (c, text) := by
  simp only [token, StateT.run, List.dropWhile_cons_of_neg (Bool.eq_false_iff.mp h)]
  rfl

theorem run_token {c : Char} (h : isSpace c = false) :
    (token >>= f).run (c :: text) = (f c).run text := by
  rw [StateT.run_bind, token_run h]
  rfl

end

theorem blank_newline (style : Style) (depth : Nat) :
    ∀ c ∈ style.newline depth, isSpace c = true := by
  unfold Style.newline
  rcases style.indent with _ | width
  · exact List.forall_mem_nil _
  · refine List.forall_mem_cons.mpr ⟨rfl, fun c hc => ?_⟩
    rw [List.eq_of_mem_replicate hc]
    rfl

theorem blank_optional (blank : Bool) :
    ∀ c ∈ (if blank then [' '] else []), isSpace c = true := by
  intro c hc
  cases blank with
  | false => cases hc
  | true =>
      rw [List.eq_of_mem_singleton hc]
      rfl

theorem blank_comma (style : Style) (depth : Nat) :
    ∀ c ∈ (if style.commaBlank then [' '] else []) ++ style.newline depth, isSpace c = true :=
  List.forall_mem_append.mpr ⟨blank_optional _, blank_newline style depth⟩

/-- A value is read from its text, with what follows left alone. -/
def ReadsBack (style : Style) (v : Value) : Prop :=
  ∀ depth fuel tail, (write style depth v).length ≤ fuel → Stops tail →
    (token >>= readValue fuel).run (write style depth v ++ tail) = some (v, tail)

theorem stops_newline (style : Style) (depth : Nat) {c : Char} (hc : isBare c = false)
    (rest : List Char) : Stops (style.newline depth ++ c :: rest) := by
  unfold Style.newline
  rcases style.indent with _ | width
  · exact stops_cons hc rest
  · exact stops_cons rfl _

theorem stops_writeItems (style : Style) (depth depth' : Nat) (items : List Value)
    (rest : List Char) :
    Stops (writeItems style depth items ++ (style.newline depth' ++ ']' :: rest)) := by
  cases items with
  | nil =>
      simp only [writeItems, List.nil_append]
      exact stops_newline style depth' rfl rest
  | cons item items =>
      simp only [writeItems, Style.comma, List.cons_append]
      exact stops_cons rfl _

theorem stops_writeMembers (style : Style) (depth depth' : Nat) (members : List (String × Value))
    (rest : List Char) :
    Stops (writeMembers style depth members ++ (style.newline depth' ++ '}' :: rest)) := by
  cases members with
  | nil =>
      simp only [writeMembers, List.nil_append]
      exact stops_newline style depth' rfl rest
  | cons member members =>
      simp only [writeMembers, Style.comma, List.cons_append]
      exact stops_cons rfl _

section

variable {α : Type} {close : Char} {more : Reader (List α)} {item : α} {tail : List Char}

theorem run_readMore_end {blank : List Char} (hblank : ∀ c ∈ blank, isSpace c = true)
    (hclose : isSpace close = false) :
    (readMore close more item).run (blank ++ close :: tail) = some ([item], tail) := by
  rw [readMore, run_token_blank hblank, run_token hclose, if_pos rfl]
  rfl

theorem run_readMore_comma {items : List α} {text : List Char} (hclose : close ≠ ',')
    (hmore : more.run text = some (items, tail)) :
    (readMore close more item).run (',' :: text) = some (item :: items, tail) := by
  rw [readMore, run_token rfl, if_neg hclose.symm, if_pos rfl, StateT.run_bind, hmore]
  rfl

end

/-- The items of an array, up to its end. -/
theorem run_readItems {style : Style} {item : Value} {items : List Value}
    (h : ∀ v ∈ item :: items, ReadsBack style v) (depth depth' : Nat) {fuel : Nat}
    (hfuel : (write style depth item ++ writeItems style depth items).length < fuel)
    (tail : List Char) :
    (token >>= readItems fuel).run (write style depth item ++ (writeItems style depth items ++
      (style.newline depth' ++ ']' :: tail))) = some (item :: items, tail) := by
  induction items generalizing item fuel with
  | nil =>
      obtain ⟨fuel, rfl⟩ := Nat.exists_eq_succ_of_ne_zero (Nat.ne_of_gt (Nat.zero_lt_of_lt hfuel))
      have hitem := h item List.mem_cons_self depth fuel
        (writeItems style depth [] ++ (style.newline depth' ++ ']' :: tail))
        (by rw [List.length_append] at hfuel; omega) (stops_writeItems style depth depth' [] tail)
      simp only [readItems]
      rw [← bind_assoc, StateT.run_bind, hitem]
      simp only [Option.bind_eq_bind, Option.bind_some, writeItems, List.nil_append]
      exact run_readMore_end (blank_newline style depth') rfl
  | cons second items ih =>
      obtain ⟨fuel, rfl⟩ := Nat.exists_eq_succ_of_ne_zero (Nat.ne_of_gt (Nat.zero_lt_of_lt hfuel))
      have hitem := h item List.mem_cons_self depth fuel
        (writeItems style depth (second :: items) ++ (style.newline depth' ++ ']' :: tail))
        (by rw [List.length_append] at hfuel; omega)
        (stops_writeItems style depth depth' (second :: items) tail)
      have hrest := @ih second (fun v hv => h v (List.mem_cons_of_mem _ hv)) fuel (by
        simp only [writeItems, Style.comma, List.length_append, List.length_cons] at hfuel ⊢
        omega)
      simp only [readItems]
      rw [← bind_assoc, StateT.run_bind, hitem]
      simp only [Option.bind_eq_bind, Option.bind_some, writeItems, Style.comma, List.cons_append,
        List.append_assoc]
      apply run_readMore_comma (by decide)
      rw [← List.append_assoc, run_token_blank (blank_comma style depth)]
      exact hrest

/-- A member, up to its value. -/
theorem run_readMember {style : Style} {member : String × Value} (h : ReadsBack style member.2)
    (depth : Nat) {fuel : Nat} (hfuel : (writeMember style depth member).length ≤ fuel)
    {tail : List Char} (hstops : Stops tail) :
    (token >>= readMembers (fuel + 1)).run (writeMember style depth member ++ tail) =
      (readMore '}' (token >>= readMembers fuel) member).run tail := by
  obtain ⟨name, v⟩ := member
  simp only [writeMember, writeString, Style.colon, List.length_append, List.length_cons] at hfuel
  simp only [writeMember, writeString, Style.colon, List.cons_append, List.append_assoc]
  have hname := @run_readString style.ascii name.toList fuel (by omega)
    (':' :: ((if style.colonBlank then [' '] else []) ++ (write style depth v ++ tail)))
  have hvalue := h depth fuel tail (show (write style depth v).length ≤ fuel by omega) hstops
  rw [← run_token_blank (blank_optional style.colonBlank)] at hvalue
  simp only [StateT.run_bind, Option.bind_eq_bind] at hvalue
  rw [run_token rfl]
  simp only [readMembers, if_true, StateT.run_bind, List.nil_append, hname, Option.bind_eq_bind,
    Option.bind_some, String.ofList_toList, token_run (show isSpace ':' = false from rfl), hvalue]

/-- The members of an object, up to its end. -/
theorem run_readMembers {style : Style} {member : String × Value} {members : List (String × Value)}
    (h : ∀ m ∈ member :: members, ReadsBack style m.2) (depth depth' : Nat) {fuel : Nat}
    (hfuel : (writeMember style depth member ++ writeMembers style depth members).length < fuel)
    (tail : List Char) :
    (token >>= readMembers fuel).run (writeMember style depth member ++
      (writeMembers style depth members ++ (style.newline depth' ++ '}' :: tail))) =
      some (member :: members, tail) := by
  induction members generalizing member fuel with
  | nil =>
      obtain ⟨fuel, rfl⟩ := Nat.exists_eq_succ_of_ne_zero (Nat.ne_of_gt (Nat.zero_lt_of_lt hfuel))
      rw [run_readMember (h member List.mem_cons_self) depth
        (Nat.le_of_lt_succ (Nat.lt_of_le_of_lt (by simp) hfuel))
        (stops_writeMembers style depth depth' [] tail)]
      simp only [writeMembers, List.nil_append]
      exact run_readMore_end (blank_newline style depth') rfl
  | cons second members ih =>
      obtain ⟨fuel, rfl⟩ := Nat.exists_eq_succ_of_ne_zero (Nat.ne_of_gt (Nat.zero_lt_of_lt hfuel))
      have hrest := @ih second (fun m hm => h m (List.mem_cons_of_mem _ hm)) fuel (by
        simp only [writeMembers, Style.comma, List.length_append, List.length_cons] at hfuel ⊢
        omega)
      rw [run_readMember (h member List.mem_cons_self) depth
        (Nat.le_of_lt_succ (Nat.lt_of_le_of_lt (by simp) hfuel))
        (stops_writeMembers style depth depth' (second :: members) tail)]
      simp only [writeMembers, Style.comma, List.cons_append, List.append_assoc]
      apply run_readMore_comma (by decide)
      rw [← List.append_assoc, run_token_blank (blank_comma style depth)]
      exact hrest

theorem readValue_bare {c : Char} (hc : isBare c = true) (fuel : Nat) :
    readValue (fuel + 1) c = readBare c := by
  have hquote : c ≠ '"' := by
    rintro rfl
    cases hc
  have hbracket : c ≠ '[' := by
    rintro rfl
    cases hc
  have hbrace : c ≠ '{' := by
    rintro rfl
    cases hc
  rw [readValue, if_neg hquote, if_neg hbracket, if_neg hbrace]

/-- A word or a number. -/
theorem readsBack_bare {style : Style} {v : Value}
    (hbare : ∀ depth, ∀ c ∈ write style depth v, isBare c = true)
    (hread : ∀ depth c rest tail, write style depth v = c :: rest → Stops tail →
      (readBare c).run (rest ++ tail) = some (v, tail)) : ReadsBack style v := by
  intro depth fuel tail hfuel hstops
  obtain ⟨fuel, rfl⟩ := exists_fuel hfuel
  obtain ⟨c, rest, htext, hspace, -⟩ := begins_write style depth v
  have hc := hbare depth c (htext ▸ List.mem_cons_self)
  rw [htext, List.cons_append, run_token hspace, readValue_bare hc]
  exact hread depth c rest tail htext hstops

theorem readsBack (style : Style) (v : Value) : ReadsBack style v := by
  induction v using Value.induct with
  | word w =>
      apply readsBack_bare
      · intro depth
        simp only [write]
        exact isBare_word w
      · intro depth c rest tail htext hstops
        simp only [write] at htext
        exact run_readBare_word w htext hstops
  | num n =>
      apply readsBack_bare
      · intro depth
        simp only [write]
        exact n.isBare
      · intro depth c rest tail htext hstops
        simp only [write] at htext
        exact run_readBare_number n htext hstops
  | str s =>
      intro depth fuel tail hfuel hstops
      obtain ⟨fuel, rfl⟩ := exists_fuel hfuel
      simp only [write, writeString, List.length_cons] at hfuel ⊢
      have hstring := @run_readString style.ascii s.toList fuel
        (by simp only [List.length_append, List.length_singleton] at hfuel; omega) tail
      rw [List.cons_append, run_token rfl, List.append_assoc, List.singleton_append]
      simp only [readValue, if_true, StateT.run_bind, hstring, Option.bind_eq_bind,
        Option.bind_some, String.ofList_toList]
      rfl
  | arr items ih =>
      intro depth fuel tail hfuel hstops
      obtain ⟨fuel, rfl⟩ := exists_fuel hfuel
      cases items with
      | nil =>
          simp only [write]
          rfl
      | cons item items =>
          simp only [write, List.length_cons, List.length_append] at hfuel
          have hlength : (write style (depth + 1) item ++
              writeItems style (depth + 1) items).length < fuel := by
            rw [List.length_append]
            omega
          have hitems := run_readItems ih (depth + 1) depth hlength tail
          obtain ⟨c, rest, htext, hspace, hclose⟩ := begins_write style (depth + 1) item
          rw [htext, List.cons_append, run_token hspace] at hitems
          simp only [write, List.cons_append, List.append_assoc, List.nil_append]
          rw [run_token rfl, readValue, if_neg (by decide), if_pos rfl,
            run_token_blank (blank_newline style (depth + 1)), htext, List.cons_append,
            run_token hspace, if_neg hclose, StateT.run_bind, hitems]
          rfl
  | obj members ih =>
      intro depth fuel tail hfuel hstops
      obtain ⟨fuel, rfl⟩ := exists_fuel hfuel
      cases members with
      | nil =>
          simp only [write]
          rfl
      | cons member members =>
          simp only [write, List.length_cons, List.length_append] at hfuel
          have hlength : (writeMember style (depth + 1) member ++
              writeMembers style (depth + 1) members).length < fuel := by
            rw [List.length_append]
            omega
          have hmembers := run_readMembers ih (depth + 1) depth hlength tail
          obtain ⟨rest, htext⟩ :
              ∃ rest, writeMember style (depth + 1) member = '"' :: rest := by
            rcases member with ⟨name, v⟩
            simp only [writeMember, writeString, List.cons_append]
            exact ⟨_, rfl⟩
          rw [htext, List.cons_append, run_token rfl] at hmembers
          simp only [write, List.cons_append, List.append_assoc, List.nil_append]
          rw [run_token rfl, readValue, if_neg (by decide), if_neg (by decide), if_pos rfl,
            run_token_blank (blank_newline style (depth + 1)), htext, List.cons_append,
            run_token rfl, if_neg (by decide), StateT.run_bind, hmembers]
          rfl

theorem run_dumps (style : Style) (v : Value) :
    (token >>= readValue (dumps style v).length).run (dumps style v) = some (v, []) := by
  have hread := readsBack style v 0 (dumps style v).length [] (Nat.le_refl _)
    fun c rest heq => by cases heq
  rw [List.append_nil] at hread
  exact hread

/-- **A document is read back**, in every style. -/
theorem loads_dumps (style : Style) (v : Value) : loads (dumps style v) = some v := by
  rw [loads, run_dumps]
  rfl

/-! ## 5. Prefixes -/

/-- What `p` reads of a text, `q` reads of it with anything behind. -/
def Extends {α : Type} (p q : Reader α) : Prop :=
  ∀ text v rest, p.run text = some (v, rest) → ∀ more,
    q.run (text ++ more) = some (v, rest ++ more)

/-- The same where `p` leaves something. -/
def ExtendsBefore {α : Type} (p q : Reader α) : Prop :=
  ∀ text v rest, p.run text = some (v, rest) → rest ≠ [] → ∀ more,
    q.run (text ++ more) = some (v, rest ++ more)

section

variable {α β : Type} {p q : Reader α} {f g : α → Reader β}

theorem Extends.before (h : Extends p q) : ExtendsBefore p q :=
  fun text v rest hrun _ more => h text v rest hrun more

theorem extends_pure (a : α) : Extends (pure a : Reader α) (pure a) := by
  intro text v rest h more
  cases h
  rfl

theorem extends_failure : Extends failure q := by
  intro text v rest h
  cases h

theorem run_bind_some {text rest : List Char} {b : β}
    (h : (p >>= f).run text = some (b, rest)) :
    ∃ a middle, p.run text = some (a, middle) ∧ (f a).run middle = some (b, rest) := by
  rw [StateT.run_bind] at h
  rcases hp : p.run text with _ | ⟨a, middle⟩
  · rw [hp] at h
    cases h
  · rw [hp] at h
    exact ⟨a, middle, rfl, h⟩

theorem Extends.bind (hp : Extends p q) (hf : ∀ a, Extends (f a) (g a)) :
    Extends (p >>= f) (q >>= g) := by
  intro text b rest h more
  obtain ⟨a, middle, hfirst, hsecond⟩ := run_bind_some h
  rw [StateT.run_bind, hp text a middle hfirst more]
  exact hf a middle b rest hsecond more

/-- What follows a value is read, and must be there. -/
theorem ExtendsBefore.bind (hp : ExtendsBefore p q) (hf : ∀ a, Extends (f a) (g a))
    (hneeds : ∀ a, (f a).run [] = none) : Extends (p >>= f) (q >>= g) := by
  intro text b rest h more
  obtain ⟨a, middle, hfirst, hsecond⟩ := run_bind_some h
  have hne : middle ≠ [] := by
    rintro rfl
    rw [hneeds a] at hsecond
    cases hsecond
  rw [StateT.run_bind, hp text a middle hfirst hne more]
  exact hf a middle b rest hsecond more

theorem Extends.bindBefore (hp : Extends p q) (hf : ∀ a, ExtendsBefore (f a) (g a)) :
    ExtendsBefore (p >>= f) (q >>= g) := by
  intro text b rest h hne more
  obtain ⟨a, middle, hfirst, hsecond⟩ := run_bind_some h
  rw [StateT.run_bind, hp text a middle hfirst more]
  exact hf a middle b rest hsecond hne more

theorem Extends.ite {condition : Prop} [Decidable condition] {p' q' : Reader α}
    (hp : Extends p q) (hq : Extends p' q') :
    Extends (if condition then p else p') (if condition then q else q') := by
  split
  · exact hp
  · exact hq

theorem ExtendsBefore.ite {condition : Prop} [Decidable condition] {p' q' : Reader α}
    (hp : ExtendsBefore p q) (hq : ExtendsBefore p' q') :
    ExtendsBefore (if condition then p else p') (if condition then q else q') := by
  split
  · exact hp
  · exact hq

end

theorem extends_next : Extends next next := by
  intro text c rest h more
  cases text with
  | nil => cases h
  | cons c text =>
      cases h
      rfl

theorem extends_token : Extends token token := by
  intro text c rest h more
  simp only [token, StateT.run, List.dropWhile_append] at h ⊢
  rcases hdrop : text.dropWhile isSpace with _ | ⟨c', rest'⟩
  · rw [hdrop] at h
    cases h
  · rw [hdrop] at h
    cases h
    rfl

theorem extends_expect (c : Char) : Extends (expect c) (expect c) :=
  extends_next.bind fun _ => (extends_pure ()).ite extends_failure

theorem extends_readHexDigit : Extends readHexDigit readHexDigit := by
  refine extends_next.bind fun c => ?_
  rcases hexValue c with _ | n
  · exact extends_failure
  · exact extends_pure n

theorem extends_readHex : Extends readHex readHex :=
  extends_readHexDigit.bind fun _ => extends_readHexDigit.bind fun _ =>
    extends_readHexDigit.bind fun _ => extends_readHexDigit.bind fun _ => extends_pure _

theorem extends_readUnicode : Extends readUnicode readUnicode := by
  refine extends_readHex.bind fun n => (extends_pure _).ite (Extends.ite ?_ extends_failure)
  exact (extends_expect _).bind fun _ => (extends_expect _).bind fun _ =>
    extends_readHex.bind fun _ => (extends_pure _).ite extends_failure

theorem extends_readEscape : Extends readEscape readEscape := by
  refine extends_next.bind fun letter => extends_readUnicode.ite ((extends_pure _).ite ?_)
  split
  · exact extends_pure _
  · exact extends_failure

theorem extends_readString {fuel fuel' : Nat} (hle : fuel ≤ fuel') :
    Extends (readString fuel) (readString fuel') := by
  induction fuel generalizing fuel' with
  | zero => exact extends_failure
  | succ fuel ih =>
      obtain ⟨fuel', rfl⟩ := Nat.exists_eq_succ_of_ne_zero (Nat.ne_of_gt (Nat.zero_lt_of_lt hle))
      have hrest := ih (Nat.le_of_succ_le_succ hle)
      refine extends_next.bind fun c => (extends_pure _).ite (Extends.ite ?_ ?_)
      · exact extends_readEscape.bind fun _ => hrest.bind fun _ => extends_pure _
      · exact extends_failure.ite (hrest.bind fun _ => extends_pure _)

theorem stops_dropWhile (text : List Char) : Stops (text.dropWhile isBare) := by
  intro c rest heq
  have hhead := List.head?_dropWhile_not isBare text
  rw [heq] at hhead
  exact hhead

theorem extendsBefore_readBare (c : Char) : ExtendsBefore (readBare c) (readBare c) := by
  intro text v rest h hne more
  have hrest : text.dropWhile isBare = rest := by
    simp only [readBare, StateT.run] at h
    split at h
    · cases h
      rfl
    · split at h <;> cases h
      rfl
  have hstops : Stops (rest ++ more) := by
    obtain ⟨d, rest', rfl⟩ := List.exists_cons_of_ne_nil hne
    exact stops_cons (stops_dropWhile text d rest' hrest) _
  have hbare : ∀ d ∈ text.takeWhile isBare, isBare d = true :=
    fun d hd => List.mem_takeWhile_imp hd
  have hsplit : text ++ more = text.takeWhile isBare ++ (rest ++ more) := by
    rw [← List.append_assoc, ← hrest, List.takeWhile_append_dropWhile]
  obtain ⟨htake, hdrop⟩ := takeWhile_stops hbare hstops
  simp only [readBare, StateT.run, hrest] at h
  simp only [readBare, StateT.run, hsplit, htake, hdrop]
  split at h
  · cases h
    rfl
  · split at h
    · next hvalid =>
        cases h
        simp only [hvalid, dif_pos]
    · cases h

theorem extends_readMore {α : Type} {close : Char} {more more' : Reader (List α)}
    (h : Extends more more') (item : α) :
    Extends (readMore close more item) (readMore close more' item) :=
  extends_token.bind fun _ =>
    (extends_pure _).ite (Extends.ite (h.bind fun _ => extends_pure _) extends_failure)

/-- **Only a word or a number depends on what follows**, and more fuel reads the same. -/
structure ReadsMore (fuel fuel' : Nat) : Prop where
  value : ∀ c, ExtendsBefore (readValue fuel c) (readValue fuel' c)
  object : Extends (readValue fuel '{') (readValue fuel' '{')
  items : ∀ c, Extends (readItems fuel c) (readItems fuel' c)
  members : ∀ c, Extends (readMembers fuel c) (readMembers fuel' c)

theorem readsMore {fuel fuel' : Nat} (hle : fuel ≤ fuel') : ReadsMore fuel fuel' := by
  induction fuel generalizing fuel' with
  | zero =>
      exact ⟨fun _ => extends_failure.before, extends_failure, fun _ => extends_failure,
        fun _ => extends_failure⟩
  | succ fuel ih =>
      obtain ⟨fuel', rfl⟩ := Nat.exists_eq_succ_of_ne_zero (Nat.ne_of_gt (Nat.zero_lt_of_lt hle))
      have hrest := ih (Nat.le_of_succ_le_succ hle)
      have hstring := extends_readString (Nat.le_of_succ_le_succ hle)
      have hobject : Extends (readValue (fuel + 1) '{') (readValue (fuel' + 1) '{') :=
        extends_token.bind fun c =>
          (extends_pure _).ite ((hrest.members c).bind fun _ => extends_pure _)
      refine
        { value := fun c => ?_, object := hobject, items := fun c => ?_, members := fun c => ?_ }
      · refine ExtendsBefore.ite (hstring.bind fun _ => extends_pure _).before
          (ExtendsBefore.ite ?_ (ExtendsBefore.ite ?_ (extendsBefore_readBare c)))
        · exact (extends_token.bind fun c =>
            (extends_pure _).ite ((hrest.items c).bind fun _ => extends_pure _)).before
        · exact hobject.before
      · exact (hrest.value c).bind (extends_readMore (extends_token.bind hrest.items)) fun _ => rfl
      · refine Extends.ite (hstring.bind fun name => extends_token.bind fun colon =>
          Extends.ite ?_ extends_failure) extends_failure
        exact (extends_token.bindBefore hrest.value).bind
          (fun v => extends_readMore (extends_token.bind hrest.members) _) fun _ => rfl

/-- **No proper prefix of an object's text is a document.** -/
theorem loads_prefix {style : Style} {members : List (String × Value)} {before after : List Char}
    (h : dumps style (.obj members) = before ++ after) (hproper : after ≠ []) :
    loads before = none := by
  rcases before with _ | ⟨c, before⟩
  · rfl
  have hopen : c = '{' := by
    rcases members with _ | ⟨member, members⟩ <;> simp only [dumps, write] at h <;>
      exact (List.cons.inj h).1.symm
  subst hopen
  rw [loads, run_token rfl]
  rcases hread : (readValue ('{' :: before).length '{').run before with _ | ⟨v, rest⟩
  · rfl
  -- What is read of the prefix is read of the whole text, and leaves `after` behind.
  have hwhole := run_dumps style (.obj members)
  have hle : ('{' :: before).length ≤ (dumps style (.obj members)).length := by
    rw [h, List.length_append]
    exact Nat.le_add_right _ _
  have hmore := (readsMore hle).object before v rest hread after
  rw [h, List.cons_append, run_token rfl, ← List.cons_append, ← h, hmore] at hwhole
  exact absurd (List.append_eq_nil_iff.mp (Prod.mk.inj (Option.some.inj hwhole)).2).2 hproper

/-! ## 6. The characters of a document -/

/-- What all characters have that a style writes. -/
structure Writes (style : Style) (P : Char → Prop) : Prop where
  bare : ∀ c, isBare c = true → P c
  mark : ∀ c ∈ ['[', ']', '{', '}', ',', ':', '"', ' '], P c
  escape : ∀ c, ∀ d ∈ escapeChar style.ascii c, P d
  newline : style.indent ≠ none → P '\n'

section

variable {style : Style} {P : Char → Prop}

theorem Writes.string (h : Writes style P) (s : String) : ∀ c ∈ writeString style.ascii s, P c := by
  have hquote : P '"' := h.mark _ (by decide)
  refine List.forall_mem_cons.mpr ⟨hquote, List.forall_mem_append.mpr ⟨fun d hd => ?_, ?_⟩⟩
  · obtain ⟨c, -, hc⟩ := List.mem_flatMap.mp hd
    exact h.escape c d hc
  · exact List.forall_mem_singleton.mpr hquote

theorem Writes.line (h : Writes style P) (depth : Nat) : ∀ c ∈ style.newline depth, P c := by
  unfold Style.newline
  rcases hindent : style.indent with _ | width
  · exact List.forall_mem_nil _
  · refine List.forall_mem_cons.mpr ⟨h.newline (by rw [hindent]; exact Option.some_ne_none _), ?_⟩
    intro c hc
    rw [List.eq_of_mem_replicate hc]
    exact h.mark _ (by decide)

theorem Writes.blank (h : Writes style P) (blank : Bool) :
    ∀ c ∈ (if blank then [' '] else []), P c := by
  cases blank
  · exact List.forall_mem_nil _
  · exact List.forall_mem_singleton.mpr (h.mark _ (by decide))

theorem Writes.comma (h : Writes style P) (depth : Nat) : ∀ c ∈ style.comma depth, P c :=
  List.forall_mem_cons.mpr ⟨h.mark _ (by decide),
    List.forall_mem_append.mpr ⟨h.blank style.commaBlank, h.line depth⟩⟩

theorem Writes.items (h : Writes style P) {items : List Value} {depth : Nat}
    (hitems : ∀ v ∈ items, ∀ depth, ∀ c ∈ write style depth v, P c) :
    ∀ c ∈ writeItems style depth items, P c := by
  induction items with
  | nil =>
      simp only [writeItems]
      exact List.forall_mem_nil _
  | cons item items ih =>
      obtain ⟨hitem, hrest⟩ := List.forall_mem_cons.mp hitems
      simp only [writeItems, List.forall_mem_append]
      exact ⟨⟨h.comma depth, hitem depth⟩, ih hrest⟩

theorem Writes.member (h : Writes style P) {member : String × Value} {depth : Nat}
    (hmember : ∀ depth, ∀ c ∈ write style depth member.2, P c) :
    ∀ c ∈ writeMember style depth member, P c := by
  obtain ⟨name, v⟩ := member
  simp only [writeMember, List.forall_mem_append, Style.colon, List.forall_mem_cons]
  exact ⟨⟨h.string name, h.mark _ (by decide), h.blank style.colonBlank⟩, hmember depth⟩

theorem Writes.members (h : Writes style P) {members : List (String × Value)} {depth : Nat}
    (hmembers : ∀ m ∈ members, ∀ depth, ∀ c ∈ write style depth m.2, P c) :
    ∀ c ∈ writeMembers style depth members, P c := by
  induction members with
  | nil =>
      simp only [writeMembers]
      exact List.forall_mem_nil _
  | cons member members ih =>
      obtain ⟨hmember, hrest⟩ := List.forall_mem_cons.mp hmembers
      simp only [writeMembers, List.forall_mem_append]
      exact ⟨⟨h.comma depth, h.member hmember⟩, ih hrest⟩

theorem Writes.value (h : Writes style P) (v : Value) :
    ∀ depth, ∀ c ∈ write style depth v, P c := by
  induction v using Value.induct with
  | word w =>
      intro depth c hc
      simp only [write] at hc
      exact h.bare c (isBare_word w c hc)
  | num n =>
      intro depth c hc
      simp only [write] at hc
      exact h.bare c (n.isBare c hc)
  | str s =>
      intro depth
      simp only [write]
      exact h.string s
  | arr items ih =>
      intro depth
      cases items with
      | nil =>
          simp only [write, List.forall_mem_cons]
          exact ⟨h.mark _ (by decide), h.mark _ (by decide), List.forall_mem_nil _⟩
      | cons item items =>
          obtain ⟨hitem, hrest⟩ := List.forall_mem_cons.mp ih
          simp only [write, List.forall_mem_cons, List.forall_mem_append]
          exact ⟨h.mark _ (by decide), ⟨⟨⟨h.line _, hitem _⟩, h.items hrest⟩, h.line depth⟩,
            h.mark _ (by decide), List.forall_mem_nil _⟩
  | obj members ih =>
      intro depth
      cases members with
      | nil =>
          simp only [write, List.forall_mem_cons]
          exact ⟨h.mark _ (by decide), h.mark _ (by decide), List.forall_mem_nil _⟩
      | cons member members =>
          obtain ⟨hmember, hrest⟩ := List.forall_mem_cons.mp ih
          simp only [write, List.forall_mem_cons, List.forall_mem_append]
          exact ⟨h.mark _ (by decide), ⟨⟨⟨h.line _, h.member hmember⟩, h.members hrest⟩,
            h.line depth⟩, h.mark _ (by decide), List.forall_mem_nil _⟩

end

theorem printable_isBare {c : Char} (h : isBare c = true) : 32 ≤ c.toNat ∧ c.toNat < 128 := by
  have halpha : c.isAlpha = (c.isUpper || c.isLower) := rfl
  have hupper : c.isUpper = decide ('A'.val ≤ c.val ∧ c.val ≤ 'Z'.val) := rfl
  have hlower : c.isLower = (decide ('a'.val ≤ c.val) && decide (c.val ≤ 'z'.val)) := rfl
  simp only [isBare, Char.isAlphanum, halpha, hupper, hlower, Char.isDigit, Bool.or_eq_true,
    Bool.and_eq_true, decide_eq_true_eq, ge_iff_le, UInt32.le_iff_toNat_le] at h
  have hval : c.toNat = c.val.toNat := rfl
  rcases h with ((((h | h) | h) | rfl) | rfl) | rfl
  · exact ⟨hval ▸ Nat.le_trans (by decide) h.1, hval ▸ Nat.lt_of_le_of_lt h.2 (by decide)⟩
  · exact ⟨hval ▸ Nat.le_trans (by decide) h.1, hval ▸ Nat.lt_of_le_of_lt h.2 (by decide)⟩
  · exact ⟨hval ▸ Nat.le_trans (by decide) h.1, hval ▸ Nat.lt_of_le_of_lt h.2 (by decide)⟩
  · decide
  · decide
  · decide

theorem printable_hexEscape {n : Nat} (h : n < 65536) :
    ∀ c ∈ hexEscape n, 32 ≤ c.toNat ∧ c.toNat < 128 := by
  have hdigit : ∀ d : Fin 16, 32 ≤ (hexDigit d).toNat ∧ (hexDigit d).toNat < 128 := by decide
  have hmod : ∀ m, m % 16 < 16 := fun m => Nat.mod_lt m (by decide)
  simp only [hexEscape, List.forall_mem_cons]
  exact ⟨by decide, by decide, hdigit ⟨n / 4096, by omega⟩, hdigit ⟨n / 256 % 16, hmod _⟩,
    hdigit ⟨n / 16 % 16, hmod _⟩, hdigit ⟨n % 16, hmod _⟩, List.forall_mem_nil _⟩

theorem printable_mark :
    ∀ c ∈ ['[', ']', '{', '}', ',', ':', '"', ' '], 32 ≤ c.toNat ∧ c.toNat < 128 := by
  have hall : ['[', ']', '{', '}', ',', ':', '"', ' '].all
      (fun c => decide (32 ≤ c.toNat ∧ c.toNat < 128)) = true := rfl
  intro c hc
  exact of_decide_eq_true (List.all_eq_true.mp hall c hc)

/-- What a character is written as has no control characters, and is ASCII where it has to be. -/
theorem escapeChar_range (ascii : Bool) (c : Char) :
    ∀ d ∈ escapeChar ascii c, 32 ≤ d.toNat ∧ (ascii = true → d.toNat < 128) := by
  rcases escapeChar_cases ascii c with ⟨letter, hmem, heq⟩ | ⟨heq, hsmall⟩ |
    ⟨heq, -, -, hlarge, hplain⟩ | ⟨hlarge, heq⟩ <;> rw [heq]
  · have hletters : ∀ p ∈ shortEscapes, 32 ≤ p.2.toNat ∧ p.2.toNat < 128 := by decide
    have hletter := hletters _ hmem
    simp only [List.forall_mem_cons]
    exact ⟨⟨by decide, fun _ => by decide⟩, ⟨hletter.1, fun _ => hletter.2⟩, List.forall_mem_nil _⟩
  · intro d hd
    have hprintable := printable_hexEscape hsmall d hd
    exact ⟨hprintable.1, fun _ => hprintable.2⟩
  · refine List.forall_mem_singleton.mpr ⟨hlarge, fun hascii => ?_⟩
    exact Nat.lt_trans (hplain hascii) (by decide)
  · have hrange := char_range c
    refine List.forall_mem_append.mpr ⟨fun d hd => ?_, fun d hd => ?_⟩
    · have hprintable := printable_hexEscape (by omega) d hd
      exact ⟨hprintable.1, fun _ => hprintable.2⟩
    · have hprintable := printable_hexEscape (by omega) d hd
      exact ⟨hprintable.1, fun _ => hprintable.2⟩

/-- A document of one line has no control characters. -/
theorem line_dumps {style : Style} (hindent : style.indent = none) (v : Value) :
    ∀ c ∈ dumps style v, 32 ≤ c.toNat := by
  have hwrites : Writes style fun c => 32 ≤ c.toNat :=
    { bare := fun _ hc => (printable_isBare hc).1
      mark := fun c hc => (printable_mark c hc).1
      escape := fun c d hd => (escapeChar_range _ c d hd).1
      newline := fun hsome => absurd hindent hsome }
  exact hwrites.value v 0

/-- With `ensure_ascii` a document is ASCII. -/
theorem ascii_dumps {style : Style} (hascii : style.ascii = true) (v : Value) :
    ∀ c ∈ dumps style v, c.toNat < 128 := by
  have hwrites : Writes style fun c => c.toNat < 128 :=
    { bare := fun _ hc => (printable_isBare hc).2
      mark := fun c hc => (printable_mark c hc).2
      escape := fun c d hd => (escapeChar_range _ c d hd).2 hascii
      newline := fun _ => by decide }
  exact hwrites.value v 0

end FundingTool.JsonText
