import Mathlib.Init

/-!
# JSON as text

Python's `json.dumps` and `json.loads`, over characters.  `write` prints a value in a style:
its separators, its indentation, and whether it escapes what is not ASCII.  `loads` reads a
document of any style, with white space wherever the format has it.

Members stay in the order of the text, also two of one name; a dict made of them keeps the last
(`Value.member`).  A number is its literal.  Python strings may hold half of a surrogate pair,
and strings here may not, so that a document with such a half is not read.
-/

namespace FundingTool.JsonText

/-! ## 1. Numbers -/

/-- How far a number has been read. -/
inductive NumberState
  | start | minus | zero | integer | point | fraction | exponent | exponentSign | exponentDigit
deriving DecidableEq, Repr

def NumberState.step : NumberState → Char → Option NumberState
  | .start, c =>
      if c = '-' then some .minus
      else if c = '0' then some .zero
      else if c.isDigit then some .integer
      else none
  | .minus, c => if c = '0' then some .zero else if c.isDigit then some .integer else none
  | .zero, c => if c = '.' then some .point else if c = 'e' || c = 'E' then some .exponent else none
  | .integer, c =>
      if c.isDigit then some .integer
      else if c = '.' then some .point
      else if c = 'e' || c = 'E' then some .exponent
      else none
  | .point, c => if c.isDigit then some .fraction else none
  | .fraction, c =>
      if c.isDigit then some .fraction else if c = 'e' || c = 'E' then some .exponent else none
  | .exponent, c =>
      if c = '+' || c = '-' then some .exponentSign
      else if c.isDigit then some .exponentDigit
      else none
  | .exponentSign, c => if c.isDigit then some .exponentDigit else none
  | .exponentDigit, c => if c.isDigit then some .exponentDigit else none

def NumberState.ends : NumberState → Bool
  | .zero | .integer | .fraction | .exponentDigit => true
  | _ => false

def isNumber (literal : List Char) : Bool :=
  match literal.foldlM NumberState.step .start with
  | some state => state.ends
  | none => false

structure Number where
  literal : List Char
  valid : isNumber literal = true
deriving DecidableEq, Repr

/-- `int.__repr__` -/
def intLiteral (n : Int) : List Char :=
  if n < 0 then '-' :: Nat.toDigits 10 n.natAbs else Nat.toDigits 10 n.natAbs

/-- `int(literal)` -/
def readInt : List Char → Int
  | '-' :: digits => -Nat.ofDigitChars 10 digits 0
  | digits => Nat.ofDigitChars 10 digits 0

theorem step_digitChar {state : NumberState} (hstate : state = .start ∨ state = .minus) {d : Nat}
    (hd : d < 10) : state.step d.digitChar = some (if d = 0 then .zero else .integer) := by
  have hall : ∀ d : Fin 10, NumberState.start.step d.val.digitChar =
      some (if d.val = 0 then .zero else .integer) ∧ NumberState.minus.step d.val.digitChar =
        some (if d.val = 0 then .zero else .integer) := by decide
  rcases hstate with rfl | rfl
  · exact (hall ⟨d, hd⟩).1
  · exact (hall ⟨d, hd⟩).2

theorem foldlM_toDigits {state : NumberState} (hstate : state = .start ∨ state = .minus) (n : Nat) :
    (Nat.toDigits 10 n).foldlM NumberState.step state =
      some (if n = 0 then .zero else .integer) := by
  induction n using Nat.strongRecOn with
  | ind n ih =>
      by_cases hsmall : n < 10
      · rw [Nat.toDigits_of_lt_base hsmall, List.foldlM_cons, step_digitChar hstate hsmall]
        rfl
      · have hge : 10 ≤ n := Nat.le_of_not_lt hsmall
        have hdigit : ∀ d : Fin 10, NumberState.integer.step d.val.digitChar = some .integer := by
          decide
        rw [Nat.toDigits_of_base_le (by decide) hge, List.foldlM_append,
          ih (n / 10) (by omega), if_neg (by omega), if_neg (by omega)]
        simp only [Option.bind_eq_bind, Option.bind_some, List.foldlM_cons,
          hdigit ⟨n % 10, Nat.mod_lt n (by decide)⟩]
        rfl

theorem foldlM_intLiteral (n : Int) :
    ∃ state, (intLiteral n).foldlM NumberState.step .start = some state ∧
      (state = .zero ∨ state = .integer) := by
  have hends : ∀ m : Nat, (if m = 0 then NumberState.zero else .integer) = .zero ∨
      (if m = 0 then NumberState.zero else .integer) = .integer := by
    intro m
    by_cases hm : m = 0
    · exact .inl (if_pos hm)
    · exact .inr (if_neg hm)
  refine ⟨if n.natAbs = 0 then .zero else .integer, ?_, hends _⟩
  unfold intLiteral
  by_cases hneg : n < 0
  · rw [if_pos hneg, List.foldlM_cons]
    simp only [NumberState.step, if_true, Option.bind_eq_bind, Option.bind_some,
      foldlM_toDigits (.inr rfl)]
  · rw [if_neg hneg, foldlM_toDigits (.inl rfl)]

theorem isNumber_intLiteral (n : Int) : isNumber (intLiteral n) = true := by
  obtain ⟨state, hrun, rfl | rfl⟩ := foldlM_intLiteral n <;> rw [isNumber, hrun] <;> rfl

def Number.ofInt (n : Int) : Number := ⟨intLiteral n, isNumber_intLiteral n⟩

theorem readInt_intLiteral (n : Int) : readInt (intLiteral n) = n := by
  unfold intLiteral
  by_cases hneg : n < 0
  · rw [if_pos hneg, readInt, Nat.ofDigitChars_ten_toDigits]
    omega
  · rw [if_neg hneg, readInt, Nat.ofDigitChars_ten_toDigits]
    · omega
    · intro digits heq
      have hdigit := Nat.isDigit_of_mem_toDigits (by decide) (by decide)
        (heq ▸ List.mem_cons_self : '-' ∈ Nat.toDigits 10 n.natAbs)
      cases hdigit

/-! ## 2. Values -/

/-- The values that are one word; the last three are Python's. -/
inductive Word
  | null | true | false | nan | infinity | minusInfinity
deriving DecidableEq, Repr

def Word.all : List Word := [.null, .true, .false, .nan, .infinity, .minusInfinity]

def Word.text : Word → List Char
  | .null => "null".toList
  | .true => "true".toList
  | .false => "false".toList
  | .nan => "NaN".toList
  | .infinity => "Infinity".toList
  | .minusInfinity => "-Infinity".toList

inductive Value
  | word (w : Word)
  | num (n : Number)
  | str (s : String)
  | arr (items : List Value)
  | obj (members : List (String × Value))
deriving Repr

namespace Value

def null : Value := .word .null

def bool (b : Bool) : Value := .word (if b then .true else .false)

/-- `d.get(name)` of a dict. -/
def member (v : Value) (name : String) : Option Value :=
  match v with
  | .obj members => members.reverse.lookup name
  | _ => none

end Value

/-! ## 3. Writing -/

structure Style where
  /-- `ensure_ascii` -/
  ascii : Bool
  /-- A blank behind every comma. -/
  commaBlank : Bool
  /-- A blank behind every colon. -/
  colonBlank : Bool
  indent : Option Nat
deriving DecidableEq, Repr

/-- `json.dumps(value)` -/
def Style.plain : Style := ⟨true, true, true, none⟩

def hexDigit (n : Nat) : Char := if n < 10 then Char.ofNat (48 + n) else Char.ofNat (87 + n)

/-- `'\\u{0:04x}'.format(n)` -/
def hexEscape (n : Nat) : List Char :=
  ['\\', 'u', hexDigit (n / 4096), hexDigit (n / 256 % 16), hexDigit (n / 16 % 16),
    hexDigit (n % 16)]

/-- The characters with an escape of their own. -/
def shortEscapes : List (Char × Char) :=
  [('"', '"'), ('\\', '\\'), ('\n', 'n'), ('\r', 'r'), ('\t', 't'), ('\x0c', 'f'), ('\x08', 'b')]

def escapeChar (ascii : Bool) (c : Char) : List Char :=
  match shortEscapes.lookup c with
  | some letter => ['\\', letter]
  | none =>
      if c.toNat < 32 then hexEscape c.toNat
      else if !ascii || c.toNat < 127 then [c]
      else if c.toNat < 65536 then hexEscape c.toNat
      else
        hexEscape (55296 + (c.toNat - 65536) / 1024) ++ hexEscape (56320 + (c.toNat - 65536) % 1024)

def writeString (ascii : Bool) (s : String) : List Char :=
  '"' :: (s.toList.flatMap (escapeChar ascii) ++ ['"'])

namespace Style

def newline (style : Style) (depth : Nat) : List Char :=
  match style.indent with
  | some width => '\n' :: List.replicate (width * depth) ' '
  | none => []

/-- Between two items at a depth. -/
def comma (style : Style) (depth : Nat) : List Char :=
  ',' :: ((if style.commaBlank then [' '] else []) ++ style.newline depth)

def colon (style : Style) : List Char := ':' :: if style.colonBlank then [' '] else []

end Style

mutual

def write (style : Style) (depth : Nat) : Value → List Char
  | .word w => w.text
  | .num n => n.literal
  | .str s => writeString style.ascii s
  | .arr [] => ['[', ']']
  | .arr (item :: items) =>
      '[' :: (style.newline (depth + 1) ++ write style (depth + 1) item ++
        writeItems style (depth + 1) items ++ style.newline depth ++ [']'])
  | .obj [] => ['{', '}']
  | .obj (member :: members) =>
      '{' :: (style.newline (depth + 1) ++ writeMember style (depth + 1) member ++
        writeMembers style (depth + 1) members ++ style.newline depth ++ ['}'])

/-- The items behind the first. -/
def writeItems (style : Style) (depth : Nat) : List Value → List Char
  | [] => []
  | item :: items => style.comma depth ++ write style depth item ++ writeItems style depth items

def writeMember (style : Style) (depth : Nat) : String × Value → List Char
  | (name, v) => writeString style.ascii name ++ style.colon ++ write style depth v

def writeMembers (style : Style) (depth : Nat) : List (String × Value) → List Char
  | [] => []
  | member :: members =>
      style.comma depth ++ writeMember style depth member ++ writeMembers style depth members

end

def dumps (style : Style) (v : Value) : List Char := write style 0 v

/-! ## 4. Reading -/

abbrev Reader := StateT (List Char) Option

def next : Reader Char
  | [] => none
  | c :: rest => some (c, rest)

def isSpace (c : Char) : Bool := c = ' ' || c = '\n' || c = '\r' || c = '\t'

/-- The next character that is not white space. -/
def token : Reader Char := fun text => next (text.dropWhile isSpace)

def expect (c : Char) : Reader Unit := do
  if (← next) = c then pure () else failure

/-- The characters of words and numbers. -/
def isBare (c : Char) : Bool := c.isAlphanum || c = '+' || c = '-' || c = '.'

/-- A word or a number, as far as its characters go: none of them may follow it. -/
def readBare (c : Char) : Reader Value := fun text =>
  let literal := c :: text.takeWhile isBare
  let rest := text.dropWhile isBare
  match Word.all.find? fun w => w.text = literal with
  | some w => some (.word w, rest)
  | none => if h : isNumber literal = true then some (.num ⟨literal, h⟩, rest) else none

def hexValue (c : Char) : Option Nat :=
  if c.isDigit then some (c.toNat - 48)
  else if 'a' ≤ c ∧ c ≤ 'f' then some (c.toNat - 87)
  else if 'A' ≤ c ∧ c ≤ 'F' then some (c.toNat - 55)
  else none

def readHexDigit : Reader Nat := do
  match hexValue (← next) with
  | some n => pure n
  | none => failure

/-- The four digits behind `\u`. -/
def readHex : Reader Nat := do
  let a ← readHexDigit
  let b ← readHexDigit
  let c ← readHexDigit
  let d ← readHexDigit
  pure (4096 * a + 256 * b + 16 * c + d)

/-- What stands behind `\u`: a character, or both halves of one. -/
def readUnicode : Reader Char := do
  let n ← readHex
  if n < 55296 ∨ 57343 < n then pure (Char.ofNat n)
  else if n < 56320 then do
    expect '\\'
    expect 'u'
    let m ← readHex
    if 56320 ≤ m ∧ m < 57344 then pure (Char.ofNat (65536 + (n - 55296) * 1024 + (m - 56320)))
    else failure
  else failure

/-- What stands behind a backslash. -/
def readEscape : Reader Char := do
  let letter ← next
  if letter = 'u' then readUnicode
  else if letter = '/' then pure '/'
  else
    match shortEscapes.find? fun escape => escape.2 = letter with
    | some escape => pure escape.1
    | none => failure

/-- A string behind its quote; control characters have to be escaped. -/
def readString : Nat → Reader (List Char)
  | 0 => failure
  | fuel + 1 => do
      let c ← next
      if c = '"' then pure []
      else if c = '\\' then do
        let d ← readEscape
        return d :: (← readString fuel)
      else if c.toNat < 32 then failure
      else return c :: (← readString fuel)

/-- What stands behind an item of an array or an object: its end, or a comma and more. -/
def readMore {α : Type} (close : Char) (more : Reader (List α)) (item : α) : Reader (List α) := do
  let separator ← token
  if separator = close then pure [item]
  else if separator = ',' then return item :: (← more)
  else failure

mutual

/-- A value, from its first character on. -/
def readValue : Nat → Char → Reader Value
  | 0, _ => failure
  | fuel + 1, c =>
      if c = '"' then do return .str (String.ofList (← readString fuel))
      else if c = '[' then do
        let c ← token
        if c = ']' then pure (.arr []) else return .arr (← readItems fuel c)
      else if c = '{' then do
        let c ← token
        if c = '}' then pure (.obj []) else return .obj (← readMembers fuel c)
      else readBare c

/-- The items of an array, from the first character of one of them on. -/
def readItems : Nat → Char → Reader (List Value)
  | 0, _ => failure
  | fuel + 1, c => do readMore ']' (token >>= readItems fuel) (← readValue fuel c)

/-- The same for the members of an object. -/
def readMembers : Nat → Char → Reader (List (String × Value))
  | 0, _ => failure
  | fuel + 1, c =>
      if c = '"' then do
        let name ← readString fuel
        if (← token) = ':' then do
          let v ← token >>= readValue fuel
          readMore '}' (token >>= readMembers fuel) (String.ofList name, v)
        else failure
      else failure

end

/-- `json.loads(text)`; the fuel is enough for any document of the text's length. -/
def loads (text : List Char) : Option Value :=
  match (token >>= readValue text.length).run text with
  | some (v, rest) => if rest.all isSpace then some v else none
  | none => none

end FundingTool.JsonText
