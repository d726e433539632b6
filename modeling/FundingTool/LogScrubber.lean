import FundingTool.Models
import FundingTool.Substitution

/-!
# The log scrubber (`infra/log.py`)

`scrub` runs three substitutions one after the other on a message: API keys keep six
characters, secrets and signatures nothing.  `ScrubbingFilter` puts the scrubbed message in
the place of the record's own.
-/

namespace FundingTool.LogScrubber

open FundingTool.Regex

/-! ## 1. Character classes -/

/-- The case under which `re.IGNORECASE` compares: `İ`, `ı`, `ſ` and the Kelvin sign count as
    the ASCII letters. -/
def foldCase (c : Char) : Char :=
  if c = 'İ' ∨ c = 'ı' then 'i'
  else if c = 'ſ' then 's'
  else if c = '\u212a' then 'k'
  else c.toLower

def isLetter (letter c : Char) : Bool := foldCase c == foldCase letter

/-- `['\"]` -/
def isQuote (c : Char) : Bool := c == '\'' || c == '"'

/-- `[=:]` -/
def isSign (c : Char) : Bool := c == '=' || c == ':'

/-- `[_-]` -/
def isDash (c : Char) : Bool := c == '_' || c == '-'

/-- `[A-Za-z0-9]` -/
def isAlnum (c : Char) : Bool :=
  let folded := foldCase c
  (decide ('a' ≤ folded) && decide (folded ≤ 'z')) ||
    (decide ('0' ≤ folded) && decide (folded ≤ '9'))

/-- `[\s,&'\"}]` -/
def endsValue (c : Char) : Bool :=
  isPySpace c || c == ',' || c == '&' || isQuote c || c == '\x7d'

/-- The class of `_VALUE_TAIL`. -/
def isValue (c : Char) : Bool := !endsValue c

/-! ## 2. The patterns -/

/-- A literal text. -/
def word (text : String) (next : Regex Char) : Regex Char :=
  text.toList.foldr (fun letter => one (isLetter letter)) next

/-- `['\"]?\s*[=:]\s*['\"]?` -/
def separator (next : Regex Char) : Regex Char :=
  opt isQuote (star isPySpace (one isSign (star isPySpace (opt isQuote next))))

/-- `(?:X-MBX-APIKEY|api[_-]?key)` -/
def apiKeyName (next : Regex Char) : Regex Char :=
  alt (word "X-MBX-APIKEY" next) (word "api" (opt isDash (word "key" next)))

/-- `api[_-]?secret` -/
def apiSecretName (next : Regex Char) : Regex Char := word "api" (opt isDash (word "secret" next))

def signatureName (next : Regex Char) : Regex Char := word "signature" next

/-- `_KEY_BOUNDARY` and its like, less the quote they may begin with. -/
def afterQuote (name : Regex Char → Regex Char) (next : Regex Char) : Regex Char :=
  name (separator next)

/-- `['\"]?…` -/
def boundary (name : Regex Char → Regex Char) (next : Regex Char) : Regex Char :=
  opt isQuote (afterQuote name next)

/-- `_API_KEY_PATTERN`, replaced by `\1\2…` -/
def apiKeyPattern : Substitution Char where
  kept := boundary apiKeyName (times 6 isAlnum done)
  dropped := isValue
  mark := ['…']
  consumes := rfl

/-- `_API_SECRET_PATTERN`, replaced by `\1***` -/
def apiSecretPattern : Substitution Char where
  kept := boundary apiSecretName done
  dropped := isValue
  mark := ['*', '*', '*']
  consumes := rfl

/-- `_SIGNATURE_PATTERN`, replaced by `\1***` -/
def signaturePattern : Substitution Char where
  kept := boundary signatureName done
  dropped := isValue
  mark := ['*', '*', '*']
  consumes := rfl

/-- `_scrub` -/
def scrub (text : String) : String :=
  let text := apiKeyPattern.sub text.toList
  let text := apiSecretPattern.sub text
  let text := signaturePattern.sub text
  String.ofList text

example : scrub "a?b=1&Signature=beef" = "a?b=1&Signature=***" := by decide

example : scrub "\x7b'api_key': 'ABCDEFGH', 'symbol': 'BTC'\x7d" =
    "\x7b'api_key': 'ABCDEF…', 'symbol': 'BTC'\x7d" := by decide

/-! ## 3. The filter -/

/-- `logging.LogRecord`, as far as it is read. -/
structure LogRecord (Arg : Type) where
  msg : String
  args : List Arg
deriving DecidableEq

variable {Arg : Type} (format : String → List Arg → Option String)

/-- `record.getMessage()`; `none` is an exception of `msg % args`. -/
def LogRecord.getMessage (record : LogRecord Arg) : Option String :=
  if record.args.isEmpty then some record.msg else format record.msg record.args

/-- `ScrubbingFilter.filter`: the record left, and whether it is logged. -/
def ScrubbingFilter.filter (record : LogRecord Arg) : LogRecord Arg × Bool :=
  match record.getMessage format with
  | none => (record, true)
  | some formatted =>
      let scrubbed := scrub formatted
      if scrubbed ≠ formatted then (⟨scrubbed, []⟩, true) else (record, true)

/-- **What is logged** is the scrubbed message, of every record that has one. -/
theorem getMessage_filter (record : LogRecord Arg) :
    (ScrubbingFilter.filter format record).1.getMessage format =
      (record.getMessage format).map scrub := by
  unfold ScrubbingFilter.filter
  rcases hmessage : record.getMessage format with _ | formatted
  · exact hmessage
  · simp only [Option.map_some]
    by_cases hsame : scrub formatted = formatted
    · rw [if_neg fun h => h hsame, hsame]
      exact hmessage
    · rw [if_pos hsame]
      rfl

end FundingTool.LogScrubber
