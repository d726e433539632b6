import Mathlib.Init

/-!
# Data model (`core/models.py`, `core/errors.py`, `infra/time_util.py`)

Timezone-aware datetimes are instants: microseconds since the Unix epoch, the
resolution of Python's `datetime`.  `to_ms` and `from_ms` go through a float in the
source; for every instant between November 2004 and January 2038 the float arithmetic
is exact, and the integer definitions below say what it computes there.
-/

namespace FundingTool

/-! ## 1. Time -/

/-- Length of `timedelta(hours=h)` in microseconds. -/
def hours (h : Int) : Int := h * 3600000000

/-- `int(dt.timestamp() * 1000)`: truncation towards the epoch; a naive `dt`, which raises a
    `ValidationError` there, is no instant. -/
def toMs (dt : Int) : Int := dt.tdiv 1000

def fromMs (ms : Int) : Int := ms * 1000

@[simp] theorem toMs_fromMs (ms : Int) : toMs (fromMs ms) = ms :=
  Int.mul_tdiv_cancel ms (by decide)

theorem fromMs_lt_fromMs {a b : Int} : fromMs a < fromMs b ↔ a < b := by
  simp only [fromMs]
  omega

theorem fromMs_le_fromMs {a b : Int} : fromMs a ≤ fromMs b ↔ a ≤ b := by
  simp only [fromMs]
  omega

theorem fromMs_inj {a b : Int} : fromMs a = fromMs b ↔ a = b := by
  simp only [fromMs]
  omega

theorem toMs_mono {a b : Int} (h : a ≤ b) : toMs a ≤ toMs b :=
  Int.tdiv_le_tdiv (by decide) h

theorem toMs_fromMs_add_hours (ms h : Int) :
    toMs (fromMs ms + hours h) = ms + h * 3600000 := by
  have heq : fromMs ms + hours h = fromMs (ms + h * 3600000) := by
    simp only [fromMs, hours]
    omega
  rw [heq, toMs_fromMs]

/-! ## 2. Money -/

/-- Python's `decimal.Decimal`: sign, coefficient and exponent, or a special value. -/
inductive Decimal where
  | finite (negative : Bool) (coefficient : Nat) (exponent : Int)
  | infinity (negative : Bool)
  | nan (signaling : Bool)
deriving DecidableEq, Repr

/-- The conditions that are trapped in the default context of `decimal`. -/
inductive Decimal.Signal where
  | invalidOperation
  | divisionByZero
  | overflow
deriving DecidableEq, Repr

/-! ## 3. Records -/

structure FundingEvent where
  timestamp : Int
  symbol : String
  rate : Decimal
  markPrice : Decimal
  intervalHours : Int
deriving DecidableEq, Repr

structure IncomeRecord where
  timestamp : Int
  symbol : String
  amountUsdt : Decimal
  tranId : String
deriving DecidableEq, Repr

structure ApiCredentials where
  apiKey : String
  apiSecret : String
  passphrase : Option String
deriving DecidableEq, Repr

structure PermissionReport where
  readOk : Bool
  tradingEnabled : Option Bool
  withdrawalsEnabled : Option Bool
  spotTradingEnabled : Option Bool
deriving DecidableEq, Repr

/-! ## 4. Text -/

/-- `c.isspace()` for one character. -/
def isPySpace (c : Char) : Bool :=
  let n := c.toNat
  (9 ≤ n && n ≤ 13) || (28 ≤ n && n ≤ 32) || n == 0x85 || n == 0xA0 || n == 0x1680 ||
    (0x2000 ≤ n && n ≤ 0x200A) || n == 0x2028 || n == 0x2029 || n == 0x202F || n == 0x205F ||
    n == 0x3000

/-- `s.strip()` -/
def strip (s : String) : String :=
  String.ofList (((s.toList.dropWhile isPySpace).reverse.dropWhile isPySpace).reverse)

/-- `not s.strip()` -/
def isBlank (s : String) : Bool := s.toList.all isPySpace

/-- A text that is not empty passes a test for its presence, `if not s`. -/
theorem filter_ne_empty {s : String} (h : s ≠ "") :
    (some s).filter (fun text => decide (text ≠ "")) = some s := by
  rw [Option.filter_some, if_pos (decide_eq_true h)]

/-! ## 5. Errors -/

/-- The tool's errors, with the data their messages are built from. -/
inductive FundingToolError where
  | validation (message : String)
  /-- `symbol {symbol} not found in exchangeInfo` -/
  | unknownSymbol (symbol : String)
  | authentication (message : String)
  | missingCredentials (message : String)
  | rateLimit (message : String)
  | exchange (message : String)
  /-- `missing mark price for funding event at {timestamp} ({symbol})` -/
  | missingMarkPrice (timestamp : Int) (symbol : String)
  | network (message : String)
  | cacheCorruption (message : String)
  | config (message : String)
  /-- `asyncio.CancelledError`, delivered at an await. -/
  | cancelled
  /-- No error of the source: a loop that would go on past the bound of the model.
      Against an endpoint that honours its parameters this does not happen. -/
  | unbounded
deriving DecidableEq, Repr

end FundingTool
