import FundingTool.DecimalArithmetic
import FundingTool.Domain

/-!
# When a decimal operation returns

A signaling NaN is refused by every operation, a NaN is passed on by all but the
comparison.  Infinities of opposite signs have no sum, zero and an infinity no product,
two infinities no quotient, and zero divides nothing but an infinity.  Of finite numbers
the exact result must fit.
-/

namespace FundingTool.Decimal

instance : Inhabited Decimal := ⟨.nan false⟩

/-! ## 1. Domains -/

def Adds : Decimal → Decimal → Prop
  | .nan true, _ | _, .nan true => False
  | .nan false, _ | _, .nan false => True
  | .infinity s, .infinity t => s = t
  | .infinity _, .finite _ _ _ | .finite _ _ _, .infinity _ => True
  | .finite s c e, .finite t d f => Fits (value s c e + value t d f)

def Multiplies : Decimal → Decimal → Prop
  | .nan true, _ | _, .nan true => False
  | .nan false, _ | _, .nan false => True
  | .infinity _, .infinity _ => True
  | .infinity _, .finite _ c _ | .finite _ c _, .infinity _ => c ≠ 0
  | .finite s c e, .finite t d f => Fits (value s c e * value t d f)

def Divides : Decimal → Decimal → Prop
  | .nan true, _ | _, .nan true => False
  | .nan false, _ | _, .nan false => True
  | .infinity _, .infinity _ => False
  | .infinity _, .finite _ _ _ | .finite _ _ _, .infinity _ => True
  | .finite s c e, .finite t d f => d ≠ 0 ∧ Fits (value s c e / value t d f)

/-- The mean of finite numbers fits; of other numbers, those that are not finite add up. -/
def Averages (x : Decimal) (xs : List Decimal) : Prop :=
  match (x :: xs).mapM ratio? with
  | some ratios => Fits (ratios.sum / (xs.length + 1))
  | none =>
      Along Adds (fun acc d => valueOf (add acc d)) (lit 0 0)
        ((x :: xs).filter fun d => d.ratio?.isNone)

/-- Any number but a NaN. -/
def Compares : Decimal → Prop
  | .nan _ => False
  | _ => True

/-! ## 2. Operations -/

theorem contextRounding_defined (x : Rat) :
    DefinedWhen (Fits x) (contextRound x) (contextRounding x) :=
  (DefinedWhen.of_ite fun _ => .ok).congr (by rw [and_true]) fun _ => rfl

end FundingTool.Decimal
