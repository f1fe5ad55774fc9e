import Mathlib.Algebra.Order.Ring.Rat

/-!
Floating-point values as exact rationals with infinities and a NaN, for the
comparisons that need no rounding.
-/

namespace DatumGateway.FloatValues

/-- A floating-point value, up to the payload of a NaN. -/
inductive FloatValue where
  | nan
  | infinite (negative : Bool)
  | finite (value : ℚ)
  deriving DecidableEq

namespace FloatValue

def isFinite : FloatValue → Bool
  | finite _ => true
  | _ => false

def atMost (bound : ℚ) : FloatValue → Bool
  | nan => false
  | infinite negative => negative
  | finite value => value ≤ bound

def atLeast (bound : ℚ) : FloatValue → Bool
  | nan => false
  | infinite negative => !negative
  | finite value => bound ≤ value

def lt : FloatValue → FloatValue → Bool
  | nan, _ => false
  | _, nan => false
  | infinite negative, y => negative && y != infinite true
  | finite _, infinite negative => !negative
  | finite x, finite y => x < y

end FloatValue

end DatumGateway.FloatValues
