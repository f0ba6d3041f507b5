import ChainWallet.Decimal.Basic

/-!
# Decimal arithmetic to a fixed precision

An operation computes its exact result and then fits it into a `Context`: at most `precision` digits,
the last one rounded to nearest with a half going to the even neighbour, and an exponent in range.
Results too small for the range lose digits down to zero; results too large raise `Signal.overflow`.

* `roundQuotient` — division rounded to nearest, half to even.
* `fit` — a decimal in a context; `mul` is `fit` of the exact product.
* `normalize` — `fit`, and then the writing with no trailing zero.
-/

namespace ChainWallet.Decimal

/-- The precision and the exponent range of an arithmetic. -/
structure Context where
  precision : Nat
  maxExponent : Int
  minExponent : Int
  deriving DecidableEq, Repr

namespace Context

/-- Amounts have 28 digits and exponents up to 999999 either way. -/
def amounts : Context := ⟨28, 999999, -999999⟩

/-- The exponent of the last digit of the smallest number that the context holds. -/
def tinyExponent (ctx : Context) : Int :=
  ctx.minExponent - (ctx.precision - 1)

end Context

/-- `n / m` rounded to nearest; a half goes to the even neighbour. -/
def roundQuotient (n m : Nat) : Nat :=
  let q := n / m
  let twice := 2 * (n % m)
  if m < twice ∨ (twice = m ∧ q % 2 = 1) then q + 1 else q

/-- A coefficient without its last `k` digits, rounded. One with fewer than `k` digits is below half
of the unit `10 ^ k`, so it goes to zero without that power being formed. -/
def dropDigits (n k : Nat) : Nat :=
  if digitCount n < k then 0 else roundQuotient n (Nat.pow 10 k)

/-- A decimal with the precision and in the range of a context. -/
def fit (ctx : Context) (d : Decimal) : Except Signal Decimal :=
  if d.coefficient = 0 then
    .ok { d with exponent := max ctx.tinyExponent (min d.exponent ctx.maxExponent) }
  else
    let excess := digitCount d.coefficient - ctx.precision
    let below := (ctx.tinyExponent - d.exponent).toNat
    let dropped := max excess below
    let rounded := dropDigits d.coefficient dropped
    let exponent := d.exponent + dropped
    -- Rounding up may carry into one digit more than there is room for; that digit is a zero then.
    let result : Decimal :=
      if ctx.precision < digitCount rounded then ⟨d.negative, rounded / 10, exponent + 1⟩
      else ⟨d.negative, rounded, exponent⟩
    if ctx.maxExponent < result.adjustedExponent then .error .overflow else .ok result

def mul (ctx : Context) (a b : Decimal) : Except Signal Decimal :=
  fit ctx ⟨a.negative != b.negative, a.coefficient * b.coefficient, a.exponent + b.exponent⟩

/-- The writing of a value that has no trailing zero in its coefficient; zero has exponent 0. -/
def stripZeros (d : Decimal) : Decimal :=
  if d.coefficient = 0 then { d with exponent := 0 }
  else if d.coefficient % 10 = 0 then
    stripZeros ⟨d.negative, d.coefficient / 10, d.exponent + 1⟩
  else d
termination_by d.coefficient
decreasing_by omega

/-- The shortest writing of a decimal in a context. -/
def normalize (ctx : Context) (d : Decimal) : Except Signal Decimal :=
  (fit ctx d).map stripZeros

end ChainWallet.Decimal

namespace ChainWallet

open Decimal (Signal Context)

namespace Numeral

/-- A diagnostic payload keeps the digits that the precision has room for, from the right. -/
def fitPayload (ctx : Context) (payload : Nat) : Nat :=
  payload % Nat.pow 10 ctx.precision

/-- The shortest writing of a numeral in a context; a signaling NaN has none. -/
def normalize (ctx : Context) : Numeral → Except Signal Numeral
  | finite d => (d.normalize ctx).map finite
  | infinite negative => .ok (infinite negative)
  | nan _ true _ => .error .invalidOperation
  | nan negative false payload => .ok (nan negative false (fitPayload ctx payload))

/-- A decimal times a numeral. Zero times infinity is not defined, and a NaN stays one. -/
def scale (ctx : Context) (d : Decimal) : Numeral → Except Signal Numeral
  | finite e => (d.mul ctx e).map finite
  | infinite negative =>
    if d.coefficient = 0 then .error .invalidOperation else .ok (infinite (d.negative != negative))
  | nan _ true _ => .error .invalidOperation
  | nan negative false payload => .ok (nan negative false (fitPayload ctx payload))

end Numeral

end ChainWallet
