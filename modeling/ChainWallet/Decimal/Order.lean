import ChainWallet.Decimal.Basic

/-!
# The order of decimals by value

`Decimal.order` compares values and not writings: `1.0` and `1.00` are equal, and so are `0` and
`-0`. Two numbers of one sign are first compared by the place of their first digit, so that only
coefficients of about the same magnitude are ever brought to a common exponent.

`Numeral.lt?` extends the order to the infinities. A comparison with a NaN has no answer.
-/

namespace ChainWallet

namespace Decimal

/-- The order of the magnitudes of two decimals with nonzero coefficients. -/
def magnitudeOrder (a b : Decimal) : Ordering :=
  match compare a.adjustedExponent b.adjustedExponent with
  | .eq =>
    let common := min a.exponent b.exponent
    compare (a.coefficient * Nat.pow 10 (a.exponent - common).toNat)
      (b.coefficient * Nat.pow 10 (b.exponent - common).toNat)
  | different => different

def order (a b : Decimal) : Ordering :=
  match a.coefficient == 0, b.coefficient == 0 with
  | true, true => .eq
  | true, false => if b.negative then .gt else .lt
  | false, true => if a.negative then .lt else .gt
  | false, false =>
    match a.negative, b.negative with
    | false, false => magnitudeOrder a b
    | true, true => magnitudeOrder b a
    | true, false => .lt
    | false, true => .gt

end Decimal

namespace Numeral

/-- Whether one numeral is below another by value; undefined if one of them is a NaN. -/
def lt? : Numeral → Numeral → Except Decimal.Signal Bool
  | nan .., _ => .error .invalidOperation
  | _, nan .. => .error .invalidOperation
  | finite a, finite b => .ok (a.order b == .lt)
  | finite _, infinite negative => .ok !negative
  | infinite negative, finite _ => .ok negative
  | infinite a, infinite b => .ok (a && !b)

end Numeral

end ChainWallet
