import ChainWallet.Decimal.Basic

/-!
# The texts of decimals

* `Decimal.toText` keeps the writing: the coefficient stands with its point where the exponent puts
  it, and in scientific notation where the exponent is positive or the first digit lies more than
  six places behind the point. This is the form in which balances are stored.
* `Decimal.toPlainText` never uses an exponent. This is the form of prices.
-/

namespace ChainWallet

namespace Decimal

def digits (n : Nat) : List Char :=
  Nat.toDigits 10 n

/-- The sign of a number as it stands before its digits. -/
def signText (negative : Bool) : List Char :=
  if negative then ['-'] else []

/-- Digits with a point before the last `places` of them, and zeros where digits are lacking. -/
def withPoint (ds : List Char) (places : Nat) : List Char :=
  if places = 0 then ds
  else
    let whole := ds.length - places
    let padded := List.replicate (places - ds.length) '0' ++ ds.drop whole
    (if whole = 0 then ['0'] else ds.take whole) ++ '.' :: padded

def exponentText (e : Int) : List Char :=
  'E' :: (if e < 0 then '-' else '+') :: digits e.natAbs

/-- The text that keeps the writing of a decimal. -/
def toText (d : Decimal) : String :=
  let ds := digits d.coefficient
  let adjusted := d.adjustedExponent
  let body :=
    if d.exponent ≤ 0 ∧ -6 ≤ adjusted then withPoint ds d.exponent.natAbs
    else withPoint ds (ds.length - 1) ++ exponentText adjusted
  String.ofList (signText d.negative ++ body)

/-- The text of a decimal with no exponent. -/
def toPlainText (d : Decimal) : String :=
  let ds := digits d.coefficient
  let body :=
    if d.exponent < 0 then withPoint ds d.exponent.natAbs
    else ds ++ List.replicate d.exponent.toNat '0'
  String.ofList (signText d.negative ++ body)

end Decimal

namespace Numeral

/-- The text of a numeral that is not finite. -/
def specialText (negative : Bool) (name : String) (payload : Nat) : String :=
  String.ofList (Decimal.signText negative ++ name.toList
    ++ if payload = 0 then [] else Decimal.digits payload)

/-- The text that keeps the writing of a numeral. -/
def toText : Numeral → String
  | finite d => d.toText
  | infinite negative => specialText negative "Infinity" 0
  | nan negative signaling payload => specialText negative (if signaling then "sNaN" else "NaN") payload

/-- The text of a numeral with no exponent. -/
def toPlainText : Numeral → String
  | finite d => d.toPlainText
  | special => special.toText

end Numeral

example : (Decimal.mk false 1 3).toText = "1E+3" ∧ (Decimal.mk true 150 (-2)).toText = "-1.50"
    ∧ (Decimal.mk false 0 (-18)).toText = "0E-18" ∧ (Decimal.mk false 1 (-6)).toText = "0.000001" := by
  decide +kernel

example : (Decimal.mk false 15 2).toPlainText = "1500"
    ∧ (Decimal.mk false 5 (-9)).toPlainText = "0.000000005" := by
  decide +kernel

end ChainWallet
