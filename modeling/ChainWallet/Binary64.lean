import ChainWallet.Decimal.Arithmetic
import ChainWallet.Decimal.Printer
import ChainWallet.Decimal.Reader

/-!
# Binary floating-point numbers

A price feed may write a number with a point or an exponent; such a number is a binary64, held here by
its bits. All arithmetic on it is exact arithmetic on naturals.

* `Binary64.ofDecimal` — the binary64 nearest to a decimal, a half going to the even neighbour.
* `Binary64.shortest` — the fewest decimal digits that read back to the number, and of those the
  digits nearest to it.
* `Binary64.toText` — these digits as text, positional for exponents from -4 to 15.
* `Binary64.toNumeral` — the decimal with that text, so that 0.1 counts as a tenth.
-/

namespace ChainWallet

/-- A binary64 number by its bits: sign, eleven bits of exponent, fifty-two of fraction. -/
structure Binary64 where
  bits : UInt64
  deriving DecidableEq, Repr, Inhabited

namespace Binary64

/-- The bits of positive infinity. -/
def infinityBits : Nat := 0x7FF0000000000000

/-- A number from its sign and the bits of its magnitude. -/
def ofMagnitude (negative : Bool) (magnitude : Nat) : Binary64 :=
  ⟨UInt64.ofNat (magnitude + if negative then 0x8000000000000000 else 0)⟩

/-- An infinity. -/
def infinity (negative : Bool) : Binary64 := ofMagnitude negative infinityBits

/-- A quiet NaN. -/
def nan : Binary64 := ofMagnitude false 0x7FF8000000000000

/-- Whether the sign bit is set. -/
def negative (x : Binary64) : Bool := 0x8000000000000000 ≤ x.bits.toNat

/-- The bits without the sign. -/
def magnitude (x : Binary64) : Nat := x.bits.toNat % 0x8000000000000000

/-- Whether a number is a NaN. -/
def isNaN (x : Binary64) : Bool := infinityBits < x.magnitude

/-- Whether a number is neither a NaN nor an infinity. -/
def isFinite (x : Binary64) : Bool := x.magnitude < infinityBits

/-- Whether a number is zero, of either sign. -/
def isZero (x : Binary64) : Bool := x.magnitude == 0

/-- The mantissa `m` and exponent `q` of a finite number: its magnitude is `m · 2 ^ q`. -/
def decode (x : Binary64) : Nat × Int :=
  let fraction := x.magnitude % 0x10000000000000
  let exponent := x.magnitude / 0x10000000000000
  if exponent = 0 then (fraction, -1074)
  else (fraction + 0x10000000000000, (exponent : Int) - 1075)

/-- `n / m` rounded to nearest, a half to the even neighbour. -/
def nearest (n m : Nat) : Nat :=
  let q := n / m
  let twice := 2 * (n % m)
  if m < twice ∨ (twice = m ∧ q % 2 = 1) then q + 1 else q

/-- The bits of the magnitude nearest to `num / den`, where `den` is not zero. The mantissa is the
quotient at an exponent that gives it 53 bits, or fewer at the least exponent; written behind the
exponent bits, a mantissa that is rounded up to 54 bits carries into them. -/
def magnitudeOfRatio (num den : Nat) : Nat :=
  if num = 0 then 0
  else
    let guess : Int := (num.log2 : Int) - den.log2
    let below := if 0 ≤ guess then num < den <<< guess.toNat else num <<< (-guess).toNat < den
    -- At the least exponent there are fewer bits: these numbers are subnormal.
    let q := max (-1074) ((if below then guess - 1 else guess) - 52)
    let mantissa :=
      if 0 ≤ q then nearest num (den <<< q.toNat) else nearest (num <<< (-q).toNat) den
    min infinityBits ((q + 1074).toNat * 0x10000000000000 + mantissa)

/-- The number nearest to a decimal. Numbers of more than 310 digits before the point are infinite
and numbers with more than 330 zeros behind it are zero, whatever their digits. -/
def ofDecimal (d : Decimal) : Binary64 :=
  let place := d.adjustedExponent
  if d.coefficient = 0 ∨ place < -330 then ofMagnitude d.negative 0
  else if 310 < place then infinity d.negative
  else if 0 ≤ d.exponent then
    ofMagnitude d.negative (magnitudeOfRatio (d.coefficient * Nat.pow 10 d.exponent.toNat) 1)
  else ofMagnitude d.negative (magnitudeOfRatio d.coefficient (Nat.pow 10 d.exponent.natAbs))

/-- The number nearest to an integer. -/
def ofInt (n : Int) : Binary64 :=
  ofMagnitude (n < 0) (magnitudeOfRatio n.natAbs 1)

/-- The integer that a finite number is, if it is one. -/
def toInt? (x : Binary64) : Option Int :=
  if x.isFinite then
    let (m, q) := x.decode
    let sign (n : Nat) : Int := if x.negative then -(n : Int) else n
    if 0 ≤ q then some (sign (m <<< q.toNat))
    else
      let unit := 1 <<< q.natAbs
      if m % unit = 0 then some (sign (m / unit)) else none
  else none

/-! ### The shortest digits that read back -/

/-- The reals that round to a number: from `low / den` to `high / den` around `mid / den`, with the
ends included if `closed`. -/
structure Interval where
  low : Nat
  mid : Nat
  high : Nat
  den : Nat
  closed : Bool

/-- The reals that round to a finite number other than zero. The gap below a power of two is half the
gap above it. -/
def interval (x : Binary64) : Interval :=
  let (m, q) := x.decode
  -- The ends are half-way to the neighbours, in quarters of the last place.
  let narrow := m == 0x10000000000000 && q != -1074
  let mid := 4 * m
  let low := mid - if narrow then 1 else 2
  let high := mid + 2
  if 2 ≤ q then
    let s := (q - 2).toNat
    ⟨low <<< s, mid <<< s, high <<< s, 1, m % 2 == 0⟩
  else ⟨low, mid, high, 1 <<< (2 - q).toNat, m % 2 == 0⟩

/-- The interval in units of `10 ^ k`. -/
def Interval.inUnits (i : Interval) (k : Int) : Interval :=
  if 0 ≤ k then { i with den := i.den * Nat.pow 10 k.toNat }
  else
    let u := Nat.pow 10 k.natAbs
    { i with low := i.low * u, mid := i.mid * u, high := i.high * u }

/-- Whether a whole number lies in the interval. -/
def Interval.holds (i : Interval) (n : Nat) : Bool :=
  if i.closed then i.low ≤ n * i.den && n * i.den ≤ i.high
  else i.low < n * i.den && n * i.den < i.high

/-- The whole number in the interval that is nearest to its middle, if one of the two neighbours of
the middle lies in it; of two at the same distance the even one. -/
def Interval.whole? (i : Interval) : Option Nat :=
  let below := i.mid / i.den
  let above := below + 1
  match i.holds below && below != 0, i.holds above with
  | true, true =>
    let half := (below + above) * i.den
    if 2 * i.mid < half ∨ (2 * i.mid = half ∧ below % 2 = 0) then some below else some above
  | true, false => some below
  | false, true => some above
  | false, false => none

/-- The number of digits before the point of `num / den`, negative for zeros behind the point. -/
def placeOf (i : Interval) : Int :=
  let guess : Int := (Decimal.digitCount i.mid : Int) - Decimal.digitCount i.den
  -- Two counts of digits tell the place up to one.
  let least := i.inUnits guess
  if least.den ≤ least.mid then guess + 1 else guess

/-- The shortest digits that read back, from `n` digits on: a coefficient and the exponent of its
last digit. -/
def shortestFrom (i : Interval) (place : Int) : (fuel n : Nat) → Nat × Int
  | 0, n => let k := place - n; ((i.inUnits k).mid / (i.inUnits k).den, k)
  | fuel + 1, n =>
    let k := place - n
    match (i.inUnits k).whole? with
    | some c => (c, k)
    | none => shortestFrom i place fuel (n + 1)

/-- The fewest digits that read back to a finite number other than zero, and of these the nearest.
Seventeen digits always read back. -/
def shortest (x : Binary64) : Nat × Int :=
  let i := x.interval
  shortestFrom i (placeOf i) 17 1

/-! ### Text -/

/-- The text of a finite number: positional with at least one digit behind the point for first digits
between the fourth place behind the point and the sixteenth before it, otherwise with an exponent of
at least two digits. -/
def finiteText (x : Binary64) : List Char :=
  if x.isZero then ['0', '.', '0']
  else
    let (c, k) := x.shortest
    let d := Decimal.stripZeros ⟨false, c, k⟩
    let ds := Decimal.digits d.coefficient
    let place := d.adjustedExponent
    if -4 ≤ place ∧ place < 16 then
      if 0 ≤ d.exponent then ds ++ List.replicate d.exponent.toNat '0' ++ ['.', '0']
      else Decimal.withPoint ds d.exponent.natAbs
    else
      let es := Decimal.digits place.natAbs
      Decimal.withPoint ds (ds.length - 1) ++ 'e' :: (if place < 0 then '-' else '+')
        :: (List.replicate (2 - es.length) '0' ++ es)

/-- The text of a number. -/
def toText (x : Binary64) : String :=
  if x.isNaN then "nan"
  else String.ofList (Decimal.signText x.negative
    ++ if x.isFinite then x.finiteText else ['i', 'n', 'f'])

/-- The numeral that the text of a number denotes. -/
def toNumeral (x : Binary64) : Numeral :=
  (Numeral.read? x.toText).getD (.nan false false 0)

end Binary64

end ChainWallet
