import ChainWallet.Decimal.Basic
import ChainWallet.Text.Blank
import ChainWallet.Text.Digit

/-!
# Reading decimals

A text denotes a numeral if, without surrounding blanks and without any underscore, it is an optional
sign followed by

* digits with at most one point among them and an optional exponent — at least one digit stands
  before the exponent, and the digits may be of any script;
* `inf` or `infinity`; or
* `nan` or `snan`, with an optional payload of digits;

words in any letter case. A number is read exactly; a number whose exponent lies outside `exactRange`
is none.
-/

namespace ChainWallet

open Text

namespace Decimal

/-- The largest exponent of a first digit that can be written. -/
def greatestExponent : Int := 999999999999999999

/-- The smallest exponent of a last digit that can be written. -/
def leastExponent : Int := -1999999999999999997

def exactRange (d : Decimal) : Bool :=
  leastExponent ≤ d.exponent
    && (if d.coefficient = 0 then d.exponent else d.adjustedExponent) ≤ greatestExponent

end Decimal

namespace Numeral

/-- The ASCII form of one character of a number, if it has one. -/
def asciiForm? (c : Char) : Option Char :=
  if c.toNat < 128 then some c else (digitValue? c).map Nat.digitChar

/-- A leading sign and the rest; `true` stands for minus. -/
def splitSign : List Char → Bool × List Char
  | '-' :: rest => (true, rest)
  | '+' :: rest => (false, rest)
  | cs => (false, cs)

def splitMinus : List Char → Bool × List Char
  | '-' :: rest => (true, rest)
  | cs => (false, cs)

/-- The exponent part of a number: nothing, or the letter, an optional sign and digits. -/
def exponent? : List Char → Option Int
  | [] => some 0
  | c :: rest =>
    if c = 'e' ∨ c = 'E' then
      let (negative, ds) := splitSign rest
      (natOfDigits? ds).map fun n => if negative then -(n : Int) else n
    else none

/-- Digits with an optional point and an optional exponent. -/
def mantissa? (negative : Bool) (cs : List Char) : Option Decimal := do
  let (whole, rest) := cs.span isAsciiDigit
  let (fraction, rest) := match rest with
    | '.' :: more => more.span isAsciiDigit
    | _ => ([], rest)
  let coefficient ← natOfDigits? (whole ++ fraction)
  let exponent ← exponent? rest
  some ⟨negative, coefficient, exponent - fraction.length⟩

/-- A text after a word, if the text begins with the word in any letter case. -/
def afterWord? : (word : List Char) → List Char → Option (List Char)
  | [], cs => some cs
  | _ :: _, [] => none
  | w :: ws, c :: cs => if c.toLower = w then afterWord? ws cs else none

/-- The payload of a NaN: no digits, or digits that write a number. -/
def payload? (cs : List Char) : Option Nat :=
  if cs.isEmpty then some 0 else natOfDigits? cs

def body? (negative : Bool) (cs : List Char) : Option Numeral :=
  match afterWord? ['n', 'a', 'n'] cs with
  | some rest => (payload? rest).map (nan negative false)
  | none =>
    match afterWord? ['s', 'n', 'a', 'n'] cs with
    | some rest => (payload? rest).map (nan negative true)
    | none =>
      -- Only the two words count, and nothing may follow them.
      match afterWord? ['i', 'n', 'f'] cs with
      | some rest =>
        if rest.isEmpty || afterWord? ['i', 'n', 'i', 't', 'y'] rest == some [] then
          some (infinite negative)
        else none
      | none => ((mantissa? negative cs).filter Decimal.exactRange).map finite

def read? (s : String) : Option Numeral := do
  -- Underscores may stand anywhere, and digits of other scripts count as digits.
  let cs ← ((trim isBlank s.toList).filter (· != '_')).mapM asciiForm?
  let (negative, rest) := splitSign cs
  body? negative rest

end Numeral

def Decimal.read? (s : String) : Option Decimal :=
  match Numeral.read? s with
  | some (.finite d) => some d
  | _ => none

example : Decimal.read? " -1_0.50e3\n" = some ⟨true, 1050, 1⟩ := by decide +kernel

example : Decimal.read? ".5" = some ⟨false, 5, -1⟩ ∧ Decimal.read? "5." = some ⟨false, 5, 0⟩
    ∧ Decimal.read? "." = none ∧ Decimal.read? "1e" = none := by decide +kernel

end ChainWallet
