/-!
# Decimal digits of every script

A decimal digit may be written in any script that has a set of ten digits. The digits of a set stand
at ten consecutive code points in the order of their values, so a set is named by its zero.
-/

namespace ChainWallet.Text

/-- The zeros of the sets of decimal digits (Unicode general category *Nd*). -/
def digitZeros : List Nat := [
    0x30, 0x660, 0x6f0, 0x7c0, 0x966, 0x9e6, 0xa66, 0xae6, 0xb66, 0xbe6, 0xc66, 0xce6, 0xd66,
    0xde6, 0xe50, 0xed0, 0xf20, 0x1040, 0x1090, 0x17e0, 0x1810, 0x1946, 0x19d0, 0x1a80, 0x1a90,
    0x1b50, 0x1bb0, 0x1c40, 0x1c50, 0xa620, 0xa8d0, 0xa900, 0xa9d0, 0xa9f0, 0xaa50, 0xabf0,
    0xff10, 0x104a0, 0x10d30, 0x11066, 0x110f0, 0x11136, 0x111d0, 0x112f0, 0x11450, 0x114d0,
    0x11650, 0x116c0, 0x11730, 0x118e0, 0x11950, 0x11c50, 0x11d50, 0x11da0, 0x16a60, 0x16ac0,
    0x16b50, 0x1d7ce, 0x1d7d8, 0x1d7e2, 0x1d7ec, 0x1d7f6, 0x1e140, 0x1e2f0, 0x1e950, 0x1fbf0]

/-- The value of a character as a decimal digit of some script. -/
def digitValue? (c : Char) : Option Nat :=
  (digitZeros.find? fun z => z ≤ c.toNat && c.toNat < z + 10).map (c.toNat - ·)

/-- The value of one of the ASCII digits 0 to 9. -/
def asciiDigitValue? (c : Char) : Option Nat :=
  if '0' ≤ c ∧ c ≤ '9' then some (c.toNat - 48) else none

/-- One of the ASCII digits 0 to 9. -/
def isAsciiDigit (c : Char) : Bool :=
  (asciiDigitValue? c).isSome

/-- The number that a list of digit values writes, with the most significant digit first. -/
def ofDigitValues (ds : List Nat) : Nat :=
  ds.foldl (fun n d => 10 * n + d) 0

/-- The number that a nonempty text of ASCII digits writes. -/
def natOfDigits? (cs : List Char) : Option Nat :=
  if cs.isEmpty then none else (cs.mapM asciiDigitValue?).map ofDigitValues

/-- The greatest number of digits of an integer that is read from a text. Reading takes time in the
square of the number of digits, so longer texts are refused. -/
def integerDigitLimit : Nat := 4300

/-- Every digit of the first set, with its value. -/
example : "0123456789".toList.map digitValue? = (List.range 10).map some := by decide

example : digitValue? '４' = some 4 ∧ digitValue? 'x' = none := by decide

end ChainWallet.Text
