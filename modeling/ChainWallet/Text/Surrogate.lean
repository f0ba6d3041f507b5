/-!
# Halves of UTF-16 pairs

In UTF-16 a character beyond U+FFFF takes a pair of units. A unit whose other half is missing is no
character. It is kept as a private character, U+100000 beyond the unit, so that texts that differ in
it differ, and so that it can be written back as it was read.

The private characters U+10D800 to U+10DFFF are the ones that stand for halves (`isSome_loneHalf?_iff`), and
are not texts of their own here: a text that has one is read as one with a missing half. No other character is
affected.
-/

namespace ChainWallet.Text

/-- Whether a UTF-16 unit is the first half of a pair. -/
def isHighHalf (unit : Nat) : Bool :=
  0xD800 ≤ unit && unit < 0xDC00

/-- Whether a UTF-16 unit is the second half of a pair. -/
def isLowHalf (unit : Nat) : Bool :=
  0xDC00 ≤ unit && unit < 0xE000

/-- The character that a pair of halves makes. -/
def joinHalves (high low : Nat) : Char :=
  Char.ofNat (0x10000 + (high - 0xD800) * 0x400 + (low - 0xDC00))

/-- The character that stands for a half whose other half is missing. -/
def loneHalf (unit : Nat) : Char :=
  Char.ofNat (0x100000 + unit)

/-- The half that a character stands for. -/
def loneHalf? (c : Char) : Option Nat :=
  let unit := c.toNat - 0x100000
  if isHighHalf unit || isLowHalf unit then some unit else none

/-- Whether a text has a half whose other half is missing. -/
def hasLoneHalf (s : String) : Bool :=
  s.toList.any fun c => (loneHalf? c).isSome

/-- The characters that stand for halves are exactly U+10D800 to U+10DFFF. -/
theorem isSome_loneHalf?_iff {c : Char} :
    (loneHalf? c).isSome ↔ 0x10D800 ≤ c.toNat ∧ c.toNat < 0x10E000 := by
  have hrange : (loneHalf? c).isSome
      ↔ isHighHalf (c.toNat - 0x100000) = true ∨ isLowHalf (c.toNat - 0x100000) = true := by
    simp [loneHalf?]
  rw [hrange]
  simp only [isHighHalf, isLowHalf, Bool.and_eq_true, decide_eq_true_eq]
  omega

/-- So texts without these characters have no missing halves. -/
theorem hasLoneHalf_eq_false_iff {s : String} :
    hasLoneHalf s = false ↔ ∀ c ∈ s.toList, c.toNat < 0x10D800 ∨ 0x10E000 ≤ c.toNat := by
  have hother : ∀ c : Char, (loneHalf? c).isSome = false ↔ c.toNat < 0x10D800 ∨ 0x10E000 ≤ c.toNat := by
    intro c
    rw [Bool.eq_false_iff, Ne, isSome_loneHalf?_iff]
    omega
  simp only [hasLoneHalf, List.any_eq_false, Bool.not_eq_true, hother]

example : loneHalf? (loneHalf 0xD800) = some 0xD800 ∧ loneHalf? (loneHalf 0xDFFF) = some 0xDFFF
    ∧ loneHalf? 'a' = none ∧ joinHalves 0xD83D 0xDE00 = '😀' := by
  decide +kernel

end ChainWallet.Text
