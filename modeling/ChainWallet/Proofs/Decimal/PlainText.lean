import ChainWallet.Market.Portfolio
import ChainWallet.Proofs.Decimal.Rounding
import ChainWallet.Proofs.Decimal.RoundTrip

/-!
# Amounts as they are shown

An amount is shown without an exponent and without trailing zeros. Neither changes the number, so what is shown
has been rounded once, where it had to be.

* **`value_stripZeros`**, **`spelledOut`** — the shortest writing is one of the same number, and so is what the
  text without an exponent writes (`read?_toPlainText`).
* **`Shows`** — a text writes a number, correctly rounded.
* **`displayDecimal_cases`**, **`displayProduct_cases`** — an amount, and a product of amounts, is shown so or is
  too large.
-/

namespace ChainWallet

open Text Numeral

namespace Decimal

/-! ### The shortest writing -/

/-- Leaving out a zero at the end moves the exponent up by one, which is the same number. -/
theorem value_stripZeros (d : Decimal) : d.stripZeros.value = d.value := by
  fun_induction stripZeros d with
  | case1 d hzero =>
    have hstripped : value { d with exponent := 0 } = 0 := value_eq_zero_iff.mpr hzero
    rw [hstripped, value_eq_zero_iff.mpr hzero]
  | case2 d hne hlast ih =>
    rw [ih]
    have hcoefficient : (d.coefficient : ℤ) = (d.coefficient / 10 : ℕ) * 10 := by omega
    simp only [value, signed, zpow_add_one₀ (by norm_num : (10 : ℚ) ≠ 0), hcoefficient]
    split <;> push_cast <;> ring
  | case3 => rfl

/-- The exponent of the shortest writing is not smaller, or it is zero. -/
theorem min_exponent_le_stripZeros (d : Decimal) : min d.exponent 0 ≤ d.stripZeros.exponent := by
  fun_induction stripZeros d with
  | case1 => exact min_le_right _ _
  | case2 d hne hlast ih =>
    dsimp only at ih
    omega
  | case3 => exact min_le_left _ _

/-! ### Texts without exponents -/

/-- The decimal that the plain text of a decimal writes: zeros stand for the places up to the point. -/
def spelledOut (d : Decimal) : Decimal :=
  if d.exponent < 0 then d else ⟨d.negative, d.coefficient * 10 ^ d.exponent.toNat, 0⟩

/-- Zeros up to the point are the same number. -/
theorem value_spelledOut (d : Decimal) : d.spelledOut.value = d.value := by
  unfold spelledOut
  split
  · rfl
  · have hpow : (10 : ℚ) ^ d.exponent = 10 ^ d.exponent.toNat * 10 ^ (0 : ℤ) := zpow_eq_pow_mul (by omega)
    simp only [value, signed, hpow]
    split <;> push_cast <;> simp

/-- Spelling zeros out brings the exponent to zero at most. -/
theorem min_exponent_le_spelledOut (d : Decimal) : min d.exponent 0 ≤ d.spelledOut.exponent := by
  unfold spelledOut
  split
  · exact min_le_left _ _
  · exact min_le_right _ _

/-- Zeros after the digits of a number. -/
theorem natOfDigits?_append_zeros {cs : List Char} {n : Nat} (h : natOfDigits? cs = some n) (k : Nat) :
    natOfDigits? (cs ++ List.replicate k '0') = some (n * 10 ^ k) := by
  induction k with
  | zero => simpa using h
  | succ k ih =>
    have hconcat := natOfDigits?_concat ih (by decide : 0 < 10)
    rw [List.replicate_succ', ← List.append_assoc]
    refine hconcat.trans ?_
    congr 1
    ring

/-- The plain text of a decimal is a sign and a mantissa, which begins with a digit. -/
theorem exists_toPlainText (d : Decimal) : ∃ c rest,
    d.toPlainText.toList = signText d.negative ++ c :: rest ∧ isAsciiDigit c = true
      ∧ mantissa? d.negative (c :: rest) = some d.spelledOut ∧ ∀ b ∈ c :: rest, IsPlain b := by
  have hdigits := natOfDigits?_digits d.coefficient
  have hplain := isAsciiDigit_of_natOfDigits? hdigits
  have hne := (natOfDigits?_eq_some_iff.mp hdigits).1
  have hnone : exponent? [] = some 0 := rfl
  -- A point stands before the last digits, or zeros behind them.
  by_cases hpoint : d.exponent < 0
  · obtain ⟨c, rest, hhead, hc⟩ := head_withPoint hne hplain d.exponent.natAbs
    have hmantissa := mantissa?_withPoint d.negative hdigits hnone d.exponent.natAbs
    have hexponent : (0 : ℤ) - d.exponent.natAbs = d.exponent := by omega
    rw [List.append_nil, hexponent, hhead] at hmantissa
    refine ⟨c, rest, by simp [toPlainText, hpoint, hhead], hc, by rw [hmantissa, spelledOut, if_pos hpoint], ?_⟩
    exact hhead ▸ isPlain_withPoint hplain _
  · have hzeros := natOfDigits?_append_zeros hdigits d.exponent.toNat
    have hmantissa := mantissa?_whole d.negative hzeros hnone
    obtain ⟨c, rest, hhead⟩ := List.exists_cons_of_ne_nil (natOfDigits?_eq_some_iff.mp hzeros).1
    have hall := isAsciiDigit_of_natOfDigits? hzeros
    rw [List.append_nil, hhead] at hmantissa
    rw [hhead] at hall
    refine ⟨c, rest, by simp [toPlainText, hpoint, hhead], hall c List.mem_cons_self,
      by rw [hmantissa, spelledOut, if_neg hpoint], fun b hb => .inl (hall b hb)⟩

/-- The plain text of a decimal is read as what it spells out. -/
theorem read?_toPlainText {d : Decimal} (h : d.spelledOut.exactRange = true) :
    Decimal.read? d.toPlainText = some d.spelledOut := by
  obtain ⟨c, rest, htext, hc, hmantissa, hplain⟩ := d.exists_toPlainText
  refine read?_of_mantissa? (fun b hb => ?_) htext hc hmantissa h
  rw [htext] at hb
  rcases List.mem_append.mp hb with hb | hb
  · exact isPlain_signText d.negative b hb
  · exact hplain b hb

/-- Exponents can be written in a range that reaches from the last digit to the first. -/
theorem exactRange_iff {d : Decimal} :
    d.exactRange = true ↔ leastExponent ≤ d.exponent ∧ d.adjustedExponent ≤ greatestExponent := by
  rw [exactRange, Bool.and_eq_true, decide_eq_true_eq, decide_eq_true_eq]
  split
  · next hzero => rw [adjustedExponent_of_zero hzero]
  · rfl

/-- What an amount spells out has its first digit where the amount has it, and ends no earlier. -/
theorem exactRange_of_fits {d : Decimal} (fits : d.Fits .amounts) :
    d.stripZeros.spelledOut.exactRange = true := by
  have hvalue : d.stripZeros.spelledOut.value = d.value := by rw [value_spelledOut, value_stripZeros]
  have hexponent : -1000026 ≤ d.stripZeros.spelledOut.exponent := by
    have htiny : -1000026 ≤ d.exponent := fits.tiny
    have hstripped := d.min_exponent_le_stripZeros
    have hspelled := d.stripZeros.min_exponent_le_spelledOut
    omega
  have hadjusted : d.stripZeros.spelledOut.adjustedExponent ≤ 999999 := by
    -- A zero has its first digit at its exponent, and that is zero here.
    by_cases h : d.coefficient = 0
    · have hzero : d.stripZeros = { d with exponent := 0 } := by rw [stripZeros, if_pos h]
      have hspelled : d.stripZeros.spelledOut.coefficient = 0 := by
        rw [← value_eq_zero_iff, hvalue, value_eq_zero_iff, h]
      rw [adjustedExponent_of_zero hspelled, hzero]
      show (0 : ℤ) ≤ 999999
      omega
    · have hspelled : d.stripZeros.spelledOut.coefficient ≠ 0 := by
        rw [← value_eq_zero_iff.ne, hvalue]
        exact value_eq_zero_iff.not.mpr h
      -- Two writings of one number have their first digit at one place.
      rw [← log_value hspelled, hvalue, log_value h]
      exact fits.large
  exact exactRange_iff.mpr ⟨le_trans (by decide) hexponent, le_trans hadjusted (by decide)⟩

/-! ### What is shown -/

/-- A text writes a number rounded to an amount, which is the number itself if amounts have room for it. -/
def Shows (text : String) (x : ℚ) : Prop :=
  ∃ d, Decimal.read? text = some d ∧ Context.amounts.Rounds x d.value ∧ (Context.amounts.Holds x → d.value = x)

/-- The empty text writes no number. -/
theorem Shows.ne_empty {text : String} {x : ℚ} (h : Shows text x) : text ≠ "" := by
  rintro rfl
  obtain ⟨d, hread, -⟩ := h
  cases hread

/-- A decimal that fits is shown by a text that writes it. -/
theorem shows_of_fits {d : Decimal} {x : ℚ} (fits : d.Fits .amounts)
    (rounds : Context.amounts.Rounds x d.value) : Shows d.stripZeros.toPlainText x := by
  refine ⟨_, read?_toPlainText (exactRange_of_fits fits), ?_⟩
  rw [value_spelledOut, value_stripZeros]
  exact ⟨rounds, rounds.eq_of_holds⟩

end Decimal

namespace Portfolio

open Decimal

/-- An amount is shown by the shortest writing of the fitted one, without an exponent. -/
theorem displayDecimal_of_fit {d r : Decimal} (h : fit .amounts d = .ok r) :
    displayDecimal d = .ok r.stripZeros.toPlainText := by
  rw [displayDecimal, Decimal.normalize, h]
  rfl

/-- An amount is shown rounded, or is too large. -/
theorem displayDecimal_cases (d : Decimal) :
    (∃ text, displayDecimal d = .ok text ∧ Shows text d.value ∧ ¬ Context.amounts.Overflows d.value)
      ∨ displayDecimal d = .error .overflow ∧ Context.amounts.Overflows d.value := by
  rcases fit_cases Context.valid_amounts d with ⟨r, hfit, fitted⟩ | ⟨hfit, large⟩
  · exact .inl ⟨_, displayDecimal_of_fit hfit, shows_of_fits fitted.fits fitted.rounds, fitted.small⟩
  · right
    rw [displayDecimal, Decimal.normalize, hfit]
    exact ⟨rfl, large⟩

/-- A product is rounded once: what has been rounded is shown as it is. -/
theorem displayProduct_cases (a b : Decimal) :
    (∃ p text, a.mul .amounts b = .ok p ∧ displayDecimal p = .ok text ∧ Shows text (a.value * b.value)
        ∧ ¬ Context.amounts.Overflows (a.value * b.value))
      ∨ a.mul .amounts b = .error .overflow ∧ Context.amounts.Overflows (a.value * b.value) := by
  rw [← value_product]
  -- The exact product is rounded, and showing it rounds no more.
  rcases fit_cases Context.valid_amounts
    ⟨a.negative != b.negative, a.coefficient * b.coefficient, a.exponent + b.exponent⟩
    with ⟨p, hfit, fitted⟩ | ⟨hfit, large⟩
  · exact .inl ⟨p, _, hfit, displayDecimal_of_fit fitted.fits.fit_eq,
      shows_of_fits fitted.fits fitted.rounds, fitted.small⟩
  · exact .inr ⟨hfit, large⟩

end Portfolio

end ChainWallet
