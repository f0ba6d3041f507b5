import ChainWallet.Decimal.Arithmetic
import Mathlib.Algebra.Order.Field.Power
import Mathlib.Data.Int.Log
import Mathlib.Data.Rat.Floor
import Mathlib.Tactic.Linarith
import Mathlib.Tactic.Positivity
import Mathlib.Tactic.Ring

/-!
# Decimal arithmetic rounds to nearest

Decimals stand for rational numbers, and the arithmetic of a context gives the exact result rounded to the
last place that the context has room for.

* **`value`** — the number that a decimal writes. Its first digit stands at its logarithm (`log_value`).
* **`Context.Rounds`** — a number is the nearest one to another that ends at its last place in the context; of
  two that are equally near it is the one with an even last digit. There is never more than one
  (`Rounds.unique`), and a number that can be held is its own (`Holds.rounds_self`).
* **`roundsAt_dropDigits`** — digits are dropped in that way.
* **`fit_cases`** — so fitting a decimal gives the rounded number, or overflows if that is too large. What has
  been fitted fits as it is (`Fits.fit_eq`).
-/

namespace ChainWallet

namespace Decimal

/-! ### The number that a decimal writes -/

def signed (d : Decimal) : ℤ := if d.negative then -d.coefficient else d.coefficient

def value (d : Decimal) : ℚ := d.signed * 10 ^ d.exponent

/-- Powers of ten are split where a natural number of digits is meant. -/
theorem zpow_eq_pow_mul {a b : ℤ} {n : ℕ} (h : a = n + b) : (10 : ℚ) ^ a = 10 ^ n * 10 ^ b := by
  rw [h, zpow_add₀ (by norm_num), zpow_natCast]

/-- The sign of a decimal says nothing about its size. -/
theorem abs_signed (d : Decimal) : |(d.signed : ℚ)| = d.coefficient := by
  unfold signed
  split <;> simp

/-- The size of a decimal is its coefficient at its exponent. -/
theorem abs_value (d : Decimal) : |d.value| = d.coefficient * 10 ^ d.exponent := by
  have hpow : (0 : ℚ) < 10 ^ d.exponent := by positivity
  rw [value, abs_mul, abs_signed, abs_of_pos hpow]

/-- Zero is written with coefficient zero, at any exponent. -/
theorem value_eq_zero_iff {d : Decimal} : d.value = 0 ↔ d.coefficient = 0 := by
  have hpow : (10 : ℚ) ^ d.exponent ≠ 0 := by positivity
  rw [← abs_eq_zero, abs_value, mul_eq_zero, or_iff_left hpow, Nat.cast_eq_zero]

/-- The product of coefficients at the sum of exponents is the product. -/
theorem value_product (a b : Decimal) :
    value ⟨a.negative != b.negative, a.coefficient * b.coefficient, a.exponent + b.exponent⟩
      = a.value * b.value := by
  have hsigned : signed ⟨a.negative != b.negative, a.coefficient * b.coefficient, a.exponent + b.exponent⟩
      = a.signed * b.signed := by
    unfold signed
    cases a.negative <;> cases b.negative <;> simp
  simp only [value, hsigned, Int.cast_mul, zpow_add₀ (by norm_num : (10 : ℚ) ≠ 0)]
  ring

/-- A coefficient has at most `p` digits exactly if it is below the power of ten that has one more. -/
theorem digitCount_le_iff {n p : Nat} (hp : 0 < p) : digitCount n ≤ p ↔ n < 10 ^ p := by
  constructor
  · intro h
    exact (lt_pow_digitCount n).trans_le (Nat.pow_le_pow_right (by decide) h)
  · intro h
    -- Zero has one digit, which is why there has to be room for one.
    rcases Nat.eq_zero_or_pos n with rfl | hn
    · rw [digitCount, if_pos (by decide)]
      exact hp
    · have hle : 10 ^ (digitCount n - 1) ≤ n := pow_digitCount_le hn.ne'
      have hlt : digitCount n - 1 < p := (Nat.pow_lt_pow_iff_right (by decide)).mp (hle.trans_lt h)
      omega

/-- The logarithm of a number is the place of its first digit. -/
theorem log_eq {x : ℚ} {e : ℤ} (low : 10 ^ e ≤ x) (high : x < 10 ^ (e + 1)) : Int.log 10 x = e := by
  -- A logarithm is the only exponent whose power reaches up to the number.
  have hx : 0 < x := lt_of_lt_of_le (by positivity) low
  have hle : e ≤ Int.log 10 x := (Int.zpow_le_iff_le_log (by decide) hx).mp (by exact_mod_cast low)
  have hlt : Int.log 10 x < e + 1 := (Int.lt_zpow_iff_log_lt (by decide) hx).mp (by exact_mod_cast high)
  omega

/-- A decimal is below the power of ten before its first digit. -/
theorem abs_value_lt (d : Decimal) : |d.value| < 10 ^ (d.adjustedExponent + 1) := by
  have hpow : (0 : ℚ) < 10 ^ d.exponent := by positivity
  have hhigh : (d.coefficient : ℚ) < 10 ^ digitCount d.coefficient := by
    exact_mod_cast lt_pow_digitCount d.coefficient
  have hsplit : (10 : ℚ) ^ (d.adjustedExponent + 1) = 10 ^ digitCount d.coefficient * 10 ^ d.exponent :=
    zpow_eq_pow_mul (by unfold adjustedExponent; omega)
  rw [abs_value, hsplit]
  exact mul_lt_mul_of_pos_right hhigh hpow

/-- A decimal other than zero reaches the power of ten at its first digit. -/
theorem le_abs_value {d : Decimal} (h : d.coefficient ≠ 0) : 10 ^ d.adjustedExponent ≤ |d.value| := by
  have hpow : (0 : ℚ) < 10 ^ d.exponent := by positivity
  have hcount := digitCount_pos d.coefficient
  have hlow : (10 : ℚ) ^ (digitCount d.coefficient - 1) ≤ d.coefficient := by
    exact_mod_cast pow_digitCount_le h
  have hsplit : (10 : ℚ) ^ d.adjustedExponent = 10 ^ (digitCount d.coefficient - 1) * 10 ^ d.exponent :=
    zpow_eq_pow_mul (by unfold adjustedExponent; omega)
  rw [abs_value, hsplit]
  exact mul_le_mul_of_nonneg_right hlow hpow.le

/-- The first digit of a decimal stands where it does in scientific notation. -/
theorem log_value {d : Decimal} (h : d.coefficient ≠ 0) : Int.log 10 |d.value| = d.adjustedExponent :=
  log_eq (le_abs_value h) d.abs_value_lt

/-! ### Rounding -/

/-- A number is the nearest one to another among the multiples of a power of ten, and the even one of two that
are equally near. -/
def RoundsAt (place : ℤ) (x y : ℚ) : Prop :=
  ∃ n : ℤ, y = n * 10 ^ place ∧ 2 * |x - y| ≤ 10 ^ place ∧ (2 * |x - y| = 10 ^ place → Even n)

/-- At most one multiple is the nearest one. -/
theorem RoundsAt.unique {place : ℤ} {x y z : ℚ} (hy : RoundsAt place x y) (hz : RoundsAt place x z) :
    y = z := by
  obtain ⟨n, rfl, hn, hneven⟩ := hy
  obtain ⟨m, rfl, hm, hmeven⟩ := hz
  generalize hu : (10 : ℚ) ^ place = u at *
  have hpos : 0 < u := hu ▸ by positivity
  have htriangle : |(n : ℚ) * u - m * u| ≤ |x - n * u| + |x - m * u| := by
    rw [abs_sub_comm x (n * u)]
    exact abs_sub_le _ _ _
  have hdist : |(n : ℚ) * u - m * u| = |((n - m : ℤ) : ℚ)| * u := by
    rw [← sub_mul, abs_mul, abs_of_pos hpos]
    push_cast
    rfl
  -- Both are within half a unit of the number, so they are at most one unit apart.
  have hnear : |((n - m : ℤ) : ℚ)| ≤ 1 := by
    have : |((n - m : ℤ) : ℚ)| * u ≤ 1 * u := by linarith
    exact le_of_mul_le_mul_right this hpos
  have hint : |n - m| ≤ 1 := by exact_mod_cast hnear
  rcases (abs_nonneg (n - m)).eq_or_lt with hzero | hone
  · rw [sub_eq_zero.mp (abs_eq_zero.mp hzero.symm)]
  · -- Two different multiples would both be half a unit away, and neighbours are not both even.
    have heq : |n - m| = 1 := by omega
    have hsum : |x - n * u| + |x - m * u| ≥ u := by
      have : |((n - m : ℤ) : ℚ)| = 1 := by exact_mod_cast heq
      rw [hdist, this, one_mul] at htriangle
      exact htriangle
    have hboth : Even (n - m) := (hneven (by linarith)).sub (hmeven (by linarith))
    rw [← even_abs, heq] at hboth
    exact absurd hboth (by decide)

/-- A multiple of the power is its own nearest one. -/
theorem roundsAt_self {place k n : ℤ} (h : place ≤ k) : RoundsAt place (n * 10 ^ k) (n * 10 ^ k) := by
  have hpos : (0 : ℚ) < 10 ^ place := by positivity
  have hsplit : (10 : ℚ) ^ k = 10 ^ (k - place).toNat * 10 ^ place := zpow_eq_pow_mul (by omega)
  refine ⟨n * 10 ^ (k - place).toNat, ?_, ?_⟩
  · rw [hsplit]
    push_cast
    ring
  · rw [sub_self, abs_zero, mul_zero]
    exact ⟨hpos.le, fun hhalf => absurd hhalf hpos.ne⟩

namespace Context

variable (ctx : Context)

/-- The place of the last digit that a context has room for; small numbers end at the same place. -/
def lastPlace (x : ℚ) : ℤ := max (Int.log 10 |x| + 1 - ctx.precision) ctx.tinyExponent

/-- A number is another one correctly rounded, half to even, with no regard to its largest exponent. -/
def Rounds (x y : ℚ) : Prop := RoundsAt (ctx.lastPlace x) x y

/-- A number has no more digits than a context, and its first digit is in range. -/
def Holds (x : ℚ) : Prop :=
  ∃ n k : ℤ, x = n * 10 ^ k ∧ |n| < 10 ^ ctx.precision
    ∧ (x ≠ 0 → ctx.minExponent ≤ Int.log 10 |x| ∧ Int.log 10 |x| ≤ ctx.maxExponent)

/-- A number is too large to be rounded. -/
def Overflows (x : ℚ) : Prop := ∃ y, ctx.Rounds x y ∧ 10 ^ (ctx.maxExponent + 1) ≤ |y|

variable {ctx} {x y : ℚ}

/-- A number that a context can hold ends at its last place already. -/
theorem Holds.rounds_self (h : ctx.Holds x) : ctx.Rounds x x := by
  obtain ⟨n, k, rfl, hn, hrange⟩ := h
  by_cases hzero : (n : ℚ) * 10 ^ k = 0
  · rw [Rounds, hzero]
    simpa using roundsAt_self (n := 0) (le_refl (ctx.lastPlace 0))
  · have hlog : Int.log 10 |(n : ℚ) * 10 ^ k| < ctx.precision + k := by
      have hpow : (0 : ℚ) < 10 ^ k := by positivity
      have hlt : |(n : ℚ)| < 10 ^ ctx.precision := by exact_mod_cast hn
      refine (Int.lt_zpow_iff_log_lt (by decide) (abs_pos.mpr hzero)).mp ?_
      rw [abs_mul, abs_of_pos hpow, Nat.cast_ofNat, zpow_eq_pow_mul rfl]
      exact mul_lt_mul_of_pos_right hlt hpow
    have hmin := (hrange hzero).1
    -- The last place is not behind the exponent, because the digits fit and the range is kept.
    refine roundsAt_self (max_le ?_ ?_)
    · omega
    · rw [tinyExponent]
      omega

/-- A number that can be held is left as it is. -/
theorem Rounds.eq_of_holds (h : ctx.Rounds x y) (holds : ctx.Holds x) : y = x :=
  RoundsAt.unique h holds.rounds_self

/-- A number that a context can hold is not too large for it. -/
theorem Holds.not_overflows (h : ctx.Holds x) : ¬ ctx.Overflows x := by
  rintro ⟨y, hrounds, hlarge⟩
  obtain rfl := hrounds.eq_of_holds h
  have hy : 0 < |y| := lt_of_lt_of_le (by positivity) hlarge
  have hlog : ctx.maxExponent + 1 ≤ Int.log 10 |y| :=
    (Int.zpow_le_iff_le_log (by decide) hy).mp (by exact_mod_cast hlarge)
  have hmax := (h.choose_spec.choose_spec.2.2 (abs_pos.mp hy)).2
  omega

end Context

/-! ### Dropping digits -/

/-- A quotient is rounded to the nearest number, and to the even one of two that are equally near. -/
theorem roundQuotient_spec {n m : Nat} (hm : 0 < m) :
    2 * |(n : ℤ) - roundQuotient n m * m| ≤ m
      ∧ (2 * |(n : ℤ) - roundQuotient n m * m| = m → Even (roundQuotient n m)) := by
  have hdiv := Nat.div_add_mod n m
  have hmod := Nat.mod_lt n hm
  unfold roundQuotient
  -- Only the equation between quotient and remainder matters from here on.
  generalize n / m = q at *
  generalize n % m = rem at *
  dsimp only
  split
  · next hup =>
    have herror : (n : ℤ) - (q + 1 : ℕ) * m = rem - m := by
      rw [← hdiv]
      push_cast
      ring
    rw [herror, abs_of_nonpos (by omega)]
    exact ⟨by omega, fun htie => Nat.even_iff.mpr (by omega)⟩
  · next hdown =>
    have herror : (n : ℤ) - q * m = rem := by
      rw [← hdiv]
      push_cast
      ring
    rw [herror, Nat.abs_cast]
    exact ⟨by omega, fun htie => Nat.even_iff.mpr (by omega)⟩

/-- Digits are dropped by rounding a quotient, also where all of them are dropped at once. -/
theorem dropDigits_spec (n k : Nat) :
    2 * |(n : ℤ) - dropDigits n k * 10 ^ k| ≤ 10 ^ k
      ∧ (2 * |(n : ℤ) - dropDigits n k * 10 ^ k| = 10 ^ k → Even (dropDigits n k)) := by
  unfold dropDigits
  split
  · next hfew =>
    -- The number is below a tenth of the unit.
    have hlt : n < 10 ^ (k - 1) := (lt_pow_digitCount n).trans_le (Nat.pow_le_pow_right (by decide) (by omega))
    have hpow : 10 ^ (k - 1) * 10 = 10 ^ k := by rw [← pow_succ, Nat.sub_add_cancel (by omega)]
    have hsmall : 2 * (n : ℤ) < 10 ^ k := by
      have : 2 * n < 10 ^ k := by omega
      exact_mod_cast this
    simp only [Nat.cast_zero, zero_mul, sub_zero, Nat.abs_cast]
    exact ⟨hsmall.le, fun htie => absurd htie hsmall.ne⟩
  · have hspec := roundQuotient_spec (n := n) (m := 10 ^ k) (by positivity)
    push_cast at hspec
    exact hspec

/-- Digits are dropped by rounding to the place of the last one that is kept. -/
theorem roundsAt_dropDigits (d : Decimal) (k : Nat) :
    RoundsAt (d.exponent + k) d.value
      (value ⟨d.negative, dropDigits d.coefficient k, d.exponent + k⟩) := by
  obtain ⟨hnear, htie⟩ := dropDigits_spec d.coefficient k
  obtain ⟨negative, n, e⟩ := d
  dsimp only at hnear htie ⊢
  generalize dropDigits n k = q at *
  have hpow : (0 : ℚ) < 10 ^ e := by positivity
  have hunit : (10 : ℚ) ^ (e + k) = 10 ^ k * 10 ^ e := zpow_eq_pow_mul (add_comm e k)
  -- The error is that of the coefficients at the old exponent; the sign does not count.
  have herror : |value ⟨negative, n, e⟩ - value ⟨negative, q, e + k⟩|
      = ((|(n : ℤ) - q * 10 ^ k| : ℤ) : ℚ) * 10 ^ e := by
    have hsign : value ⟨negative, n, e⟩ - value ⟨negative, q, e + k⟩
        = (if negative then -1 else 1) * (((n : ℤ) - q * 10 ^ k : ℤ) : ℚ) * 10 ^ e := by
      simp only [value, signed, hunit]
      split <;> push_cast <;> ring
    rw [hsign, abs_mul, abs_mul, abs_of_pos hpow, Int.cast_abs]
    split <;> simp
  refine ⟨signed ⟨negative, q, e + k⟩, rfl, ?_, fun hhalf => ?_⟩
  · rw [herror, hunit, ← mul_assoc]
    refine mul_le_mul_of_nonneg_right ?_ hpow.le
    exact_mod_cast hnear
  · rw [herror, hunit, ← mul_assoc] at hhalf
    have heven : Even q := htie (by exact_mod_cast mul_right_cancel₀ hpow.ne' hhalf)
    unfold signed
    split
    · exact (Int.even_coe_nat q).mpr heven |>.neg
    · exact (Int.even_coe_nat q).mpr heven

/-- To drop no digit changes nothing. -/
theorem dropDigits_zero (n : Nat) : dropDigits n 0 = n := by
  simp [dropDigits, roundQuotient, Nat.mod_one]

/-- Rounding carries at most to the next power of ten. -/
theorem dropDigits_le {n k p : Nat} (h : digitCount n ≤ p + k) : dropDigits n k ≤ 10 ^ p := by
  obtain ⟨hnear, -⟩ := dropDigits_spec n k
  have hn : n < 10 ^ p * 10 ^ k := by
    rw [← pow_add]
    exact (lt_pow_digitCount n).trans_le (Nat.pow_le_pow_right (by decide) h)
  -- What is kept exceeds the number by half a unit at most.
  have hlow := neg_abs_le ((n : ℤ) - dropDigits n k * 10 ^ k)
  have hlt : 2 * dropDigits n k * 10 ^ k < (2 * 10 ^ p + 1) * 10 ^ k := by
    have hn' : (n : ℤ) < 10 ^ p * 10 ^ k := by exact_mod_cast hn
    have : 2 * (dropDigits n k : ℤ) * 10 ^ k < (2 * 10 ^ p + 1) * 10 ^ k := by linarith
    exact_mod_cast this
  have := lt_of_mul_lt_mul_right hlt (by positivity)
  omega

/-- Rounding leaves the first digit. -/
theorem le_dropDigits {n k p : Nat} (h : n ≠ 0) (hcount : p + k < digitCount n) :
    10 ^ p ≤ dropDigits n k := by
  obtain ⟨hnear, -⟩ := dropDigits_spec n k
  have hn : 10 ^ p * 10 ^ k ≤ n := by
    rw [← pow_add]
    exact (Nat.pow_le_pow_right (by decide) (by omega)).trans (pow_digitCount_le h)
  -- What is kept falls short of the number by half a unit at most.
  have hhigh := le_abs_self ((n : ℤ) - dropDigits n k * 10 ^ k)
  have hle : 2 * 10 ^ p * 10 ^ k ≤ (2 * dropDigits n k + 1) * 10 ^ k := by
    have hn' : (10 : ℤ) ^ p * 10 ^ k ≤ n := by exact_mod_cast hn
    have : 2 * (10 : ℤ) ^ p * 10 ^ k ≤ (2 * dropDigits n k + 1) * 10 ^ k := by linarith
    exact_mod_cast this
  have := le_of_mul_le_mul_right hle (by positivity)
  omega

/-! ### Fitting -/

/-- The number of digits of a decimal that a context has no room for. -/
def excess (ctx : Context) (d : Decimal) : Nat :=
  max (digitCount d.coefficient - ctx.precision) (ctx.tinyExponent - d.exponent).toNat

/-- A decimal without its excess digits, with no regard to the largest exponent. -/
def rounded (ctx : Context) (d : Decimal) : Decimal :=
  let kept := dropDigits d.coefficient (d.excess ctx)
  if ctx.precision < digitCount kept then ⟨d.negative, kept / 10, d.exponent + d.excess ctx + 1⟩
  else ⟨d.negative, kept, d.exponent + d.excess ctx⟩

/-- A zero has no digits to round, only its exponent is brought into range. -/
theorem fit_of_zero {ctx : Context} {d : Decimal} (h : d.coefficient = 0) :
    fit ctx d = .ok { d with exponent := max ctx.tinyExponent (min d.exponent ctx.maxExponent) } := by
  rw [fit, if_pos h]

/-- Any other decimal is rounded, and then it may be too large. -/
theorem fit_of_ne_zero {ctx : Context} {d : Decimal} (h : d.coefficient ≠ 0) :
    fit ctx d = if ctx.maxExponent < (d.rounded ctx).adjustedExponent then .error .overflow
      else .ok (d.rounded ctx) := by
  rw [fit, if_neg h]
  rfl

/-- A context that keeps a digit and has a range. -/
structure Context.Valid (ctx : Context) : Prop where
  precision : 0 < ctx.precision
  range : ctx.minExponent ≤ ctx.maxExponent

/-- A decimal that fits into a context as it is written. -/
structure Fits (ctx : Context) (d : Decimal) : Prop where
  digits : digitCount d.coefficient ≤ ctx.precision
  tiny : ctx.tinyExponent ≤ d.exponent
  large : d.adjustedExponent ≤ ctx.maxExponent

section Fitting

variable {ctx : Context} {d : Decimal}

/-- Zero counts as one digit. -/
theorem adjustedExponent_of_zero (h : d.coefficient = 0) : d.adjustedExponent = d.exponent := by
  rw [adjustedExponent, h, digitCount, if_pos (by decide)]
  omega

/-- What fits is left as it is, its writing included. -/
theorem Fits.fit_eq (h : d.Fits ctx) : fit ctx d = .ok d := by
  obtain ⟨hdigits, htiny, hlarge⟩ := h
  by_cases hzero : d.coefficient = 0
  · rw [adjustedExponent_of_zero hzero] at hlarge
    rw [fit_of_zero hzero, min_eq_left hlarge, max_eq_right htiny]
  · -- There is neither a digit too many nor a place too low.
    have hexcess : d.excess ctx = 0 := by
      unfold excess
      omega
    have hrounded : d.rounded ctx = d := by
      simp only [rounded, hexcess, dropDigits_zero, if_neg (Nat.not_lt.mpr hdigits)]
      simp
    rw [fit_of_ne_zero hzero, hrounded, if_neg (Int.not_lt.mpr hlarge)]

/-- A coefficient that has too many digits after rounding is the next power of ten. -/
theorem kept_of_carry (valid : ctx.Valid)
    (carry : ctx.precision < digitCount (dropDigits d.coefficient (d.excess ctx))) :
    dropDigits d.coefficient (d.excess ctx) = 10 ^ ctx.precision := by
  have hcount : digitCount d.coefficient ≤ ctx.precision + d.excess ctx := by
    unfold excess
    omega
  have hle := dropDigits_le hcount
  have hge := (digitCount_le_iff valid.precision).not.mp (Nat.not_le.mpr carry)
  omega

/-- The step that shortens a carry does not change the number. -/
theorem value_rounded (valid : ctx.Valid) : (d.rounded ctx).value
    = value ⟨d.negative, dropDigits d.coefficient (d.excess ctx), d.exponent + d.excess ctx⟩ := by
  unfold rounded
  dsimp only
  split
  · next carry =>
    -- The last digit of a power of ten is a zero.
    obtain ⟨p, hp⟩ := Nat.exists_eq_succ_of_ne_zero valid.precision.ne'
    rw [kept_of_carry valid carry, hp, pow_succ, Nat.mul_div_cancel _ (by decide)]
    simp only [value, signed, zpow_add_one₀ (by norm_num : (10 : ℚ) ≠ 0)]
    split <;> push_cast <;> ring
  · rfl

/-- A decimal without its excess digits is correctly rounded. -/
theorem rounds_rounded (valid : ctx.Valid) (h : d.coefficient ≠ 0) :
    ctx.Rounds d.value (d.rounded ctx).value := by
  have hplace : ctx.lastPlace d.value = max (d.adjustedExponent + 1 - ctx.precision) ctx.tinyExponent := by
    rw [Context.lastPlace, log_value h]
  rw [value_rounded valid, Context.Rounds]
  by_cases hexcess : d.excess ctx = 0
  · -- No digit stands behind the last place, so nothing is rounded.
    have hle : ctx.lastPlace d.value ≤ d.exponent := by
      rw [hplace]
      unfold adjustedExponent
      unfold excess at hexcess
      omega
    rw [hexcess, dropDigits_zero, Nat.cast_zero, add_zero]
    exact roundsAt_self hle
  · -- The digits that are kept end at the last place.
    have heq : ctx.lastPlace d.value = d.exponent + d.excess ctx := by
      rw [hplace]
      unfold adjustedExponent
      unfold excess at hexcess ⊢
      omega
    rw [heq]
    exact roundsAt_dropDigits d _

/-- What is rounded fits unless it is too large. -/
theorem fits_rounded (valid : ctx.Valid) (large : (d.rounded ctx).adjustedExponent ≤ ctx.maxExponent) :
    (d.rounded ctx).Fits ctx := by
  refine ⟨?_, ?_, large⟩
  · unfold rounded
    dsimp only
    split
    · -- The carried digit has been shortened away, which leaves as many digits as there is room for.
      next carry =>
      obtain ⟨p, hp⟩ := Nat.exists_eq_succ_of_ne_zero valid.precision.ne'
      rw [kept_of_carry valid carry, digitCount_le_iff valid.precision, hp, pow_succ,
        Nat.mul_div_cancel _ (by decide)]
      exact lt_mul_of_one_lt_right (by positivity) (by decide)
    · next fits => exact Nat.not_lt.mp fits
  · unfold rounded excess
    dsimp only
    split <;> dsimp only <;> omega

/-- A number that is rounded to zero is none that is too large. -/
theorem coefficient_rounded_ne_zero (valid : ctx.Valid) (h : d.coefficient ≠ 0)
    (large : ctx.maxExponent < (d.rounded ctx).adjustedExponent) : (d.rounded ctx).coefficient ≠ 0 := by
  intro hzero
  rw [adjustedExponent_of_zero hzero] at large
  unfold rounded at hzero large
  dsimp only at hzero large
  split at hzero
  · next carry =>
    rw [kept_of_carry valid carry] at hzero
    have hten : 10 ≤ 10 ^ ctx.precision := Nat.le_self_pow valid.precision.ne' 10
    dsimp only at hzero
    omega
  · next fits =>
    rw [if_neg fits] at large
    -- A digit is left of a number with more digits than are dropped, so these were dropped for being too small.
    have hfew : ¬ 0 + d.excess ctx < digitCount d.coefficient := fun hcount => by
      have := le_dropDigits h hcount
      dsimp only at hzero
      omega
    have hcount := digitCount_pos d.coefficient
    have hrange := valid.range
    have hprecision := valid.precision
    unfold excess at hfew large
    unfold Context.tinyExponent at hfew large
    dsimp only at large
    omega

/-- Rounding leaves the sign. -/
theorem negative_rounded (ctx : Context) (d : Decimal) : (d.rounded ctx).negative = d.negative := by
  unfold rounded
  dsimp only
  split <;> rfl

/-- A decimal is another one with its sign, rounded to what a context has room for. -/
structure FittedTo (ctx : Context) (d r : Decimal) : Prop where
  fits : r.Fits ctx
  negative : r.negative = d.negative
  rounds : ctx.Rounds d.value r.value
  small : ¬ ctx.Overflows d.value

/-- A zero with an exponent in range is fitted. -/
theorem fittedTo_of_zero (valid : ctx.Valid) (h : d.coefficient = 0) :
    FittedTo ctx d { d with exponent := max ctx.tinyExponent (min d.exponent ctx.maxExponent) } := by
  have hvalue : d.value = 0 := value_eq_zero_iff.mpr h
  have holds : ctx.Holds 0 := ⟨0, 0, by simp, by simp, by simp⟩
  let r : Decimal := { d with exponent := max ctx.tinyExponent (min d.exponent ctx.maxExponent) }
  have hr : r.value = 0 := value_eq_zero_iff.mpr h
  refine ⟨⟨?_, le_max_left _ _, ?_⟩, rfl, ?_, hvalue ▸ holds.not_overflows⟩
  · rw [digitCount_le_iff valid.precision]
    exact h ▸ by positivity
  · -- A zero has one digit, so its exponent is where its digit stands.
    have hadjusted : r.adjustedExponent = r.exponent := adjustedExponent_of_zero h
    have hrange := valid.range
    have hprecision := valid.precision
    rw [hadjusted]
    show max ctx.tinyExponent (min d.exponent ctx.maxExponent) ≤ ctx.maxExponent
    unfold Context.tinyExponent
    omega
  · rw [hr, hvalue]
    exact holds.rounds_self

/-- A rounded decimal that is in range is fitted. -/
theorem fittedTo_rounded (valid : ctx.Valid) (h : d.coefficient ≠ 0)
    (large : (d.rounded ctx).adjustedExponent ≤ ctx.maxExponent) : FittedTo ctx d (d.rounded ctx) := by
  have hrounds := rounds_rounded valid h
  refine ⟨fits_rounded valid large, negative_rounded ctx d, hrounds, ?_⟩
  rintro ⟨y, hy, hle⟩
  -- There is only one rounded number, and it is in range.
  obtain rfl := RoundsAt.unique hrounds hy
  have hlt : |(d.rounded ctx).value| < 10 ^ (ctx.maxExponent + 1) :=
    (abs_value_lt _).trans_le (zpow_le_zpow_right₀ (by norm_num) (by omega))
  exact absurd hlt (not_lt.mpr hle)

/-- A decimal whose rounding is out of range writes a number that is too large. -/
theorem overflows_of_large (valid : ctx.Valid) (h : d.coefficient ≠ 0)
    (large : ctx.maxExponent < (d.rounded ctx).adjustedExponent) : ctx.Overflows d.value := by
  refine ⟨_, rounds_rounded valid h, ?_⟩
  calc (10 : ℚ) ^ (ctx.maxExponent + 1)
      ≤ 10 ^ (d.rounded ctx).adjustedExponent := zpow_le_zpow_right₀ (by norm_num) large
    _ ≤ |(d.rounded ctx).value| := le_abs_value (coefficient_rounded_ne_zero valid h large)

/-- A decimal is fitted into a context, or is too large. -/
theorem fit_cases (valid : ctx.Valid) (d : Decimal) :
    (∃ r, fit ctx d = .ok r ∧ FittedTo ctx d r) ∨ fit ctx d = .error .overflow ∧ ctx.Overflows d.value := by
  by_cases h : d.coefficient = 0
  · exact .inl ⟨_, fit_of_zero h, fittedTo_of_zero valid h⟩
  · rw [fit_of_ne_zero h]
    split
    · next large => exact .inr ⟨rfl, overflows_of_large valid h large⟩
    · next small => exact .inl ⟨_, rfl, fittedTo_rounded valid h (Int.not_lt.mp small)⟩

end Fitting

/-- The context in which amounts are computed is one in which rounding works. -/
theorem Context.valid_amounts : Context.amounts.Valid := ⟨by decide, by decide⟩

end Decimal

end ChainWallet
