import ChainWallet.Decimal.Order
import ChainWallet.Proofs.Decimal.Rounding
import Mathlib.Order.WithBot

/-!
# The order of decimals is that of the numbers they write

Decimals are compared by the place of their first digit, and only where that is the same by their digits. This
comes to comparing the numbers, whatever the writings.

* **`magnitudeOrder_eq_lt_iff`**, **`order_eq_lt_iff`** — of decimals one comes before another exactly if its
  number is smaller.
* **`Numeral.level?`** — the place of a numeral among the numbers and the two infinities; a NaN has none.
* **`Numeral.lt?_eq`** — so numerals are compared by their places, and not at all if one has none.
-/

namespace ChainWallet

namespace Decimal

variable {a b : Decimal}

/-- A number is its magnitude with its sign. -/
theorem value_eq_abs (d : Decimal) : d.value = if d.negative then -|d.value| else |d.value| := by
  rw [abs_value]
  unfold value signed
  split <;> push_cast <;> ring

/-- Scaled to an exponent that is not larger, the coefficient of a decimal writes its magnitude. -/
theorem abs_value_eq_scaled (d : Decimal) {common : ℤ} (h : common ≤ d.exponent) :
    |d.value| = (d.coefficient * Nat.pow 10 (d.exponent - common).toNat : ℕ) * (10 : ℚ) ^ common := by
  have hsplit : (10 : ℚ) ^ d.exponent = 10 ^ (d.exponent - common).toNat * 10 ^ common :=
    zpow_eq_pow_mul (by omega)
  rw [abs_value, hsplit, ← mul_assoc, Nat.cast_mul, Nat.pow_eq, Nat.cast_pow, Nat.cast_ofNat]

/-- A magnitude whose first digit stands further behind is smaller. -/
theorem abs_value_lt_of_adjusted_lt (hb : b.coefficient ≠ 0) (h : a.adjustedExponent < b.adjustedExponent) :
    |a.value| < |b.value| :=
  calc |a.value| < 10 ^ (a.adjustedExponent + 1) := a.abs_value_lt
    _ ≤ 10 ^ b.adjustedExponent := zpow_le_zpow_right₀ (by norm_num) (by omega)
    _ ≤ |b.value| := le_abs_value hb

/-- Magnitudes are compared as numbers. -/
theorem magnitudeOrder_eq_lt_iff (ha : a.coefficient ≠ 0) (hb : b.coefficient ≠ 0) :
    magnitudeOrder a b = .lt ↔ |a.value| < |b.value| := by
  unfold magnitudeOrder
  rcases lt_trichotomy a.adjustedExponent b.adjustedExponent with hlt | heq | hgt
  · rw [Int.compare_eq_lt.mpr hlt]
    exact iff_of_true rfl (abs_value_lt_of_adjusted_lt hb hlt)
  · -- The first digits stand at one place, so the coefficients decide.
    have hpow : (0 : ℚ) < 10 ^ min a.exponent b.exponent := by positivity
    rw [Int.compare_eq_eq.mpr heq, abs_value_eq_scaled a (min_le_left _ _),
      abs_value_eq_scaled b (min_le_right _ _), mul_lt_mul_iff_left₀ hpow, Nat.cast_lt]
    exact Nat.compare_eq_lt
  · rw [Int.compare_eq_gt.mpr hgt]
    exact iff_of_false nofun (abs_value_lt_of_adjusted_lt ha hgt).not_gt

/-- Decimals are compared as numbers, so that writings of one number are equal, and so are `0` and `-0`. -/
theorem order_eq_lt_iff (a b : Decimal) : a.order b = .lt ↔ a.value < b.value := by
  have hzero : ∀ {d : Decimal}, (d.coefficient == 0) = true → |d.value| = 0 := fun h =>
    abs_eq_zero.mpr (value_eq_zero_iff.mpr (beq_iff_eq.mp h))
  have hpos : ∀ {d : Decimal}, (d.coefficient == 0) = false → 0 < |d.value| := fun h =>
    abs_pos.mpr (value_eq_zero_iff.not.mpr (beq_eq_false_iff_ne.mp h))
  rw [value_eq_abs a, value_eq_abs b]
  unfold order
  -- A zero has no sign here; where neither is zero the signs are compared before the magnitudes.
  cases ha : a.coefficient == 0 <;> cases hb : b.coefficient == 0 <;> dsimp only
  · have hmagnitudes := magnitudeOrder_eq_lt_iff (beq_eq_false_iff_ne.mp ha) (beq_eq_false_iff_ne.mp hb)
    have hreversed := magnitudeOrder_eq_lt_iff (beq_eq_false_iff_ne.mp hb) (beq_eq_false_iff_ne.mp ha)
    have hapos := hpos ha
    have hbpos := hpos hb
    cases a.negative <;> cases b.negative <;> dsimp only
    · simpa using hmagnitudes
    · exact iff_of_false nofun (by simp; linarith)
    · exact iff_of_true rfl (by simp; linarith)
    · simpa using hreversed
  · have hapos := hpos ha
    rw [hzero hb]
    cases a.negative <;> simp [hapos, hapos.le]
  · have hbpos := hpos hb
    rw [hzero ha]
    cases b.negative <;> simp [hbpos, hbpos.le]
  · simp [hzero ha, hzero hb]

end Decimal

namespace Numeral

/-- The place of a numeral among the numbers with an infinity at either end; a NaN has none. -/
def level? : Numeral → Option (WithBot (WithTop ℚ))
  | finite d => some (WithBot.some (WithTop.some d.value))
  | infinite true => some ⊥
  | infinite false => some ⊤
  | nan .. => none

/-- Only a NaN has no place. -/
theorem level?_eq_none_iff {v : Numeral} : v.level? = none ↔ v.isNaN = true := by
  match v with
  | finite _ | infinite true | infinite false | nan .. => simp [level?, isNaN]

/-- Numerals are compared by their places; a NaN is not comparable. -/
theorem lt?_eq (v w : Numeral) : v.lt? w = match v.level?, w.level? with
    | some x, some y => .ok (decide (x < y))
    | _, _ => .error .invalidOperation := by
  match v, w with
  | nan .., _ => rfl
  | finite _, nan .. | infinite true, nan .. | infinite false, nan .. => rfl
  | finite a, finite b =>
    -- Between numbers nothing changes when the infinities are added.
    have hcoe : ((a.value : WithTop ℚ) : WithBot (WithTop ℚ)) < ((b.value : WithTop ℚ) : WithBot (WithTop ℚ))
        ↔ a.order b = .lt := by
      rw [WithBot.coe_lt_coe, WithTop.coe_lt_coe, Decimal.order_eq_lt_iff]
    refine congrArg Except.ok (Bool.eq_iff_iff.mpr ?_)
    rw [beq_iff_eq, decide_eq_true_iff]
    exact hcoe.symm
  | finite a, infinite true => exact congrArg Except.ok (decide_eq_false not_lt_bot).symm
  | finite a, infinite false =>
    have hlt : ((a.value : WithTop ℚ) : WithBot (WithTop ℚ)) < ⊤ :=
      WithBot.coe_lt_coe.mpr (WithTop.coe_lt_top a.value)
    exact congrArg Except.ok (decide_eq_true hlt).symm
  | infinite true, finite b => exact congrArg Except.ok (decide_eq_true (WithBot.bot_lt_coe _)).symm
  | infinite false, finite b => exact congrArg Except.ok (decide_eq_false not_top_lt).symm
  | infinite true, infinite false => exact congrArg Except.ok (decide_eq_true bot_lt_top).symm
  | infinite true, infinite true => exact congrArg Except.ok (decide_eq_false (lt_irrefl _)).symm
  | infinite false, infinite true => exact congrArg Except.ok (decide_eq_false not_lt_bot).symm
  | infinite false, infinite false => exact congrArg Except.ok (decide_eq_false (lt_irrefl _)).symm

end Numeral

end ChainWallet
