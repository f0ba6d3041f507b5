import ChainWallet.Proofs.Decimal.PlainText

/-!
# The text of an amount is canonical

Amounts are compared, stored and shown as texts, so an amount should have one text, whatever its writing.

* **`stripZeros_eq_iff`** — of the writings of a number with a sign just one has no zero that can be left out.
* **`Canonical`**, **`canonical_toPlainText`** — the form of a text without superfluous digits.
* **`Fits.fittedTo`** — rounding what has been rounded changes nothing, also where it has another writing.
* **`shown_canonically`** — the text of an amount has this form and is read as the rounded amount; two amounts
  have one text exactly if their rounded amounts have one sign and one value, and the text of what is read is
  the same text again.
-/

namespace ChainWallet

open Text Numeral

namespace Decimal

/-! ### The shortest writing is the only one -/

/-- Leaving out zeros keeps the sign. -/
theorem negative_stripZeros (d : Decimal) : d.stripZeros.negative = d.negative := by
  fun_induction stripZeros d with
  | case1 => rfl
  | case2 d hne hlast ih => exact ih
  | case3 => rfl

/-- A decimal whose writing has no zero at the end that could be left out. -/
def Stripped (d : Decimal) : Prop :=
  if d.coefficient = 0 then d.exponent = 0 else d.coefficient % 10 ≠ 0

/-- By induction on the zeros that are left out: no more can be left out at the end. -/
theorem stripped_stripZeros (d : Decimal) : d.stripZeros.Stripped := by
  fun_induction stripZeros d with
  | case1 d hzero =>
    unfold Stripped
    rw [if_pos hzero]
  | case2 d hne hlast ih => exact ih
  | case3 d hne hlast =>
    unfold Stripped
    rw [if_neg hne]
    exact hlast

/-- Of two writings of a magnitude the one with the smaller exponent has zeros at the end of its coefficient. -/
theorem coefficient_eq_of_abs_value_eq {a b : Decimal} (hvalue : |a.value| = |b.value|)
    (hle : a.exponent ≤ b.exponent) :
    a.coefficient = b.coefficient * 10 ^ (b.exponent - a.exponent).toNat := by
  have hpow : (10 : ℚ) ^ a.exponent ≠ 0 := by positivity
  have hsplit : (10 : ℚ) ^ b.exponent = 10 ^ (b.exponent - a.exponent).toNat * 10 ^ a.exponent :=
    zpow_eq_pow_mul (by omega)
  rw [abs_value, abs_value, hsplit, ← mul_assoc] at hvalue
  exact_mod_cast mul_right_cancel₀ hpow hvalue

/-- Of two writings of a magnitude without superfluous zeros neither has the smaller exponent. -/
theorem Stripped.exponent_le {a b : Decimal} (ha : a.Stripped) (hb : b.Stripped)
    (hvalue : |a.value| = |b.value|) : b.exponent ≤ a.exponent := by
  by_contra hlt
  have hcoefficient := coefficient_eq_of_abs_value_eq hvalue (by omega)
  obtain ⟨k, hk⟩ : ∃ k, (b.exponent - a.exponent).toNat = k + 1 :=
    ⟨(b.exponent - a.exponent).toNat - 1, by omega⟩
  rw [hk, pow_succ, ← mul_assoc] at hcoefficient
  unfold Stripped at ha hb
  -- A zero has exponent zero, and any other number would end with a zero.
  by_cases hzero : a.coefficient = 0
  · have hbzero : b.coefficient = 0 := by
      rw [← value_eq_zero_iff, ← abs_eq_zero, ← hvalue, abs_eq_zero, value_eq_zero_iff, hzero]
    rw [if_pos hzero] at ha
    rw [if_pos hbzero] at hb
    omega
  · rw [if_neg hzero, hcoefficient] at ha
    exact ha (Nat.mul_mod_left _ _)

/-- A number with a sign has one shortest writing. -/
theorem Stripped.eq {a b : Decimal} (ha : a.Stripped) (hb : b.Stripped) (hsign : a.negative = b.negative)
    (hvalue : a.value = b.value) : a = b := by
  have habs : |a.value| = |b.value| := by rw [hvalue]
  have hexponent : a.exponent = b.exponent := le_antisymm (hb.exponent_le ha habs.symm) (ha.exponent_le hb habs)
  have hcoefficient : a.coefficient = b.coefficient := by
    have := coefficient_eq_of_abs_value_eq habs hexponent.le
    rwa [hexponent, sub_self, Int.toNat_zero, pow_zero, mul_one] at this
  obtain ⟨_, _, _⟩ := a
  obtain ⟨_, _, _⟩ := b
  simp_all

/-- Two decimals have one shortest writing exactly if they have one sign and one value; `0` and `-0` have not. -/
theorem stripZeros_eq_iff {a b : Decimal} :
    a.stripZeros = b.stripZeros ↔ a.negative = b.negative ∧ a.value = b.value := by
  constructor
  · intro h
    rw [← negative_stripZeros a, ← negative_stripZeros b, ← value_stripZeros a, ← value_stripZeros b, h]
    exact ⟨rfl, rfl⟩
  · rintro ⟨hsign, hvalue⟩
    refine a.stripped_stripZeros.eq b.stripped_stripZeros ?_ ?_
    · rw [negative_stripZeros, negative_stripZeros, hsign]
    · rw [value_stripZeros, value_stripZeros, hvalue]

/-- Spelling zeros out keeps the sign. -/
theorem negative_spelledOut (d : Decimal) : d.spelledOut.negative = d.negative := by
  unfold spelledOut
  split <;> rfl

/-! ### The form of texts -/

/-- The digits of a whole number: they begin with a zero only if it is the only one. -/
structure IsWhole (ds : List Char) : Prop where
  digits : ∀ c ∈ ds, isAsciiDigit c = true
  nonempty : ds ≠ []
  first : ds.head? = some '0' → ds = ['0']

/-- The digits behind a point: they do not end with a zero. -/
structure IsFraction (ds : List Char) : Prop where
  digits : ∀ c ∈ ds, isAsciiDigit c = true
  nonempty : ds ≠ []
  last : ds.getLast? ≠ some '0'

/-- A text is a number without an exponent or a superfluous digit: a minus or nothing, a whole number and, unless
that is all, a point with a fraction. -/
inductive Canonical : List Char → Prop where
  | whole (negative : Bool) {ds : List Char} (whole : IsWhole ds) : Canonical (signText negative ++ ds)
  | point (negative : Bool) {ds fs : List Char} (whole : IsWhole ds) (fraction : IsFraction fs) :
      Canonical (signText negative ++ (ds ++ '.' :: fs))

theorem isAsciiDigit_digits (n : Nat) : ∀ c ∈ digits n, isAsciiDigit c = true :=
  isAsciiDigit_of_natOfDigits? (natOfDigits?_digits n)

/-- Every number has a digit. -/
theorem digits_ne_nil (n : Nat) : digits n ≠ [] :=
  (natOfDigits?_eq_some_iff.mp (natOfDigits?_digits n)).1

theorem digits_of_lt {n : Nat} (h : n < 10) : digits n = [n.digitChar] :=
  Nat.toDigits_of_lt_base h

/-- The last digit of a number is the remainder by ten, and the others are those of the quotient. -/
theorem digits_of_le {n : Nat} (h : 10 ≤ n) : digits n = digits (n / 10) ++ [(n % 10).digitChar] :=
  Nat.toDigits_of_base_le (by decide) h

/-- Only zero is written by the digit zero. -/
theorem digitChar_ne_zero {n : Nat} (h : n < 10) (hne : n ≠ 0) : n.digitChar ≠ '0' := by
  interval_cases n <;> simp_all

/-- A number that is not zero does not begin with a zero. -/
theorem head_digits {n : Nat} (h : n ≠ 0) : (digits n).head? ≠ some '0' := by
  -- The first digit of a longer number is that of its quotient by ten.
  fun_induction digitCount n with
  | case1 n hlt =>
    rw [digits_of_lt hlt]
    simpa using digitChar_ne_zero hlt h
  | case2 n hge ih =>
    rw [digits_of_le (Nat.le_of_not_lt hge), List.head?_append_of_ne_nil _ (digits_ne_nil (n / 10))]
    exact ih (by omega)

/-- The last digit of a number is its remainder by ten. -/
theorem getLast_digits (n : Nat) : (digits n).getLast? = some (n % 10).digitChar := by
  by_cases h : n < 10
  · rw [digits_of_lt h, Nat.mod_eq_of_lt h]
    rfl
  · rw [digits_of_le (Nat.le_of_not_lt h), List.getLast?_append]
    rfl

/-- A number that is not zero begins with no zero, also with digits behind it or with only some of its digits. -/
theorem isWhole_of_head {n : Nat} (h : n ≠ 0) {ds : List Char} (hds : ∀ c ∈ ds, isAsciiDigit c = true)
    (hhead : ds.head? = (digits n).head?) : IsWhole ds := by
  have hne : ds ≠ [] := by
    rintro rfl
    exact digits_ne_nil n (List.head?_eq_none_iff.mp hhead.symm)
  exact ⟨hds, hne, fun hzero => absurd (hhead ▸ hzero) (head_digits h)⟩

/-- A zero may stand alone. -/
theorem isWhole_zero : IsWhole ['0'] :=
  ⟨fun c hc => by rw [List.mem_singleton.mp hc]; decide, List.cons_ne_nil _ _, fun _ => rfl⟩

/-- Without superfluous zeros behind the point, a point before the last digits leaves a canonical text. -/
theorem canonical_withPoint (negative : Bool) {n : Nat} (hlast : n % 10 ≠ 0) {places : Nat}
    (hplaces : places ≠ 0) : Canonical (signText negative ++ withPoint (digits n) places) := by
  have hn : n ≠ 0 := by omega
  have hdigits := isAsciiDigit_digits n
  have hend : (digits n).getLast? ≠ some '0' := by
    rw [getLast_digits]
    simpa using digitChar_ne_zero (Nat.mod_lt n (by decide)) hlast
  have hzeros : ∀ c ∈ List.replicate (places - (digits n).length) '0', isAsciiDigit c = true := by
    intro c hc
    rw [(List.mem_replicate.mp hc).2]
    decide
  -- The last digit stands behind the point in any case.
  have hrest : (digits n).drop ((digits n).length - places) ≠ [] := by
    have hpos : 0 < (digits n).length := List.length_pos_of_ne_nil (digits_ne_nil n)
    rw [Ne, List.drop_eq_nil_iff]
    omega
  have hfraction : IsFraction (List.replicate (places - (digits n).length) '0'
      ++ (digits n).drop ((digits n).length - places)) := by
    refine ⟨fun c hc => ?_, by simp [hrest], ?_⟩
    · rcases List.mem_append.mp hc with hc | hc
      · exact hzeros c hc
      · exact hdigits c (List.mem_of_mem_drop hc)
    · rwa [List.getLast?_append_of_ne_nil _ hrest, List.getLast?_drop,
        if_neg (List.drop_eq_nil_iff.not.mp hrest)]
  unfold withPoint
  rw [if_neg hplaces]
  dsimp only
  split
  · exact .point negative isWhole_zero hfraction
  · next hwhole =>
    refine .point negative (isWhole_of_head hn (fun c hc => hdigits c (List.mem_of_mem_take hc)) ?_) hfraction
    rw [List.head?_take, if_neg hwhole]

/-- The text of a shortest writing has no superfluous digit, wherever its point is. -/
theorem canonical_toPlainText {d : Decimal} (h : d.Stripped) : Canonical d.toPlainText.toList := by
  have hdigits := isAsciiDigit_digits d.coefficient
  unfold Stripped at h
  by_cases hzero : d.coefficient = 0
  · rw [if_pos hzero] at h
    have htext : d.toPlainText.toList = signText d.negative ++ ['0'] := by
      simp [toPlainText, h, hzero, digits]
    exact htext ▸ .whole d.negative isWhole_zero
  · rw [if_neg hzero] at h
    -- With a negative exponent there is a point; otherwise zeros stand behind the digits.
    by_cases hpoint : d.exponent < 0
    · have htext : d.toPlainText.toList
          = signText d.negative ++ withPoint (digits d.coefficient) d.exponent.natAbs := by
        simp [toPlainText, hpoint]
      exact htext ▸ canonical_withPoint d.negative h (by omega)
    · have htext : d.toPlainText.toList
          = signText d.negative ++ (digits d.coefficient ++ List.replicate d.exponent.toNat '0') := by
        simp [toPlainText, hpoint]
      refine htext ▸ .whole d.negative (isWhole_of_head hzero (fun c hc => ?_) ?_)
      · rcases List.mem_append.mp hc with hc | hc
        · exact hdigits c hc
        · rw [(List.mem_replicate.mp hc).2]
          decide
      · exact List.head?_append_of_ne_nil _ (digits_ne_nil _)

/-! ### Rounding what has been rounded -/

section Fitting

variable {ctx : Context} {d r : Decimal}

/-- What fits ends no later than at the last place that the context has room for. -/
theorem Fits.rounds_self (fits : r.Fits ctx) : ctx.Rounds r.value r.value := by
  by_cases hzero : r.coefficient = 0
  · have hvalue : r.value = 0 := value_eq_zero_iff.mpr hzero
    rw [Context.Rounds, hvalue]
    simpa using roundsAt_self (n := 0) (le_refl (ctx.lastPlace 0))
  · refine roundsAt_self (max_le ?_ fits.tiny)
    have hdigits := fits.digits
    rw [log_value hzero]
    unfold adjustedExponent
    omega

/-- What fits is not too large. -/
theorem Fits.not_overflows (fits : r.Fits ctx) : ¬ ctx.Overflows r.value := by
  rintro ⟨y, hrounds, hlarge⟩
  obtain rfl := RoundsAt.unique hrounds fits.rounds_self
  have hlt : |r.value| < 10 ^ (ctx.maxExponent + 1) :=
    r.abs_value_lt.trans_le (zpow_le_zpow_right₀ (by norm_num) (by have := fits.large; omega))
  exact absurd hlt (not_lt.mpr hlarge)

/-- Every writing of a decimal that fits is rounded to that decimal. -/
theorem Fits.fittedTo (fits : r.Fits ctx) (hsign : d.negative = r.negative) (hvalue : d.value = r.value) :
    FittedTo ctx d r :=
  ⟨fits, hsign.symm, hvalue ▸ fits.rounds_self, hvalue ▸ fits.not_overflows⟩

/-- A decimal is rounded to one sign and one value. -/
theorem FittedTo.value_eq {s : Decimal} (hr : FittedTo ctx d r) (hs : FittedTo ctx d s) :
    r.negative = s.negative ∧ r.value = s.value :=
  ⟨hr.negative.trans hs.negative.symm, RoundsAt.unique hr.rounds hs.rounds⟩

end Fitting

end Decimal

namespace Portfolio

open Decimal

variable {d r : Decimal}

/-- An amount is shown by the shortest writing of what it is rounded to. -/
theorem displayDecimal_of_fittedTo (h : FittedTo .amounts d r) :
    displayDecimal d = .ok r.stripZeros.toPlainText := by
  rcases fit_cases Context.valid_amounts d with ⟨s, hfit, fitted⟩ | ⟨-, large⟩
  · rw [displayDecimal_of_fit hfit, stripZeros_eq_iff.mpr (fitted.value_eq h)]
  · exact absurd large h.small

/-- An amount is shown by a text: it is without superfluous digits, it is read as what the amount is rounded to,
and this and just the amounts that are rounded to the same are shown so. -/
structure ShownBy (d r : Decimal) (text : String) : Prop where
  shown : displayDecimal d = .ok text
  form : Canonical text.toList
  /-- The writing that is read has another exponent where the rounded amount has a positive one. -/
  read : ∃ e, Decimal.read? text = some e ∧ e.negative = r.negative ∧ e.value = r.value
    ∧ displayDecimal e = .ok text
  same : ∀ other s, FittedTo .amounts other s →
    (displayDecimal other = .ok text ↔ s.negative = r.negative ∧ s.value = r.value)

/-- An amount is shown by the shortest writing of what it is rounded to, and that text has all the properties. -/
theorem shownBy_of_fittedTo (h : FittedTo .amounts d r) : ShownBy d r r.stripZeros.toPlainText := by
  have hshown := displayDecimal_of_fittedTo h
  have hread := read?_toPlainText (exactRange_of_fits h.fits)
  have hsign : r.stripZeros.spelledOut.negative = r.negative := by
    rw [negative_spelledOut, negative_stripZeros]
  have hvalue : r.stripZeros.spelledOut.value = r.value := by rw [value_spelledOut, value_stripZeros]
  refine ⟨hshown, canonical_toPlainText r.stripped_stripZeros, ⟨_, hread, hsign, hvalue, ?_⟩, ?_⟩
  · exact displayDecimal_of_fittedTo (h.fits.fittedTo hsign hvalue)
  · intro other s hother
    rw [displayDecimal_of_fittedTo hother, Except.ok.injEq]
    constructor
    · intro htext
      -- One text is read in one way, so what it spells out is the same.
      have hspelled := read?_toPlainText (exactRange_of_fits hother.fits)
      rw [htext, hread, Option.some.injEq] at hspelled
      rw [← hsign, ← hvalue, hspelled, negative_spelledOut, negative_stripZeros, value_spelledOut,
        value_stripZeros]
      exact ⟨rfl, rfl⟩
    · intro hsame
      rw [stripZeros_eq_iff.mpr hsame]

/-- Every amount that is not too large is shown, and its text is canonical: the form has no superfluous digit, the
text tells the sign and the value of the rounded amount and nothing else, and reading and showing it again gives
it back. -/
theorem shown_canonically (d : Decimal) (small : d.normalize .amounts ≠ .error .overflow) :
    ∃ r text, fit .amounts d = .ok r ∧ FittedTo .amounts d r ∧ ShownBy d r text := by
  rcases fit_cases Context.valid_amounts d with ⟨r, hfit, fitted⟩ | ⟨hfit, -⟩
  · exact ⟨r, _, hfit, fitted, shownBy_of_fittedTo fitted⟩
  · rw [Decimal.normalize, hfit] at small
    exact absurd rfl small

/-- Twenty-nine nines are rounded to the next power of ten. -/
theorem carried_amount_shown :
    (Decimal.normalize .amounts ⟨true, 99999999999999999999999999999, 0⟩ ≠ .error .overflow)
    ∧ ∃ r, FittedTo .amounts ⟨true, 99999999999999999999999999999, 0⟩ r ∧ r.value = -10 ^ 29
      ∧ ShownBy ⟨true, 99999999999999999999999999999, 0⟩ r "-100000000000000000000000000000" := by
  have hsmall : Decimal.normalize .amounts ⟨true, 99999999999999999999999999999, 0⟩ ≠ .error .overflow := by
    decide +kernel
  obtain ⟨r, text, hfit, hfitted, hshown⟩ := shown_canonically ⟨true, 99999999999999999999999999999, 0⟩ hsmall
  have htext : displayDecimal ⟨true, 99999999999999999999999999999, 0⟩
      = .ok "-100000000000000000000000000000" := by decide +kernel
  have hr : fit .amounts ⟨true, 99999999999999999999999999999, 0⟩ = .ok ⟨true, 10 ^ 27, 2⟩ := by
    decide +kernel
  -- The text and the rounded amount are known from here on, so both can be compared.
  rw [hshown.shown] at htext
  cases htext
  rw [hfit] at hr
  cases hr
  exact ⟨hsmall, _, hfitted, by norm_num [value, signed], hshown⟩

example : [⟨false, 150, -2⟩, ⟨false, 15, -1⟩, ⟨false, 0, -18⟩, ⟨true, 0, 2⟩, ⟨false, 1, 3⟩].map displayDecimal
    = [.ok "1.5", .ok "1.5", .ok "0", .ok "-0", .ok "1000"] := by
  decide +kernel

end Portfolio

end ChainWallet
