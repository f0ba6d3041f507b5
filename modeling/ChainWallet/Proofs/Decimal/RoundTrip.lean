import ChainWallet.Decimal.Printer
import ChainWallet.Decimal.Reader
import ChainWallet.Proofs.Text.Pieces
import Mathlib.Data.List.TakeDrop
import Mathlib.Tactic.IntervalCases

/-!
# The text of a decimal reads as that decimal

Balances are stored as texts. The text of a decimal keeps its writing, so what is read back is not only a
number of the same value but the same sign, coefficient and exponent.

* **`natOfDigits?_digits`** — the digits of a number write it; `natOfDigits?_zeros_append` says that zeros
  before them make no difference.
* **`mantissa?_withPoint`** — digits with a point before the last of them, with or without an exponent behind.
* **`read?_toText`** — every decimal whose exponent can be written is read back from its text.
-/

namespace ChainWallet

open Text Numeral

/-! ### Digits -/

namespace Text

/-- The digits stand in one row of the character table. -/
theorem isAsciiDigit_iff {c : Char} : isAsciiDigit c = true ↔ 48 ≤ c.toNat ∧ c.toNat ≤ 57 := by
  have hle : '0' ≤ c ∧ c ≤ '9' ↔ 48 ≤ c.toNat ∧ c.toNat ≤ 57 := by
    simp only [Char.le_def, UInt32.le_iff_toNat_le]
    rfl
  unfold isAsciiDigit asciiDigitValue?
  rw [← hle]
  split <;> simp_all

/-- Every digit is the digit of a number below ten. -/
theorem exists_digitChar {c : Char} (h : isAsciiDigit c = true) : ∃ d < 10, c = d.digitChar := by
  obtain ⟨hlow, hhigh⟩ := isAsciiDigit_iff.mp h
  refine ⟨c.toNat - 48, by omega, Char.toNat_inj.mp ?_⟩
  rw [Nat.toNat_digitChar_of_lt_ten (by omega)]
  omega

theorem asciiDigitValue?_digitChar {d : Nat} (h : d < 10) : asciiDigitValue? d.digitChar = some d := by
  interval_cases d <;> rfl

/-- Digits are read one by one, and there has to be one. -/
theorem natOfDigits?_eq_some_iff {cs : List Char} {n : Nat} :
    natOfDigits? cs = some n
      ↔ cs ≠ [] ∧ ∃ ds, cs.mapM asciiDigitValue? = some ds ∧ ofDigitValues ds = n := by
  cases cs with
  | nil => simp [natOfDigits?]
  | cons c rest =>
    have hread : natOfDigits? (c :: rest)
        = ((c :: rest).mapM asciiDigitValue?).map ofDigitValues := rfl
    rw [hread, Option.map_eq_some_iff]
    simp

/-- Another digit at the end. -/
theorem natOfDigits?_concat {cs : List Char} {n d : Nat} (h : natOfDigits? cs = some n) (hd : d < 10) :
    natOfDigits? (cs ++ [d.digitChar]) = some (10 * n + d) := by
  obtain ⟨-, ds, hds, rfl⟩ := natOfDigits?_eq_some_iff.mp h
  refine natOfDigits?_eq_some_iff.mpr ⟨by simp, ds ++ [d], ?_, by simp [ofDigitValues]⟩
  simp [List.mapM_append, hds, asciiDigitValue?_digitChar hd]

/-- Zeros before the digits of a number. -/
theorem natOfDigits?_zeros_append (k : Nat) {cs : List Char} {n : Nat} (h : natOfDigits? cs = some n) :
    natOfDigits? (List.replicate k '0' ++ cs) = some n := by
  have hzero : asciiDigitValue? '0' = some 0 := rfl
  induction k with
  | zero => exact h
  | succ k ih =>
    obtain ⟨-, ds, hds, hvalue⟩ := natOfDigits?_eq_some_iff.mp ih
    refine natOfDigits?_eq_some_iff.mpr ⟨by simp [List.replicate_succ], 0 :: ds, ?_, hvalue⟩
    rw [List.replicate_succ, List.cons_append, List.mapM_cons, hzero, hds]
    rfl

/-- What is read as a number consists of digits. -/
theorem isAsciiDigit_of_natOfDigits? {cs : List Char} {n : Nat} (h : natOfDigits? cs = some n) :
    ∀ c ∈ cs, isAsciiDigit c = true := by
  obtain ⟨-, ds, hds, -⟩ := natOfDigits?_eq_some_iff.mp h
  -- Only the single digits matter for the induction.
  clear h
  induction cs generalizing ds with
  | nil => simp
  | cons c rest ih =>
    rw [List.mapM_cons] at hds
    cases hc : asciiDigitValue? c with
    | none => simp [hc] at hds
    | some d =>
      cases hrest : rest.mapM asciiDigitValue? with
      | none => simp [hrest, hc] at hds
      | some es =>
        intro b hb
        rcases List.mem_cons.mp hb with rfl | hb
        · simp [isAsciiDigit, hc]
        · exact ih es hrest b hb

end Text

namespace Decimal

/-- A number is read back from its digits. The induction is on how many there are. -/
theorem natOfDigits?_digits (n : Nat) : natOfDigits? (digits n) = some n := by
  fun_induction digitCount n with
  | case1 n h =>
    rw [digits, Nat.toDigits_of_lt_base h]
    exact natOfDigits?_eq_some_iff.mpr ⟨by simp, [n], by simp [asciiDigitValue?_digitChar h],
      by simp [ofDigitValues]⟩
  | case2 n h ih =>
    rw [digits, Nat.toDigits_of_base_le (by decide) (Nat.le_of_not_lt h)]
    rw [digits] at ih
    rw [natOfDigits?_concat ih (Nat.mod_lt n (by decide)), Nat.div_add_mod]

/-- A number has as many digits as are counted. -/
theorem length_digits (n : Nat) : (digits n).length = digitCount n := by
  fun_induction digitCount n with
  | case1 n h => rw [digits, Nat.toDigits_of_lt_base h, List.length_singleton]
  | case2 n h ih =>
    rw [digits, Nat.toDigits_of_base_le (by decide) (Nat.le_of_not_lt h), List.length_append, ← ih, digits,
      List.length_singleton]

end Decimal

/-! ### Digits with a point and an exponent -/

namespace Numeral

open Decimal

/-- An exponent is read back from its text. -/
theorem exponent?_exponentText (e : Int) : exponent? (exponentText e) = some e := by
  -- The two signs are written differently.
  by_cases hneg : e < 0
  · obtain ⟨m, rfl⟩ : ∃ m : Nat, e = -m := ⟨e.natAbs, by omega⟩
    have hm : 0 < m := by omega
    simp [exponent?, exponentText, hm, splitSign, natOfDigits?_digits m]
  · obtain ⟨m, rfl⟩ : ∃ m : Nat, e = m := ⟨e.natAbs, by omega⟩
    simp [exponent?, exponentText, hneg, splitSign, natOfDigits?_digits m]

/-- An exponent begins with its letter, so the digits before it end there. -/
theorem span_append {ds : List Char} (hds : ∀ c ∈ ds, isAsciiDigit c = true) {tail : List Char}
    (htail : ∀ c ∈ tail.head?, isAsciiDigit c = false) :
    (ds ++ tail).span isAsciiDigit = (ds, tail) := by
  rw [List.span_eq_takeWhile_dropWhile, List.takeWhile_append_of_pos hds, List.dropWhile_append_of_pos hds]
  cases tail with
  | nil => simp
  | cons c rest =>
    have hc := htail c rfl
    simp [hc]

/-- What is read as an exponent begins with a letter, if with anything. -/
theorem head_of_exponent? {tail : List Char} {e : Int} (h : exponent? tail = some e) :
    ∀ c ∈ tail.head?, c = 'e' ∨ c = 'E' := by
  intro c hc
  cases tail with
  | nil => cases hc
  | cons b rest =>
    obtain rfl : b = c := Option.some.inj hc
    rw [exponent?] at h
    split at h
    · assumption
    · cases h

/-- So digits before an exponent end where it begins. -/
theorem isAsciiDigit_head_of_exponent? {tail : List Char} {e : Int} (h : exponent? tail = some e) :
    ∀ c ∈ tail.head?, isAsciiDigit c = false := by
  intro c hc
  rcases head_of_exponent? h c hc with rfl | rfl <;> decide

variable (negative : Bool) {n : Nat} {e : Int} {tail : List Char}

/-- Digits without a point. -/
theorem mantissa?_whole {ds : List Char} (hds : natOfDigits? ds = some n) (htail : exponent? tail = some e) :
    mantissa? negative (ds ++ tail) = some ⟨negative, n, e⟩ := by
  have hspan := span_append (isAsciiDigit_of_natOfDigits? hds) (isAsciiDigit_head_of_exponent? htail)
  have hhead := head_of_exponent? htail
  unfold mantissa?
  rw [hspan]
  cases tail with
  | nil => simp [hds, htail]
  | cons c rest =>
    -- No point follows, since what follows begins with a letter.
    have hc : c ≠ '.' := by rcases hhead c rfl with rfl | rfl <;> decide
    simp [hds, htail, hc]

/-- Digits with a point anywhere: each digit behind the point lowers the exponent by one. -/
theorem mantissa?_point {whole fraction : List Char} (hds : natOfDigits? (whole ++ fraction) = some n)
    (htail : exponent? tail = some e) :
    mantissa? negative (whole ++ '.' :: fraction ++ tail) = some ⟨negative, n, e - fraction.length⟩ := by
  have hdigits := isAsciiDigit_of_natOfDigits? hds
  have hpoint : ∀ c ∈ ('.' :: (fraction ++ tail)).head?, isAsciiDigit c = false := by
    simp only [List.head?_cons, Option.mem_some_iff]
    rintro c rfl
    rfl
  have hwhole := span_append (fun c hc => hdigits c (List.mem_append_left fraction hc)) hpoint
  have hfraction := span_append (fun c hc => hdigits c (List.mem_append_right whole hc))
    (isAsciiDigit_head_of_exponent? htail)
  rw [List.append_assoc, List.cons_append]
  unfold mantissa?
  simp only [hwhole, hfraction, hds, htail]
  rfl

/-- Digits with a point before the last of them; zeros stand where digits are lacking. -/
theorem mantissa?_withPoint {ds : List Char} (hds : natOfDigits? ds = some n)
    (htail : exponent? tail = some e) (places : Nat) :
    mantissa? negative (withPoint ds places ++ tail) = some ⟨negative, n, e - places⟩ := by
  unfold withPoint
  by_cases hplaces : places = 0
  · subst hplaces
    simpa using mantissa?_whole negative hds htail
  rw [if_neg hplaces]
  have hne : ds ≠ [] := (natOfDigits?_eq_some_iff.mp hds).1
  by_cases hwhole : ds.length - places = 0
  · -- All digits stand behind the point, with zeros before them.
    have hread : natOfDigits? (['0'] ++ (List.replicate (places - ds.length) '0' ++ ds)) = some n :=
      natOfDigits?_zeros_append (places - ds.length + 1) hds
    have hmantissa := mantissa?_point negative hread htail
    have hlength : (List.replicate (places - ds.length) '0' ++ ds).length = places := by
      simp only [List.length_append, List.length_replicate]
      omega
    rw [hlength] at hmantissa
    simpa [hwhole] using hmantissa
  · -- Some digits stand before the point, so no zero is filled in.
    have hzeros : places - ds.length = 0 := by omega
    have hread : natOfDigits? (ds.take (ds.length - places) ++ ds.drop (ds.length - places)) = some n := by
      rw [List.take_append_drop, hds]
    have hmantissa := mantissa?_point negative hread htail
    have hlength : (ds.drop (ds.length - places)).length = places := by
      rw [List.length_drop]
      omega
    rw [hlength] at hmantissa
    simpa [hwhole, hzeros] using hmantissa

end Numeral

/-! ### The text of a decimal -/

/-- A character of the text of a decimal. -/
def IsPlain (c : Char) : Prop :=
  isAsciiDigit c = true ∨ c ∈ ['.', 'E', '+', '-']

/-- Nothing of the text of a decimal is trimmed away. -/
theorem IsPlain.not_blank {c : Char} (h : IsPlain c) : isBlank c = false := by
  rcases h with h | h
  · obtain ⟨hlow, hhigh⟩ := isAsciiDigit_iff.mp h
    simp [isBlank, isWhiteSpace]
    omega
  · simp only [List.mem_cons, List.not_mem_nil, or_false] at h
    rcases h with rfl | rfl | rfl | rfl <;> decide

/-- Every character of the text of a decimal is read as it is. -/
theorem IsPlain.asciiForm? {c : Char} (h : IsPlain c) : Numeral.asciiForm? c = some c := by
  rcases h with h | h
  · have := (isAsciiDigit_iff.mp h).2
    rw [Numeral.asciiForm?, if_pos (by omega)]
  · simp only [List.mem_cons, List.not_mem_nil, or_false] at h
    rcases h with rfl | rfl | rfl | rfl <;> decide

/-- No character of the text of a decimal is left out. -/
theorem IsPlain.ne_underscore {c : Char} (h : IsPlain c) : c ≠ '_' := by
  rintro rfl
  revert h
  unfold IsPlain
  decide

namespace Decimal

/-- The digits of a decimal with their point, and its exponent as far as it is written. -/
theorem exists_toText (d : Decimal) : ∃ (places : Nat) (e : Int) (tail : List Char),
    exponent? tail = some e ∧ (∀ c ∈ tail, IsPlain c) ∧ e - places = d.exponent
      ∧ d.toText.toList = signText d.negative ++ (withPoint (digits d.coefficient) places ++ tail) := by
  -- There are two ways of writing: with the point in place, or with one digit before it and an exponent.
  by_cases hplain : d.exponent ≤ 0 ∧ -6 ≤ d.adjustedExponent
  · refine ⟨d.exponent.natAbs, 0, [], rfl, by simp, by omega, ?_⟩
    simp [toText, hplain]
  · refine ⟨(digits d.coefficient).length - 1, d.adjustedExponent, exponentText d.adjustedExponent,
      exponent?_exponentText _, ?_, ?_, ?_⟩
    · intro c hc
      have hdigit := isAsciiDigit_of_natOfDigits? (natOfDigits?_digits d.adjustedExponent.natAbs) c
      simp only [exponentText, List.mem_cons] at hc
      rcases hc with rfl | rfl | hc
      · exact .inr (by decide)
      · split <;> exact .inr (by decide)
      · exact .inl (hdigit hc)
    · have := digitCount_pos d.coefficient
      rw [length_digits, adjustedExponent]
      omega
    · simp [toText, hplain]

/-- A point and zeros that are filled in are plain, and so are the digits. -/
theorem isPlain_withPoint {ds : List Char} (hds : ∀ c ∈ ds, isAsciiDigit c = true) (places : Nat) :
    ∀ c ∈ withPoint ds places, IsPlain c := by
  intro c hc
  unfold withPoint at hc
  split at hc
  · exact .inl (hds c hc)
  · simp only [List.mem_append, List.mem_cons, List.mem_replicate] at hc
    rcases hc with hc | rfl | ⟨-, rfl⟩ | hc
    · split at hc
      · obtain rfl : c = '0' := by simpa using hc
        exact .inl (by decide)
      · exact .inl (hds c (List.mem_of_mem_take hc))
    · exact .inr (by decide)
    · exact .inl (by decide)
    · exact .inl (hds c (List.mem_of_mem_drop hc))

/-- Whatever the place of the point, a digit stands first. -/
theorem head_withPoint {ds : List Char} (hne : ds ≠ []) (hds : ∀ c ∈ ds, isAsciiDigit c = true)
    (places : Nat) : ∃ c rest, withPoint ds places = c :: rest ∧ isAsciiDigit c = true := by
  obtain ⟨c, rest, rfl⟩ := List.exists_cons_of_ne_nil hne
  unfold withPoint
  -- Without a digit before the point a zero is written there.
  split
  · exact ⟨c, rest, rfl, hds c List.mem_cons_self⟩
  · dsimp only
    split
    · exact ⟨'0', _, rfl, by decide⟩
    · next hwhole =>
      obtain ⟨k, hk⟩ := Nat.exists_eq_succ_of_ne_zero hwhole
      rw [hk, List.take_succ_cons]
      exact ⟨c, _, rfl, hds c List.mem_cons_self⟩

/-- A sign is plain, and so is none. -/
theorem isPlain_signText (negative : Bool) : ∀ c ∈ signText negative, IsPlain c := by
  intro c hc
  unfold signText at hc
  split at hc
  · exact .inr (by simp_all)
  · cases hc

/-- The text of a decimal is made up of plain characters. -/
theorem isPlain_toText (d : Decimal) : ∀ c ∈ d.toText.toList, IsPlain c := by
  obtain ⟨places, e, tail, -, htail, -, htext⟩ := d.exists_toText
  have hds := isAsciiDigit_of_natOfDigits? (natOfDigits?_digits d.coefficient)
  intro c hc
  rw [htext] at hc
  simp only [List.mem_append] at hc
  rcases hc with hc | hc | hc
  · exact isPlain_signText d.negative c hc
  · exact isPlain_withPoint hds places c hc
  · exact htail c hc

end Decimal

/-! ### Reading -/

namespace Numeral

/-- A text of plain characters is read as it is. -/
theorem read?_of_isPlain {s : String} (h : ∀ c ∈ s.toList, IsPlain c) :
    Numeral.read? s = body? (splitSign s.toList).1 (splitSign s.toList).2 := by
  have htrim : trim isBlank s.toList = s.toList := trim_eq_self fun c hc => (h c hc).not_blank
  have hfilter : s.toList.filter (· != '_') = s.toList :=
    List.filter_eq_self.mpr fun c hc => by simpa using (h c hc).ne_underscore
  have hforms : ∀ cs : List Char, (∀ c ∈ cs, IsPlain c) → cs.mapM asciiForm? = some cs := by
    intro cs hcs
    induction cs with
    | nil => rfl
    | cons c rest ih =>
      rw [List.mapM_cons, (hcs c List.mem_cons_self).asciiForm?,
        ih fun b hb => hcs b (List.mem_cons_of_mem c hb)]
      rfl
  rw [Numeral.read?, htrim, hfilter, hforms _ h]
  rfl

/-- No digit begins one of the words that a number can be. -/
theorem afterWord?_of_digit {w c : Char} (hw : w ∈ ['n', 's', 'i']) (hc : isAsciiDigit c = true)
    (ws rest : List Char) : afterWord? (w :: ws) (c :: rest) = none := by
  obtain ⟨d, hd, rfl⟩ := exists_digitChar hc
  have hn : ∀ d < 10, d.digitChar.toLower ≠ 'n' := by decide
  have hs : ∀ d < 10, d.digitChar.toLower ≠ 's' := by decide
  have hi : ∀ d < 10, d.digitChar.toLower ≠ 'i' := by decide
  simp only [List.mem_cons, List.not_mem_nil, or_false] at hw
  rw [afterWord?, if_neg]
  rcases hw with rfl | rfl | rfl
  · exact hn d hd
  · exact hs d hd
  · exact hi d hd

/-- A sign is split off, and a digit is none. -/
theorem splitSign_signText (negative : Bool) {c : Char} (hc : isAsciiDigit c = true) (rest : List Char) :
    splitSign (Decimal.signText negative ++ c :: rest) = (negative, c :: rest) := by
  obtain ⟨d, hd, rfl⟩ := exists_digitChar hc
  cases negative with
  | true => rfl
  | false => interval_cases d <;> rfl

end Numeral

namespace Decimal

/-- A sign and a mantissa that begins with a digit are neither an infinity nor a NaN. -/
theorem read?_of_mantissa? {text : String} {negative : Bool} {c : Char} {rest : List Char} {d : Decimal}
    (plain : ∀ b ∈ text.toList, IsPlain b) (htext : text.toList = signText negative ++ c :: rest)
    (hc : isAsciiDigit c = true) (hmantissa : mantissa? negative (c :: rest) = some d)
    (h : d.exactRange = true) : Decimal.read? text = some d := by
  have hbody : body? negative (c :: rest) = some (.finite d) := by
    simp only [body?, afterWord?_of_digit (w := 'n') (by decide) hc,
      afterWord?_of_digit (w := 's') (by decide) hc, afterWord?_of_digit (w := 'i') (by decide) hc]
    simp [hmantissa, h]
  rw [Decimal.read?, read?_of_isPlain plain, htext, splitSign_signText negative hc]
  rw [hbody]

/-- The text of a decimal is read as that decimal, sign, coefficient and exponent, if the exponent is one that
can be written at all. -/
theorem read?_toText {d : Decimal} (h : d.exactRange = true) : Decimal.read? d.toText = some d := by
  obtain ⟨places, e, tail, htail, -, he, htext⟩ := d.exists_toText
  have hdigits := natOfDigits?_digits d.coefficient
  obtain ⟨c, rest, hhead, hc⟩ := head_withPoint (natOfDigits?_eq_some_iff.mp hdigits).1
    (isAsciiDigit_of_natOfDigits? hdigits) places
  -- The places behind the point are made up for by the exponent, which leaves the one of the decimal.
  have hmantissa := mantissa?_withPoint d.negative hdigits htail places
  rw [hhead, he, List.cons_append] at hmantissa
  rw [hhead, List.cons_append] at htext
  exact read?_of_mantissa? d.isPlain_toText htext hc hmantissa h

end Decimal

end ChainWallet
