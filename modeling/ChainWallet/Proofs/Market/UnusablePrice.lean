import ChainWallet.Proofs.Decimal.PlainText
import ChainWallet.Proofs.Market.OwnPrice
import ChainWallet.Proofs.Market.Ranking

/-!
# Prices that are no numbers

A price is a text of the feed. A text that cannot be read values an asset at nothing; but an infinity and a NaN
can be read, and then they are multiplied with the balance like a number.

* **`IsSpecial`** — a text that is read as something that is not a finite number.
* **`balanceValue_of_number`**, **`balanceValue_of_unreadable`**, **`balanceValue_of_special`** — the value of
  a balance at each kind of text.
* **`unusable_prices_valued`** — a text that is no finite number values every balance at zero unless it is a
  special one. Without special texts a portfolio is sorted with finite values, or has a product that is too
  large; with one of them in use it never is.
-/

namespace ChainWallet

open Decimal (Signal Context)

def Numeral.IsFinite (v : Numeral) : Prop := ∃ d, v = .finite d

theorem Numeral.IsFinite.not_isNaN {v : Numeral} (h : v.IsFinite) : v.isNaN = false := by
  obtain ⟨d, rfl⟩ := h
  rfl

theorem Numeral.not_isFinite_infinite (negative : Bool) : ¬ (infinite negative).IsFinite := by
  rintro ⟨d, hd⟩
  cases hd

theorem Numeral.not_isFinite_nan (negative signaling : Bool) (payload : Nat) :
    ¬ (nan negative signaling payload).IsFinite := by
  rintro ⟨d, hd⟩
  cases hd

/-- A text that is read as an infinity or as a NaN. -/
def IsSpecial (text : String) : Prop := ∃ v, Numeral.read? text = some v ∧ ¬ v.IsFinite

/-- Decimals are the finite numerals. -/
theorem Decimal.read?_eq_some_iff {text : String} {d : Decimal} :
    Decimal.read? text = some d ↔ Numeral.read? text = some (.finite d) := by
  unfold Decimal.read?
  split
  · next e he => rw [he, Option.some.injEq, Option.some.injEq, Numeral.finite.injEq]
  · next hnone => exact iff_of_false nofun (hnone d)

/-- A text that is no decimal is no numeral at all, or a special one. -/
theorem Decimal.read?_eq_none_iff {text : String} :
    Decimal.read? text = none ↔ Numeral.read? text = none ∨ IsSpecial text := by
  cases h : Numeral.read? text with
  | none => simp [Decimal.read?, h]
  | some v =>
    have hspecial : IsSpecial text ↔ ¬ v.IsFinite := by simp [IsSpecial, h]
    rw [hspecial, Option.eq_none_iff_forall_ne_some]
    simp [Decimal.read?_eq_some_iff, h, Numeral.IsFinite]

/-- A product with a special factor is not defined, or is special too. -/
theorem Numeral.scale_of_special (ctx : Context) (d : Decimal) {v : Numeral} (h : ¬ v.IsFinite) :
    v.scale ctx d = .error .invalidOperation ∨ ∃ w, v.scale ctx d = .ok w ∧ ¬ w.IsFinite := by
  match v with
  | finite e => exact absurd ⟨e, rfl⟩ h
  | infinite negative =>
    -- Nothing times an infinity is the one product that is refused.
    by_cases hzero : d.coefficient = 0
    · exact .inl (if_pos hzero)
    · exact .inr ⟨_, if_neg hzero, not_isFinite_infinite _⟩
  | nan _ true _ => exact .inl rfl
  | nan negative false payload => exact .inr ⟨_, rfl, not_isFinite_nan _ _ _⟩

namespace Portfolio

/-! ### The value of a balance -/

section

variable (a : Asset) {p : MarketPrice}

/-- An empty price is looked at first, but it could not be read either. -/
theorem balanceValue_eq (p : MarketPrice) : balanceValue a p = match Numeral.read? p.price with
    | none => .ok (.finite .zero)
    | some price => price.scale .amounts a.balance := by
  unfold balanceValue
  split
  · next hempty =>
    have hnone : Numeral.read? p.price = none := by
      rw [String.isEmpty_iff.mp hempty]
      rfl
    rw [hnone]
  · rfl

/-- At a text that cannot be read a balance is worth nothing. -/
theorem balanceValue_of_unreadable (h : Numeral.read? p.price = none) :
    balanceValue a p = .ok (.finite .zero) := by
  rw [balanceValue_eq, h]

/-- At a number a balance is worth its product, unless that is too large. -/
theorem balanceValue_of_number {d : Decimal} (h : Decimal.read? p.price = some d) :
    (∃ r, balanceValue a p = .ok (.finite r))
      ∨ balanceValue a p = .error .overflow ∧ Context.amounts.Overflows (a.balance.value * d.value) := by
  rw [balanceValue_eq, Decimal.read?_eq_some_iff.mp h]
  rcases displayProduct_cases a.balance d with ⟨r, -, hmul, -⟩ | ⟨hmul, large⟩
  · exact .inl ⟨r, by simp only [Numeral.scale, hmul, Except.map]⟩
  · exact .inr ⟨by simp only [Numeral.scale, hmul, Except.map], large⟩

/-- At an infinity or a NaN a balance has no value, or none that is finite. -/
theorem balanceValue_of_special (h : IsSpecial p.price) :
    balanceValue a p = .error .invalidOperation ∨ ∃ v, balanceValue a p = .ok v ∧ ¬ v.IsFinite := by
  obtain ⟨v, hread, hspecial⟩ := h
  rw [balanceValue_eq, hread]
  exact Numeral.scale_of_special .amounts a.balance hspecial

/-- In either case no finite value comes out, not even zero. -/
theorem balanceValue_ne_finite (h : IsSpecial p.price) (d : Decimal) : balanceValue a p ≠ .ok (.finite d) := by
  intro heq
  rcases balanceValue_of_special a h with herror | ⟨v, hv, hspecial⟩
  · rw [herror] at heq
    cases heq
  · rw [hv, Except.ok.injEq] at heq
    exact hspecial ⟨d, heq⟩

end

/-! ### The values of a portfolio -/

section

variable {prices : Prices} {currency : String} {assets : List Asset}

/-- The price of an asset is a special text. -/
def PricedSpecially (prices : Prices) (currency : String) (a : Asset) : Prop :=
  ∃ p, usedPrice? prices currency a = some p ∧ IsSpecial p.price

/-- The balance of an asset and its price are numbers whose product is too large. -/
def TooValuable (prices : Prices) (currency : String) (a : Asset) : Prop :=
  ∃ p d, usedPrice? prices currency a = some p ∧ Decimal.read? p.price = some d
    ∧ Context.amounts.Overflows (a.balance.value * d.value)

/-- An asset without a special price has a finite value, unless that is too large. -/
theorem marketValue_of_usual {a : Asset} (usual : ¬ PricedSpecially prices currency a) :
    (∃ r, marketValue prices currency a = .ok (.finite r))
      ∨ marketValue prices currency a = .error .overflow ∧ TooValuable prices currency a := by
  rw [marketValue_eq]
  -- Without a price in use an asset is worth nothing.
  cases hused : usedPrice? prices currency a with
  | none => exact .inl ⟨.zero, rfl⟩
  | some p =>
    cases hread : Decimal.read? p.price with
    | some d =>
      rcases balanceValue_of_number a hread with hvalue | ⟨herror, large⟩
      · exact .inl hvalue
      · exact .inr ⟨herror, p, d, hused, hread, large⟩
    | none =>
      rcases Decimal.read?_eq_none_iff.mp hread with hnone | hspecial
      · exact .inl ⟨.zero, balanceValue_of_unreadable a hnone⟩
      · exact absurd ⟨p, hused, hspecial⟩ usual

/-- An asset with a special price has no finite value. -/
theorem marketValue_of_special {a : Asset} (h : PricedSpecially prices currency a) (d : Decimal) :
    marketValue prices currency a ≠ .ok (.finite d) := by
  obtain ⟨p, hused, hspecial⟩ := h
  rw [marketValue_eq, hused]
  exact balanceValue_ne_finite a hspecial d

/-- What is sorted are the values of all assets. -/
theorem exists_values_of_sortByValue {vs : List Valued} (h : sortByValue prices currency assets = .ok vs) :
    ∃ ws, values prices currency assets = .ok ws ∧ vs = ws.mergeSort atLeast := by
  cases hvalues : values prices currency assets with
  | error s =>
    rw [sortByValue, hvalues] at h
    cases h
  | ok ws =>
    simp only [sortByValue, hvalues, Except.bind] at h
    split at h
    · cases h
    · cases h
      exact ⟨ws, rfl, rfl⟩

/-- The values of a portfolio are all told and finite, and it is sorted by them. -/
def SortedFinite (prices : Prices) (currency : String) (assets : List Asset) : Prop :=
  ∃ vs, sortByValue prices currency assets = .ok vs ∧ ∀ x ∈ vs, x.value.IsFinite

/-- Finite values can be compared, so a portfolio that has only these is sorted by them. -/
theorem sortedFinite_of_values (h : ∀ a ∈ assets, ∃ r, marketValue prices currency a = .ok (.finite r)) :
    SortedFinite prices currency assets := by
  obtain ⟨vs, hvs⟩ : ∃ vs, values prices currency assets = .ok vs := by
    refine exists_mapM_ok fun a ha => ?_
    obtain ⟨r, hr⟩ := h a ha
    exact ⟨⟨a, .finite r⟩, valued_eq_ok_iff.mpr ⟨rfl, hr⟩⟩
  have hfinite : ∀ x ∈ vs, x.value.IsFinite := by
    intro x hx
    obtain ⟨hassets, hvalues⟩ := values_eq_ok_iff.mp hvs
    obtain ⟨r, hr⟩ := h x.asset (hassets ▸ List.mem_map_of_mem hx)
    rw [hvalues x hx, Except.ok.injEq] at hr
    exact ⟨r, hr⟩
  refine ⟨_, sortByValue_of_values hvs fun x hx => (hfinite x hx).not_isNaN, fun x hx => ?_⟩
  exact hfinite x (List.mem_mergeSort.mp hx)

/-- Without special prices a portfolio is sorted by finite values, or a product is too large. -/
theorem sortByValue_of_usual (usual : ∀ a ∈ assets, ¬ PricedSpecially prices currency a) :
    SortedFinite prices currency assets ∨ sortByValue prices currency assets = .error .overflow
      ∧ ∃ a ∈ assets, TooValuable prices currency a := by
  cases hvalues : values prices currency assets with
  | error s =>
    -- The values end at the first asset that has none, and that can only be for its size.
    obtain ⟨a, ha, herror⟩ := exists_of_mapM_eq_error hvalues
    rcases marketValue_of_usual (usual a ha) with ⟨r, hr⟩ | ⟨hlarge, large⟩
    · rw [hr] at herror
      cases herror
    · rw [hlarge] at herror
      cases herror
      exact .inr ⟨by rw [sortByValue, hvalues]; rfl, a, ha, large⟩
  | ok vs =>
    left
    obtain ⟨rfl, hall⟩ := values_eq_ok_iff.mp hvalues
    refine sortedFinite_of_values fun a ha => ?_
    obtain ⟨x, hx, rfl⟩ := List.mem_map.mp ha
    rcases marketValue_of_usual (usual _ ha) with hr | ⟨hlarge, -⟩
    · exact hr
    · rw [hall x hx] at hlarge
      cases hlarge

/-- With a special price it is not: the value that belongs to it is not finite, and sorting keeps it. -/
theorem not_sortedFinite {a : Asset} (ha : a ∈ assets) (special : PricedSpecially prices currency a) :
    ¬ SortedFinite prices currency assets := by
  rintro ⟨vs, hsorted, hfinite⟩
  obtain ⟨ws, hvalues, rfl⟩ := exists_values_of_sortByValue hsorted
  obtain ⟨rfl, hall⟩ := values_eq_ok_iff.mp hvalues
  obtain ⟨x, hx, rfl⟩ := List.mem_map.mp ha
  obtain ⟨r, hr⟩ := hfinite x (List.mem_mergeSort.mpr hx)
  exact marketValue_of_special special r (hr ▸ hall x hx)

end

/-- What prices that are no numbers do to the values of assets. -/
structure UnusablePricesValued (prices : Prices) (currency : String) (assets : List Asset) : Prop where
  /-- A text that is no number values a balance at zero unless it is a special one. -/
  zero : ∀ (a : Asset) (p : MarketPrice), Decimal.read? p.price = none →
    (balanceValue a p = .ok (.finite .zero) ↔ ¬ IsSpecial p.price)
  /-- A special text is handed on to the value, or there is none. -/
  special : ∀ (a : Asset) (p : MarketPrice), IsSpecial p.price →
    balanceValue a p = .error .invalidOperation ∨ ∃ v, balanceValue a p = .ok v ∧ ¬ v.IsFinite
  /-- Without special texts only the size of a value can keep a portfolio from being sorted. -/
  sorted : (∀ a ∈ assets, ¬ PricedSpecially prices currency a) →
    SortedFinite prices currency assets ∨ sortByValue prices currency assets = .error .overflow
      ∧ ∃ a ∈ assets, TooValuable prices currency a
  /-- One special text that is used is enough for a portfolio not to be sorted by finite values. -/
  spoilt : ∀ a ∈ assets, PricedSpecially prices currency a → ¬ SortedFinite prices currency assets

/-- An unusable price values an asset at zero and spoils no order, with the exception of special texts: they are
read as numerals, and what is done to numerals after that is not done for them. -/
theorem unusable_prices_valued (prices : Prices) (currency : String) (assets : List Asset) :
    UnusablePricesValued prices currency assets := by
  refine ⟨fun a p hread => ⟨fun hzero hspecial => ?_, fun husual => ?_⟩,
    fun a p hspecial => balanceValue_of_special a hspecial, sortByValue_of_usual,
    fun a ha hspecial => not_sortedFinite ha hspecial⟩
  · exact balanceValue_ne_finite a hspecial .zero hzero
  · have hnone := (Decimal.read?_eq_none_iff.mp hread).resolve_right husual
    exact balanceValue_of_unreadable a hnone

/-! Holdings of a coin whose price is no number. -/

namespace SpecialPrices

open TiedValues (holding)

def price (text : String) : MarketPrice := ⟨"CRO", "USD", text, "", .tendermint⟩

def prices (text : String) : Prices := [((price text).key, price text)]

/-- No coins, and one and a half. -/
def assets : List Asset := [holding "CRO" .zero, holding "CRO" ⟨false, 15, -1⟩]

/-- The word for an infinity is read as one. -/
theorem isSpecial_infinity : IsSpecial "Infinity" :=
  ⟨.infinite false, by decide +kernel, Numeral.not_isFinite_infinite false⟩

/-- Both holdings use the one price in the table. -/
theorem usedPrice?_prices {text : String} (h : text ≠ "") {a : Asset} (ha : a ∈ assets) :
    usedPrice? (prices text) "USD" a = some (price text) := by
  rw [usedPrice?_eq_some_iff]
  have hkey : MarketPrice.keyOf a.assetType a.mainnetSymbol "USD" = (price text).key
      ∧ a.mainnetSymbol = "CRO" := by
    rcases List.mem_pair.mp ha with rfl | rfl
    · exact ⟨rfl, rfl⟩
    · exact ⟨rfl, rfl⟩
  refine ⟨?_, h, hkey.2.symm⟩
  rw [hkey.1]
  exact List.lookup_cons_self

/-- At a text that is no number at all both are worth nothing. At an infinite price there is no order. -/
theorem infinite_price_spoils_order :
    (∀ a ∈ assets, balanceValue a (price "n/a") = .ok (.finite .zero))
    ∧ SortedFinite (prices "n/a") "USD" assets
    ∧ ¬ SortedFinite (prices "Infinity") "USD" assets := by
  have hread : Decimal.read? "n/a" = none := by decide +kernel
  -- The text is neither an infinity nor a NaN.
  have husual : ¬ IsSpecial "n/a" := by
    rintro ⟨v, hv, -⟩
    have hnone : Numeral.read? "n/a" = none := by decide +kernel
    rw [hnone] at hv
    cases hv
  have hna := unusable_prices_valued (prices "n/a") "USD" assets
  refine ⟨fun a _ => (hna.zero a (price "n/a") hread).mpr husual, ?_, ?_⟩
  · refine (hna.sorted fun a ha => ?_).resolve_right ?_
    · rintro ⟨p, hused, hspecial⟩
      rw [usedPrice?_prices (by decide) ha, Option.some.injEq] at hused
      subst hused
      exact husual hspecial
    · rintro ⟨-, a, ha, p, d, hused, hnumber, -⟩
      rw [usedPrice?_prices (by decide) ha, Option.some.injEq] at hused
      subst hused
      exact absurd (hnumber.symm.trans hread) nofun
  · have hinfinite := unusable_prices_valued (prices "Infinity") "USD" assets
    refine hinfinite.spoilt (holding "CRO" .zero) List.mem_cons_self ⟨price "Infinity", ?_, isSpecial_infinity⟩
    exact usedPrice?_prices (by decide) List.mem_cons_self

/-- No coins at an infinite price, and two holdings at a NaN. -/
theorem special_prices_raise :
    Decimal.read? "Infinity" = none ∧ Decimal.read? "NaN" = none
    ∧ balanceValue (holding "CRO" .zero) (price "Infinity") = .error .invalidOperation
    ∧ sortByValue (prices "NaN") "USD" assets = .error .invalidOperation
    ∧ sortByValue (prices "NaN") "USD" [holding "CRO" .zero]
      = .ok [⟨holding "CRO" .zero, .nan false false 0⟩] := by
  decide +kernel

end SpecialPrices

end Portfolio

end ChainWallet
