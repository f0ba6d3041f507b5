import ChainWallet.Market.Portfolio
import ChainWallet.Proofs.Market.Refreshing

/-!
# An asset is valued with its own price

A table has prices under texts, and two prices can have one text for a key: that of `A-B` in `USD` is that of
`A` in `B-USD`. So what is found under the key of an asset need not be its price.

* **`Filed`** — a table in which each price stands once, under its own key. What a resolver collects is such a
  table (`filed_assetPrices`).
* **`usedPrice?`** — the price with which an asset is valued; `marketValue_eq` says that there is no other way
  to a value.
* **`isOf_of_found`** — a price of the asset's symbol that is found under its key is its own, so the look at
  the symbol is all that is needed.
* **`valued_by_own_price`** — an asset is valued with its own price, and if the table has none, at nothing.
-/

namespace ChainWallet

/-- A price is that of an asset in a currency. -/
structure MarketPrice.IsOf (p : MarketPrice) (a : Asset) (currency : String) : Prop where
  assetType : p.assetType = a.assetType
  symbol : p.symbol = a.mainnetSymbol
  currency : p.currency = currency

/-- The key of an asset's price is the one under which the asset is looked up. -/
theorem MarketPrice.IsOf.key_eq {p : MarketPrice} {a : Asset} {currency : String} (h : p.IsOf a currency) :
    p.key = keyOf a.assetType a.mainnetSymbol currency := by
  rw [key, h.assetType, h.symbol, h.currency]

namespace Portfolio

/-- A table that has each price once, and under its own key. -/
structure Filed (prices : Prices) : Prop where
  own : ∀ entry ∈ prices, entry.1 = entry.2.key
  distinct : (prices.map Prod.fst).Nodup

/-- The price in a table with which an asset is valued. -/
def usedPrice? (prices : Prices) (currency : String) (a : Asset) : Option MarketPrice :=
  (prices.lookup (MarketPrice.keyOf a.assetType a.mainnetSymbol currency)).filter fun p =>
    !p.price.isEmpty && a.mainnetSymbol == p.symbol

section

variable {prices : Prices} {currency : String} {a : Asset} {p : MarketPrice}

/-- The value of an asset is the value of its balance at the price that is used, and nothing without one. -/
theorem marketValue_eq (prices : Prices) (currency : String) (a : Asset) :
    marketValue prices currency a = match usedPrice? prices currency a with
      | some p => balanceValue a p
      | none => .ok (.finite .zero) := by
  unfold marketValue usedPrice?
  cases prices.lookup (MarketPrice.keyOf a.assetType a.mainnetSymbol currency) with
  | none => rfl
  | some p =>
    have husable : (!p.price.isEmpty && a.mainnetSymbol == p.symbol)
        = !(p.price.isEmpty || a.mainnetSymbol != p.symbol) := by
      rw [Bool.not_or, bne, Bool.not_not]
    simp only [Option.filter_some, husable]
    cases p.price.isEmpty || a.mainnetSymbol != p.symbol <;> rfl

/-- A price is used if it stands under the key of the asset, tells anything and has its symbol. -/
theorem usedPrice?_eq_some_iff : usedPrice? prices currency a = some p
    ↔ prices.lookup (MarketPrice.keyOf a.assetType a.mainnetSymbol currency) = some p
      ∧ p.price ≠ "" ∧ p.symbol = a.mainnetSymbol := by
  rw [usedPrice?, Option.filter_eq_some_iff, Bool.and_eq_true, beq_iff_eq, Bool.not_eq_true',
    eq_comm (a := a.mainnetSymbol)]
  simp

namespace Filed

/-- In a table in order a look-up finds exactly the entries. -/
theorem lookup_eq_some_iff (filed : Filed prices) {key : String} :
    prices.lookup key = some p ↔ (key, p) ∈ prices := by
  constructor
  · intro h
    obtain ⟨before, rest, rfl, -⟩ := List.lookup_eq_some_iff.mp h
    exact List.mem_append_right before List.mem_cons_self
  · intro h
    obtain ⟨before, rest, rfl⟩ := List.append_of_mem h
    refine List.lookup_eq_some_iff.mpr ⟨before, rest, rfl, fun entry hentry => ?_⟩
    have hdistinct := filed.distinct
    rw [List.map_append, List.map_cons] at hdistinct
    -- The entries before it have other keys, since no key is there twice.
    have hne := (List.nodup_append.mp hdistinct).2.2 entry.1 (List.mem_map_of_mem hentry) key List.mem_cons_self
    simpa using hne.symm

/-- What stands under the key of an asset and has its symbol is the price of the asset: the types in both keys
are the same whatever else is, and behind the same symbol stand the currencies. -/
theorem isOf_of_found (filed : Filed prices)
    (found : (MarketPrice.keyOf a.assetType a.mainnetSymbol currency, p) ∈ prices)
    (symbol : p.symbol = a.mainnetSymbol) : p.IsOf a currency := by
  have hkey : MarketPrice.keyOf a.assetType a.mainnetSymbol currency
      = MarketPrice.keyOf p.assetType a.mainnetSymbol p.currency := by
    have hown := filed.own _ found
    rwa [MarketPrice.key, symbol] at hown
  obtain ⟨htype, hcurrency⟩ := MarketPrice.keyOf_eq_of_symbol_iff.mp hkey
  exact ⟨htype.symm, symbol, hcurrency.symm⟩

/-- The price that is used is the one of the asset that the table has, if that tells anything. -/
theorem usedPrice?_eq_some_iff (filed : Filed prices) : usedPrice? prices currency a = some p
    ↔ (p.key, p) ∈ prices ∧ p.IsOf a currency ∧ p.price ≠ "" := by
  rw [Portfolio.usedPrice?_eq_some_iff, filed.lookup_eq_some_iff]
  constructor
  · rintro ⟨hfound, hprice, hsymbol⟩
    have hown := filed.isOf_of_found hfound hsymbol
    exact ⟨hown.key_eq ▸ hfound, hown, hprice⟩
  · rintro ⟨hfound, hown, hprice⟩
    exact ⟨hown.key_eq ▸ hfound, hprice, hown.symbol⟩

end Filed

/-! ### What a resolver collects -/

theorem filed_nil : Filed [] := ⟨nofun, .nil⟩

/-- A price whose key is not in a table yet can be added to it. -/
theorem Filed.concat (filed : Filed prices) (new : prices.lookup p.key = none) :
    Filed (prices ++ [(p.key, p)]) := by
  refine ⟨fun entry hentry => ?_, ?_⟩
  · rcases List.mem_append.mp hentry with hentry | hentry
    · exact filed.own entry hentry
    · rw [List.mem_singleton.mp hentry]
  · rw [List.map_append, List.map_singleton, List.nodup_append]
    refine ⟨filed.distinct, by simp, fun key hkey other hother => ?_⟩
    obtain ⟨entry, hentry, rfl⟩ := List.mem_map.mp hkey
    obtain rfl := List.mem_singleton.mp hother
    have hne := List.lookup_eq_none_iff.mp new entry hentry
    exact fun heq => (bne_iff_ne.mp hne) heq.symm

/-- Adding prices keeps the table in order: only those are added whose key is not there. -/
theorem filed_addPrices (r : Resolver) (currency : String) (feed : Feed) (assets : List Asset)
    (filed : Filed prices) (d : Enquiry.Desk) :
    ∃ table d', (r.addPrices currency assets prices).run feed d = (.ok table, d') ∧ Filed table := by
  induction assets generalizing prices d with
  | nil => exact ⟨prices, d, rfl, filed⟩
  | cons a rest ih =>
    rw [Resolver.addPrices]
    split
    · exact ih filed d
    · next hmissing =>
      -- Whether the look-up fails or not, what is told is of this asset and in this currency.
      have htells : (Resolver.told a currency ((r.tokenPrice a currency).run feed d).1).IsOf a currency := by
        have htold := @Resolver.tells_told r a currency feed d
        exact ⟨htold.assetType, htold.symbol, htold.currency⟩
      rw [Enquiry.run_seq, Resolver.run_assetPrice]
      dsimp only
      -- So the key of the asset is the own key of the price, under which nothing stands yet.
      rw [← htells.key_eq] at hmissing ⊢
      exact ih (filed.concat (Option.not_isSome_iff_eq_none.mp hmissing)) _

/-- The tables that a resolver collects have every price once, and under its own key. -/
theorem filed_assetPrices (r : Resolver) (assets : List Asset) (currency : String) (feed : Feed)
    (d : Enquiry.Desk) :
    ∃ prices d', (r.assetPrices assets currency).run feed d = (.ok prices, d') ∧ Filed prices :=
  filed_addPrices r currency feed assets filed_nil d

/-! ### Values -/

/-- How an asset is valued by a table. -/
structure ValuedByOwn (prices : Prices) (currency : String) (a : Asset) : Prop where
  value : marketValue prices currency a = match usedPrice? prices currency a with
    | some p => balanceValue a p
    | none => .ok (.finite .zero)
  /-- The price that is used is one of the table, and the asset's. -/
  used : ∀ p, usedPrice? prices currency a = some p → (p.key, p) ∈ prices ∧ p.IsOf a currency
  /-- If the table has a price of the asset, the value is that of the balance at this price. -/
  priced : ∀ p, (p.key, p) ∈ prices → p.IsOf a currency → p.price ≠ "" →
    usedPrice? prices currency a = some p ∧ marketValue prices currency a = balanceValue a p
  /-- If the table has none, the asset is worth nothing, whatever else stands under its key. -/
  unpriced : (∀ p, (p.key, p) ∈ prices → p.IsOf a currency → p.price = "") →
    usedPrice? prices currency a = none ∧ marketValue prices currency a = .ok (.finite .zero)
  /-- Prices of other assets or in other currencies make no difference. -/
  others : ∀ other, Filed other → (∀ p, p.IsOf a currency → ((p.key, p) ∈ other ↔ (p.key, p) ∈ prices)) →
    marketValue other currency a = marketValue prices currency a

/-- An asset is valued with its own price in the currency that is asked for or not at all, even where the price
of another asset stands under its key. -/
theorem valued_by_own_price (filed : Filed prices) (currency : String) (a : Asset) :
    ValuedByOwn prices currency a := by
  refine ⟨marketValue_eq prices currency a, fun p hused => ?_, fun p hfound hown hprice => ?_,
    fun hempty => ?_, fun other hother hsame => ?_⟩
  · obtain ⟨hfound, hown, -⟩ := filed.usedPrice?_eq_some_iff.mp hused
    exact ⟨hfound, hown⟩
  · have hused := filed.usedPrice?_eq_some_iff.mpr ⟨hfound, hown, hprice⟩
    exact ⟨hused, by rw [marketValue_eq, hused]⟩
  · have hnone : usedPrice? prices currency a = none := by
      refine Option.eq_none_iff_forall_ne_some.mpr fun p hused => ?_
      obtain ⟨hfound, hown, hprice⟩ := filed.usedPrice?_eq_some_iff.mp hused
      exact hprice (hempty p hfound hown)
    exact ⟨hnone, by rw [marketValue_eq, hnone]⟩
  · -- Only prices of the asset can be used, and both tables have the same ones of these.
    have hused : usedPrice? other currency a = usedPrice? prices currency a := by
      refine Option.ext fun p => ?_
      rw [hother.usedPrice?_eq_some_iff, filed.usedPrice?_eq_some_iff]
      constructor
      · rintro ⟨hfound, hown, hprice⟩
        exact ⟨(hsame p hown).mp hfound, hown, hprice⟩
      · rintro ⟨hfound, hown, hprice⟩
        exact ⟨(hsame p hown).mpr hfound, hown, hprice⟩
    rw [marketValue_eq, marketValue_eq, hused]

end

/-! A table in which the price of one token stands under the key of another one. -/

namespace SharedKey

open UnpricedCoin (coin)

def prices : Prices :=
  [("ERC_20_TOKEN-A-B-USD", ⟨"A-B", "USD", "2", "", .erc20⟩),
    ("ERC_20_TOKEN-C-USD", ⟨"C", "USD", "", "", .erc20⟩)]

/-- One and a half tokens of a symbol. -/
def token (symbol : String) : Asset :=
  { coin with assetType := .erc20, mainnetSymbol := symbol, balance := ⟨false, 15, -1⟩ }

/-- In dollars the token with the dash is worth its price. The other one is looked up under the same key in
the currency `B-USD`, and is worth nothing there. -/
theorem valued_without_shared_price :
    Filed prices
    ∧ MarketPrice.keyOf .erc20 "A-B" "USD" = MarketPrice.keyOf .erc20 "A" "B-USD"
    ∧ marketValue prices "USD" (token "A-B") = .ok (.finite ⟨false, 30, -1⟩)
    ∧ marketValue prices "B-USD" (token "A") = .ok (.finite .zero)
    ∧ marketValue prices "USD" (token "C") = .ok (.finite .zero) := by
  have filed : Filed prices := ⟨by decide, by decide⟩
  have hown := valued_by_own_price filed "USD" (token "A-B")
  have hshared := valued_by_own_price filed "B-USD" (token "A")
  have hempty := valued_by_own_price filed "USD" (token "C")
  refine ⟨filed, by decide, ?_, (hshared.unpriced ?_).2, (hempty.unpriced ?_).2⟩
  · exact (hown.priced ⟨"A-B", "USD", "2", "", .erc20⟩ (by decide) ⟨rfl, rfl, rfl⟩ (by decide)).2.trans
      (by decide +kernel)
  · -- No entry has the symbol of this token.
    intro p hfound ⟨_, hsymbol, _⟩
    have hsymbols : ∀ entry ∈ prices, entry.2.symbol ≠ "A" := by decide
    exact absurd hsymbol (hsymbols _ hfound)
  · intro p hfound ⟨_, hsymbol, _⟩
    have hpriceless : ∀ entry ∈ prices, entry.2.symbol = "C" → entry.2.price = "" := by decide
    exact hpriceless _ hfound hsymbol

end SharedKey

end Portfolio

end ChainWallet
