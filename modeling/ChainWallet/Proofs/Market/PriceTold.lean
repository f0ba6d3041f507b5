import ChainWallet.Api.Prices
import ChainWallet.Market.Rehearsal
import ChainWallet.Proofs.Decimal.RoundTrip
import ChainWallet.Proofs.Store.WellKept

/-!
# The price that is told

Whatever fails on the way to the price of an asset, its owner is told a price: an empty one. No lookup that
succeeds is mistaken for that, because the text of a number is never empty.

* **`Decimal.toPlainText_ne_empty`**, **`tokenPrice_ne_empty`** — a price that is found is not empty.
* **`run_assetPrice`** — telling a price is looking it up, and then either writing it down or writing down
  that there is none.
* **`MarketPrice.Tells`**, **`price_told_or_empty`** — so the price that is told says which of the two it was,
  on the page of the asset too, and that page is missing only for assets that are not stored.
-/

namespace ChainWallet

/-! ### Prices that are found -/

/-- No decimal is written as the empty text: its coefficient has a digit at least. -/
theorem Decimal.toPlainText_ne_empty (d : Decimal) : d.toPlainText ≠ "" := by
  have hdigits : digits d.coefficient ≠ [] := by
    have hpos := digitCount_pos d.coefficient
    rw [← length_digits] at hpos
    exact List.ne_nil_of_length_pos hpos
  intro hempty
  rw [toPlainText, String.ofList_eq_empty_iff, List.append_eq_nil_iff] at hempty
  have hbody := hempty.2
  split at hbody
  · -- A point has at least a zero before it.
    unfold withPoint at hbody
    split at hbody
    · exact hdigits hbody
    · simp at hbody
  · exact hdigits (List.append_eq_nil_iff.mp hbody).1

theorem Portfolio.displayDecimal_ne_empty {d : Decimal} {text : String} (h : displayDecimal d = .ok text) :
    text ≠ "" := by
  unfold displayDecimal at h
  cases hn : d.normalize .amounts with
  | error signal =>
    rw [hn] at h
    cases h
  | ok shown =>
    rw [hn] at h
    cases h
    exact shown.toPlainText_ne_empty

theorem exists_of_bind_eq_ok {ε α β : Type} {x : Except ε α} {f : α → Except ε β} {b : β}
    (h : (x >>= f) = .ok b) : ∃ a, x = .ok a ∧ f a = .ok b := by
  cases x with
  | error e => cases h
  | ok a => exact ⟨a, rfl, h⟩

theorem Decimal.eq_ok_of_orFail {α : Type} {x : Except Signal α} {a : α} (h : orFail x = .ok a) :
    x = .ok a := by
  cases x with
  | error signal => cases h
  | ok b =>
    cases h
    rfl

theorem Resolver.convert_ne_empty {token : TokenRecord} {rate : Decimal} {p : FiatPrice}
    (h : convert token rate = .ok p) : p.price ≠ "" := by
  obtain ⟨product, -, h⟩ := exists_of_bind_eq_ok (Decimal.eq_ok_of_orFail h)
  have hshown : ∃ change text, Portfolio.displayDecimal product = .ok text ∧ p = ⟨text, change⟩ := by
    dsimp only at h
    split at h
    all_goals
      obtain ⟨change, -, h⟩ := exists_of_bind_eq_ok h
      obtain ⟨text, htext, h⟩ := exists_of_bind_eq_ok h
      cases h
      exact ⟨change, text, htext, rfl⟩
  obtain ⟨change, text, htext, rfl⟩ := hshown
  exact Portfolio.displayDecimal_ne_empty htext

namespace Enquiry

variable {α β : Type}

theorem exists_of_run_seq {feed : Feed} {x : Enquiry α} {f : α → Enquiry β} {d : Desk} {b : β}
    (h : ((x >>= f).run feed d).1 = .ok b) : ∃ a d', ((f a).run feed d').1 = .ok b := by
  rw [run_seq] at h
  split at h
  · next a d' _ => exact ⟨a, d', h⟩
  · cases h

end Enquiry

open Enquiry

namespace Resolver

variable {r : Resolver} {a : Asset} {currency : String} {feed : Feed} {d : Desk}

/-- A price that is found is not empty. -/
theorem tokenPrice_ne_empty {p : FiatPrice} (h : ((r.tokenPrice a currency).run feed d).1 = .ok p) :
    p.price ≠ "" := by
  obtain ⟨slug, d, h⟩ := exists_of_run_seq h
  obtain ⟨body, d, h⟩ := exists_of_run_seq h
  obtain ⟨token, d, h⟩ := exists_of_run_seq h
  have hlast : ∃ rate, convert token rate = .ok p := by
    dsimp only at h
    split at h
    · exact ⟨.one, by simpa [run_seq] using h⟩
    · obtain ⟨rate, d, h⟩ := exists_of_run_seq h
      exact ⟨rate, by simpa using h⟩
  obtain ⟨rate, hconvert⟩ := hlast
  exact convert_ne_empty hconvert

/-! ### Prices that are told -/

/-- The price of an asset that tells an outcome of its lookup. -/
def told (a : Asset) (currency : String) : Except Failure FiatPrice → MarketPrice
  | .ok found => ⟨a.mainnetSymbol, currency, found.price, found.dailyChange, a.assetType⟩
  | .error _ => ⟨a.mainnetSymbol, currency, "", "", a.assetType⟩

/-- A price is looked up, and what came of it is told. -/
theorem run_assetPrice (r : Resolver) (a : Asset) (currency : String) (feed : Feed) (d : Desk) :
    (r.assetPrice a currency).run feed d
      = (.ok (told a currency ((r.tokenPrice a currency).run feed d).1),
        ((r.tokenPrice a currency).run feed d).2) := by
  rw [assetPrice, run_seq, run_attempt]
  cases ((r.tokenPrice a currency).run feed d).1 <;> rfl

end Resolver

/-- A price tells the outcome of looking it up: what was found, or by an empty text that nothing was. -/
structure MarketPrice.Tells (a : Asset) (currency : String) (outcome : Except Failure FiatPrice)
    (p : MarketPrice) : Prop where
  symbol : p.symbol = a.mainnetSymbol
  currency : p.currency = currency
  assetType : p.assetType = a.assetType
  empty_iff : p.price = "" ↔ ∃ f, outcome = .error f
  change : p.price = "" → p.dailyChange = ""
  found : ∀ t, outcome = .ok t → p.price = t.price ∧ p.dailyChange = t.dailyChange ∧ p.price ≠ ""

theorem Resolver.tells_told {r : Resolver} {a : Asset} {currency : String} {feed : Feed} {d : Desk} :
    (told a currency ((r.tokenPrice a currency).run feed d).1).Tells a currency
      ((r.tokenPrice a currency).run feed d).1 := by
  cases hrun : ((r.tokenPrice a currency).run feed d).1 with
  | error f =>
    exact ⟨rfl, rfl, rfl, ⟨fun _ => ⟨f, rfl⟩, fun _ => rfl⟩, fun _ => rfl, fun _ h => nomatch h⟩
  | ok t =>
    have hne : t.price ≠ "" := tokenPrice_ne_empty hrun
    refine ⟨rfl, rfl, rfl, ⟨fun hempty => absurd hempty hne, fun ⟨_, h⟩ => nomatch h⟩,
      fun hempty => absurd hempty hne, fun u hu => ?_⟩
    cases hu
    exact ⟨rfl, rfl, hne⟩

/-! ### The page of an asset -/

namespace Api.Service

/-- The page of an asset shows the price that is told for it, and is missing only if no such asset is
stored. -/
structure ShowsPrice (v : Service) (s : Store) (c : Call) (feed : Feed) (d : Desk) (identifier : String) :
    Prop where
  stored : identifier ∈ s.assets.map AssetRow.identifier → ∃ a p d',
    s.findAsset identifier = .ok (some a)
      ∧ (v.resolver.assetPrice a (v.currency c)).run feed d = (.ok p, d')
      ∧ (v.price s c identifier).run feed d = (.ok (.ok p.toJson), d')
  missing : ∀ answer, ((v.price s c identifier).run feed d).1 = .ok answer → answer.status = 404 →
    identifier ∉ s.assets.map AssetRow.identifier

/-- A stored asset is found under its identifier, so what its page shows is what the resolver tells for it. -/
theorem showsPrice_of_wellKept {s : Store} (kept : s.WellKept) (v : Service) (c : Call) (feed : Feed)
    (d : Desk) (identifier : String) : v.ShowsPrice s c feed d identifier := by
  -- Whatever the look-up comes to is put into the record, so the page cannot fail here.
  have hpage : ∀ a, s.findAsset identifier = .ok (some a) →
      (v.price s c identifier).run feed d
        = (.ok (.ok (Resolver.told a (v.currency c)
            ((v.resolver.tokenPrice a (v.currency c)).run feed d).1).toJson),
          ((v.resolver.tokenPrice a (v.currency c)).run feed d).2) := by
    intro a ha
    simp only [price, run_seq, run_ofExcept, ha, Resolver.run_assetPrice, run_pure]
  constructor
  · intro hmem
    obtain ⟨a, ha⟩ := Store.exists_findAsset kept hmem
    exact ⟨a, _, _, ha, Resolver.run_assetPrice _ _ _ _ _, hpage a ha⟩
  · intro answer hanswer hstatus hmem
    obtain ⟨a, ha⟩ := Store.exists_findAsset kept hmem
    rw [hpage a ha] at hanswer
    cases hanswer
    -- The answer has the status 200 then.
    cases hstatus

end Api.Service

/-- The price of an asset is told whatever the resolver remembers and its feed answers, and it is empty
exactly if looking it up fails. So the page of a stored asset always shows it. -/
theorem price_told_or_empty (r : Resolver) (v : Api.Service) (feed : Feed) (d : Desk) :
    (∀ a currency, ∃ p,
      (r.assetPrice a currency).run feed d = (.ok p, ((r.tokenPrice a currency).run feed d).2)
        ∧ p.Tells a currency ((r.tokenPrice a currency).run feed d).1)
      ∧ ∀ (s : Store) (c : Api.Call) (identifier : String), s.WellKept →
        v.ShowsPrice s c feed d identifier :=
  ⟨fun a currency => ⟨_, r.run_assetPrice a currency feed d, Resolver.tells_told⟩,
    fun _ c identifier kept => Api.Service.showsPrice_of_wellKept kept v c feed d identifier⟩

/-! A wallet with one coin, whose price nobody tells. -/

namespace UnpricedCoin

def wallet : WalletDraft :=
  { identifier := "wallet-1", name := "", address := "", addressIndex := 0, standard := .bip44
    kind := .normal, networkPrefix := "cro", assets := [] }

def coin : Asset :=
  { identifier := "coin", walletId := "wallet-1", assetType := .tendermint, mainnetSymbol := "CRO"
    symbol := "CRO", name := "", decimals := 8, balance := .zero, address := "", config := none }

def store : Store := (Store.empty.putWallet wallet).putAsset coin

theorem wellKept_store : store.WellKept :=
  (Store.wellKept_empty.saveWallet (Store.saveWallet_of_fits (by decide))).putAsset (by decide) (by decide)

def service : Api.Service where
  base := ""
  origins := []
  defaultCurrency := "USD"
  resolver := ⟨"v1", "v2", "fiat", ⟨[], []⟩⟩

def call : Api.Call := ⟨"GET", "/prices/coin".toList, [], []⟩

/-- No feed answers, so the coin is shown with an empty price. -/
theorem empty_price_shown : store.WellKept ∧ ∃ answer d',
    (service.price store call "coin").run FeedRehearsal.silent.feed .empty = (.ok answer, d')
      ∧ answer = .ok (MarketPrice.mk "CRO" "USD" "" "" .tendermint).toJson
      ∧ answer.status = 200
      ∧ answer.body = .json (.obj [("asset_symbol", .str "CRO"), ("currency", .str "USD"), ("price", .str ""),
        ("daily_change", .str ""), ("asset_type", .str "TENDERMINT")]) := by
  obtain ⟨htold, hpage⟩ := price_told_or_empty service.resolver service FeedRehearsal.silent.feed .empty
  obtain ⟨a, p, d', hfind, hprice, hshown⟩ := (hpage store call "coin" wellKept_store).stored (by decide)
  have hstored : store.findAsset "coin" = .ok (some coin) := by decide +kernel
  obtain rfl : a = coin := by simpa using hfind.symm.trans hstored
  -- A silent feed is one that answers every request with the status 404.
  have hfails : ((service.resolver.tokenPrice coin "USD").run FeedRehearsal.silent.feed .empty).1
      = .error (.httpStatus (some 404) "v2/all-tokens") := by decide +kernel
  obtain ⟨q, hq, htells⟩ := htold coin (service.currency call)
  obtain rfl : q = p := by simpa using congrArg Prod.fst (hq.symm.trans hprice)
  have hempty : q.price = "" := htells.empty_iff.mpr ⟨_, hfails⟩
  -- What is told pins every member of the record, so its text can be given.
  have hrecord : q = ⟨"CRO", "USD", "", "", .tendermint⟩ := by
    cases q
    rw [MarketPrice.mk.injEq]
    exact ⟨htells.symbol, htells.currency, hempty, htells.change hempty, htells.assetType⟩
  exact ⟨wellKept_store, _, d', hrecord ▸ hshown, rfl, rfl, rfl⟩

end UnpricedCoin

end ChainWallet
