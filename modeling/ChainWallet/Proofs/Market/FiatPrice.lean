import ChainWallet.Proofs.Decimal.PlainText
import ChainWallet.Proofs.Market.Transparency

/-!
# Prices in a currency

The feed tells the price of a token in US dollars, to any number of digits, and a rate for other currencies. The
price in a currency is the product, which is rounded once to what amounts have room for, and shown.

* **`Rated`** — the rate that a price is converted at: one for US dollars, and otherwise the entry of the rates
  for that very currency.
* **`Converts`**, **`converts_convert`** — a conversion shows the price and its change over a day, each rounded,
  or one of them is too large.
* **`fiat_price_rounded`** — so the price of an asset whose record and rate are told is such a conversion.
-/

namespace ChainWallet

open Decimal (Context Shows)
open Enquiry

namespace Resolver

/-! ### Rates -/

/-- The rate that prices are converted at into a currency, told next by the feed unless there is no need. -/
inductive Rated (r : Resolver) (feed : Feed) (earlier : List Request) (currency : String) : Decimal → Prop where
  | own (same : currency = "USD") : Rated r feed earlier currency .one
  | told {body : Json} {rates : ExchangeRates} {rate : Decimal} (other : currency ≠ "USD")
      (answer : feed.answer earlier (r.ratesRequest "USD") = .ok body)
      (valid : ExchangeRates.model.validate body = .ok rates) (base : rates.data.currency = "USD")
      (entry : rates.data.rates.lookup currency = some rate) : Rated r feed earlier currency rate

/-- A valid body of the right base with an entry for the currency gives the rate of the entry. -/
theorem rateOf_eq_ok {base quote : String} {body : Json} {rates : ExchangeRates} {rate : Decimal}
    (valid : ExchangeRates.model.validate body = .ok rates) (hbase : rates.data.currency = base)
    (entry : rates.data.rates.lookup quote = some rate) : rateOf base quote body = .ok rate := by
  simp only [rateOf, valid, Bind.bind, Except.bind, entry]
  exact if_pos hbase

/-- With a rate at hand, converting goes on with that rate, asked for or not. -/
theorem run_rate_bind {α : Type} {r : Resolver} {feed : Feed} {currency : String} {rate : Decimal} {d : Desk}
    (rated : r.Rated feed d.sent currency rate) (k : Decimal → Except Failure α) :
    ((if currency = feedCurrency then (do let rate ← pure .one; .ofExcept (k rate))
      else (do let rate ← r.fiatRate feedCurrency currency; .ofExcept (k rate)) : Enquiry α).run feed d).1
      = k rate := by
  cases rated with
  | own same =>
    rw [if_pos (show currency = feedCurrency from same)]
    simp only [run_seq, run_pure, run_ofExcept]
  | told other answer valid base entry =>
    rw [if_neg (show currency ≠ feedCurrency from other)]
    simp only [fiatRate, feedCurrency, run_seq, run_fetch, answer, run_ofExcept, rateOf_eq_ok valid base entry]

/-! ### Conversions -/

/-- What becomes of the price of a token, and of its change over a day, at a rate. -/
inductive Converts (token : TokenRecord) (rate : Decimal) : Except Failure FiatPrice → Prop where
  | shown {p : FiatPrice} (price : Shows p.price (token.usdPrice.value * rate.value))
      (unchanged : p.dailyChange = "" ↔ token.usdDailyChange = none)
      (change : ∀ c, token.usdDailyChange = some c → Shows p.dailyChange c.value)
      (smallPrice : ¬ Context.amounts.Overflows (token.usdPrice.value * rate.value))
      (smallChange : ∀ c, token.usdDailyChange = some c → ¬ Context.amounts.Overflows c.value) :
      Converts token rate (.ok p)
  | tooLarge (large : Context.amounts.Overflows (token.usdPrice.value * rate.value)
      ∨ ∃ c, token.usdDailyChange = some c ∧ Context.amounts.Overflows c.value) :
      Converts token rate (.error (.arithmetic .overflow))

/-- Converting ends in no other way. -/
theorem converts_convert (token : TokenRecord) (rate : Decimal) : Converts token rate (convert token rate) := by
  unfold convert
  rcases Portfolio.displayProduct_cases token.usdPrice rate with
    ⟨product, text, hmul, htext, hprice, hsmall⟩ | ⟨hmul, hlarge⟩
  · rw [hmul]
    cases hchange : token.usdDailyChange with
    | none =>
      simp only [Decimal.orFail, Bind.bind, Except.bind, Pure.pure, Except.pure, htext, Except.mapError]
      exact .shown hprice ⟨fun _ => hchange, fun _ => rfl⟩ (fun c hc => nomatch hchange.symm.trans hc) hsmall
        (fun c hc => nomatch hchange.symm.trans hc)
    | some change =>
      -- The change is shown before the price, but the price has been computed by then.
      rcases Portfolio.displayDecimal_cases change with ⟨shown, hshown, hshows, hfits⟩ | ⟨hshown, hlarge⟩
      · simp only [Decimal.orFail, Bind.bind, Except.bind, Pure.pure, Except.pure, htext, hshown, Except.mapError]
        refine .shown hprice ⟨fun hempty => absurd hempty hshows.ne_empty, fun hnone => ?_⟩ ?_ hsmall ?_
        · cases hchange.symm.trans hnone
        · intro c hc
          cases hchange.symm.trans hc
          exact hshows
        · intro c hc
          cases hchange.symm.trans hc
          exact hfits
      · simp only [Decimal.orFail, Bind.bind, Except.bind, hshown, Except.mapError]
        exact .tooLarge (.inr ⟨change, hchange, hlarge⟩)
  · rw [hmul]
    exact .tooLarge (.inl hlarge)

/-- The price of an asset with a name, a record and a rate is what converting makes of them. -/
theorem run_tokenPrice {r : Resolver} {a : Asset} {currency slug : String} {feed : Feed} {d found : Desk}
    {token : TokenRecord} {rate : Decimal} (named : (r.resolveSlug a).run feed d = (.ok (some slug), found))
    (nonempty : slug ≠ "")
    (told : (feed.answer found.sent (r.tokenRequest slug)).bind TokenRecord.model.validate = .ok token)
    (rated : r.Rated feed (found.sent ++ [r.tokenRequest slug]) currency rate) :
    ((r.tokenPrice a currency).run feed d).1 = convert token rate := by
  have hempty : slug.isEmpty = false := by simpa using nonempty
  -- The name is not empty, so it counts.
  have hknown : (r.knownSlug a a.mainnetSymbol).run feed d = (.ok slug, found) := by
    simp only [knownSlug, run_seq, named, hempty, Bool.false_eq_true, if_false, run_pure]
  obtain ⟨body, hbody, hvalid⟩ : ∃ body, feed.answer found.sent (r.tokenRequest slug) = .ok body
      ∧ TokenRecord.model.validate body = .ok token := by
    cases hanswer : feed.answer found.sent (r.tokenRequest slug) with
    | error f =>
      rw [hanswer] at told
      cases told
    | ok body => exact ⟨body, rfl, by rwa [hanswer] at told⟩
  simp only [tokenPrice, run_seq, hknown, run_fetch, hbody, run_ofExcept, hvalid]
  exact run_rate_bind (d := ⟨found.memory, found.sent ++ [r.tokenRequest slug]⟩) rated (convert token)

/-- The price of an asset in a currency is the product of the price that is told and the rate, and it is shown
rounded once. It is told unless the product or the change over the day is too large. -/
theorem fiat_price_rounded (r : Resolver) (a : Asset) (currency slug : String) (feed : Feed) (d found : Desk)
    (token : TokenRecord) (rate : Decimal) (named : (r.resolveSlug a).run feed d = (.ok (some slug), found))
    (nonempty : slug ≠ "")
    (told : (feed.answer found.sent (r.tokenRequest slug)).bind TokenRecord.model.validate = .ok token)
    (rated : r.Rated feed (found.sent ++ [r.tokenRequest slug]) currency rate) :
    Converts token rate ((r.tokenPrice a currency).run feed d).1 := by
  rw [run_tokenPrice named nonempty told rated]
  exact converts_convert token rate

/-- A feed whose rate for euros has one digit too many, a five. -/
def longRate : FeedRehearsal where
  outcomes := [
    ("v2/all-tokens", .ok ⟨200, .ok (.arr [.obj [("slug", .str "ethereum"), ("symbol", .str "ETH")]])⟩),
    ("v1/tokens/ethereum", .ok ⟨200, .ok (.obj [("slug", .str "ethereum"), ("symbol", .str "ETH"),
      ("usd_price", .str "1.0"), ("usd_price_change_24h", .str "-2.50")])⟩),
    ("fiat/exchange-rates", .ok ⟨200, .ok (.obj [("data", .obj [("currency", .str "USD"),
      ("rates", .obj [("EUR", .str "0.33333333333333333333333333335")])])])⟩)]

def ether : Asset where
  identifier := "ether"
  walletId := ""
  assetType := .evm
  mainnetSymbol := "ETH"
  symbol := "ETH"
  name := ""
  decimals := 18
  balance := .zero
  address := ""
  config := none

/-- The price of one dollar ends in an even digit. -/
theorem price_at_long_rate :
    let etherToken : TokenRecord := ⟨⟨"ethereum", "ETH", none⟩, ⟨false, 10, -1⟩, some ⟨true, 250, -2⟩⟩
    let rate : Decimal := ⟨false, 33333333333333333333333333335, -29⟩
    ∃ found, (twoCoinsResolver.resolveSlug ether).run longRate.feed .empty = (.ok (some "ethereum"), found)
      ∧ "ethereum" ≠ ""
      ∧ (longRate.feed.answer found.sent (twoCoinsResolver.tokenRequest "ethereum")).bind
        TokenRecord.model.validate = .ok etherToken
      ∧ twoCoinsResolver.Rated longRate.feed (found.sent ++ [twoCoinsResolver.tokenRequest "ethereum"]) "EUR" rate
      ∧ Converts etherToken rate ((twoCoinsResolver.tokenPrice ether "EUR").run longRate.feed .empty).1
      ∧ ((twoCoinsResolver.tokenPrice ether "EUR").run longRate.feed .empty).1
        = .ok ⟨"0.3333333333333333333333333334", "-2.5"⟩ := by
  intro etherToken rate
  have hname : ((twoCoinsResolver.resolveSlug ether).run longRate.feed .empty).1 = .ok (some "ethereum") := by
    decide +kernel
  have hnamed : (twoCoinsResolver.resolveSlug ether).run longRate.feed .empty
      = (.ok (some "ethereum"), ((twoCoinsResolver.resolveSlug ether).run longRate.feed .empty).2) :=
    Prod.ext hname rfl
  -- What this feed answers does not depend on what was sent before.
  have htold : ∀ sent, (longRate.feed.answer sent (twoCoinsResolver.tokenRequest "ethereum")).bind
      TokenRecord.model.validate = .ok etherToken := by
    intro sent
    have hanswer : longRate.feed.answer sent (twoCoinsResolver.tokenRequest "ethereum")
        = longRate.feed.answer [] (twoCoinsResolver.tokenRequest "ethereum") := rfl
    rw [hanswer]
    decide +kernel
  have hrated : ∀ sent, twoCoinsResolver.Rated longRate.feed sent "EUR" rate := fun sent =>
    .told (by decide) (rfl : longRate.feed.answer sent (twoCoinsResolver.ratesRequest "USD") = .ok _)
      (by decide +kernel : ExchangeRates.model.validate _ = .ok ⟨⟨"USD", [("EUR", rate)]⟩⟩) rfl (by decide +kernel)
  refine ⟨_, hnamed, by decide, htold _, hrated _, ?_, by decide +kernel⟩
  exact fiat_price_rounded twoCoinsResolver ether "EUR" "ethereum" longRate.feed .empty _ etherToken rate hnamed
    (by decide) (htold _) (hrated _)

end Resolver

end ChainWallet
