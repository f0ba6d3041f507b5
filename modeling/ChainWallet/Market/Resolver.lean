import ChainWallet.Market.Enquiry
import ChainWallet.Market.Portfolio
import ChainWallet.Market.Whitelist
import ChainWallet.Settings

/-!
# The price resolver

Prices are looked up by the name that the price feed has for a token. Several tokens share a symbol,
so the name of an asset is found in two stages: the feed's directory gives the candidates with the
asset's symbol, and of these the first one counts whose record says that it can be trusted.

* `resolveSlug` — the feed's name for an asset; names that were found are remembered.
* `tokenPrice` — the price of an asset and its change over a day, in a currency.
* `assetPrice` — the same for display: a lookup that fails gives an empty price.
* `assetPrices` — the prices of many assets, each token looked up once.
* `priceSeries` — the prices of a token over time.
* `fiatRate` — the rate from one currency to another.
-/

namespace ChainWallet

/-- A resolver: the addresses of its feeds and the tokens it trusts. -/
structure Resolver where
  priceApiV1Url : String
  priceApiV2Url : String
  fiatRateApiUrl : String
  whitelists : Whitelists
  deriving DecidableEq, Repr

namespace Resolver

/-- The resolver that the settings of a deployment describe. -/
def ofSettings (s : Settings) : Resolver where
  priceApiV1Url := s.priceApiV1Url
  priceApiV2Url := s.priceApiV2Url
  fiatRateApiUrl := s.fiatRateApiUrl
  whitelists := .ofSettings s.crc20Symbols s.erc20Symbols

/-! ### Requests -/

def directoryRequest (r : Resolver) : Request :=
  { url := r.priceApiV2Url ++ "/all-tokens" }

/-- The request for the record of a token. -/
def tokenRequest (r : Resolver) (slug : String) : Request :=
  { url := r.priceApiV1Url ++ "/tokens/" ++ slug }

/-- The request for the prices of a token over time. -/
def seriesRequest (r : Resolver) (slug currency interval : String) : Request :=
  { url := r.priceApiV2Url ++ "/" ++ interval ++ "/" ++ slug ++ "/"
    params := [("convert", .str currency)] }

/-- The request for the rates of a currency. -/
def ratesRequest (r : Resolver) (currency : String) : Request :=
  { url := r.fiatRateApiUrl ++ "/exchange-rates"
    params := [("currency", .str currency)] }

/-! ### The directory -/

/-- The directory that an answer writes: a list of names that is not empty. -/
def directoryOf (j : Json) : Except Failure (List TokenSlug) :=
  if j.isVoid then .error .directoryEmpty
  -- The entries of an object are its names and those of a text its characters, none of which is a record.
  else match j with
    | .arr entries => entries.mapM TokenSlug.model.validate
    | .obj _ | .str _ => .error (.rejected TokenSlug.model.name [⟨.notARecord, []⟩])
    | _ => .error .notIterable

/-- The directory of token names. It is asked for until it is there, and then kept. -/
def directory (r : Resolver) : Enquiry (List TokenSlug) :=
  .guarded .directory do
    let memory ← .memory
    if memory.directory.isEmpty then
      let directory ← .ofExcept (directoryOf (← .fetch r.directoryRequest .directory))
      .rememberDirectory directory
      pure directory
    else pure memory.directory

/-! ### Names -/

/-- The tokens that can be trusted whatever the asset. -/
def nativeSlugs : List String := ["crypto-com-coin", "ethereum", "cosmos"]

/-- The tag of tokens that belong to the Cronos chain. -/
def cronosTag : String := "cronos-ecosystem"

/-- Whether a token can be trusted to be the one of an asset of some type. -/
def supports (r : Resolver) (assetType : AssetType) (token : TokenRecord) : Bool :=
  nativeSlugs.contains token.slug || match assetType with
    | .crc20 => r.whitelists.crc20.contains token.symbol || (token.tags.getD []).contains cronosTag
    | .erc20 => r.whitelists.erc20.contains (Text.upper token.symbol)
    | _ => false

/-- The entries of a directory for an asset. -/
def candidates (directory : List TokenSlug) (a : Asset) : List TokenSlug :=
  directory.filter (·.symbol == a.mainnetSymbol)

/-- The records that a list of answers writes. With answers in the order of the candidates the first failure in
that order counts; a caller in a crowd goes on with the failure that it heard of first, and that one counts. -/
def recordsOf (answers : List (Except Failure Json)) : Except Failure (List TokenRecord) :=
  answers.mapM fun a => a.bind TokenRecord.model.validate

/-- The name of the first candidate that can be trusted. -/
def supportedSlug (r : Resolver) (a : Asset) : Enquiry (Option String) := do
  match candidates (← r.directory) a with
  | [] => pure none
  | found =>
    let answers ← .fetchAll (.candidates a.identifier) (found.map fun c => r.tokenRequest c.slug)
    let records ← .ofExcept (recordsOf answers)
    pure ((records.find? (r.supports a.assetType)).map (·.slug))

/-- The feed's name for an asset, if there is one that can be trusted. -/
def resolveSlug (r : Resolver) (a : Asset) : Enquiry (Option String) := do
  match (← .memory).slugs.get? a.identifier with
  | some slug => pure (some slug)
  | none =>
    .guarded (.slug a.identifier) do
      -- Whoever held the lock before may have found the name.
      match (← .memory).slugs.get? a.identifier with
      | some slug => pure (some slug)
      | none =>
        let slug ← r.supportedSlug a
        if let some name := slug then .rememberSlug a.identifier name
        pure slug

/-- The feed's name for an asset, or the failure that there is none; an empty name is none. -/
def knownSlug (r : Resolver) (a : Asset) (shownSymbol : String) : Enquiry String := do
  match ← r.resolveSlug a with
  | some slug => if slug.isEmpty then .fail (.slugNotFound shownSymbol) else pure slug
  | none => .fail (.slugNotFound shownSymbol)

/-! ### Prices -/

/-- The currency in which the price feed tells prices. -/
def feedCurrency : String := "USD"

/-- The rate between two currencies that an answer about the first one writes. -/
def rateOf (base quote : String) (j : Json) : Except Failure Decimal := do
  let rates := (← ExchangeRates.model.validate j).data
  match rates.rates.lookup quote with
  | some rate => if rates.currency = base then .ok rate else .error (.rateMissing base quote)
  | none => .error (.rateMissing base quote)

def fiatRate (r : Resolver) (base quote : String) : Enquiry Decimal := do
  .ofExcept (rateOf base quote (← .fetch (r.ratesRequest base)))

/-- The price of a token at a rate, and its change over a day. -/
def convert (token : TokenRecord) (rate : Decimal) : Except Failure FiatPrice :=
  Decimal.orFail do
    let product ← token.usdPrice.mul .amounts rate
    let change ← match token.usdDailyChange with
      | some change => Portfolio.displayDecimal change
      | none => pure ""
    pure ⟨← Portfolio.displayDecimal product, change⟩

/-- The price of an asset in a currency. -/
def tokenPrice (r : Resolver) (a : Asset) (currency : String) : Enquiry FiatPrice := do
  let slug ← r.knownSlug a a.mainnetSymbol
  let token ← .ofExcept (TokenRecord.model.validate (← .fetch (r.tokenRequest slug)))
  -- Prices are told in one currency, and no rate is asked for where that is the one that is wanted.
  let rate ← if currency = feedCurrency then pure .one else r.fiatRate feedCurrency currency
  .ofExcept (convert token rate)

/-- The price of an asset in a currency as an owner sees it; it is empty if the lookup fails. -/
def assetPrice (r : Resolver) (a : Asset) (currency : String) : Enquiry MarketPrice := do
  let found := match ← (r.tokenPrice a currency).attempt with
    | .ok price => price
    | .error _ => ⟨"", ""⟩
  pure ⟨a.mainnetSymbol, currency, found.price, found.dailyChange, a.assetType⟩

/-- The prices of the assets that are not in a table of prices yet, added to it. -/
def addPrices (r : Resolver) (currency : String) :
    List Asset → Portfolio.Prices → Enquiry Portfolio.Prices
  | [], prices => pure prices
  | a :: rest, prices =>
    let key := MarketPrice.keyOf a.assetType a.mainnetSymbol currency
    if (prices.lookup key).isSome then r.addPrices currency rest prices
    else do
      let price ← r.assetPrice a currency
      r.addPrices currency rest (prices ++ [(key, price)])

/-- The prices of a list of assets by their keys; each key is looked up once. -/
def assetPrices (r : Resolver) (assets : List Asset) (currency : String) : Enquiry Portfolio.Prices :=
  r.addPrices currency assets []

/-- The series that an answer about a token writes. -/
def seriesOf (slug : String) (j : Json) : Except Failure PriceSeries :=
  match j with
  | .obj members =>
    -- An empty list counts as none.
    if ((Json.find? "prices" members).getD .null).isVoid then .error (.seriesMissing slug)
    else PriceSeries.model.validate j
  | _ => .error (.seriesMissing slug)

def priceSeries (r : Resolver) (a : Asset) (currency interval : String) : Enquiry PriceSeries := do
  let slug ← r.knownSlug a a.symbol
  .ofExcept (seriesOf slug (← .fetch (r.seriesRequest slug currency interval)))

end Resolver

end ChainWallet
