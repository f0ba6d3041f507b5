import ChainWallet.Asset

/-!
# Prices and the records of price feeds

* `MarketPrice` — the price of an asset in a currency, as texts; an empty price stands for a lookup
  that failed.
* `TokenSlug`, `TokenRecord`, `PriceSeries`, `FiatRates` — what the feeds answer.
-/

namespace ChainWallet

open Schema

/-- The price of an asset in a currency. -/
structure MarketPrice where
  symbol : String
  currency : String
  price : String
  dailyChange : String
  assetType : AssetType
  deriving DecidableEq, Repr

namespace MarketPrice

/-- The key under which a price stands in a table of prices. -/
def keyOf (assetType : AssetType) (symbol currency : String) : String :=
  Named.name assetType ++ "-" ++ symbol ++ "-" ++ currency

def key (p : MarketPrice) : String :=
  keyOf p.assetType p.symbol p.currency

def model : Model MarketPrice where
  name := "AssetMarketPrice"
  read := record fun ms =>
    MarketPrice.mk <$> ms.required "asset_symbol" text <*> ms.required "currency" text
      <*> ms.optional "price" "" text <*> ms.optional "daily_change" "" text
      <*> ms.required "asset_type" (member Named.ofName?)

def toJson (p : MarketPrice) : Json :=
  .obj [("asset_symbol", .str p.symbol), ("currency", .str p.currency), ("price", .str p.price),
    ("daily_change", .str p.dailyChange), ("asset_type", .str (Named.name p.assetType))]

end MarketPrice

/-- The name of a token in the price feed. -/
structure TokenSlug where
  slug : String
  symbol : String
  tags : Option (List String)
  deriving DecidableEq, Repr

def TokenSlug.model : Model TokenSlug where
  name := "TokenSlug"
  read := record fun ms =>
    TokenSlug.mk <$> ms.required "slug" text <*> ms.required "symbol" text
      <*> ms.optional "tags" none (nullable (list text))

/-- A token with its price in US dollars. -/
structure TokenRecord extends TokenSlug where
  usdPrice : Decimal
  usdDailyChange : Option Decimal
  deriving DecidableEq, Repr

def TokenRecord.model : Model TokenRecord where
  name := "TokenPriceRecord"
  read := record fun ms =>
    TokenRecord.mk <$> TokenSlug.model.read (.obj ms) <*> ms.required "usd_price" decimal
      <*> ms.optional "usd_price_change_24h" none (nullable decimal)

/-- A price and its change over a day in some currency, as texts. -/
structure FiatPrice where
  price : String
  dailyChange : String
  deriving DecidableEq, Repr

/-- The record of a price in some currency. -/
def FiatPrice.model : Model FiatPrice where
  name := "TokenFiatPrice"
  read := record fun ms =>
    FiatPrice.mk <$> ms.required "fiat_price" text <*> ms.required "daily_change" text

/-- The prices of a token over time, with whatever else the feed tells along with them. -/
structure PriceSeries where
  prices : List (List Binary64)
  extras : List (String × Json)

namespace PriceSeries

def model : Model PriceSeries where
  name := "TokenPriceSeries"
  read := record fun ms =>
    (PriceSeries.mk · (ms.filter (·.1 != "prices"))) <$> ms.required "prices" (list (list number))

def toJson (s : PriceSeries) : Json :=
  .obj (("prices", .arr (s.prices.map fun row => .arr (row.map .float))) :: s.extras)

end PriceSeries

/-- The exchange rates of a currency. -/
structure FiatRates where
  currency : String
  rates : List (String × Decimal)
  deriving DecidableEq, Repr

def FiatRates.model : Model FiatRates where
  name := "FiatRates"
  read := record fun ms =>
    FiatRates.mk <$> ms.required "currency" text <*> ms.required "rates" (table decimal)

/-- An answer with exchange rates. -/
structure ExchangeRates where
  data : FiatRates
  deriving DecidableEq, Repr

/-- The record of an answer with exchange rates. -/
def ExchangeRates.model : Model ExchangeRates where
  name := "ExchangeRatesResponse"
  read := record fun ms => ExchangeRates.mk <$> ms.required "data" FiatRates.model.read

end ChainWallet
