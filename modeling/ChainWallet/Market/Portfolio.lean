import ChainWallet.Decimal.Order
import ChainWallet.Decimal.Printer
import ChainWallet.Decimal.Reader
import ChainWallet.Keyed
import ChainWallet.Market.Price

/-!
# The value of a portfolio

An asset is worth its balance times its price; without a usable price it is worth nothing.

* `displayText` — an amount without exponent and without superfluous zeros.
* `balanceValue` — the balance of an asset at a price.
* `marketValue` — the same with the price looked up in a table; a price of another symbol under the
  same key does not count.
* `sortByValue` — the assets with their values, the most valuable first; assets of equal value keep
  their order.
-/

namespace ChainWallet.Portfolio

open Decimal (Context Signal)

/-- The text of an amount as it is shown. -/
def displayText (n : Numeral) : Except Signal String :=
  (n.normalize .amounts).map (·.toPlainText)

/-- The text of a finite amount as it is shown. -/
def displayDecimal (d : Decimal) : Except Signal String :=
  (d.normalize .amounts).map (·.toPlainText)

abbrev Prices := List (String × MarketPrice)

/-- The value of an asset's balance at a price. -/
def balanceValue (a : Asset) (p : MarketPrice) : Except Signal Numeral :=
  if p.price.isEmpty then .ok (.finite .zero)
  else match Numeral.read? p.price with
    | none => .ok (.finite .zero)
    | some price => price.scale .amounts a.balance

/-- The value of an asset in a currency. -/
def marketValue (prices : Prices) (currency : String) (a : Asset) : Except Signal Numeral :=
  match prices.lookup (MarketPrice.keyOf a.assetType a.mainnetSymbol currency) with
  | none => .ok (.finite .zero)
  | some p =>
    -- Keys of different prices can be one text, so the symbol is looked at again.
    if p.price.isEmpty || a.mainnetSymbol != p.symbol then .ok (.finite .zero)
    else balanceValue a p

/-- An asset with its value. -/
structure Valued where
  asset : Asset
  value : Numeral
  deriving DecidableEq, Repr

/-- Whether a value is at least another one; both must be comparable. -/
def atLeast (v w : Valued) : Bool :=
  match v.value.lt? w.value with
  | .ok below => !below
  | .error _ => true

def values (prices : Prices) (currency : String) (assets : List Asset) : Except Signal (List Valued) :=
  assets.mapM fun a => (marketValue prices currency a).map (Valued.mk a)

/-- The assets with their values in descending order. With a NaN among several values there is no
order. -/
def sortByValue (prices : Prices) (currency : String) (assets : List Asset) :
    Except Signal (List Valued) :=
  (values prices currency assets).bind fun vs =>
    if 2 ≤ vs.length && vs.any (·.value.isNaN) then .error .invalidOperation
    else .ok (vs.mergeSort atLeast)

end ChainWallet.Portfolio
