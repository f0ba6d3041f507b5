import ChainWallet.Market.Resolver
import ChainWallet.Store.Basic

/-!
# Refreshing stored prices

A refresh looks up the price of every stored asset and stores the prices it finds. A price that could
not be found leaves the one that is stored.
-/

namespace ChainWallet

/-- Stores the prices of all stored assets in a currency; tells how many were found. -/
def refreshPrices (resolver : Resolver) (feed : Feed) (currency : String) (d : Enquiry.Desk)
    (s : Store) : Except Failure Nat × Enquiry.Desk × Store :=
  match s.allAssets with
  | .error f => (.error f, d, s)
  | .ok [] => (.ok 0, d, s)
  | .ok assets =>
    match (resolver.assetPrices assets currency).run feed d with
    | (.error f, d) => (.error f, d, s)
    | (.ok prices, d) =>
      let (count, s) := s.saveMarketPrices (prices.map Prod.snd)
      (.ok count, d, s)

end ChainWallet
