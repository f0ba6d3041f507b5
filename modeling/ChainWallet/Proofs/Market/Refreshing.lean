import ChainWallet.Proofs.Market.PriceKey
import ChainWallet.Proofs.Market.PriceTold
import ChainWallet.Refresh

/-!
# What a refresh stores

A refresh looks up a price for every stored asset, but assets of one type and symbol have one price, so it
looks that one up once. Prices that were found are stored in the rows of their types, symbols and currency;
all other rows stay.

* **`firstOfEachToken`**, **`assetPrices_eq`** — prices are looked up for the first asset of each type and
  symbol and for nothing else, in the order in which they are stored. Whatever characters a symbol has, the
  texts under which they are collected tell them apart (`MarketPrice.keyOf_eq_iff`).
* **`Store.Refreshed`**, **`prices_refreshed`** — what is stored afterwards, for every store, resolver and feed.
-/

namespace ChainWallet

open Enquiry (Desk run_seq run_pure)

/-! ### What is looked up -/

/-- What an asset has its price by. -/
def Asset.token (a : Asset) : AssetType × String := (a.assetType, a.mainnetSymbol)

/-- The first asset of each type and symbol. -/
def firstOfEachToken : List Asset → List Asset
  | [] => []
  | a :: rest => a :: (firstOfEachToken rest).filter (·.token ≠ a.token)

/-- Some assets of a list stand for all of them: each type and symbol has exactly one, which is the first asset
of that type and symbol. -/
structure Represent (firsts assets : List Asset) : Prop where
  sublist : firsts.Sublist assets
  distinct : firsts.Pairwise (·.token ≠ ·.token)
  first : ∀ a ∈ assets, ∃ b ∈ firsts, assets.find? (·.token = a.token) = some b

/-- The first assets of each token stand for all. -/
theorem represent_firstOfEachToken (assets : List Asset) : Represent (firstOfEachToken assets) assets := by
  induction assets with
  | nil => exact ⟨.refl [], .nil, fun _ h => nomatch h⟩
  | cons a rest ih =>
    refine ⟨(List.filter_sublist.trans ih.sublist).cons_cons a, .cons (fun b hb => ?_)
      (ih.distinct.sublist List.filter_sublist), fun b hb => ?_⟩
    · exact Ne.symm (by simpa using (List.mem_filter.mp hb).2)
    · -- An asset of the token of the head is represented by the head.
      by_cases hfirst : a.token = b.token
      · exact ⟨a, List.mem_cons_self, by simp [hfirst]⟩
      · -- The first one of another type and symbol comes later, and the filter leaves it.
        obtain ⟨c, hc, hfind⟩ := ih.first b ((List.mem_cons.mp hb).resolve_left fun e => hfirst (e ▸ rfl))
        have htoken : c.token = b.token := by simpa using List.find?_some hfind
        refine ⟨c, List.mem_cons_of_mem a (List.mem_filter.mpr ⟨hc, ?_⟩), ?_⟩
        · simpa [htoken] using Ne.symm hfirst
        · rw [List.find?_cons_of_neg (by simpa using hfirst), hfind]

namespace Resolver

variable (r : Resolver) (currency : String)

/-- Whether the price of an asset is in a table. -/
def listed (prices : Portfolio.Prices) (a : Asset) : Bool :=
  (prices.lookup (MarketPrice.keyOf a.assetType a.mainnetSymbol currency)).isSome

/-- The price of an asset with its key. -/
def keyedPrice (a : Asset) : Enquiry (String × MarketPrice) := do
  return (MarketPrice.keyOf a.assetType a.mainnetSymbol currency, ← r.assetPrice a currency)

/-- After a price is added, the assets of its type and symbol are listed, and all that were before. -/
theorem listed_append (prices : Portfolio.Prices) (a b : Asset) (price : MarketPrice) :
    listed currency (prices ++ [(MarketPrice.keyOf a.assetType a.mainnetSymbol currency, price)]) b
      = (listed currency prices b || decide (b.token = a.token)) := by
  -- In one currency two assets have one key exactly if they are of one type and symbol.
  have hkey : (MarketPrice.keyOf b.assetType b.mainnetSymbol currency
      == MarketPrice.keyOf a.assetType a.mainnetSymbol currency) = decide (b.token = a.token) := by
    rw [Bool.eq_iff_iff, beq_iff_eq, decide_eq_true_iff, MarketPrice.keyOf_eq_iff, Asset.token, Asset.token,
      Prod.mk.injEq]
  rw [listed, listed, List.lookup_append, Option.isSome_or, List.lookup_cons, hkey]
  cases decide (b.token = a.token) <;> rfl

theorem listed_congr {a b : Asset} (h : a.token = b.token) (prices : Portfolio.Prices) :
    listed currency prices a = listed currency prices b := by
  rw [Asset.token, Asset.token, Prod.mk.injEq] at h
  rw [listed, listed, h.1, h.2]

/-- The prices that are added to a table are those of the first assets whose prices are not in it. -/
theorem addPrices_eq (assets : List Asset) (prices : Portfolio.Prices) :
    r.addPrices currency assets prices = do
      return prices ++ (← ((firstOfEachToken assets).filter (!listed currency prices ·)).mapM
        (r.keyedPrice currency)) := by
  induction assets generalizing prices with
  | nil => simp [addPrices, firstOfEachToken]
  | cons a rest ih =>
    rw [addPrices, firstOfEachToken]
    cases ha : listed currency prices a with
    | true =>
      -- What is not in the table yet is of other types or symbols.
      have hothers : ((firstOfEachToken rest).filter (·.token ≠ a.token)).filter (!listed currency prices ·)
          = (firstOfEachToken rest).filter (!listed currency prices ·) := by
        rw [List.filter_filter]
        refine List.filter_congr fun b _ => ?_
        by_cases hb : b.token = a.token
        · simp [listed_congr currency hb, ha]
        · simp [hb]
      rw [if_pos (show (prices.lookup _).isSome from ha), List.filter_cons_of_neg (by simp [ha]), hothers, ih]
    | false =>
      -- The head is looked up, and from then on its token is listed, which is to say filtered.
      have hrest : ∀ price, (firstOfEachToken rest).filter (!listed currency
            (prices ++ [(MarketPrice.keyOf a.assetType a.mainnetSymbol currency, price)]) ·)
          = ((firstOfEachToken rest).filter (·.token ≠ a.token)).filter (!listed currency prices ·) := by
        intro price
        rw [List.filter_filter]
        refine List.filter_congr fun b _ => ?_
        simp [listed_append, Bool.and_comm]
      rw [if_neg (show ¬(prices.lookup _).isSome from Bool.eq_false_iff.mp ha),
        List.filter_cons_of_pos (by simp [ha]), List.mapM_cons]
      simp only [ih, hrest, keyedPrice, bind_assoc, pure_bind, List.append_assoc, List.singleton_append]

/-- The prices of assets are looked up for the first one of each type and symbol, and for no other. -/
theorem assetPrices_eq (assets : List Asset) :
    r.assetPrices assets currency = (firstOfEachToken assets).mapM (r.keyedPrice currency) := by
  have hnew : (firstOfEachToken assets).filter (!listed currency [] ·) = firstOfEachToken assets := by
    simp [listed]
  rw [assetPrices, addPrices_eq, hnew]
  simp

/-- Every look-up of a list ends with a price, and the key of the price tells what was looked up. -/
theorem run_mapM_keyedPrice (assets : List Asset) (feed : Feed) (d : Desk) :
    ∃ prices table d', (assets.mapM (r.assetPrice · currency)).run feed d = (.ok prices, d')
      ∧ (assets.mapM (r.keyedPrice currency)).run feed d = (.ok table, d')
      ∧ table.map Prod.snd = prices
      ∧ prices.map MarketPrice.storeKey
        = assets.map fun a => ⟨a.assetType, a.mainnetSymbol, currency⟩ := by
  induction assets generalizing d with
  | nil => exact ⟨[], [], d, rfl, rfl, rfl, rfl⟩
  | cons a rest ih =>
    obtain ⟨prices, table, d', hprices, htable, hsame, hkeys⟩ :=
      ih ((r.tokenPrice a currency).run feed d).2
    have htells : (told a currency ((r.tokenPrice a currency).run feed d).1).Tells a currency
        ((r.tokenPrice a currency).run feed d).1 := tells_told
    -- No look-up raises, so the rest is looked up from where the first one leaves the desk.
    refine ⟨told a currency ((r.tokenPrice a currency).run feed d).1 :: prices,
      (MarketPrice.keyOf a.assetType a.mainnetSymbol currency,
        told a currency ((r.tokenPrice a currency).run feed d).1) :: table, d', ?_, ?_, ?_, ?_⟩
    · rw [List.mapM_cons, run_seq, run_assetPrice]
      simp only [run_seq, hprices, run_pure]
    · rw [List.mapM_cons, run_seq, keyedPrice, run_seq, run_assetPrice]
      simp only [run_seq, htable, run_pure]
    · rw [List.map_cons, hsame]
    · rw [List.map_cons, List.map_cons, hkeys, MarketPrice.storeKey, htells.symbol, htells.currency,
        htells.assetType]

end Resolver

/-! ### What is stored -/

namespace Keyed

variable {κ ρ : Type} [DecidableEq κ] {key : ρ → κ}

theorem find?_foldl_upsert_of_not_mem {new : List ρ} {k : κ} (h : k ∉ new.map key) (rows : List ρ) :
    find? key k (new.foldl (fun rows row => upsert key row rows) rows) = find? key k rows := by
  induction new generalizing rows with
  | nil => rfl
  | cons row rest ih =>
    rw [List.map_cons, List.mem_cons, not_or] at h
    rw [List.foldl_cons, ih h.2, find?_upsert_of_ne key h.1]

/-- Of rows with distinct keys each is found afterwards. -/
theorem find?_foldl_upsert_of_mem {new : List ρ} (distinct : (new.map key).Nodup) {row : ρ} (h : row ∈ new)
    (rows : List ρ) :
    find? key (key row) (new.foldl (fun rows row => upsert key row rows) rows) = some row := by
  induction new generalizing rows with
  | nil => cases h
  | cons first rest ih =>
    rw [List.map_cons, List.nodup_cons] at distinct
    rw [List.foldl_cons]
    rcases List.mem_cons.mp h with rfl | h
    · rw [find?_foldl_upsert_of_not_mem distinct.1, find?_upsert_self]
    · exact ih distinct.2 h _

/-- The rows of other keys stay, in their order. -/
theorem filter_foldl_upsert {new : List ρ} {p : ρ → Bool}
    (hp : ∀ k ∈ new.map key, ∀ row, key row = k → p row = false) (rows : List ρ) :
    (new.foldl (fun rows row => upsert key row rows) rows).filter p = rows.filter p := by
  induction new generalizing rows with
  | nil => rfl
  | cons row rest ih =>
    rw [List.foldl_cons, ih fun k hk => hp k (List.mem_cons_of_mem _ hk)]
    have hrow := hp (key row) List.mem_cons_self
    exact filter_upsert key (hrow row rfl) fun other _ => hrow other

end Keyed

namespace Store

variable {s t : Store}

theorem foldl_savePrice (found : List MarketPrice) (s : Store) : found.foldl savePrice s
    = { s with prices := found.foldl (fun rows p => Keyed.upsert MarketPrice.storeKey p rows) s.prices } := by
  induction found generalizing s with
  | nil => rfl
  | cons p rest ih => exact ih (s.savePrice p)

/-- The store that a refresh leaves which has looked up some prices. -/
structure Refreshed (s : Store) (prices : List MarketPrice) (t : Store) : Prop where
  wallets : t.wallets = s.wallets
  assets : t.assets = s.assets
  /-- A price that was found is stored under its type, symbol and currency. -/
  found : ∀ p ∈ prices, p.price ≠ "" → t.findPrice p.assetType p.symbol p.currency = some p
  /-- Where none was found there is what was there before, or still nothing. -/
  others : ∀ assetType symbol currency,
    (∀ p ∈ prices, p.price ≠ "" → p.storeKey ≠ ⟨assetType, symbol, currency⟩) →
    t.findPrice assetType symbol currency = s.findPrice assetType symbol currency
  /-- No other row is touched, moved or added. -/
  rows : (t.prices.filter fun row => ∀ p ∈ prices, p.price ≠ "" → p.storeKey ≠ row.storeKey)
    = s.prices.filter fun row => ∀ p ∈ prices, p.price ≠ "" → p.storeKey ≠ row.storeKey

/-- Storing prices with distinct keys stores those that tell anything, leaves the rest and counts what it
stores. -/
theorem refreshed_of_distinct {prices : List MarketPrice} (distinct : (prices.map MarketPrice.storeKey).Nodup) :
    (s.saveMarketPrices prices).1 = prices.countP (·.price ≠ "")
      ∧ s.Refreshed prices (s.saveMarketPrices prices).2 := by
  have hempty : ∀ p : MarketPrice, (!p.price.isEmpty) = decide (p.price ≠ "") := by
    intro p
    rw [Bool.eq_iff_iff]
    simp
  have hsaved : s.saveMarketPrices prices = ((prices.filter (·.price ≠ "")).length,
      (prices.filter (·.price ≠ "")).foldl savePrice s) := by
    simp only [saveMarketPrices, hempty]
  have hmem : ∀ p, p ∈ prices.filter (·.price ≠ "") ↔ p ∈ prices ∧ p.price ≠ "" := by
    intro p
    simp
  -- Prices with distinct keys do not overwrite each other.
  have hdistinct : ((prices.filter (·.price ≠ "")).map MarketPrice.storeKey).Nodup :=
    distinct.sublist (List.filter_sublist.map _)
  rw [hsaved, foldl_savePrice]
  refine ⟨List.countP_eq_length_filter.symm, rfl, rfl, fun p hp hprice => ?_,
    fun assetType symbol currency hne => ?_, ?_⟩
  · exact Keyed.find?_foldl_upsert_of_mem hdistinct ((hmem p).mpr ⟨hp, hprice⟩) s.prices
  · refine Keyed.find?_foldl_upsert_of_not_mem (fun hkey => ?_) s.prices
    obtain ⟨p, hp, hsame⟩ := List.mem_map.mp hkey
    exact hne p ((hmem p).mp hp).1 ((hmem p).mp hp).2 hsame
  · refine Keyed.filter_foldl_upsert (fun k hk row hrow => ?_) s.prices
    obtain ⟨p, hp, hsame⟩ := List.mem_map.mp hk
    simp only [decide_eq_false_iff_not]
    exact fun hall => hall p ((hmem p).mp hp).1 ((hmem p).mp hp).2 (hsame.trans hrow.symm)

end Store

/-- A refresh fails only if the stored assets cannot be read, whatever the resolver remembers and its feed
answers. Otherwise it looks up the prices of the assets that come first of their type and symbol, one after the
other and nothing else, and of these it stores those it finds and tells how many they are. -/
theorem prices_refreshed (r : Resolver) (feed : Feed) (currency : String) (d : Desk) (s : Store) :
    (∀ f, (refreshPrices r feed currency d s).1 = .error f ↔ s.allAssets = .error f)
      ∧ ∀ assets, s.allAssets = .ok assets → Represent (firstOfEachToken assets) assets ∧ ∃ prices d' t,
        ((firstOfEachToken assets).mapM (r.assetPrice · currency)).run feed d = (.ok prices, d')
          ∧ prices.map MarketPrice.storeKey
            = (firstOfEachToken assets).map (fun a => ⟨a.assetType, a.mainnetSymbol, currency⟩)
          ∧ refreshPrices r feed currency d s = (.ok (prices.countP (·.price ≠ "")), d', t)
          ∧ s.Refreshed prices t
          ∧ (assets = [] → d' = d) := by
  cases hall : s.allAssets with
  | error f => simp [refreshPrices, hall]
  | ok assets =>
    have hfirsts := represent_firstOfEachToken assets
    obtain ⟨prices, table, d', hprices, htable, hsame, hkeys⟩ :=
      r.run_mapM_keyedPrice currency (firstOfEachToken assets) feed d
    -- In one currency the assets that come first of their token have prices of distinct keys.
    have hdistinct : (prices.map MarketPrice.storeKey).Nodup := by
      rw [hkeys]
      refine List.Pairwise.map _ (fun a b hne hkey => hne ?_) hfirsts.distinct
      rw [PriceKey.mk.injEq] at hkey
      exact Prod.ext hkey.1 hkey.2.1
    obtain ⟨hcount, hstored⟩ := s.refreshed_of_distinct hdistinct
    have hrun : refreshPrices r feed currency d s
        = (.ok (prices.countP (·.price ≠ "")), d', (s.saveMarketPrices prices).2) := by
      rw [← hcount, ← hsame]
      cases assets with
      | nil =>
        -- Without assets a refresh does not ask the resolver at all.
        obtain ⟨rfl, rfl⟩ : table = [] ∧ d' = d := by simpa [firstOfEachToken, eq_comm] using htable
        simp only [refreshPrices, hall]
        rfl
      | cons a rest => simp only [refreshPrices, hall, r.assetPrices_eq, htable]
    refine ⟨fun f => by simp [hrun], fun _ hassets => ?_⟩
    cases hassets
    refine ⟨hfirsts, prices, d', _, hprices, hkeys, hrun, hstored, ?_⟩
    rintro rfl
    exact (congrArg Prod.snd hprices).symm

/-! A wallet with the same coin twice and a token whose symbol has a dash, to which no feed has a price. -/

namespace DashedToken

open UnpricedCoin (coin)

def token : Asset :=
  { coin with identifier := "token", assetType := .erc20, mainnetSymbol := "CRO-USD" }

def again : Asset := { coin with identifier := "coin-2" }

/-- The price of the token as it was once found. -/
def lastPrice : MarketPrice := ⟨"CRO-USD", "USD", "7", "", .erc20⟩

def store : Store :=
  ((UnpricedCoin.store.putAsset again).putAsset token).savePrice lastPrice

/-- A feed that knows the coin alone. -/
def feed : FeedRehearsal where
  outcomes :=
    [("v2/all-tokens", .ok ⟨200, .ok (.arr [
        .obj [("slug", .str "crypto-com-coin"), ("symbol", .str "CRO")]])⟩),
      ("v1/tokens/crypto-com-coin", .ok ⟨200, .ok (.obj [("slug", .str "crypto-com-coin"),
        ("symbol", .str "CRO"), ("usd_price", .str "0.10")])⟩)]

/-- The price of the coin is stored, and the token keeps the one it has. -/
theorem last_price_kept : ∃ d' t,
    refreshPrices UnpricedCoin.service.resolver feed.feed "USD" .empty store = (.ok 1, d', t)
      ∧ t.findPrice .tendermint "CRO" "USD" = some ⟨"CRO", "USD", "0.1", "", .tendermint⟩
      ∧ t.findPrice .erc20 "CRO-USD" "USD" = some lastPrice := by
  obtain ⟨-, hrefresh⟩ := prices_refreshed UnpricedCoin.service.resolver feed.feed "USD" .empty store
  obtain ⟨-, prices, d', t, hprices, -, hrun, ht, -⟩ := hrefresh [coin, again, token] (by decide +kernel)
  have hfound : (((firstOfEachToken [coin, again, token]).mapM
      (UnpricedCoin.service.resolver.assetPrice · "USD")).run feed.feed .empty).1
        = .ok [⟨"CRO", "USD", "0.1", "", .tendermint⟩, ⟨"CRO-USD", "USD", "", "", .erc20⟩] := by
    decide +kernel
  -- The look-ups are those of the refresh, so these are its prices.
  rw [hprices] at hfound
  cases hfound
  refine ⟨d', t, hrun, ht.found _ List.mem_cons_self (by decide), ?_⟩
  rw [ht.others .erc20 "CRO-USD" "USD" (by simp [MarketPrice.storeKey])]
  decide +kernel

end DashedToken

end ChainWallet
