import ChainWallet.Proofs.Store.Calls
import Mathlib.Data.List.Induction

/-!
# The store as a set of maps

Each table is a map from its keys. Wallets and prices are what was saved last under their keys; the assets are
divided among the wallets.

* **`lastWallet`, `lastPrice`** — what was saved last under a key.
* **`Session.Follows`** — that a session has committed these; `Session.Follows.after` is the step and
  `follows_sessionAfter` the whole history.
* **`store_is_set_of_maps`** — so the store is a set of maps whatever was saved, in whatever sessions, and a
  list of assets is saved exactly if all its owners are stored.
-/

namespace ChainWallet

/-- The session after calls on an empty store. -/
def sessionAfter (calls : List StoreCall) : Session :=
  calls.foldl Session.after (.on .empty)

/-- The wallet that was saved last under an identifier. -/
def lastWallet (identifier : String) (calls : List StoreCall) : Option WalletDraft :=
  calls.reverse.findSome? fun
    | .saveWallet w => if w.identifier = identifier then some w else none
    | _ => none

/-- The price that was saved last under a key. -/
def lastPrice (key : PriceKey) (calls : List StoreCall) : Option MarketPrice :=
  calls.reverse.findSome? fun
    | .savePrice p => if p.storeKey = key then some p else none
    | _ => none

variable {calls : List StoreCall} {x : Session}

/-! ### Sessions -/

/-- A well-kept session in which the wallets and prices are those that were saved last. -/
structure Session.Follows (calls : List StoreCall) (x : Session) : Prop extends x.WellKept where
  findWallet : ∀ identifier, x.committed.findWallet identifier
    = (lastWallet identifier calls).map WalletDraft.row
  findPrice : ∀ key, Keyed.find? MarketPrice.storeKey key x.committed.prices = lastPrice key calls

/-- Only a wallet with the identifier can be the last one saved under it. -/
theorem lastWallet_concat (identifier : String) (calls : List StoreCall) (c : StoreCall) :
    lastWallet identifier (calls ++ [c]) = match c with
      | .saveWallet w => if w.identifier = identifier then some w else lastWallet identifier calls
      | _ => lastWallet identifier calls := by
  cases c with
  | saveWallet w => by_cases h : w.identifier = identifier <;> simp [lastWallet, h]
  | saveAssets | savePrice | reopen => simp [lastWallet]

/-- Only a price with the key can be the last one saved under it. -/
theorem lastPrice_concat (key : PriceKey) (calls : List StoreCall) (c : StoreCall) :
    lastPrice key (calls ++ [c]) = match c with
      | .savePrice p => if p.storeKey = key then some p else lastPrice key calls
      | _ => lastPrice key calls := by
  cases c with
  | savePrice p => by_cases h : p.storeKey = key <;> simp [lastPrice, h]
  | saveWallet | saveAssets | reopen => simp [lastPrice]

/-- A call leaves the session with what was then saved last. -/
theorem Session.Follows.after (h : x.Follows calls) {c : StoreCall} (storable : c.Storable) :
    (x.after c).Follows (calls ++ [c]) := by
  -- Wallets and prices are looked at one after the other; for each only one kind of call makes a difference.
  refine ⟨h.toWellKept.after storable, fun identifier => ?_, fun key => ?_⟩
  · have hlast := h.findWallet identifier
    rw [lastWallet_concat]
    rcases Session.after_cases x storable with ⟨w, rfl, hafter⟩ | ⟨assets, t, rfl, hsave, hafter⟩
      | ⟨before, rest, held, rfl, -, hafter⟩ | ⟨p, rfl, hafter⟩ | ⟨rfl, hafter⟩ <;> rw [hafter]
    · -- The wallets before are those that are committed.
      rw [apply_ite (Option.map WalletDraft.row), ← hlast, ← h.toWellKept.findWallet]
      exact Store.findWallet_putWallet x.current w identifier
    · rw [← hlast, ← h.toWellKept.findWallet]
      exact congrArg _ (Store.saveAssets_others hsave).1
    · exact hlast
    · exact (h.toWellKept.findWallet identifier).trans hlast
    · exact hlast
  · have hlast := h.findPrice key
    rw [lastPrice_concat]
    rcases Session.after_cases x storable with ⟨w, rfl, hafter⟩ | ⟨assets, t, rfl, hsave, hafter⟩
      | ⟨before, rest, held, rfl, -, hafter⟩ | ⟨p, rfl, hafter⟩ | ⟨rfl, hafter⟩ <;> rw [hafter]
    · exact (congrArg _ h.prices).trans hlast
    · rw [← hlast, ← h.prices]
      exact congrArg _ (Store.saveAssets_others hsave).2
    · exact hlast
    · rw [← hlast, ← h.prices]
      exact Keyed.find?_upsert MarketPrice.storeKey p x.current.prices key
    · exact hlast

/-- By induction on the calls, the last of which is looked at first: what was saved last is decided from the
end. -/
theorem follows_sessionAfter (storable : ∀ c ∈ calls, c.Storable) : (sessionAfter calls).Follows calls := by
  induction calls using List.reverseRecOn with
  | nil =>
    exact ⟨Session.wellKept_on Store.wellKept_empty, fun _ => rfl, fun _ => rfl⟩
  | append_singleton calls c ih =>
    have hstep : sessionAfter (calls ++ [c]) = (sessionAfter calls).after c := by simp [sessionAfter]
    rw [hstep]
    exact (ih fun b hb => storable b (List.mem_append_left [c] hb)).after (storable c (by simp))

/-! ### Maps -/

/-- Each table has one row for a key; wallets and prices are those that were saved last, and the assets are
divided among the wallets. -/
structure Store.IsMapsOf (calls : List StoreCall) (s : Store) : Prop where
  wallets : (s.wallets.map WalletRow.identifier).Nodup
  assets : (s.assets.map AssetRow.identifier).Nodup
  prices : (s.prices.map MarketPrice.storeKey).Nodup
  findWallet : ∀ identifier, s.findWallet identifier = (lastWallet identifier calls).map WalletDraft.row
  findPrice : ∀ assetType symbol currency,
    s.findPrice assetType symbol currency = lastPrice ⟨assetType, symbol, currency⟩ calls
  owned : ∀ r ∈ s.assets, ∃! w, w ∈ s.wallets ∧ w.identifier = r.owner
  divided : ∃ all, s.allAssets = .ok all
    ∧ (∀ w ∈ s.wallets, s.walletAssets w.identifier = .ok (all.filter (·.walletId = w.identifier)))
    ∧ all.Perm (s.wallets.flatMap fun w => all.filter (·.walletId = w.identifier))

/-- A well-kept store that finds what was saved last is a set of maps. -/
theorem Store.WellKept.isMapsOf {s : Store} (kept : s.WellKept)
    (findWallet : ∀ identifier, s.findWallet identifier = (lastWallet identifier calls).map WalletDraft.row)
    (findPrice : ∀ key, Keyed.find? MarketPrice.storeKey key s.prices = lastPrice key calls) :
    s.IsMapsOf calls where
  wallets := kept.wallets
  assets := kept.assets
  prices := kept.prices
  findWallet := findWallet
  findPrice assetType symbol currency := findPrice ⟨assetType, symbol, currency⟩
  owned r hr := by
    obtain ⟨w, hw, howner⟩ := List.mem_map.mp (kept.owned r hr)
    -- Only one row has the identifier, so the owner is that one.
    refine ⟨w, ⟨hw, howner⟩, fun v hv => ?_⟩
    have hfindv := (Keyed.find?_eq_some_iff kept.wallets).mpr hv
    have hfindw := (Keyed.find?_eq_some_iff kept.wallets).mpr ⟨hw, howner⟩
    exact Option.some.inj (hfindv.symm.trans hfindw)
  divided := by
    obtain ⟨all, hall, -, hparts, hperm⟩ := Store.allAssets_of_wellKept kept
    exact ⟨all, hall, hparts, hperm⟩

/-- So are the store that is committed and the one that the session sees: they differ in assets only. -/
theorem Session.Follows.isMapsOf (h : x.Follows calls) :
    x.committed.IsMapsOf calls ∧ x.current.IsMapsOf calls :=
  ⟨h.committed.isMapsOf h.findWallet h.findPrice,
    h.current.isMapsOf (fun identifier => (h.toWellKept.findWallet identifier).trans (h.findWallet identifier))
      fun key => (congrArg _ h.prices).trans (h.findPrice key)⟩

/-- A list of assets is saved if all its owners are stored, and else nothing of it is. -/
structure Session.SavesOwned (x : Session) (assets : List Asset) : Prop where
  fails_iff : (∃ f, (x.saveAssets assets).1 = .error f ∧ f.cls = .walletNotFound)
    ↔ ∃ a ∈ assets, x.close.findWallet a.walletId = none
  unchanged : (∃ a ∈ assets, x.close.findWallet a.walletId = none) → (x.saveAssets assets).2.close = x.close
  saves : (∀ a ∈ assets, x.close.findWallet a.walletId ≠ none) → (x.saveAssets assets).1 = .ok ()
  last : (x.saveAssets assets).1 = .ok () → ∀ before a after, assets = before ++ a :: after →
    (∀ b ∈ after, b.identifier ≠ a.identifier) →
    ∃ config, (x.saveAssets assets).2.close.findAsset a.identifier = .ok (some { a with config })

/-- A list of assets is saved if every one has its owner, and leaves nothing behind if one has none. -/
theorem Session.Follows.savesOwned (h : x.Follows calls) {assets : List Asset}
    (storable : ∀ a ∈ assets, a.Storable) : x.SavesOwned assets := by
  have hfits : ∀ a ∈ assets, fitsColumn a.decimals = true := fun a ha => (storable a ha).decimals
  -- The session finds the wallets that are committed.
  have howner : ∀ a : Asset, x.current.findWallet a.walletId = x.close.findWallet a.walletId :=
    fun a => h.toWellKept.findWallet a.walletId
  by_cases unowned : ∃ a ∈ assets, x.close.findWallet a.walletId = none
  · have hunowned : ∃ a ∈ assets, x.current.findWallet a.walletId = none := by simpa only [howner] using unowned
    obtain ⟨a, ha, hmissing, hsave⟩ := Store.saveAssets_of_unowned hfits hunowned
    obtain ⟨before, after, held, -, -, hfailed⟩ := Session.saveAssets_of_error hsave
    rw [howner] at hmissing
    constructor
    · rw [hfailed]
      exact ⟨fun _ => unowned, fun _ => ⟨_, rfl, rfl⟩⟩
    · rw [hfailed]
      exact fun _ => rfl
    · exact fun owned => absurd hmissing (owned a ha)
    · rw [hfailed]
      exact fun hok => nomatch hok
  · have howned : ∀ a ∈ assets, (x.current.findWallet a.walletId).isSome := by
      intro a ha
      rw [howner, Option.isSome_iff_ne_none]
      exact fun hmissing => unowned ⟨a, ha, hmissing⟩
    have hsaved := Session.saveAssets_of_ok (Store.saveAssets_of_owned howned hfits)
    constructor
    · rw [hsaved]
      exact ⟨fun ⟨_, hfailed, _⟩ => (nomatch hfailed), fun hmissing => absurd hmissing unowned⟩
    · exact fun hmissing => absurd hmissing unowned
    · rw [hsaved]
      exact fun _ => rfl
    · -- The last asset of an identifier has overwritten the ones before it.
      rintro - before a after rfl hlast
      have hfound := Store.findAssetRow_foldl_last (s := x.current) before hlast
      generalize (before.foldl Store.putAsset x.current).findAssetRow a.identifier = present at hfound
      have hread := asset_row (storable a (by simp)).balance present
      rw [hsaved]
      exact ⟨(a.keptOver present).config, Store.findAsset_of_row hfound hread⟩

/-- After any saves, in any sessions, successful or failing, the store is a set of maps, and what the open
session sees is one too; and a list of assets is saved by it if and only if all its owners are stored. -/
theorem store_is_set_of_maps {calls : List StoreCall} (storable : ∀ c ∈ calls, c.Storable)
    {assets : List Asset} (fits : ∀ a ∈ assets, a.Storable) :
    (sessionAfter calls).committed.IsMapsOf calls ∧ (sessionAfter calls).current.IsMapsOf calls
      ∧ (sessionAfter calls).SavesOwned assets := by
  have hfollows := follows_sessionAfter storable
  obtain ⟨hcommitted, hcurrent⟩ := hfollows.isMapsOf
  exact ⟨hcommitted, hcurrent, hfollows.savesOwned fits⟩

namespace PendingCoin

def wallet : WalletDraft :=
  { identifier := "wallet-1", name := "", address := "", addressIndex := 0, standard := .bip44
    kind := .normal, networkPrefix := "cro", assets := [] }

def coin : Asset :=
  { identifier := "coin", walletId := "wallet-1", assetType := .tendermint, mainnetSymbol := "CRO"
    symbol := "CRO", name := "", decimals := 8, balance := .zero, address := "", config := none }

def price : MarketPrice :=
  { symbol := "CRO", currency := "usd", price := "0.1", dailyChange := "", assetType := .tendermint }

/-- A list of assets that fails after its first one, which the next save commits. -/
def history : List StoreCall :=
  [.saveWallet wallet, .saveAssets [coin, { coin with identifier := "stray", walletId := "elsewhere" }],
    .savePrice price, .reopen]

/-- All values of the history have columns. -/
theorem storable_history : ∀ c ∈ history, c.Storable := by
  have hcoin : coin.Storable := ⟨by decide, by decide⟩
  have hstray : Asset.Storable { coin with identifier := "stray", walletId := "elsewhere" } :=
    ⟨hcoin.decimals, hcoin.balance⟩
  simp [history, StoreCall.Storable, hcoin, hstray, wallet, fitsColumn]

/-- The coin with the first balance, then with the second one. -/
def twice : List Asset :=
  [{ coin with balance := ⟨false, 5, 0⟩ }, { coin with balance := ⟨false, 7, 0⟩ }]

/-- The coin is stored once, and the second of its balances counts. -/
theorem second_balance_counts :
    ((sessionAfter history).committed.assets.map AssetRow.identifier = ["coin"])
      ∧ ((sessionAfter history).saveAssets twice).1 = .ok ()
      ∧ ∃ config, ((sessionAfter history).saveAssets twice).2.close.findAsset "coin"
        = .ok (some { coin with balance := ⟨false, 7, 0⟩, config }) := by
  have fits : ∀ a ∈ twice, a.Storable := by
    simpa [twice] using ⟨⟨by decide, by decide +kernel⟩, ⟨by decide, by decide +kernel⟩⟩
  obtain ⟨-, -, saves⟩ := store_is_set_of_maps storable_history fits
  have hsaved := saves.saves (by decide)
  have hlast := saves.last hsaved [{ coin with balance := ⟨false, 5, 0⟩ }]
    { coin with balance := ⟨false, 7, 0⟩ } [] rfl (by simp)
  have hstored : (sessionAfter history).committed.assets.map AssetRow.identifier = ["coin"] := by decide
  exact ⟨hstored, hsaved, hlast⟩

end PendingCoin

end ChainWallet
