import ChainWallet.Proofs.Store.WellKept
import ChainWallet.Proofs.Wallet.Storing

/-!
# A new wallet is loaded as it was stored

The wallet of a draft and its assets get a row each, at the end of their tables, and nothing that was stored
before belongs to the wallet. So the draft that is loaded has the assets of the draft that was stored, in
their order.

* **`WalletDraft.kept`** — the draft as far as it has columns.
* **`foldl_putAsset_of_new`** — the rows of new assets, in order.
* **`loaded_as_stored`** — a new draft is stored, and loaded with every field it had.
-/

namespace ChainWallet

open Ledger

def WalletDraft.kept (w : WalletDraft) : WalletDraft :=
  { w with assets := w.assets.map Asset.kept }

/-! ### Rows of new assets -/

namespace Store

variable {s : Store} {assets : List Asset}

/-- New assets come after those that are stored, in their order. -/
theorem foldl_putAsset_of_new (distinct : (assets.map (·.identifier)).Nodup)
    (new : ∀ a ∈ assets, a.identifier ∉ s.assets.map AssetRow.identifier) :
    assets.foldl putAsset s = { s with assets := s.assets ++ assets.map (·.row none) } := by
  induction assets generalizing s with
  | nil => simp
  | cons a rest ih =>
    obtain ⟨hfirst, hrest⟩ := List.nodup_cons.mp distinct
    have hnew := new a List.mem_cons_self
    have habsent : s.findAssetRow a.identifier = none := by
      rw [← Option.not_isSome_iff_eq_none]
      exact fun hfound => hnew (Keyed.find?_isSome_iff.mp hfound)
    -- A row under a new identifier is put at the end.
    have hput : s.putAsset a = { s with assets := s.assets ++ [a.row none] } := by
      rw [putAsset, habsent, Keyed.upsert_of_not_mem AssetRow.identifier hnew]
    rw [List.foldl_cons, hput, ih hrest]
    · simp
    · -- The asset that was just saved has another identifier than those to come.
      intro b hb hmem
      rw [List.map_append, List.mem_append] at hmem
      rcases hmem with hmem | hmem
      · exact new b (List.mem_cons_of_mem a hb) hmem
      · rw [List.map_singleton, List.mem_singleton] at hmem
        exact hfirst (List.mem_map.mpr ⟨b, hb, hmem⟩)

/-- The rows of new assets are read back as what is kept of these. -/
theorem mapM_asset_row (balances : ∀ a ∈ assets, a.balance.exactRange = true) :
    (assets.map (·.row none)).mapM AssetRow.asset = .ok (assets.map Asset.kept) := by
  induction assets with
  | nil => rfl
  | cons a rest ih =>
    have hfirst : (a.row none).asset = .ok a.kept := by
      rw [asset_row (balances a List.mem_cons_self), Asset.keptOver_none]
    have hrest := ih fun b hb => balances b (List.mem_cons_of_mem a hb)
    exact mapM_cons_eq_ok.mpr ⟨_, _, hfirst, hrest, rfl⟩

end Store

/-! ### Drafts -/

/-- The draft can be stored, and nothing is stored under its identifiers. -/
structure WalletDraft.NewTo (w : WalletDraft) (s : Store) : Prop where
  wallet : s.findWallet w.identifier = none
  assets : ∀ a ∈ w.assets, s.findAssetRow a.identifier = none
  distinct : (w.assets.map (·.identifier)).Nodup
  attached : ∀ a ∈ w.assets, a.walletId = "" ∨ a.walletId = w.identifier
  index : fitsColumn w.addressIndex = true
  storable : ∀ a ∈ w.assets, a.Storable

theorem WalletDraft.NewTo.attachAssets {w : WalletDraft} {s : Store} (new : w.NewTo s) :
    w.attachAssets.NewTo s where
  wallet := new.wallet
  assets a ha := by
    obtain ⟨b, hb, _, rfl⟩ := exists_mem_of_attachAssets ha
    exact new.assets b hb
  distinct := by
    rw [attachAssets_identifiers]
    exact new.distinct
  attached a ha := .inr (attachAssets_walletId new.attached a ha)
  index := new.index
  storable a ha := by
    obtain ⟨b, hb, _, rfl⟩ := exists_mem_of_attachAssets ha
    exact ⟨(new.storable b hb).decimals, (new.storable b hb).balance⟩

/-- The rows of a wallet are those of its draft, if no others belonged to it. -/
theorem Store.filter_owner {s : Store} {w : WalletDraft} (others : ∀ r ∈ s.assets, r.owner ≠ w.identifier)
    (attached : ∀ a ∈ w.assets, a.walletId = w.identifier) :
    (s.assets ++ w.assets.map (·.row none)).filter (·.owner == w.identifier) = w.assets.map (·.row none) := by
  have hothers : s.assets.filter (·.owner == w.identifier) = [] := by
    rw [List.filter_eq_nil_iff]
    exact fun r hr howner => others r hr (beq_iff_eq.mp howner)
  have hrows : (w.assets.map (·.row none)).filter (·.owner == w.identifier) = w.assets.map (·.row none) := by
    rw [List.filter_eq_self]
    intro r hr
    obtain ⟨a, ha, rfl⟩ := List.mem_map.mp hr
    exact beq_iff_eq.mpr (attached a ha)
  rw [List.filter_append, hothers, hrows, List.nil_append]

theorem Store.findWallet_putWallet_self (s : Store) (w : WalletDraft) :
    (s.putWallet w).findWallet w.identifier = some w.row :=
  (findWallet_putWallet s w w.identifier).trans (if_pos rfl)

theorem WalletDraft.NewTo.saveAssets {w : WalletDraft} {s : Store} (new : w.NewTo s)
    (attached : ∀ a ∈ w.assets, a.walletId = w.identifier) :
    (s.putWallet w).saveAssets w.assets
      = .ok { s.putWallet w with assets := s.assets ++ w.assets.map (·.row none) } := by
  rw [Store.saveAssets_of_owned, Store.foldl_putAsset_of_new new.distinct]
  · rfl
  · intro a ha hmem
    have hstored : (s.findAssetRow a.identifier).isSome := Keyed.find?_isSome_iff.mpr hmem
    rw [new.assets a ha] at hstored
    cases hstored
  · intro a ha
    rw [attached a ha, Store.findWallet_putWallet_self]
    rfl
  · exact fun a ha => (new.storable a ha).decimals

/-- With the rows of a wallet and its assets at the ends of the tables, the draft is loaded. -/
theorem Store.findDraft_of_rows {s : Store} {w : WalletDraft}
    (others : ∀ r ∈ s.assets, r.owner ≠ w.identifier)
    (attached : ∀ a ∈ w.assets, a.walletId = w.identifier)
    (balances : ∀ a ∈ w.assets, a.balance.exactRange = true) :
    ({ s.putWallet w with assets := s.assets ++ w.assets.map (·.row none) } : Store).findDraft w.identifier
      = .ok w.kept := by
  have hfound : ({ s.putWallet w with assets := s.assets ++ w.assets.map (·.row none) } : Store).findWallet
      w.identifier = some w.row := findWallet_putWallet_self s w
  rw [findDraft, hfound]
  show (List.mapM AssetRow.asset ((s.assets ++ w.assets.map (·.row none)).filter
    (·.owner == w.identifier))).map w.row.draft = .ok w.kept
  rw [filter_owner others attached, mapM_asset_row balances]
  rfl

/-- A new draft is stored, and what is loaded under its identifier is the draft that was stored, with its
assets in the same order, in all that has a column. -/
theorem loaded_as_stored {scene : Scene} {s : Store}
    (owned : ∀ r ∈ s.assets, r.owner ∈ s.wallets.map WalletRow.identifier) (new : scene.draft.NewTo s) :
    ∃ stored, storeDraft scene s = (.ok (), { scene with draft := scene.draft.attachAssets }, stored)
      ∧ stored.findDraft scene.draft.identifier = .ok scene.draft.attachAssets.kept := by
  have hattached := WalletDraft.attachAssets_walletId new.attached
  -- Attaching assets changes their wallets alone, so the draft is still new.
  have hnew := new.attachAssets
  -- The owners of the assets before are stored, which the wallet was not.
  have hothers : ∀ r ∈ s.assets, r.owner ≠ scene.draft.identifier := by
    intro r hr howner
    have hstored : (s.findWallet r.owner).isSome := Keyed.find?_isSome_iff.mpr (owned r hr)
    rw [howner, new.wallet] at hstored
    cases hstored
  exact ⟨_, storeDraft_of_saved (Store.saveWallet_of_fits hnew.index) (hnew.saveAssets hattached),
    Store.findDraft_of_rows hothers hattached fun a ha => (hnew.storable a ha).balance⟩

/-! ### A draft with small and large balances -/

def oddBalances : Scene where
  draft := {
    identifier := "wallet-1", name := "savings", address := "cro1software", addressIndex := -1
    standard := .ledgerLive, kind := .normal, networkPrefix := ""
    assets := [
      { identifier := "dust", walletId := "", assetType := .tendermint, mainnetSymbol := "CRO"
        symbol := "CRO", name := "", decimals := 8, balance := ⟨true, 0, -18⟩, address := "cro1software"
        config := some {
          chain := .cryptoOrg, nodeUrl := some "", indexingUrl := none, explorerUrl := none
          addressPrefix := some "cro", feeGasLimit := some "300000", feeAmount := none
          ledgerDisabled := true } },
      { identifier := "whole", walletId := "wallet-1", assetType := .evm, mainnetSymbol := "ETH"
        symbol := "ETH", name := "", decimals := 18, balance := ⟨false, 1, 30⟩, address := ""
        config := none }] }
  appSwitch := .unset
  deviceCalls := []
  log := []

/-- Zero comes back with its sign and its places, and a power of ten with its exponent. -/
theorem odd_balances_loaded :
    ∃ loaded, (storeDraft oddBalances .empty).2.2.findDraft "wallet-1" = .ok loaded
      ∧ loaded.assets.map (·.balance) = [⟨true, 0, -18⟩, ⟨false, 1, 30⟩]
      ∧ loaded.assets.map (·.walletId) = ["wallet-1", "wallet-1"]
      ∧ loaded.assets.map (·.config.map (·.addressPrefix)) = [some (some "cro"), none] := by
  have new : oddBalances.draft.NewTo .empty := by
    refine ⟨rfl, fun _ _ => rfl, by decide, by decide, by decide, ?_⟩
    -- Both balances are in the range that a column writes exactly.
    simpa [oddBalances] using ⟨⟨by decide, by decide +kernel⟩, ⟨by decide, by decide +kernel⟩⟩
  obtain ⟨stored, hstore, hloaded⟩ := loaded_as_stored Store.wellKept_empty.owned new
  rw [hstore]
  exact ⟨_, hloaded, rfl, rfl, rfl⟩

end ChainWallet
