import ChainWallet.Proofs.Store.Saving
import ChainWallet.Wallet.Creation

/-!
# When the assets of a wallet cannot be stored

A draft is stored by one session that commits twice: once with the wallet, once with all of its assets.
If an asset fails, those before it are saved but never committed, so they are gone when the session is
closed. The wallet was committed before the first of them and stays.

* **`OnlyWalletStored`** — what every later session then sees.
* **`storeDraft_of_failed_assets`** — so it is at whatever place of the list the asset stands.
* **`wallet_outlives_its_assets`** — the store as a whole need not be what it was.
-/

namespace ChainWallet

open Ledger

/-! ### What is left of it -/

/-- The store has the wallet of a draft and is otherwise what it was. -/
structure OnlyWalletStored (w : WalletDraft) (s left : Store) : Prop where
  assets : left.assets = s.assets
  prices : left.prices = s.prices
  others : ∀ identifier ≠ w.identifier, left.findWallet identifier = s.findWallet identifier
  wallet : left.findWallet w.identifier = some w.row
  unchanged : left = s ↔ s.findWallet w.identifier = some w.row

/-- Saving the wallet of a draft writes its row and nothing else. -/
theorem onlyWalletStored_of_saveWallet {w : WalletDraft} {s stored : Store}
    (h : s.saveWallet w = .ok stored) : OnlyWalletStored w s stored := by
  unfold Store.saveWallet at h
  split at h
  · cases h
    refine ⟨rfl, rfl, fun identifier hne => ?_, ?_, ?_⟩
    · -- Only the row under the identifier of the draft is written.
      have hkey : identifier ≠ WalletRow.identifier w.row := hne
      exact Keyed.find?_upsert_of_ne WalletRow.identifier hkey s.wallets
    · exact Keyed.find?_upsert_self WalletRow.identifier w.row s.wallets
    · -- The other tables are the same in both, so the stores differ as their wallets do.
      refine Iff.trans ?_ (Keyed.upsert_eq_self_iff WalletRow.identifier w.row s.wallets)
      constructor
      · intro heq
        exact congrArg Store.wallets heq
      · intro heq
        exact congrArg (fun ws => { s with wallets := ws }) heq
  · cases h

/-- If storing the assets of a draft fails, at whatever place of the list, no row of an asset, of a price
or of another wallet differs from before. The wallet of the draft is stored, so that all is as it was
exactly if its row was there already. -/
theorem storeDraft_of_failed_assets {scene : Scene} {s stored : Store} {f : Failure}
    (wallet : s.saveWallet scene.draft.attachAssets = .ok stored)
    (fails : stored.saveAssets scene.draft.attachAssets.assets = .error f) :
    ∃ before a after held, scene.draft.attachAssets.assets = before ++ a :: after
      ∧ stored.saveAssets before = .ok held ∧ held.saveAsset a = .error f
      ∧ scene.draft.attachAssets.persist (.on s) = (.error f, ⟨stored, held⟩)
      ∧ ∃ left, storeDraft scene s
          = (.error (.failure f), { scene with draft := scene.draft.attachAssets }, left)
        ∧ OnlyWalletStored scene.draft.attachAssets s left := by
  obtain ⟨before, a, after, held, hsplit, hsaved, ha, hadd⟩ :=
    Session.addAssets_of_error (x := ⟨stored, stored⟩) fails
  -- The wallet was committed before its assets were added, and these are not committed.
  have hpersist : scene.draft.attachAssets.persist (.on s) = (.error f, ⟨stored, held⟩) := by
    simp only [WalletDraft.persist, Session.saveWallet, Session.on, wallet, Session.commit,
      Session.saveAssets, hadd]
  refine ⟨before, a, after, held, hsplit, hsaved, ha, hpersist, stored, ?_,
    onlyWalletStored_of_saveWallet wallet⟩
  rw [storeDraft, hpersist]
  rfl

/-- A normal wallet whose second asset belongs to a wallet that is not stored. -/
def strayAsset : Scene where
  draft := {
    identifier := "wallet-1", name := "", address := "cro1software", addressIndex := 0
    standard := .bip44, kind := .normal, networkPrefix := "cro"
    assets := [
      { identifier := "coin", walletId := "", assetType := .tendermint, mainnetSymbol := "CRO"
        symbol := "CRO", name := "", decimals := 8, balance := .zero, address := "cro1software"
        config := none },
      { identifier := "stray", walletId := "elsewhere", assetType := .evm, mainnetSymbol := "ETH"
        symbol := "ETH", name := "", decimals := 18, balance := .zero, address := ""
        config := none }] }
  appSwitch := .unset
  deviceCalls := []
  log := []

/-- The coin before the stray asset is not stored; the wallet is. -/
theorem stored_wallet_of_stray_asset :
    (storeDraft strayAsset .empty).1 = .error (.failure (.ownerMissing "elsewhere" "stray"))
      ∧ (storeDraft strayAsset .empty).2.2.assets = []
      ∧ (storeDraft strayAsset .empty).2.2.findWallet "wallet-1"
        = some ⟨"wallet-1", "", "cro1software", 0, .bip44, .normal, "cro"⟩ := by
  have wallet : Store.empty.saveWallet strayAsset.draft.attachAssets
      = .ok { Store.empty with wallets := [strayAsset.draft.attachAssets.row] } := rfl
  have fails : ({ Store.empty with wallets := [strayAsset.draft.attachAssets.row] } : Store).saveAssets
      strayAsset.draft.attachAssets.assets = .error (.ownerMissing "elsewhere" "stray") := by
    rfl
  obtain ⟨_, _, _, _, _, _, _, _, left, hstore, honly⟩ := storeDraft_of_failed_assets wallet fails
  rw [hstore]
  exact ⟨rfl, honly.assets, honly.wallet⟩

/-- Storing a draft is not all or nothing. -/
theorem wallet_outlives_its_assets :
    ¬ ∀ (scene : Scene) (s stored : Store) (f : Failure),
      s.saveWallet scene.draft.attachAssets = .ok stored →
      stored.saveAssets scene.draft.attachAssets.assets = .error f →
      (storeDraft scene s).2.2.wallets = s.wallets ∧ (storeDraft scene s).2.2.assets = s.assets := by
  intro h
  have hsame := (h strayAsset .empty _ (.ownerMissing "elsewhere" "stray") rfl rfl).1
  have hstored : (storeDraft strayAsset .empty).2.2.wallets = [strayAsset.draft.row] := rfl
  rw [hstored] at hsame
  cases hsame

end ChainWallet
