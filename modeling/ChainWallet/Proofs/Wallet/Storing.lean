import ChainWallet.Proofs.Store.Saving
import ChainWallet.Wallet.Creation

/-!
# Storing a draft

A draft is attached to its wallet, then its wallet is saved and committed, then its assets.

* **`storeDraft_of_unsaved`, `storeDraft_of_strayed`, `storeDraft_of_saved`** — the three ways in which it ends:
  the wallet cannot be saved, an asset cannot, or everything is. `storeDraft_leaves` says what is written at most.
* **`exists_mem_of_attachAssets`** — an asset is attached by its wallet alone, the rest of it stays. If none names
  another wallet, all come to belong to this one (`attachAssets_eq`).
-/

namespace ChainWallet

open Ledger

section Store

variable {scene : Scene} {s t : Store} {f : Failure}

/-- If the wallet cannot be saved, nothing is stored. -/
theorem storeDraft_of_unsaved (wallet : s.saveWallet scene.draft.attachAssets = .error f) :
    storeDraft scene s = (.error (.failure f), { scene with draft := scene.draft.attachAssets }, s) := by
  have hpersist : scene.draft.attachAssets.persist (.on s) = (.error f, .on s) := by
    simp only [WalletDraft.persist, Session.saveWallet, Session.on, wallet]
  rw [storeDraft, hpersist]
  rfl

/-- Once the wallet is committed, a draft ends as its assets do. -/
theorem persist_of_saved {w : WalletDraft} (wallet : s.saveWallet w = .ok t) :
    w.persist (.on s) = (Session.on t).saveAssets w.assets := by
  simp only [WalletDraft.persist, Session.saveWallet, Session.on, wallet]
  rfl

/-- If an asset cannot be saved, the wallet is stored without any. -/
theorem storeDraft_of_strayed (wallet : s.saveWallet scene.draft.attachAssets = .ok t)
    (assets : t.saveAssets scene.draft.attachAssets.assets = .error f) :
    storeDraft scene s = (.error (.failure f), { scene with draft := scene.draft.attachAssets }, t) := by
  obtain ⟨_, _, held, -, -, hfailed⟩ := Session.saveAssets_of_error (x := .on t) assets
  rw [storeDraft, persist_of_saved wallet, hfailed]
  rfl

/-- If all can be saved, the draft is stored. -/
theorem storeDraft_of_saved {stored : Store} (wallet : s.saveWallet scene.draft.attachAssets = .ok t)
    (assets : t.saveAssets scene.draft.attachAssets.assets = .ok stored) :
    storeDraft scene s = (.ok (), { scene with draft := scene.draft.attachAssets }, stored) := by
  rw [storeDraft, persist_of_saved wallet, Session.saveAssets_of_ok (x := .on t) assets]
  rfl

/-- However storing a draft ends, nothing is written but its wallet, and its assets if all of them can be. -/
theorem storeDraft_leaves (scene : Scene) (s : Store) :
    (storeDraft scene s).2.2 = s
      ∨ ∃ saved, s.saveWallet scene.draft.attachAssets = .ok saved
        ∧ ((storeDraft scene s).2.2 = saved
          ∨ saved.saveAssets scene.draft.attachAssets.assets = .ok (storeDraft scene s).2.2) := by
  cases hwallet : s.saveWallet scene.draft.attachAssets with
  | error f =>
    rw [storeDraft_of_unsaved hwallet]
    exact .inl rfl
  | ok saved =>
    refine .inr ⟨saved, rfl, ?_⟩
    cases hassets : saved.saveAssets scene.draft.attachAssets.assets with
    | error f =>
      rw [storeDraft_of_strayed hwallet hassets]
      exact .inl rfl
    | ok stored =>
      rw [storeDraft_of_saved hwallet hassets]
      exact .inr rfl

end Store

/-- The asset as one of a wallet. -/
def Asset.ownedBy (owner : String) (a : Asset) : Asset :=
  { a with walletId := owner }

namespace WalletDraft

variable {w : WalletDraft}

/-- An attached asset is one of the draft, with some wallet. -/
theorem exists_mem_of_attachAssets {b : Asset} (h : b ∈ w.attachAssets.assets) :
    ∃ a ∈ w.assets, ∃ walletId, b = { a with walletId } := by
  obtain ⟨a, ha, rfl⟩ := List.mem_map.mp h
  refine ⟨a, ha, ?_⟩
  split <;> exact ⟨_, rfl⟩

/-- Attaching assets to a wallet leaves their identifiers. -/
theorem attachAssets_identifiers (w : WalletDraft) :
    w.attachAssets.assets.map (·.identifier) = w.assets.map (·.identifier) := by
  rw [attachAssets, List.map_map]
  refine List.map_congr_left fun a _ => ?_
  show (if a.walletId.isEmpty then { a with walletId := w.identifier } else a).identifier = a.identifier
  split <;> rfl

/-- If no asset names another wallet, all are put into this one. -/
theorem attachAssets_eq (attached : ∀ a ∈ w.assets, a.walletId = "" ∨ a.walletId = w.identifier) :
    w.attachAssets = { w with assets := w.assets.map (Asset.ownedBy w.identifier) } := by
  rw [attachAssets]
  congr 1
  refine List.map_congr_left fun a ha => ?_
  -- An asset without a wallet is given this one, and one with it keeps it.
  by_cases hempty : a.walletId.isEmpty = true
  · rw [if_pos hempty]
    rfl
  · have howner : a.walletId = w.identifier := (attached a ha).resolve_left (by simpa using hempty)
    rw [if_neg hempty, ← howner]
    rfl

/-- All assets are of this wallet then. -/
theorem attachAssets_walletId (attached : ∀ a ∈ w.assets, a.walletId = "" ∨ a.walletId = w.identifier) :
    ∀ a ∈ w.attachAssets.assets, a.walletId = w.identifier := by
  rw [attachAssets_eq attached]
  intro a ha
  obtain ⟨b, -, rfl⟩ := List.mem_map.mp ha
  rfl

end WalletDraft

end ChainWallet
