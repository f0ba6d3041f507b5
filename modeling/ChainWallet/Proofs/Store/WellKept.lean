import ChainWallet.Proofs.Results
import ChainWallet.Proofs.Store.Saving
import Mathlib.Data.List.Perm.Basic

/-!
# Stores that are sets of maps

Rows are never deleted, and a row is written in the place of the one with its key. So no key ever has two
rows, and an asset that is stored belongs to a wallet that still is.

* **`Store.WellKept`** — distinct keys in every table, an owner for every asset, and balances that can be
  read. The empty store is well kept, and every save leaves a well-kept store well kept.
* **`allAssets_of_wellKept`** — all assets of a well-kept store can be read, and the assets of a wallet are
  those among them that name it.
* **`perm_flatMap_filter`** — a list with a key for every member is, up to order, its parts by the keys.
-/

namespace ChainWallet

/-! ### Lists by keys -/

section Keys

variable {β : Type} {ys : List β}

/-- A member of a list with distinct keys is all that is under its key. -/
theorem filter_key_eq {κ : Type} [DecidableEq κ] {key : β → κ} (distinct : (ys.map key).Nodup) {y : β}
    (hy : y ∈ ys) : ys.filter (key · = key y) = [y] := by
  -- The key of the first member is none of the others'.
  induction ys with
  | nil => cases hy
  | cons z rest ih =>
    obtain ⟨hz, hrest⟩ := List.nodup_cons.mp distinct
    rcases List.mem_cons.mp hy with rfl | hy
    · have hothers : rest.filter (key · = key y) = [] := by
        rw [List.filter_eq_nil_iff]
        exact fun x hx hsame => hz (List.mem_map.mpr ⟨x, hx, of_decide_eq_true hsame⟩)
      rw [List.filter_cons_of_pos (by simp), hothers]
    · have hne : key z ≠ key y := fun hsame => hz (List.mem_map.mpr ⟨y, hy, hsame.symm⟩)
      rw [List.filter_cons_of_neg (by simpa using hne), ih hrest hy]

/-- A list whose members each have one of some distinct keys is made up of its parts by the keys. -/
theorem perm_flatMap_filter {κ : Type} [DecidableEq κ] {ks : List κ} (distinct : ks.Nodup) {key : β → κ}
    (h : ∀ y ∈ ys, key y ∈ ks) : ys.Perm (ks.flatMap fun k => ys.filter (key · = k)) := by
  induction ks generalizing ys with
  | nil =>
    cases ys with
    | nil => exact .refl _
    | cons y rest => cases h y List.mem_cons_self
  | cons k rest ih =>
    obtain ⟨hk, hrest⟩ := List.nodup_cons.mp distinct
    -- The members with other keys are made up of the remaining parts.
    have hkeys : ∀ y ∈ ys.filter fun y => !decide (key y = k), key y ∈ rest := by
      intro y hy
      obtain ⟨hmem, hne⟩ := List.mem_filter.mp hy
      exact (List.mem_cons.mp (h y hmem)).resolve_left (by simpa using hne)
    have hothers := ih hrest hkeys
    have hparts : (rest.flatMap fun j => (ys.filter fun y => !decide (key y = k)).filter (key · = j))
        = rest.flatMap fun j => ys.filter (key · = j) := by
      refine List.flatMap_congr fun j hj => ?_
      rw [List.filter_filter]
      refine List.filter_congr fun y _ => ?_
      have hne : j ≠ k := fun e => hk (e ▸ hj)
      by_cases hy : key y = j <;> simp [hy, hne]
    rw [hparts] at hothers
    rw [List.flatMap_cons]
    exact ((List.filter_append_perm (key · = k) ys).symm).trans (hothers.append_left _)

end Keys

namespace Store

/-- Every key has one row, every asset an owner, and every balance can be read. -/
structure WellKept (s : Store) : Prop where
  wallets : (s.wallets.map WalletRow.identifier).Nodup
  assets : (s.assets.map AssetRow.identifier).Nodup
  prices : (s.prices.map MarketPrice.storeKey).Nodup
  owned : ∀ r ∈ s.assets, r.owner ∈ s.wallets.map WalletRow.identifier
  readable : ∀ r ∈ s.assets, ∃ a, r.asset = .ok a

variable {s t : Store} {a : Asset} {assets : List Asset}

/-! ### Saving -/

theorem wellKept_empty : empty.WellKept where
  wallets := List.nodup_nil
  assets := List.nodup_nil
  prices := List.nodup_nil
  owned _ h := by cases h
  readable _ h := by cases h

/-- A wallet is saved in the place of the one with its identifier, and no owner goes away. -/
theorem WellKept.saveWallet {w : WalletDraft} (kept : s.WellKept) (h : s.saveWallet w = .ok t) :
    t.WellKept := by
  rw [saveWallet_eq_ok h]
  exact { kept with
    wallets := Keyed.nodup_upsert WalletRow.identifier w.row kept.wallets
    owned := fun r hr =>
      (Keyed.mem_keys_upsert WalletRow.identifier w.row s.wallets r.owner).mpr (.inr (kept.owned r hr)) }

/-- A price is saved in the place of the one with its key. -/
theorem WellKept.savePrice (kept : s.WellKept) (p : MarketPrice) : (s.savePrice p).WellKept :=
  { kept with prices := Keyed.nodup_upsert MarketPrice.storeKey p kept.prices }

/-- The row of an asset names a stored wallet, and its balance can be read. -/
theorem WellKept.putAsset (kept : s.WellKept) (owned : (s.findWallet a.walletId).isSome)
    (balance : a.balance.exactRange = true) : (s.putAsset a).WellKept where
  wallets := kept.wallets
  assets := Keyed.nodup_upsert AssetRow.identifier (a.row (s.findAssetRow a.identifier)) kept.assets
  prices := kept.prices
  owned r hr := by
    rcases Keyed.mem_upsert hr with rfl | hr
    · exact Keyed.find?_isSome_iff.mp owned
    · exact kept.owned r hr
  readable r hr := by
    rcases Keyed.mem_upsert hr with rfl | hr
    · exact ⟨_, asset_row balance _⟩
    · exact kept.readable r hr

/-- By induction on the assets, each of which is checked before it is saved. -/
theorem WellKept.saveAssets (kept : s.WellKept) (balances : ∀ a ∈ assets, a.balance.exactRange = true)
    (h : s.saveAssets assets = .ok t) : t.WellKept := by
  induction assets generalizing s with
  | nil =>
    cases h
    exact kept
  | cons a rest ih =>
    rw [saveAssets_cons] at h
    cases ha : s.saveAsset a with
    | error f =>
      rw [ha] at h
      cases h
    | ok saved =>
      rw [ha] at h
      obtain ⟨howned, -, rfl⟩ := saveAsset_eq_ok ha
      exact ih (kept.putAsset howned (balances a List.mem_cons_self))
        (fun b hb => balances b (List.mem_cons_of_mem a hb)) h

/-! ### Reading -/

/-- An asset is read under the identifier of its row. -/
theorem asset_identifier {r : AssetRow} (h : r.asset = .ok a) : a.identifier = r.identifier := by
  unfold AssetRow.asset at h
  split at h
  · cases h
  · cases h
    rfl

/-- An asset is read as one of the wallet that owns its row. -/
theorem asset_walletId {r : AssetRow} (h : r.asset = .ok a) : a.walletId = r.owner := by
  unfold AssetRow.asset at h
  split at h
  · cases h
  · cases h
    rfl

/-- A wallet is found under its own identifier only. -/
theorem findWallet_identifier {identifier : String} {r : WalletRow} (h : s.findWallet identifier = some r) :
    r.identifier = identifier := by
  simpa using List.find?_some (p := fun r : WalletRow => r.identifier == identifier) h

/-- An asset is found under its own identifier only. -/
theorem findAsset_identifier {identifier : String} (h : s.findAsset identifier = .ok (some a)) :
    a.identifier = identifier := by
  unfold findAsset at h
  -- The row is found by its identifier, and the asset is read under that of the row.
  cases hrow : s.findAssetRow identifier with
  | none =>
    rw [hrow] at h
    cases h
  | some row =>
    rw [hrow, Option.mapM_some] at h
    cases hasset : row.asset with
    | error f =>
      rw [hasset] at h
      cases h
    | ok b =>
      rw [hasset] at h
      cases h
      rw [asset_identifier hasset]
      simpa using List.find?_some (p := fun r : AssetRow => r.identifier == identifier) hrow

/-- A stored wallet can be loaded with its assets, as soon as all rows can be read. -/
theorem exists_findDraft {identifier : String} {r : WalletRow}
    (readable : ∀ row ∈ s.assets, ∃ a, row.asset = .ok a)
    (stored : s.findWallet identifier = some r) :
    ∃ loaded, s.assetsOf r.identifier = .ok loaded ∧ s.findDraft identifier = .ok (r.draft loaded) := by
  obtain ⟨loaded, hloaded⟩ : ∃ loaded, s.assetsOf r.identifier = .ok loaded :=
    exists_mapM_ok fun row hrow => readable row (List.mem_filter.mp hrow).1
  refine ⟨loaded, hloaded, ?_⟩
  rw [findDraft, stored]
  exact congrArg (Except.map r.draft) hloaded

/-- In a well-kept store every asset that has a row can be loaded. -/
theorem exists_findAsset (kept : s.WellKept) {identifier : String}
    (stored : identifier ∈ s.assets.map AssetRow.identifier) : ∃ a, s.findAsset identifier = .ok (some a) := by
  obtain ⟨row, hrow⟩ := Option.isSome_iff_exists.mp (Keyed.find?_isSome_iff.mpr stored)
  obtain ⟨a, ha⟩ := kept.readable row (List.mem_of_find?_eq_some hrow)
  exact ⟨a, findAsset_of_row hrow ha⟩

/-- The assets of a wallet are those of all assets that name it, in the same order. -/
theorem assetsOf_of_allAssets {all : List Asset} (h : s.allAssets = .ok all) (owner : String) :
    s.assetsOf owner = .ok (all.filter (·.walletId = owner)) := by
  refine mapM_filter (fun r a hr => ?_) h
  rw [asset_walletId hr]
  rfl

/-- In a well-kept store every row of a wallet is the one that is found. -/
theorem findWallet_of_mem (kept : s.WellKept) {w : WalletRow} (hw : w ∈ s.wallets) :
    s.findWallet w.identifier = some w :=
  (Keyed.find?_eq_some_iff kept.wallets).mpr ⟨hw, rfl⟩

/-- All assets can be read; those of a wallet are the ones that name it, and these parts make up the whole. -/
theorem allAssets_of_wellKept (kept : s.WellKept) : ∃ all, s.allAssets = .ok all
    ∧ (all.map (·.identifier)).Nodup
    ∧ (∀ w ∈ s.wallets, s.walletAssets w.identifier = .ok (all.filter (·.walletId = w.identifier)))
    ∧ all.Perm (s.wallets.flatMap fun w => all.filter (·.walletId = w.identifier)) := by
  obtain ⟨all, hall⟩ := exists_mapM_ok kept.readable
  have hidentifiers : all.map (·.identifier) = s.assets.map AssetRow.identifier :=
    map_of_mapM (fun _ _ hr => asset_identifier hr) hall
  have howners : all.map (·.walletId) = s.assets.map AssetRow.owner :=
    map_of_mapM (fun _ _ hr => asset_walletId hr) hall
  refine ⟨all, hall, hidentifiers ▸ kept.assets, fun w hw => ?_, ?_⟩
  · rw [walletAssets, findWallet_of_mem kept hw]
    exact assetsOf_of_allAssets hall w.identifier
  · -- Every asset names a wallet that is stored, so the parts of all wallets make up the whole.
    have howned : ∀ a ∈ all, a.walletId ∈ s.wallets.map WalletRow.identifier := by
      intro a ha
      have hmem : a.walletId ∈ s.assets.map AssetRow.owner := howners ▸ List.mem_map_of_mem ha
      obtain ⟨r, hr, howner⟩ := List.mem_map.mp hmem
      exact howner ▸ kept.owned r hr
    have hperm := perm_flatMap_filter kept.wallets howned
    rwa [List.flatMap_map] at hperm

end Store

end ChainWallet
