import ChainWallet.Proofs.Ledger.Restart
import ChainWallet.Proofs.Wallet.Migration

/-!
# The assets of a migration

A migration goes over the assets that are stored under a wallet and those that are handed to it. An asset is
recognised by its identifier, and one that is stored is not taken again. The new ones are looked up among the
stored ones only and not among each other, so one that is handed over twice is there twice.

* **`Merges`** — the identifiers of both lists together: the stored ones once each, and the others as often as
  they are given. `merges_append_filter` says that this is how the draft is put together.
* **`identifiers_of_findDraft`** — a draft is loaded with the identifiers of its rows.
* **`identifiers_deriveThrough`** — neither a run nor storing the draft adds an asset or takes one away.
* **`migrated_assets`** — so the draft that is run over and the one that is returned have these identifiers.
* **`new_asset_migrated_twice`** — they are not always distinct.
-/

namespace ChainWallet

open Ledger

/-- A list has the stored identifiers, and those of the new ones that are not stored. -/
structure Merges (stored new merged : List String) : Prop where
  mem_iff : ∀ i, i ∈ merged ↔ i ∈ stored ∨ i ∈ new
  count_stored : ∀ i ∈ stored, merged.count i = 1
  count_new : ∀ i ∈ new, i ∉ stored → merged.count i = new.count i
  nodup_iff : merged.Nodup ↔ (new.filter (!stored.contains ·)).Nodup

/-- Appending those that are not there yet merges them. -/
theorem merges_append_filter {stored : List String} (distinct : stored.Nodup) (new : List String) :
    Merges stored new (stored ++ new.filter (!stored.contains ·)) where
  mem_iff i := by
    by_cases h : i ∈ stored <;> simp [h]
  count_stored i hi := by
    have hnone : (new.filter (!stored.contains ·)).count i = 0 :=
      List.count_eq_zero.mpr fun hmem => by simp [hi] at hmem
    rw [List.count_append, hnone, List.count_eq_one_of_mem distinct hi]
  count_new i _ hi := by
    rw [List.count_append, List.count_eq_zero.mpr hi, Nat.zero_add, List.count_filter (by simpa using hi)]
  nodup_iff := by
    refine ⟨fun h => (List.nodup_append.mp h).2.1, fun h => List.nodup_append.mpr ⟨distinct, h, ?_⟩⟩
    rintro i hi j hj rfl
    simp [hi] at hj

variable {w : WalletDraft} {s t : Store} {scene left : Scene}

theorem WalletDraft.identifiers_withNewAssets (w : WalletDraft) (new : List Asset) :
    (w.withNewAssets new).assets.map (·.identifier) = w.assets.map (·.identifier)
      ++ (new.map (·.identifier)).filter (!(w.assets.map (·.identifier)).contains ·) := by
  rw [withNewAssets, List.map_append, List.filter_map]
  rfl

/-- A draft is loaded with the identifiers of its rows, each of them once. -/
theorem Store.identifiers_of_findDraft {identifier : String} (load : s.findDraft identifier = .ok w) :
    w.assets.map (·.identifier) = (s.assets.filter (·.owner == identifier)).map (·.identifier) := by
  obtain ⟨rfl, holds⟩ := holds_of_findDraft load
  exact map_of_mapM (fun r a => asset_identifier (r := r) (a := a)) holds.assets

theorem WalletDraft.identifiers_after (w : WalletDraft) (done : List (Step × String)) :
    (w.after done).assets.map (·.identifier) = w.assets.map (·.identifier) := by
  rw [after, List.map_map]
  rfl

/-- Storing a draft leaves the identifiers of its assets. -/
theorem identifiers_storeDraft (scene : Scene) (s : Store) :
    (storeDraft scene s).2.1.draft.assets.map (·.identifier) = scene.draft.assets.map (·.identifier) :=
  scene.draft.attachAssets_identifiers

/-- However a run over a draft ends, and whether or not the draft can be stored, its assets are the same. -/
theorem identifiers_deriveThrough (q : Sequencer) (env : Surroundings) (migrate : Bool) (s : Store)
    (ledger : scene.draft.kind = .ledger) :
    (deriveThrough storeDraft q env migrate scene s).2.1.draft.assets.map (·.identifier)
      = scene.draft.assets.map (·.identifier) := by
  obtain ⟨n, hdraft⟩ := q.run_leaves env migrate scene ledger
  have hids : (q.run env migrate scene).2.draft.assets.map (·.identifier)
      = scene.draft.assets.map (·.identifier) := by
    rw [hdraft, WalletDraft.identifiers_after]
  -- What a run leaves is either handed back or stored first.
  unfold deriveThrough
  split
  · next f after hrun => rwa [hrun] at hids
  · next result after hrun =>
    rw [hrun] at hids
    split
    · exact (identifiers_storeDraft after s).trans hids
    · exact hids

/-- The draft of a migration has every asset that is stored under the wallet once, and each of the others as
often as it is among the new ones; so it has no identifier twice unless the new ones have one twice that is not
stored. The run begins with this draft, and the draft that it leaves, or that is returned, has the same
assets. -/
theorem migrated_assets (s : Store) (identifier : String) (new : List Asset) (r : WalletRow) (kept : s.WellKept)
    (stored : s.findWallet identifier = some r) (ledger : r.kind = .ledger) :
    ∃ begun : WalletDraft, begun.identifier = identifier
      ∧ Merges ((s.assets.filter (·.owner == identifier)).map (·.identifier)) (new.map (·.identifier))
        (begun.assets.map (·.identifier))
      ∧ ∀ q env scene, (∀ w : WalletDraft, (scene w).draft = w) → ∃ result left after,
        migrateWallet identifier new q env scene s = (result, some left, after)
          ∧ deriveThrough storeDraft q env true (scene begun) s = (result, left, after)
          ∧ left.draft.assets.map (·.identifier) = begun.assets.map (·.identifier) := by
  obtain ⟨w, load, hkind⟩ : ∃ w, s.findDraft identifier = .ok w ∧ w.kind = .ledger := by
    obtain ⟨loaded, -, hload⟩ := Store.exists_findDraft kept.readable stored
    exact ⟨_, hload, ledger⟩
  have hids := Store.identifiers_of_findDraft load
  -- The store has no identifier twice, so the rows of the wallet have none twice.
  have distinct : ((s.assets.filter (·.owner == identifier)).map (·.identifier)).Nodup :=
    kept.assets.sublist (List.filter_sublist.map _)
  refine ⟨w.withNewAssets new, (Store.holds_of_findDraft load).1, ?_, fun q env scene drafts => ?_⟩
  · rw [w.identifiers_withNewAssets, hids]
    exact merges_append_filter distinct _
  · -- The run begins with the merged draft, and neither it nor storing changes identifiers.
    have hledger : (scene (w.withNewAssets new)).draft.kind = .ledger := by rw [drafts]; exact hkind
    have hsame := identifiers_deriveThrough q env true s hledger
    rw [drafts] at hsame
    refine ⟨_, _, _, ?_, rfl, hsame⟩
    rw [migrateWallet, migrateThrough, load]
    exact if_pos hkind

/-- A coin that is stored counts once though it is handed over again, and each of the new ones is there. -/
theorem coins_and_voucher_once :
    withCoinAndToken.WellKept
    ∧ ∃ left after,
      migrateWallet "wallet-1" coinsAndVoucher ⟨.whole 60, []⟩ withEveryApp (⟨·, .unset, [], []⟩) withCoinAndToken
          = (.ok (), some left, after)
        ∧ (left.draft.assets.map (·.identifier)).Nodup
        ∧ ∀ i, i ∈ left.draft.assets.map (·.identifier)
          ↔ i ∈ ["coin", "token"] ∨ i ∈ ["coin", "voucher", "atom"] := by
  obtain ⟨begun, -, merges, hmigrates⟩ :=
    migrated_assets withCoinAndToken "wallet-1" coinsAndVoucher _ wellKept_withCoinAndToken rfl rfl
  obtain ⟨result, left, after, hmigrate, -, hids⟩ :=
    hmigrates ⟨.whole 60, []⟩ withEveryApp (⟨·, .unset, [], []⟩) fun _ => rfl
  have hresult : (migrateWallet "wallet-1" coinsAndVoucher ⟨.whole 60, []⟩ withEveryApp (⟨·, .unset, [], []⟩)
      withCoinAndToken).1 = .ok () := by
    decide +kernel
  rw [hmigrate] at hresult
  cases hresult
  refine ⟨wellKept_withCoinAndToken, left, after, hmigrate, ?_, ?_⟩
  · rw [hids]
    exact merges.nodup_iff.mpr (by decide +kernel)
  · rw [hids]
    exact merges.mem_iff

/-- A coin that is not stored, twice. -/
def atomTwice : List Asset :=
  List.replicate 2
    { identifier := "atom", walletId := "", assetType := .tendermint, mainnetSymbol := "ATOM", symbol := "ATOM"
      name := "", decimals := 6, balance := .zero, address := ""
      config := some ⟨.cosmosHub, none, none, none, none, none, none, false⟩ }

/-- A coin that is handed over twice is twice in the draft that is returned, though it has one row. -/
theorem new_asset_migrated_twice :
    ∃ left after,
      migrateWallet "wallet-1" atomTwice ⟨.whole 60, []⟩ withEveryApp (⟨·, .unset, [], []⟩) withCoinAndToken
          = (.ok (), some left, after)
        ∧ ¬ (left.draft.assets.map (·.identifier)).Nodup
        ∧ after.assets.map (·.identifier) = ["coin", "token", "atom"] := by
  have hdraft : ((migrateWallet "wallet-1" atomTwice ⟨.whole 60, []⟩ withEveryApp (⟨·, .unset, [], []⟩)
      withCoinAndToken).2.1.map fun left => left.draft.assets.map (·.identifier))
        = some ["coin", "token", "atom", "atom"] := by
    decide +kernel
  have hresult : (migrateWallet "wallet-1" atomTwice ⟨.whole 60, []⟩ withEveryApp (⟨·, .unset, [], []⟩)
      withCoinAndToken).1 = .ok () := by
    decide +kernel
  have hrows : (migrateWallet "wallet-1" atomTwice ⟨.whole 60, []⟩ withEveryApp (⟨·, .unset, [], []⟩)
      withCoinAndToken).2.2.assets.map (·.identifier) = ["coin", "token", "atom"] := by
    decide +kernel
  -- All three are about the same outcome, which need not be computed again.
  generalize migrateWallet "wallet-1" atomTwice ⟨.whole 60, []⟩ withEveryApp (⟨·, .unset, [], []⟩)
    withCoinAndToken = outcome at *
  obtain ⟨result, left, after⟩ := outcome
  obtain ⟨left, rfl, hids⟩ := Option.map_eq_some_iff.mp hdraft
  cases hresult
  refine ⟨left, after, rfl, ?_, hrows⟩
  rw [hids]
  decide

end ChainWallet
