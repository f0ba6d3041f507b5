import ChainWallet.Proofs.Store.Calls

/-!
# An asset that is saved again

A save writes the row of an asset in the place of the one under its identifier, and all that is shown of the
asset is what was saved last. The configuration alone is written only if there is one: an asset that is saved
without it is shown with the configuration that was there.

* **`Store.Shows`** — an asset is what is found under its identifier, in its wallet only, and among all assets.
* **`Store.WellKept.shows`** — a well-kept store shows every asset that it has a row of.
* **`Session.HasRow`** — the row of an asset, which calls that save others leave there.
* **`shown_after_later_save`** — what is shown once an asset is saved again: it is what was saved last if and
  only if that has a configuration, or the row that was there had none.
* **`SecondSave.configuration_outlives_its_asset`** — so it need not be.
-/

namespace ChainWallet

/-! ### What a store shows -/

/-- The asset is found under its identifier, in its wallet and no other, and among all assets. -/
structure Store.Shows (s : Store) (a : Asset) : Prop where
  found : s.findAsset a.identifier = .ok (some a)
  ofWallet : ∀ w ∈ s.wallets, ∃ assets, s.walletAssets w.identifier = .ok assets
    ∧ assets.filter (·.identifier = a.identifier) = if w.identifier = a.walletId then [a] else []
  all : ∃ assets, s.allAssets = .ok assets ∧ assets.filter (·.identifier = a.identifier) = [a]

namespace Store

variable {s : Store} {a b : Asset}

/-- At most one asset is shown under an identifier. -/
theorem Shows.unique (ha : s.Shows a) (hb : s.Shows b) (same : a.identifier = b.identifier) : a = b := by
  have hfound := hb.found
  rw [← same, ha.found] at hfound
  exact Option.some.inj (Except.ok.inj hfound)

/-- In a well-kept store an asset is shown everywhere as its row reads. -/
theorem WellKept.shows (kept : s.WellKept) {r : AssetRow} (found : s.findAssetRow a.identifier = some r)
    (read : r.asset = .ok a) : s.Shows a := by
  obtain ⟨all, hall, hdistinct, hparts, -⟩ := allAssets_of_wellKept kept
  have hmem : a ∈ all := mem_of_mapM hall (List.mem_of_find?_eq_some found) read
  have honly : all.filter (·.identifier = a.identifier) = [a] := filter_key_eq hdistinct hmem
  refine ⟨findAsset_of_row found read, fun w hw => ⟨_, hparts w hw, ?_⟩, all, hall, honly⟩
  · -- One of the assets of the wallet has the identifier if the only one there is belongs to the wallet.
    rw [List.filter_filter, List.filter_congr fun _ _ => Bool.and_comm _ _, ← List.filter_filter, honly]
    by_cases howner : w.identifier = a.walletId
    · simp [howner]
    · simp [howner, Ne.symm howner]

/-- An asset that was saved is shown, with the configuration of the row before it if it has none. -/
theorem WellKept.putAsset_shows (kept : s.WellKept) (owned : (s.findWallet a.walletId).isSome)
    (storable : a.Storable) : (s.putAsset a).Shows (a.keptOver (s.findAssetRow a.identifier)) := by
  have hfound : (s.putAsset a).findAssetRow a.identifier = some (a.row (s.findAssetRow a.identifier)) := by
    rw [findAssetRow_putAsset, if_pos rfl]
  exact (kept.putAsset owned storable.balance).shows hfound (asset_row storable.balance _)

end Store

/-! ### Saving one asset -/

namespace Session

variable {x : Session} {a : Asset} {c : StoreCall} {identifier : String}

/-- One asset of a stored wallet is saved and committed. -/
theorem saveAssets_singleton (owned : (x.current.findWallet a.walletId).isSome) (storable : a.Storable) :
    x.saveAssets [a] = (.ok (), .on (x.current.putAsset a)) :=
  saveAssets_of_ok (Store.saveAssets_of_owned (by simpa using owned) (by simpa using storable.decimals))

/-- The row of an asset, as it is committed and as the session sees it. -/
def HasRow (x : Session) (identifier : String) (present : Option AssetRow) : Prop :=
  x.committed.findAssetRow identifier = present ∧ x.current.findAssetRow identifier = present

variable {present : Option AssetRow}

/-- A call leaves the row of an asset that it does not save. -/
theorem HasRow.after (h : x.HasRow identifier present) (storable : c.Storable)
    (others : ∀ a ∈ c.assets, a.identifier ≠ identifier) : (x.after c).HasRow identifier present := by
  obtain ⟨committed, current⟩ := h
  rcases after_cases x storable with ⟨w, rfl, hafter⟩ | ⟨assets, t, rfl, hsave, hafter⟩
    | ⟨before, rest, held, rfl, hheld, hafter⟩ | ⟨p, rfl, hafter⟩ | ⟨rfl, hafter⟩ <;> rw [hafter]
  · exact ⟨current, current⟩
  · -- The assets that are saved have other identifiers, so the row is found as before.
    have hrow : t.findAssetRow identifier = present := by
      rw [Store.saveAssets_eq_ok hsave]
      exact (Store.findAssetRow_foldl_of_ne others).trans current
    exact ⟨hrow, hrow⟩
  · -- The assets before the one that failed are seen, and have other identifiers too.
    refine ⟨committed, ?_⟩
    rw [Store.saveAssets_eq_ok hheld,
      Store.findAssetRow_foldl_of_ne fun a ha => others a (List.mem_append_left rest ha), current]
  · exact ⟨current, current⟩
  · exact ⟨committed, committed⟩

/-- So do any number of such calls. -/
theorem HasRow.foldl {calls : List StoreCall} (h : x.HasRow identifier present)
    (storable : ∀ c ∈ calls, c.Storable)
    (others : ∀ c ∈ calls, ∀ a ∈ c.assets, a.identifier ≠ identifier) :
    (calls.foldl Session.after x).HasRow identifier present :=
  List.foldlRecOn (motive := (HasRow · identifier present)) calls Session.after h
    fun _ hrow c hc => hrow.after (storable c hc) (others c hc)

end Session

/-! ### Saving it again -/

/-- The session in which an asset was saved, after other calls. -/
def sessionSince (s : Store) (a : Asset) (between : List StoreCall) : Session :=
  between.foldl Session.after ((Session.on s).saveAssets [a]).2

/-- An asset without a configuration is shown with the one that its predecessor was shown with. -/
theorem Asset.keptOver_row (a b : Asset) (present : Option AssetRow) :
    b.keptOver (some (a.row present))
      = { b.kept with config := b.kept.config <|> (a.keptOver present).config } := by
  cases hconfig : a.config with
  | none => simp [keptOver, kept, row, hconfig]
  | some c => simp [keptOver, kept, row, hconfig, AssetConfig.columns, ChainColumns.config, AssetConfig.kept]

/-- Nothing of the row before is shown exactly if the asset has a configuration of its own or that row had
none. -/
theorem Asset.keptOver_eq_kept_iff {a : Asset} {present : Option AssetRow} :
    a.keptOver present = a.kept ↔ a.config.isSome ∨ present.bind (·.columns) = none := by
  cases hconfig : a.config with
  | none => cases hcolumns : present.bind (·.columns) <;> simp [keptOver, kept, hconfig, hcolumns]
  | some c => simp [keptOver, kept, hconfig]

/-- An asset that is saved under an identifier that was never saved is shown with every field it has. -/
theorem shown_after_only_save {s : Store} (kept : s.WellKept) {b : Asset}
    (unsaved : s.findAssetRow b.identifier = none) (owned : (s.findWallet b.walletId).isSome)
    (storable : b.Storable) :
    ((Session.on s).saveAssets [b]).1 = .ok () ∧ ((Session.on s).saveAssets [b]).2.close.Shows b.kept := by
  have hshown := kept.putAsset_shows owned storable
  rw [unsaved, Asset.keptOver_none] at hshown
  rw [Session.saveAssets_singleton (x := .on s) owned storable]
  exact ⟨rfl, hshown⟩

/-- If an asset is saved, and later one under the same identifier, what is shown is the later one, except that
without a configuration it has the one whose columns are there. So it is shown as in a store in which only it
was saved if and only if it has a configuration or no columns are there. Unless others were saved under the
identifier in between, the columns are those of the first asset, or of what was saved before if that had no
configuration. -/
theorem shown_after_later_save {s : Store} (kept : s.WellKept) {a b : Asset}
    (same : a.identifier = b.identifier) (first : a.Storable) (second : b.Storable)
    (owned : (s.findWallet a.walletId).isSome)
    {between : List StoreCall} (storable : ∀ c ∈ between, c.Storable)
    (ownedLater : ((sessionSince s a between).current.findWallet b.walletId).isSome) :
    let present := (sessionSince s a between).current.findAssetRow b.identifier
    ((Session.on s).saveAssets [a]).1 = .ok ()
      ∧ (∀ fresh : Store, fresh.WellKept → fresh.findAssetRow b.identifier = none →
        (fresh.findWallet b.walletId).isSome → ((Session.on fresh).saveAssets [b]).1 = .ok ()
          ∧ ((Session.on fresh).saveAssets [b]).2.close.Shows b.kept)
      ∧ ∃ again : Store, (sessionSince s a between).saveAssets [b] = (.ok (), .on again)
        ∧ again.Shows (b.keptOver present)
        ∧ (again.Shows b.kept ↔ b.config.isSome ∨ present.bind (·.columns) = none)
        ∧ ((∀ c ∈ between, ∀ d ∈ c.assets, d.identifier ≠ b.identifier) → b.keptOver present
          = { b.kept with config := b.kept.config <|> (a.keptOver (s.findAssetRow a.identifier)).config }) := by
  intro present
  have hfirst := Session.saveAssets_singleton (x := .on s) owned first
  -- The first save commits, so the session goes on with the store in which the row is.
  have hsince : sessionSince s a between = between.foldl Session.after (.on (s.putAsset a)) := by
    rw [sessionSince, hfirst]
    rfl
  have hkept := (Session.wellKept_on (kept.putAsset owned first.balance)).foldl storable
  rw [← hsince] at hkept
  have hshown := hkept.current.putAsset_shows ownedLater second
  refine ⟨congrArg Prod.fst hfirst, fun fresh hfresh unsaved ownedFresh => ?_, _,
    Session.saveAssets_singleton ownedLater second, hshown, ?_, fun others => ?_⟩
  · exact shown_after_only_save hfresh unsaved ownedFresh second
  · rw [← Asset.keptOver_eq_kept_iff]
    -- One asset is shown under an identifier, so the two are compared as assets.
    constructor
    · exact fun hbare => hshown.unique hbare rfl
    · exact fun heq => heq ▸ hshown
  · -- The row of the first save is still there.
    have hrow : (s.putAsset a).findAssetRow b.identifier = some (a.row (s.findAssetRow a.identifier)) := by
      rw [Store.findAssetRow_putAsset, if_pos same, same]
    have hpresent := Session.HasRow.foldl (x := .on (s.putAsset a)) ⟨hrow, hrow⟩ storable others
    rw [← hsince] at hpresent
    rw [← Asset.keptOver_row]
    exact congrArg b.keptOver hpresent.2

namespace SecondSave

def wallet : WalletDraft :=
  { identifier := "wallet-1", name := "", address := "", addressIndex := 0, standard := .bip44
    kind := .normal, networkPrefix := "cro", assets := [] }

def configured : Asset :=
  { identifier := "coin", walletId := "wallet-1", assetType := .tendermint, mainnetSymbol := "CRO"
    symbol := "CRO", name := "", decimals := 8, balance := .zero, address := "cro1old"
    config := some { chain := .cryptoOrg, nodeUrl := none, indexingUrl := none, explorerUrl := none
                     addressPrefix := none, feeGasLimit := none, feeAmount := none, ledgerDisabled := false } }

def bare : Asset :=
  { configured with address := "cro1new", config := none }

theorem storable : configured.Storable ∧ bare.Storable :=
  ⟨⟨by decide, by decide +kernel⟩, ⟨by decide, by decide +kernel⟩⟩

/-- A store with one wallet is well kept. -/
theorem wellKept_wallet : (Store.empty.putWallet wallet).WellKept :=
  Store.wellKept_empty.saveWallet (Store.saveWallet_of_fits (by decide))

/-- The address of the second save is shown with the configuration of the first. -/
theorem shown_with_configuration_before :
    ∃ again, (sessionSince (Store.empty.putWallet wallet) configured [.reopen]).saveAssets [bare]
        = (.ok (), .on again)
      ∧ again.Shows { configured with address := "cro1new" } ∧ ¬ again.Shows bare := by
  have reopened : ∀ c ∈ [StoreCall.reopen], c.Storable := by simp [StoreCall.Storable]
  obtain ⟨-, -, again, hsaved, hshown, hiff, -⟩ := shown_after_later_save wellKept_wallet
    (a := configured) (b := bare) rfl storable.1 storable.2 (by decide) reopened (by decide)
  refine ⟨again, hsaved, hshown, fun hbare => ?_⟩
  -- Neither has the second asset a configuration, nor are there no columns.
  have hnone := hiff.mp hbare
  revert hnone
  decide

/-- A configuration outlives the asset that it was saved with. -/
theorem configuration_outlives_its_asset :
    ¬ ∀ (s : Store) (a b : Asset), s.WellKept → a.Storable → b.Storable → a.identifier = b.identifier →
      (s.findWallet a.walletId).isSome → (s.findWallet b.walletId).isSome →
      (((Session.on s).saveAssets [a]).2.saveAssets [b]).2.close.Shows b.kept := by
  intro h
  have hbare := h (Store.empty.putWallet wallet) configured bare wellKept_wallet storable.1 storable.2 rfl
    (by decide) (by decide)
  have hfirst := wellKept_wallet.putAsset (a := configured) (by decide) storable.1.balance
  have hshown := hfirst.putAsset_shows (a := bare) (by decide) storable.2
  -- Both are shown under one identifier, so they would be the same asset.
  have hsame : bare.kept = bare.keptOver _ := hbare.unique hshown rfl
  revert hsame
  decide

end SecondSave

end ChainWallet
