import ChainWallet.Proofs.Store.WellKept
import Mathlib.Data.List.Nodup

/-!
# Saving what was loaded

An asset that is loaded, given another address and saved again keeps its row and its place. Only the address
changes there, and the balance is written in the one way in which balances are written: a row that has come from
a save is left as it is.

* **`AssetRow.rewritten`** — the row of an asset that was loaded, given another address and saved again.
  `rewritten_row` says when it is the row that was there.
* **`foldl_putAsset_of_known`** — saving assets whose identifiers are all stored writes each in its place.
* **`foldl_putAsset_of_loaded`** — saving the assets of a wallet, with other addresses, rewrites the rows of the
  wallet and leaves all others.
* **`Store.FitsColumns`** — integers of no more than 64 bits, as every save leaves them.
-/

namespace ChainWallet

/-! ### Balances -/

/-- A text is read as a number only if its exponent can be written. -/
theorem Numeral.exactRange_of_body? {negative : Bool} {cs : List Char} {d : Decimal}
    (h : body? negative cs = some (.finite d)) : d.exactRange = true := by
  unfold body? at h
  split at h
  · simp at h
  · split at h
    · simp at h
    · split at h
      · split at h <;> simp at h
      · obtain ⟨d', hread, hd⟩ := Option.map_eq_some_iff.mp h
        cases hd
        exact (Option.filter_eq_some_iff.mp hread).2

/-- So what is read as a decimal can be written again. -/
theorem Decimal.exactRange_of_read? {s : String} {d : Decimal} (h : Decimal.read? s = some d) :
    d.exactRange = true := by
  unfold Decimal.read? at h
  split at h
  · next hread =>
    cases h
    obtain ⟨cs, -, hbody⟩ := Option.bind_eq_some_iff.mp hread
    exact Numeral.exactRange_of_body? hbody
  · cases h

/-! ### Rows -/

/-- The asset with another address. -/
def Asset.readdressed (f : Asset → String) (a : Asset) : Asset :=
  { a with address := f a }

namespace AssetRow

/-- The row of an asset that was loaded, given another address and saved again. -/
def rewritten (f : Asset → String) (r : AssetRow) : AssetRow :=
  match r.asset with
  | .ok a => (a.readdressed f).row (some r)
  | .error _ => r

variable {f : Asset → String} {r : AssetRow} {a : Asset}

/-- An asset that was loaded has everything from its row. -/
theorem exists_of_asset (h : r.asset = .ok a) : ∃ balance, Decimal.read? r.balance = some balance
    ∧ a = ⟨r.identifier, r.owner, r.assetType, r.mainnetSymbol, r.symbol, r.name, r.decimals, balance, r.address,
      r.columns.map (·.config)⟩ := by
  unfold asset at h
  split at h
  · cases h
  · next balance hread =>
    cases h
    exact ⟨balance, hread, rfl⟩

/-- The balance of an asset that was loaded can be stored. -/
theorem exactRange_of_asset (h : r.asset = .ok a) : a.balance.exactRange = true := by
  obtain ⟨balance, hread, rfl⟩ := exists_of_asset h
  exact Decimal.exactRange_of_read? hread

/-- What was loaded has a column for all that it has, and nothing of the row besides it. -/
theorem keptOver_of_asset (h : r.asset = .ok a) : (a.readdressed f).keptOver (some r) = a.readdressed f := by
  obtain ⟨balance, -, rfl⟩ := exists_of_asset h
  cases hcolumns : r.columns <;>
    simp [Asset.keptOver, Asset.kept, Asset.readdressed, hcolumns, AssetConfig.kept, ChainColumns.config]

/-- A row keeps its identifier when it is rewritten. -/
theorem rewritten_identifier (f : Asset → String) (r : AssetRow) :
    (r.rewritten f).identifier = r.identifier := by
  unfold rewritten
  split
  · next a h =>
    have hloaded : a.identifier = r.identifier := Store.asset_identifier h
    exact hloaded
  · rfl

/-- A row stays with its wallet when it is rewritten. -/
theorem rewritten_owner (f : Asset → String) (r : AssetRow) : (r.rewritten f).owner = r.owner := by
  unfold rewritten
  split
  · next a h =>
    have hloaded : a.walletId = r.owner := Store.asset_walletId h
    exact hloaded
  · rfl

/-- A rewritten row is read as the asset with the other address. -/
theorem asset_rewritten (h : r.asset = .ok a) : (r.rewritten f).asset = .ok (a.readdressed f) := by
  rw [rewritten, h]
  have hbalance : a.balance.exactRange = true := exactRange_of_asset h
  exact (asset_row (a := a.readdressed f) hbalance (some r)).trans (congrArg _ (keptOver_of_asset h))

/-- A row that was saved stays as it is if the asset keeps its address. -/
theorem rewritten_row {present : Option AssetRow} (balance : a.balance.exactRange = true)
    (settled : f (a.keptOver present) = a.address) : (a.row present).rewritten f = a.row present := by
  have haddress : (a.keptOver present).readdressed f = a.keptOver present := by
    rw [Asset.readdressed, settled]
    rfl
  rw [rewritten, asset_row balance]
  show ((a.keptOver present).readdressed f).row (some (a.row present)) = a.row present
  -- The address is the one that is there, so it is the configuration that has to be looked at.
  rw [haddress]
  -- Without a configuration of its own, the asset has shown the columns that are there.
  have hcolumns : ((a.keptOver present).row (some (a.row present))).columns = (a.row present).columns := by
    cases hconfig : a.config with
    | some c => simp [Asset.row, Asset.keptOver, Asset.kept, hconfig, AssetConfig.kept, AssetConfig.columns]
    | none =>
      cases hpresent : present.bind (·.columns) <;>
        simp [Asset.row, Asset.keptOver, Asset.kept, hconfig, hpresent, AssetConfig.columns, ChainColumns.config]
  have hrow : (a.keptOver present).row (some (a.row present))
      = { a.row present with columns := ((a.keptOver present).row (some (a.row present))).columns } := rfl
  rw [hrow, hcolumns]

/-- A row that is rewritten twice, with addresses that stay, is rewritten once. -/
theorem rewritten_rewritten (stays : ∀ a : Asset, f (a.readdressed f) = f a) (h : r.asset = .ok a) :
    (r.rewritten f).rewritten f = r.rewritten f := by
  have hbalance : a.balance.exactRange = true := exactRange_of_asset h
  have hrow : r.rewritten f = (a.readdressed f).row (some r) := by rw [rewritten, h]
  rw [hrow]
  refine rewritten_row hbalance ?_
  rw [keptOver_of_asset h]
  exact stays a

end AssetRow

/-- The row after those of a list of assets that has its identifier, if there is one, was saved. -/
def AssetRow.overwritten (assets : List Asset) (r : AssetRow) : AssetRow :=
  match Keyed.find? Asset.identifier r.identifier assets with
  | some a => a.row (some r)
  | none => r

theorem AssetRow.overwritten_nil : AssetRow.overwritten [] = id := rfl

/-- A row keeps its asset if none with its identifier is saved. -/
theorem AssetRow.overwritten_of_not_mem {assets : List Asset} {r : AssetRow}
    (h : r.identifier ∉ assets.map Asset.identifier) : r.overwritten assets = r := by
  rw [← Keyed.find?_isSome_iff, Option.not_isSome_iff_eq_none] at h
  rw [overwritten, h]

/-- Of several assets with distinct identifiers each finds its own row. -/
theorem AssetRow.overwritten_cons (a : Asset) (rest : List Asset) (r : AssetRow) :
    r.overwritten (a :: rest) = if r.identifier = a.identifier then a.row (some r) else r.overwritten rest := by
  by_cases hid : r.identifier = a.identifier
  · simp [overwritten, Keyed.find?, hid]
  · simp [overwritten, Keyed.find?, hid, Ne.symm hid]

namespace Store

variable {s t : Store} {a : Asset} {assets : List Asset} {f : Asset → String} {owner : String}

/-! ### Assets that are stored already -/

/-- An asset that is stored already is saved into its own row. -/
theorem putAsset_of_known (keys : (s.assets.map AssetRow.identifier).Nodup)
    (known : a.identifier ∈ s.assets.map AssetRow.identifier) :
    s.putAsset a = { s with assets := s.assets.map fun r =>
      if r.identifier = a.identifier then a.row (some r) else r } := by
  rw [putAsset, Keyed.upsert_eq_map AssetRow.identifier keys known]
  congr 1
  refine List.map_congr_left fun r hr => ?_
  show (if r.identifier = a.identifier then a.row (s.findAssetRow a.identifier) else r) = _
  by_cases hid : r.identifier = a.identifier
  · have hfound : s.findAssetRow a.identifier = some r := (Keyed.find?_eq_some_iff keys).mpr ⟨hr, hid⟩
    rw [if_pos hid, if_pos hid, hfound]
  · rw [if_neg hid, if_neg hid]

/-- By induction on the assets: each is saved into its own row, and the identifiers stay what they were. -/
theorem foldl_putAsset_of_known (keys : (s.assets.map AssetRow.identifier).Nodup)
    (distinct : (assets.map (·.identifier)).Nodup)
    (known : ∀ a ∈ assets, a.identifier ∈ s.assets.map AssetRow.identifier) :
    assets.foldl putAsset s = { s with assets := s.assets.map (AssetRow.overwritten assets) } := by
  induction assets generalizing s with
  | nil => rw [AssetRow.overwritten_nil, List.map_id, List.foldl_nil]
  | cons a rest ih =>
    obtain ⟨hfirst, hrest⟩ := List.nodup_cons.mp distinct
    have hput := putAsset_of_known keys (known a List.mem_cons_self)
    -- Saving into a row that is there keeps the identifiers, so the hypothesis holds for the rest.
    have hkeys : (s.putAsset a).assets.map AssetRow.identifier = s.assets.map AssetRow.identifier := by
      rw [hput, List.map_map]
      refine List.map_congr_left fun r _ => ?_
      by_cases hid : r.identifier = a.identifier
      · simp [hid, Asset.row]
      · simp [hid]
    rw [List.foldl_cons, ih (hkeys ▸ keys) hrest fun b hb => hkeys ▸ known b (List.mem_cons_of_mem a hb), hput]
    simp only [List.map_map]
    congr 1
    refine List.map_congr_left fun r _ => ?_
    rw [Function.comp_apply, AssetRow.overwritten_cons]
    by_cases hid : r.identifier = a.identifier
    · -- No later asset has the identifier of this one.
      rw [if_pos hid, if_pos hid]
      exact AssetRow.overwritten_of_not_mem hfirst
    · rw [if_neg hid, if_neg hid]

/-- When the assets of a wallet are saved again, the rows of that wallet are rewritten and no other one is
touched. -/
theorem foldl_putAsset_of_loaded (kept : s.WellKept) {loaded : List Asset}
    (load : s.assetsOf owner = .ok loaded) :
    (loaded.map (Asset.readdressed f)).foldl putAsset s
      = { s with assets := s.assets.map fun r => if r.owner = owner then r.rewritten f else r } := by
  have hids : (loaded.map (Asset.readdressed f)).map (·.identifier)
      = (s.assets.filter (·.owner == owner)).map AssetRow.identifier := by
    rw [List.map_map]
    have hagree : ∀ (r : AssetRow) (a : Asset), r.asset = .ok a → a.identifier = r.identifier :=
      fun r a h => asset_identifier h
    exact map_of_mapM hagree load
  have hdistinct : ((loaded.map (Asset.readdressed f)).map (·.identifier)).Nodup := by
    rw [hids]
    exact kept.assets.sublist (List.filter_sublist.map _)
  rw [foldl_putAsset_of_known kept.assets hdistinct]
  · congr 1
    refine List.map_congr_left fun r hr => ?_
    by_cases howner : r.owner = owner
    · obtain ⟨a, ha⟩ := kept.readable r hr
      have hmem : a ∈ loaded := mem_of_mapM load (List.mem_filter.mpr ⟨hr, beq_iff_eq.mpr howner⟩) ha
      -- The row belongs to the wallet, so its asset is among those that are saved.
      have hfound : Keyed.find? Asset.identifier r.identifier (loaded.map (Asset.readdressed f))
          = some (a.readdressed f) :=
        (Keyed.find?_eq_some_iff hdistinct).mpr ⟨List.mem_map_of_mem hmem, asset_identifier (a := a) ha⟩
      rw [if_pos howner, AssetRow.overwritten, hfound, AssetRow.rewritten, ha]
    · have hother : r.identifier ∉ (loaded.map (Asset.readdressed f)).map (·.identifier) := by
        rw [hids]
        intro hmem
        obtain ⟨b, hb, hid⟩ := List.mem_map.mp hmem
        obtain ⟨hb, hbowner⟩ := List.mem_filter.mp hb
        -- A row with the same identifier is the same row.
        rw [List.inj_on_of_nodup_map kept.assets hb hr hid] at hbowner
        exact howner (beq_iff_eq.mp hbowner)
      rw [if_neg howner, AssetRow.overwritten_of_not_mem hother]
  · intro a ha
    have hmem : a.identifier ∈ (loaded.map (Asset.readdressed f)).map (·.identifier) := List.mem_map_of_mem ha
    rw [hids] at hmem
    exact (List.filter_sublist.map _).subset hmem

/-- No identifier changes by rewriting rows. -/
theorem map_identifier_rewritten (rows : List AssetRow) :
    (rows.map fun r => if r.owner = owner then r.rewritten f else r).map AssetRow.identifier
      = rows.map AssetRow.identifier := by
  rw [List.map_map]
  refine List.map_congr_left fun r _ => ?_
  by_cases h : r.owner = owner
  · rw [Function.comp_apply, if_pos h, AssetRow.rewritten_identifier]
  · rw [Function.comp_apply, if_neg h]

/-- The rows of a wallet stay its rows when they are rewritten. -/
theorem filter_owner_rewritten (rows : List AssetRow) :
    (rows.map fun r => if r.owner = owner then r.rewritten f else r).filter (·.owner == owner)
      = (rows.filter (·.owner == owner)).map (AssetRow.rewritten f) := by
  have howner : ∀ r : AssetRow, (if r.owner = owner then r.rewritten f else r).owner = r.owner := by
    intro r
    by_cases h : r.owner = owner
    · rw [if_pos h, AssetRow.rewritten_owner]
    · rw [if_neg h]
  rw [List.filter_map]
  -- Rows are chosen by their owner, and that is the same before and after.
  have htest : ((fun r : AssetRow => r.owner == owner)
      ∘ fun r => if r.owner = owner then r.rewritten f else r) = fun r => r.owner == owner :=
    funext fun r => congrArg (· == owner) (howner r)
  rw [htest]
  exact List.map_congr_left fun r hr => if_pos (beq_iff_eq.mp (List.mem_filter.mp hr).2)

/-- The rows of a wallet are loaded with the addresses with which they were saved. -/
theorem mapM_asset_rewritten {rows : List AssetRow} {loaded : List Asset}
    (load : rows.mapM AssetRow.asset = .ok loaded) :
    (rows.map (AssetRow.rewritten f)).mapM AssetRow.asset = .ok (loaded.map (Asset.readdressed f)) := by
  induction rows generalizing loaded with
  | nil =>
    cases load
    rfl
  | cons r rest ih =>
    obtain ⟨a, more, ha, hmore, rfl⟩ := mapM_cons_eq_ok.mp load
    exact mapM_cons_eq_ok.mpr ⟨_, _, AssetRow.asset_rewritten ha, ih hmore, rfl⟩

/-! ### Integers -/

/-- The integers of all rows have columns. -/
structure FitsColumns (s : Store) : Prop where
  wallets : ∀ r ∈ s.wallets, fitsColumn r.addressIndex = true
  assets : ∀ r ∈ s.assets, fitsColumn r.decimals = true

theorem fitsColumns_empty : empty.FitsColumns where
  wallets _ h := by cases h
  assets _ h := by cases h

/-- A wallet that is saved has an index with a column. -/
theorem FitsColumns.saveWallet {w : WalletDraft} (fits : s.FitsColumns) (h : s.saveWallet w = .ok t) :
    t.FitsColumns := by
  by_cases hindex : fitsColumn w.addressIndex = true
  · rw [saveWallet_eq_ok h]
    refine { fits with wallets := fun r hr => ?_ }
    rcases Keyed.mem_upsert hr with rfl | hr
    · exact hindex
    · exact fits.wallets r hr
  · rw [Store.saveWallet, if_neg hindex] at h
    cases h

/-- So it is with the decimals of assets, one after the other. -/
theorem FitsColumns.saveAssets (fits : s.FitsColumns) (h : s.saveAssets assets = .ok t) : t.FitsColumns := by
  induction assets generalizing s with
  | nil =>
    cases h
    exact fits
  | cons a rest ih =>
    rw [saveAssets_cons] at h
    cases ha : s.saveAsset a with
    | error f =>
      rw [ha] at h
      cases h
    | ok saved =>
      rw [ha] at h
      obtain ⟨-, hdecimals, rfl⟩ := saveAsset_eq_ok ha
      refine ih (s := s.putAsset a) ⟨fits.wallets, fun r hr => ?_⟩ h
      -- The new row has decimals that were checked, and the others were there before.
      rcases Keyed.mem_upsert hr with rfl | hr
      · exact hdecimals
      · exact fits.assets r hr

end Store

end ChainWallet
