import ChainWallet.Proofs.Decimal.RoundTrip
import ChainWallet.Store.Session

/-!
# What is saved can be read

A save writes the row of a wallet or an asset in the place of the one under its identifier. Of an asset
everything has a column except the fee settings and the ledger flag of its configuration; a balance is
written as a text that is read back as that balance.

* **`Asset.Storable`** — what can be stored at all: integers that have a column, and a balance that is read
  back.
* **`asset_row`** — the row of an asset, read: `Asset.kept`, with the configuration of the row before it if the
  asset has none.
* **`saveAssets_of_owned`, `saveAssets_of_unowned`** — saving a list of assets fails exactly if one of them
  belongs to no stored wallet. `addAssets_of_ok`, `addAssets_of_error` say where it leaves a session.
* **`findAssetRow_foldl_last`** — of the assets of one identifier the last one counts.
-/

namespace ChainWallet

/-! ### Rows -/

/-- The configuration as far as it has columns. -/
def AssetConfig.kept (c : AssetConfig) : AssetConfig :=
  { c with feeGasLimit := none, feeAmount := none, ledgerDisabled := false }

def Asset.kept (a : Asset) : Asset :=
  { a with config := a.config.map AssetConfig.kept }

/-- The integers of the asset have columns, and its balance has an exponent that can be written. -/
structure Asset.Storable (a : Asset) : Prop where
  decimals : fitsColumn a.decimals = true
  balance : a.balance.exactRange = true

/-- The asset as it is shown if it is saved over a row. -/
def Asset.keptOver (a : Asset) (present : Option AssetRow) : Asset :=
  { a.kept with config := a.kept.config <|> (present.bind (·.columns)).map ChainColumns.config }

/-- Without a row before it an asset shows no configuration but its own. -/
theorem Asset.keptOver_none (a : Asset) : a.keptOver none = a.kept := by
  simp [keptOver]

/-- The row of an asset is read as that asset, as far as it has columns. -/
theorem asset_row {a : Asset} (h : a.balance.exactRange = true) (present : Option AssetRow) :
    (a.row present).asset = .ok (a.keptOver present) := by
  have hbalance : Decimal.read? (a.row present).balance = some a.balance := Decimal.read?_toText h
  unfold AssetRow.asset
  rw [hbalance]
  -- Without a configuration the columns of the row before are left as they are.
  cases hconfig : a.config with
  | none => simp [Asset.row, Asset.keptOver, Asset.kept, hconfig]
  | some c => simp [Asset.row, Asset.keptOver, Asset.kept, hconfig, AssetConfig.columns,
      ChainColumns.config, AssetConfig.kept]

namespace Store

variable {s t : Store} {a : Asset} {assets : List Asset}

/-! ### Saving wallets -/

/-- The store with the row of a wallet. -/
def putWallet (s : Store) (w : WalletDraft) : Store :=
  { s with wallets := Keyed.upsert WalletRow.identifier w.row s.wallets }

/-- A wallet is saved if its index has a column. -/
theorem saveWallet_of_fits {w : WalletDraft} (fits : fitsColumn w.addressIndex = true) :
    s.saveWallet w = .ok (s.putWallet w) :=
  if_pos fits

/-- A save that succeeds writes the row of the wallet and nothing else. -/
theorem saveWallet_eq_ok {w : WalletDraft} (h : s.saveWallet w = .ok t) : t = s.putWallet w := by
  unfold saveWallet at h
  split at h
  · exact (Except.ok.inj h).symm
  · cases h

/-- The wallet that is saved is found under its identifier, and the others as before. -/
theorem findWallet_putWallet (s : Store) (w : WalletDraft) (identifier : String) :
    (s.putWallet w).findWallet identifier
      = if w.identifier = identifier then some w.row else s.findWallet identifier :=
  Keyed.find?_upsert WalletRow.identifier w.row s.wallets identifier

/-! ### Saving assets -/

/-- The store with the row of an asset. -/
def putAsset (s : Store) (a : Asset) : Store :=
  { s with assets := Keyed.upsert AssetRow.identifier (a.row (s.findAssetRow a.identifier)) s.assets }

/-- An asset of a stored wallet is saved if its decimals have a column. -/
theorem saveAsset_of_owned (owned : (s.findWallet a.walletId).isSome)
    (fits : fitsColumn a.decimals = true) : s.saveAsset a = .ok (s.putAsset a) := by
  obtain ⟨w, hw⟩ := Option.isSome_iff_exists.mp owned
  rw [saveAsset, hw, if_pos fits]
  rfl

/-- An asset of no stored wallet is refused, whatever it is like. -/
theorem saveAsset_of_unowned (unowned : s.findWallet a.walletId = none) :
    s.saveAsset a = .error (.ownerMissing a.walletId a.identifier) := by
  rw [saveAsset, unowned]

/-- An asset that is saved belongs to a stored wallet and fits its columns, and its row is all that is written. -/
theorem saveAsset_eq_ok (h : s.saveAsset a = .ok t) :
    (s.findWallet a.walletId).isSome ∧ fitsColumn a.decimals = true ∧ t = s.putAsset a := by
  cases hw : s.findWallet a.walletId with
  | none =>
    rw [saveAsset_of_unowned hw] at h
    cases h
  | some w =>
    by_cases fits : fitsColumn a.decimals = true
    · rw [saveAsset_of_owned (by simp [hw]) fits] at h
      exact ⟨rfl, fits, (Except.ok.inj h).symm⟩
    · simp only [saveAsset, hw, if_neg fits] at h
      cases h

theorem saveAssets_cons (s : Store) (a : Asset) (rest : List Asset) :
    s.saveAssets (a :: rest) = (s.saveAsset a).bind (·.saveAssets rest) := rfl

theorem saveAssets_cons_of_owned (owned : (s.findWallet a.walletId).isSome)
    (fits : fitsColumn a.decimals = true) : s.saveAssets (a :: assets) = (s.putAsset a).saveAssets assets := by
  rw [saveAssets_cons, saveAsset_of_owned owned fits]
  rfl

/-- Saving assets writes one after the other, and nothing else. -/
theorem saveAssets_eq_ok (h : s.saveAssets assets = .ok t) : t = assets.foldl putAsset s := by
  -- By induction on the assets: each is saved into what the ones before it have left.
  induction assets generalizing s with
  | nil =>
    cases h
    rfl
  | cons a rest ih =>
    rw [saveAssets_cons] at h
    cases ha : s.saveAsset a with
    | error f =>
      rw [ha] at h
      cases h
    | ok saved =>
      rw [ha] at h
      obtain ⟨-, -, rfl⟩ := saveAsset_eq_ok ha
      exact ih h

/-- Assets of stored wallets are all saved. -/
theorem saveAssets_of_owned (owned : ∀ a ∈ assets, (s.findWallet a.walletId).isSome)
    (fits : ∀ a ∈ assets, fitsColumn a.decimals = true) :
    s.saveAssets assets = .ok (assets.foldl putAsset s) := by
  induction assets generalizing s with
  | nil => rfl
  | cons a rest ih =>
    rw [saveAssets_cons_of_owned (owned a List.mem_cons_self) (fits a List.mem_cons_self)]
    -- The wallets are not written, so the owners of the others are found as before.
    exact ih (s := s.putAsset a) (fun b hb => owned b (List.mem_cons_of_mem a hb))
      fun b hb => fits b (List.mem_cons_of_mem a hb)

/-- The first asset that belongs to no stored wallet is named. -/
theorem saveAssets_of_unowned (fits : ∀ a ∈ assets, fitsColumn a.decimals = true)
    (unowned : ∃ a ∈ assets, s.findWallet a.walletId = none) :
    ∃ a ∈ assets, s.findWallet a.walletId = none
      ∧ s.saveAssets assets = .error (.ownerMissing a.walletId a.identifier) := by
  induction assets generalizing s with
  | nil =>
    obtain ⟨a, ha, -⟩ := unowned
    cases ha
  | cons b rest ih =>
    cases hb : s.findWallet b.walletId with
    | none =>
      refine ⟨b, List.mem_cons_self, hb, ?_⟩
      rw [saveAssets_cons, saveAsset_of_unowned hb]
      rfl
    | some w =>
      have howned : (s.findWallet b.walletId).isSome := by simp [hb]
      -- The first asset is saved, and the wallets are as before, so the missing one is missing still.
      rw [saveAssets_cons_of_owned howned (fits b List.mem_cons_self)]
      obtain ⟨a, ha, hmissing⟩ := unowned
      have harest : a ∈ rest := by
        rcases List.mem_cons.mp ha with rfl | ha
        · simp [hb] at hmissing
        · exact ha
      obtain ⟨c, hc, hcmissing, hfails⟩ := ih (s := s.putAsset b)
        (fun d hd => fits d (List.mem_cons_of_mem b hd)) ⟨a, harest, hmissing⟩
      exact ⟨c, List.mem_cons_of_mem b hc, hcmissing, hfails⟩

/-- Saving assets writes neither wallets nor prices. -/
theorem saveAssets_others (h : s.saveAssets assets = .ok t) : t.wallets = s.wallets ∧ t.prices = s.prices := by
  rw [saveAssets_eq_ok h]
  exact List.foldlRecOn (motive := fun t : Store => t.wallets = s.wallets ∧ t.prices = s.prices) assets putAsset
    ⟨rfl, rfl⟩ fun _ hsame _ _ => hsame

/-! ### What is found -/

/-- The asset that is saved is found under its identifier, and the others as before. -/
theorem findAssetRow_putAsset (s : Store) (a : Asset) (identifier : String) :
    (s.putAsset a).findAssetRow identifier
      = if a.identifier = identifier then some (a.row (s.findAssetRow identifier))
        else s.findAssetRow identifier := by
  have hfind := Keyed.find?_upsert AssetRow.identifier (a.row (s.findAssetRow a.identifier)) s.assets identifier
  -- Only under the identifier of the asset does the row before it matter.
  by_cases hid : a.identifier = identifier
  · subst hid
    exact hfind
  · rw [if_neg hid]
    exact hfind.trans (if_neg hid)

/-- An asset is found as its row reads. -/
theorem findAsset_of_row {identifier : String} {r : AssetRow} (found : s.findAssetRow identifier = some r)
    (read : r.asset = .ok a) : s.findAsset identifier = .ok (some a) := by
  rw [findAsset, found]
  exact congrArg (Except.map some) read

/-- Assets of other identifiers make no difference. -/
theorem findAssetRow_foldl_of_ne {identifier : String} (h : ∀ a ∈ assets, a.identifier ≠ identifier) :
    (assets.foldl putAsset s).findAssetRow identifier = s.findAssetRow identifier := by
  induction assets generalizing s with
  | nil => rfl
  | cons a rest ih =>
    rw [List.foldl_cons, ih fun b hb => h b (List.mem_cons_of_mem a hb), findAssetRow_putAsset,
      if_neg (h a List.mem_cons_self)]

/-- Of the assets of one identifier the last one is found, on top of what the ones before left. -/
theorem findAssetRow_foldl_last (before : List Asset) {after : List Asset}
    (h : ∀ b ∈ after, b.identifier ≠ a.identifier) :
    ((before ++ a :: after).foldl putAsset s).findAssetRow a.identifier
      = some (a.row ((before.foldl putAsset s).findAssetRow a.identifier)) := by
  rw [List.foldl_append, List.foldl_cons, findAssetRow_foldl_of_ne h, findAssetRow_putAsset, if_pos rfl]

end Store

/-! ### Sessions -/

namespace Session

/-- A session in which an asset fails has saved those before it and committed none. -/
theorem addAssets_of_error {x : Session} {assets : List Asset} {f : Failure}
    (h : x.current.saveAssets assets = .error f) :
    ∃ before a after held, assets = before ++ a :: after ∧ x.current.saveAssets before = .ok held
      ∧ held.saveAsset a = .error f ∧ x.addAssets assets = (.error f, ⟨x.committed, held⟩) := by
  induction assets generalizing x with
  | nil => cases h
  | cons a rest ih =>
    rw [Store.saveAssets_cons] at h
    cases ha : x.current.saveAsset a with
    | error g =>
      rw [ha] at h
      cases h
      exact ⟨[], a, rest, x.current, rfl, rfl, ha, by simp only [addAssets, ha]⟩
    | ok s =>
      rw [ha] at h
      -- The asset is in the session now, but what is committed has not changed.
      obtain ⟨before, b, after, held, rfl, hsaved, hb, hadd⟩ := ih (x := ⟨x.committed, s⟩) h
      refine ⟨a :: before, b, after, held, rfl, ?_, hb, ?_⟩
      · rw [Store.saveAssets_cons, ha]
        exact hsaved
      · simp only [addAssets, ha, hadd]

/-- A session in which all assets can be saved has saved them, and committed none yet. -/
theorem addAssets_of_ok {x : Session} {t : Store} {assets : List Asset}
    (h : x.current.saveAssets assets = .ok t) : x.addAssets assets = (.ok (), ⟨x.committed, t⟩) := by
  induction assets generalizing x with
  | nil =>
    cases h
    rfl
  | cons a rest ih =>
    rw [Store.saveAssets_cons] at h
    cases ha : x.current.saveAsset a with
    | error f =>
      rw [ha] at h
      cases h
    | ok saved =>
      rw [ha] at h
      have hrest := ih (x := ⟨x.committed, saved⟩) h
      simp only [addAssets, ha, hrest]

variable {x : Session} {assets : List Asset}

/-- A session in which all assets can be saved commits them together. -/
theorem saveAssets_of_ok {t : Store} (h : x.current.saveAssets assets = .ok t) :
    x.saveAssets assets = (.ok (), ⟨t, t⟩) := by
  rw [saveAssets, addAssets_of_ok h]
  rfl

/-- A session in which one fails keeps the ones before it to itself and commits none. -/
theorem saveAssets_of_error {f : Failure} (h : x.current.saveAssets assets = .error f) :
    ∃ before after held, assets = before ++ after ∧ x.current.saveAssets before = .ok held
      ∧ x.saveAssets assets = (.error f, ⟨x.committed, held⟩) := by
  obtain ⟨before, a, after, held, hsplit, hsaved, -, hadd⟩ := addAssets_of_error h
  refine ⟨before, a :: after, held, hsplit, hsaved, ?_⟩
  rw [saveAssets, hadd]

end Session

end ChainWallet
