import ChainWallet.Proofs.Ledger.RunSuccess
import ChainWallet.Proofs.Wallet.Migration
import ChainWallet.Proofs.Wallet.StoredAddress

/-!
# What becomes of the other wallets

An operation on a wallet saves that wallet and a list of assets, each of which goes to the wallet that it names, and
takes the place of the asset that is stored under its identifier. So an operation does not keep to its wallet: an
asset can be moved away from another wallet, or into it. Nothing else can happen to the other wallets.

* **`Operation.draft?`** — the draft that an operation saves if it gets so far; `leaves_cases` says that all it does
  is to store that draft, with addresses from a device.
* **`WalletDraft.Spares`** — the rows of a kind are neither replaced nor added to by a draft. They are kept, in
  their order (`Operation.filter_leaves`).
* **`other_wallets_kept`** — another wallet keeps its own fields, and all assets under identifiers that the operation
  does not save. If the operation saves none that goes to the wallet or is stored under it, it keeps everything.
* **`asset_moved_by_creation`** — what an operation can do to another wallet.
-/

namespace ChainWallet

open Ledger

variable {s t : Store} {w : WalletDraft} {a : Asset} {p : AssetRow → Bool} {other : String}

/-! ### Storing a draft -/

namespace WalletDraft

/-- The wallet that an asset of a draft goes to. -/
def ownerOf (w : WalletDraft) (a : Asset) : String :=
  if a.walletId.isEmpty then w.identifier else a.walletId

/-- No row of a kind is replaced by an asset of the draft, and none comes of it. -/
def Spares (w : WalletDraft) (s : Store) (p : AssetRow → Bool) : Prop :=
  ∀ a ∈ w.assets, (∀ r : AssetRow, r.identifier = a.identifier → r.owner = w.ownerOf a → p r = false)
    ∧ ∀ r ∈ s.assets, r.identifier = a.identifier → p r = false

/-- An asset that is saved differs from that of the draft in its address and its wallet only. -/
theorem exists_of_mem_saved {done : List (Step × String)} (h : a ∈ (w.after done).attachAssets.assets) :
    ∃ b ∈ w.assets, ∃ address, a = { b with address, walletId := w.ownerOf b } := by
  obtain ⟨c, hc, rfl⟩ := List.mem_map.mp h
  obtain ⟨b, hb, rfl⟩ := List.mem_map.mp hc
  refine ⟨b, hb, b.addressAfter done, ?_⟩
  rw [ownerOf]
  by_cases hempty : b.walletId.isEmpty = true
  · rw [if_pos hempty, if_pos hempty]
    rfl
  · rw [if_neg hempty, if_neg hempty]

end WalletDraft

namespace Store

/-- Rows that all assets spare stay, whatever is put in. -/
theorem filter_foldl_putAsset {assets : List Asset}
    (spares : ∀ a ∈ assets, (∀ r : AssetRow, r.identifier = a.identifier → r.owner = a.walletId → p r = false)
      ∧ ∀ r ∈ s.assets, r.identifier = a.identifier → p r = false) :
    (assets.foldl putAsset s).assets.filter p = s.assets.filter p := by
  induction assets generalizing s with
  | nil => rfl
  | cons a rest ih =>
    obtain ⟨hrow, hrows⟩ := spares a List.mem_cons_self
    have hput : (s.putAsset a).assets.filter p = s.assets.filter p :=
      Keyed.filter_upsert AssetRow.identifier (hrow _ rfl rfl) hrows
    rw [List.foldl_cons, ih, hput]
    -- The row that was just put in is none of this kind either.
    intro b hb
    obtain ⟨hbrow, hbrows⟩ := spares b (List.mem_cons_of_mem a hb)
    refine ⟨hbrow, fun r hr hid => ?_⟩
    rcases Keyed.mem_upsert hr with rfl | hr
    · exact hrow _ rfl rfl
    · exact hbrows r hr hid

/-- A draft is loaded from the row of its wallet and the rows of its assets. -/
theorem findDraft_congr (wallet : t.findWallet other = s.findWallet other)
    (assets : t.assets.filter (·.owner == other) = s.assets.filter (·.owner == other)) :
    t.findDraft other = s.findDraft other := by
  rw [findDraft, findDraft, wallet]
  cases hfound : s.findWallet other with
  | none => rfl
  | some r =>
    obtain rfl : r.identifier = other := findWallet_identifier hfound
    show (t.assetsOf r.identifier).map r.draft = (s.assetsOf r.identifier).map r.draft
    rw [assetsOf, assets, assetsOf]

end Store

section Storing

variable {scene : Scene} {done : List (Step × String)} (draft : scene.draft = w.after done)

include draft

/-- Storing a draft leaves the rows of other wallets. -/
theorem findWallet_storeDraft (elsewhere : w.identifier ≠ other) :
    (storeDraft scene s).2.2.findWallet other = s.findWallet other := by
  have hput : (s.putWallet scene.draft.attachAssets).findWallet other = s.findWallet other := by
    rw [Store.findWallet_putWallet, if_neg]
    rw [draft]
    exact elsewhere
  rcases storeDraft_leaves scene s with hsame | ⟨saved, hwallet, hassets⟩
  · rw [hsame]
  -- Saving assets writes no wallet, so only the one of the draft is written.
  obtain rfl := Store.saveWallet_eq_ok hwallet
  rcases hassets with hsaved | hstored
  · rw [hsaved, hput]
  · rw [Store.findWallet, (Store.saveAssets_others hstored).1]
    exact hput

/-- Storing a draft leaves the rows that it spares. -/
theorem filter_storeDraft (spares : w.Spares s p) :
    (storeDraft scene s).2.2.assets.filter p = s.assets.filter p := by
  rcases storeDraft_cases scene s with ⟨-, hsame⟩ | ⟨-, saved, hsame, hstored⟩
  · rw [hsame]
  · rw [Store.saveAssets_eq_ok hstored, Store.filter_foldl_putAsset, hsame]
    intro a ha
    rw [draft] at ha
    -- A saved asset is one of the draft up to its address, so it is spared as that one is.
    obtain ⟨b, hb, address, rfl⟩ := WalletDraft.exists_of_mem_saved ha
    rw [hsame]
    exact spares b hb

/-- Storing a draft keeps the store in order. -/
theorem wellKept_storeDraft (kept : s.WellKept) (balances : ∀ a ∈ w.assets, a.balance.exactRange = true) :
    (storeDraft scene s).2.2.WellKept := by
  rcases storeDraft_leaves scene s with hsame | ⟨saved, hwallet, hassets⟩
  · rwa [hsame]
  have hkept := kept.saveWallet hwallet
  rcases hassets with hsaved | hstored
  · rwa [hsaved]
  · refine hkept.saveAssets (fun a ha => ?_) hstored
    rw [draft] at ha
    obtain ⟨b, hb, address, rfl⟩ := WalletDraft.exists_of_mem_saved ha
    exact balances b hb

end Storing

/-! ### Operations -/

namespace Operation

/-- The wallet of an operation. -/
def wallet? : Operation → Option String
  | create _ _ scene => some scene.draft.identifier
  | migrate identifier .. => some identifier
  | refresh .. => none

/-- The assets that come with an operation. -/
def assets : Operation → List Asset
  | create _ _ scene => scene.draft.assets
  | migrate _ assets .. => assets
  | refresh .. => []

/-- The draft that an operation sets out to save. -/
def draft? (s : Store) : Operation → Option WalletDraft
  | create _ _ scene => some scene.draft
  | migrate identifier assets .. => (s.findDraft identifier).toOption.map (·.withNewAssets assets)
  | refresh .. => none

/-- A migration runs over the draft that it is about. -/
def Faithful : Operation → Prop
  | migrate _ _ _ _ scene => ∀ w, (scene w).draft = w
  | create .. | refresh .. => True

/-- An operation leaves wallets and assets alone, or it stores its draft, with some addresses derived. -/
theorem leaves_cases (op : Operation) (s : Store) (faithful : op.Faithful) :
    (op.leaves s).wallets = s.wallets ∧ (op.leaves s).assets = s.assets
      ∨ ∃ d done scene, op.draft? s = some d ∧ scene.draft = d.after done
        ∧ op.leaves s = (storeDraft scene s).2.2 := by
  cases op with
  | create sequencer env scene =>
    rcases cleared_or_creation_refused sequencer env scene with ⟨after, h⟩ | ⟨fault, after, h⟩
    · have hcreate : createWallet sequencer env scene s = storeDraft after s :=
        createThrough_of_cleared h storeDraft
      right
      rw [leaves, hcreate]
      -- A normal wallet is stored without a run, which is to say with no step made.
      cases h with
      | normal kind => exact ⟨scene.draft, [], scene, rfl, scene.draft.after_nil.symm, rfl⟩
      | derived kind given run success =>
        obtain ⟨done, -, -, -, -, hdraft⟩ := Sequencer.run_of_success run success
        exact ⟨scene.draft, done, after, rfl, hdraft, rfl⟩
    · have hcreate : createWallet sequencer env scene s = (.error fault, after, s) :=
        createThrough_of_refused h storeDraft
      rw [leaves, hcreate]
      exact .inl ⟨rfl, rfl⟩
  | migrate identifier assets q env scene =>
    rcases cleared_or_migration_refused identifier assets q env scene s with ⟨after, h⟩ | ⟨fault, left, h⟩
    · have hmigrate : migrateWallet identifier assets q env scene s
          = ((storeDraft after s).1, some (storeDraft after s).2.1, (storeDraft after s).2.2) :=
        migrateThrough_of_cleared h storeDraft
      right
      rw [leaves, hmigrate]
      cases h with
      | @derived w _ _ load kind run success =>
        obtain ⟨done, -, -, -, -, hdraft⟩ := Sequencer.run_of_success run success
        rw [faithful (w.withNewAssets assets)] at hdraft
        exact ⟨_, done, after, by rw [draft?, load]; rfl, hdraft, rfl⟩
    · have hmigrate : migrateWallet identifier assets q env scene s = (.error fault, left, s) :=
        migrateThrough_of_refused h storeDraft
      rw [leaves, hmigrate]
      exact .inl ⟨rfl, rfl⟩
  | refresh resolver feed currency desk => exact .inl (refreshPrices_others resolver feed currency desk s)

variable {op : Operation} {d : WalletDraft}

/-- A migration sets out from the draft that is stored. -/
theorem exists_of_draft?_migrate {identifier : String} {assets : List Asset} {q : Sequencer} {env : Surroundings}
    {scene : WalletDraft → Scene} (h : (migrate identifier assets q env scene).draft? s = some d) :
    ∃ w, w.identifier = identifier ∧ s.Holds w ∧ d = w.withNewAssets assets := by
  obtain ⟨w, hw, rfl⟩ := Option.map_eq_some_iff.mp h
  cases hload : s.findDraft identifier with
  | error f =>
    rw [hload] at hw
    cases hw
  | ok w' =>
    rw [hload] at hw
    cases hw
    obtain ⟨hid, holds⟩ := Store.holds_of_findDraft hload
    exact ⟨w, hid, holds, rfl⟩

/-- The draft of an operation is one of its wallet. -/
theorem wallet?_of_draft? (h : op.draft? s = some d) : op.wallet? = some d.identifier := by
  cases op with
  | create sequencer env scene =>
    cases h
    rfl
  | migrate identifier assets q env scene =>
    obtain ⟨w, rfl, -, rfl⟩ := exists_of_draft?_migrate h
    rfl
  | refresh => cases h

/-- All balances of a draft can be written if those that come with the operation can. -/
theorem balances_of_draft? (balances : ∀ a ∈ op.assets, a.balance.exactRange = true)
    (h : op.draft? s = some d) : ∀ a ∈ d.assets, a.balance.exactRange = true := by
  cases op with
  | create sequencer env scene =>
    cases h
    exact balances
  | migrate identifier assets q env scene =>
    obtain ⟨w, -, holds, rfl⟩ := exists_of_draft?_migrate h
    intro a ha
    rcases List.mem_append.mp ha with ha | ha
    · -- What was loaded has been read from a row.
      obtain ⟨r, -, -, hasset⟩ := holds.exists_row ha
      exact AssetRow.exactRange_of_asset hasset
    · exact balances a (List.mem_filter.mp ha).1
  | refresh => cases h

variable (faithful : op.Faithful)

include faithful

/-- An operation leaves the rows of other wallets. -/
theorem findWallet_leaves (elsewhere : op.wallet? ≠ some other) :
    (op.leaves s).findWallet other = s.findWallet other := by
  rcases op.leaves_cases s faithful with ⟨hwallets, -⟩ | ⟨d, done, scene, hd, hdraft, hleaves⟩
  · rw [Store.findWallet, hwallets]
    rfl
  · rw [hleaves]
    refine findWallet_storeDraft hdraft fun hsame => elsewhere ?_
    rw [wallet?_of_draft? hd, hsame]

/-- An operation leaves the rows that its draft spares. -/
theorem filter_leaves (spares : ∀ d, op.draft? s = some d → d.Spares s p) :
    (op.leaves s).assets.filter p = s.assets.filter p := by
  rcases op.leaves_cases s faithful with ⟨-, hassets⟩ | ⟨d, done, scene, hd, hdraft, hleaves⟩
  · rw [hassets]
  · rw [hleaves]
    exact filter_storeDraft hdraft (spares d hd)

/-- After an operation every row of an asset can be read. -/
theorem readable_leaves (kept : s.WellKept) (balances : ∀ a ∈ op.assets, a.balance.exactRange = true) :
    ∀ r ∈ (op.leaves s).assets, ∃ a, r.asset = .ok a := by
  rcases op.leaves_cases s faithful with ⟨-, hassets⟩ | ⟨d, done, scene, hd, hdraft, hleaves⟩
  · rw [hassets]
    exact kept.readable
  · rw [hleaves]
    exact (wellKept_storeDraft hdraft kept (balances_of_draft? balances hd)).readable

end Operation

/-- The draft without the assets under some identifiers. -/
def WalletDraft.without (w : WalletDraft) (identifiers : List String) : WalletDraft :=
  { w with assets := w.assets.filter (!identifiers.contains ·.identifier) }

/-- The identifiers of the assets that an operation saves. -/
def Operation.identifiers (s : Store) (op : Operation) : List String :=
  (op.draft? s).elim [] fun d => d.assets.map (·.identifier)

/-- Another wallet than that of an operation keeps its own fields, and all its assets but those under identifiers
that the operation saves. If nothing that is saved goes to the wallet, and nothing that it has is under the same
identifier, it keeps everything. -/
theorem other_wallets_kept (s : Store) (op : Operation) (other : String) (r : WalletRow) (kept : s.WellKept)
    (faithful : op.Faithful) (balances : ∀ a ∈ op.assets, a.balance.exactRange = true)
    (elsewhere : op.wallet? ≠ some other) (stored : s.findWallet other = some r) :
    ∃ w w', s.findDraft other = .ok w ∧ (op.leaves s).findDraft other = .ok w'
      ∧ w'.without (op.identifiers s) = w.without (op.identifiers s)
      ∧ ((∀ d, op.draft? s = some d → ∀ a ∈ d.assets,
          d.ownerOf a ≠ other ∧ a.identifier ∉ w.assets.map (·.identifier)) → w' = w) := by
  obtain rfl : r.identifier = other := Store.findWallet_identifier stored
  have hfound := (Operation.findWallet_leaves faithful elsewhere).trans stored
  -- Both stores have the wallet, and all their rows can be read, so both drafts are loaded.
  obtain ⟨assets, hassets, hload⟩ := Store.exists_findDraft kept.readable stored
  obtain ⟨assets', hassets', hload'⟩ :=
    Store.exists_findDraft (Operation.readable_leaves faithful kept balances) hfound
  refine ⟨_, _, hload, hload', ?_, fun apart => ?_⟩
  · -- What is loaded of the rows under the other identifiers is the same before and after.
    let outside (identifier : String) : Bool := !(op.identifiers s).contains identifier
    have hrows : ((op.leaves s).assets.filter (·.owner == r.identifier)).filter
          (fun row => outside row.identifier)
        = (s.assets.filter (·.owner == r.identifier)).filter (fun row => outside row.identifier) := by
      rw [List.filter_filter, List.filter_filter]
      refine Operation.filter_leaves faithful fun d hd a ha => ?_
      have hinside : outside a.identifier = false := by
        have hmem : a.identifier ∈ op.identifiers s := by
          rw [Operation.identifiers, hd]
          exact List.mem_map_of_mem ha
        simpa [outside] using hmem
      exact ⟨fun row hid _ => by simp [hid, hinside], fun row _ hid => by simp [hid, hinside]⟩
    -- Rows and assets have the same identifiers, so filtering the rows is filtering what is loaded.
    have hagree : ∀ (row : AssetRow) (a : Asset), row.asset = .ok a →
        outside a.identifier = outside row.identifier :=
      fun row a h => congrArg outside (Store.asset_identifier h)
    have hbefore := mapM_filter hagree hassets
    have hafter := mapM_filter hagree hassets'
    rw [hrows, hbefore] at hafter
    exact congrArg r.draft (Except.ok.inj hafter).symm
  · have hrows : (op.leaves s).assets.filter (·.owner == r.identifier)
        = s.assets.filter (·.owner == r.identifier) := by
      refine Operation.filter_leaves faithful fun d hd a ha => ⟨fun row _ howner => ?_, fun row hrow hid => ?_⟩
      · -- What is saved goes to other wallets.
        exact beq_false_of_ne (howner ▸ (apart d hd a ha).1)
      · -- A row of the wallet would be loaded, and its identifier is none of those that are saved.
        refine beq_false_of_ne fun howner => (apart d hd a ha).2 ?_
        obtain ⟨-, holds⟩ := Store.holds_of_findDraft hload
        exact hid ▸ holds.mem_identifiers kept hrow howner
    have hsame := Store.findDraft_congr (hfound.trans stored.symm) hrows
    rw [hload, hload'] at hsame
    exact Except.ok.inj hsame

/-- A normal wallet beside that of `coinAndToken`. -/
def secondWallet (assets : List Asset) : WalletDraft where
  identifier := "wallet-2"
  name := ""
  address := ""
  addressIndex := 0
  standard := .bip44
  kind := .normal
  networkPrefix := "cro"
  assets

def plainAsset (identifier walletId : String) : Asset where
  identifier
  walletId
  assetType := .evm
  mainnetSymbol := "ETH"
  symbol := "ETH"
  name := ""
  decimals := 18
  balance := .zero
  address := "0xsoft"
  config := none

/-- A wallet is created beside another one, with an asset of its own. -/
theorem coin_and_token_kept_beside_second_wallet :
    ∃ w, ((Operation.create none withEveryApp ⟨secondWallet [plainAsset "spare" ""], .unset, [], []⟩).leaves
        withCoinAndToken).findDraft "wallet-1" = .ok w
      ∧ w.assets.map (·.identifier) = ["coin", "token"] := by
  let op : Operation := .create none withEveryApp ⟨secondWallet [plainAsset "spare" ""], .unset, [], []⟩
  obtain ⟨w, w', load, load', -, hsame⟩ := other_wallets_kept withCoinAndToken op "wallet-1" coinAndToken.row
    wellKept_withCoinAndToken trivial (by decide +kernel) (by decide) rfl
  have hload : withCoinAndToken.findDraft "wallet-1" = .ok coinAndToken.attachAssets.kept := by decide +kernel
  rw [hload] at load
  cases load
  refine ⟨_, load', ?_⟩
  rw [hsame]
  · decide
  · rintro d ⟨⟩
    decide

/-- An asset that is created for the second wallet is taken from the first one, and one that names the first wallet
comes into it. -/
theorem asset_moved_by_creation :
    ¬ ∀ (s : Store) (op : Operation) (other : String) (r : WalletRow), s.WellKept → op.Faithful →
      op.wallet? ≠ some other → s.findWallet other = some r →
      (op.leaves s).findDraft other = s.findDraft other := by
  intro h
  let assets : List Asset := [plainAsset "coin" "", plainAsset "extra" "wallet-1"]
  have hkept := h withCoinAndToken (.create none withEveryApp ⟨secondWallet assets, .unset, [], []⟩) "wallet-1"
    coinAndToken.row wellKept_withCoinAndToken trivial (by decide) rfl
  revert hkept
  decide +kernel

end ChainWallet
