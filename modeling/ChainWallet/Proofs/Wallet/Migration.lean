import ChainWallet.Proofs.Ledger.AddressesPresent
import ChainWallet.Proofs.Store.Rewriting
import ChainWallet.Proofs.Wallet.SaveAndLoad
import ChainWallet.Proofs.Wallet.StoredAfterSuccess

/-!
# What a migration leaves in the store

A migration loads a wallet, adds the assets that the wallet does not have yet, takes all addresses from the device
at hand, and saves all of it. On a device that answers every call, and always in the same way, the answers decide
what is stored, and the second migration finds everything as it would write it.

* **`WalletDraft.derivedOn`** — a draft with the addresses that a device gives it. A run that succeeds leaves
  this draft (`Conduct.draft_of_success`).
* **`Store.afterMigration`** — the tables after a migration: the row of the wallet and those of its assets are
  rewritten, and the rows of the new assets come last. This is what `storeDraft` leaves
  (`storeDraft_of_derivedOn`), and it is loaded as `WalletDraft.migrated` (`holds_afterMigration`).
* **`afterMigration_afterMigration`** — the second migration writes what is there.
* **`migrated_once`** — the whole of it.
-/

namespace ChainWallet

open Ledger

variable {answer : DeviceCall → String} {w : WalletDraft} {a : Asset}

/-! ### Addresses from a device -/

/-- The address of an asset on a device: the answer to the call of its step, or the address that it has. -/
def Asset.addressOn (answer : DeviceCall → String) (w : WalletDraft) (a : Asset) : String :=
  ((stepsFor .ledger).find? (·.covers a)).elim a.address fun step => answer (step.call w)

/-- A ledger wallet with the addresses that a device gives it. -/
def WalletDraft.derivedOn (answer : DeviceCall → String) (w : WalletDraft) : WalletDraft :=
  { w with
    address := answer (cryptoOrgStep.call w)
    assets := w.assets.map (Asset.readdressed (Asset.addressOn answer w)) }

/-- An asset is covered by the same steps when it has been stored and loaded. -/
theorem Ledger.Step.covers_kept (step : Step) (a : Asset) : step.covers a.kept = step.covers a := by
  have hchain : a.kept.chain = a.chain := by
    cases hconfig : a.config <;> simp [Asset.chain, Asset.kept, AssetConfig.kept, hconfig]
  rw [Step.covers, hchain]
  rfl

/-- So it has the same address on a device. -/
theorem Asset.addressOn_kept : a.kept.addressOn answer w = a.addressOn answer w := by
  have hcovers : (fun step : Step => step.covers a.kept) = fun step => step.covers a :=
    funext fun step => step.covers_kept a
  rw [addressOn, hcovers]
  rfl

/-- Only one step covers an asset, so it does not matter that the first one is looked for. -/
theorem Asset.addressOn_of_covers {step : Step} (hs : step ∈ stepsFor .ledger) (covered : step.covers a = true) :
    a.addressOn answer w = answer (step.call w) := by
  -- The step that is found covers the asset as well, and two steps that do are the same.
  cases hfind : (stepsFor .ledger).find? fun step => step.covers a with
  | none => simpa [covered] using List.find?_eq_none.mp hfind step hs
  | some step' =>
    have covered' : step'.covers a = true := List.find?_some (p := fun step : Step => step.covers a) hfind
    rw [addressOn, hfind, eq_of_covers hs (List.mem_of_find?_eq_some hfind) covered covered', Option.elim_some]

/-- An asset that has its address from a device has it again from the same device. -/
theorem Asset.addressOn_readdressed :
    (a.readdressed (addressOn answer w)).addressOn answer w = a.addressOn answer w := by
  have hcovers : (fun step : Step => step.covers (a.readdressed (addressOn answer w)))
      = fun step => step.covers a := rfl
  rw [addressOn, hcovers]
  cases hfind : (stepsFor .ledger).find? fun step => step.covers a with
  | none => rfl
  | some step => simp [addressOn, hfind]

/-- The steps of a ledger wallet with the answers of a device. -/
def Ledger.derivations (answer : DeviceCall → String) (w : WalletDraft) : List (Step × String) :=
  (stepsFor .ledger).map fun step => (step, answer (step.call w))

theorem Ledger.map_fst_derivations : (derivations answer w).map (·.1) = stepsFor .ledger := rfl

theorem Ledger.mem_derivations {step : Step} (h : step ∈ stepsFor .ledger) :
    (step, answer (step.call w)) ∈ derivations answer w :=
  List.mem_map_of_mem h

/-- An asset that no step covers keeps its address; the others have the answer to the call of their step. -/
theorem Asset.addressAfter_derivations (a : Asset) :
    a.addressAfter (derivations answer w) = a.addressOn answer w := by
  cases hfind : (stepsFor .ledger).find? fun step => step.covers a with
  | none =>
    have uncovered : ∀ step ∈ stepsFor .ledger, step.covers a = false := by simpa using hfind
    rw [addressAfter_of_uncovered, addressOn, hfind, Option.elim_none]
    intro d hd
    obtain ⟨step, hstep, rfl⟩ := List.mem_map.mp hd
    exact uncovered step hstep
  | some step =>
    have covered : step.covers a = true := List.find?_some (p := fun step : Step => step.covers a) hfind
    have hmem : (step, answer (step.call w)) ∈ derivations answer w :=
      mem_derivations (List.mem_of_find?_eq_some hfind)
    rw [addressAfter_of_ledgerStep map_fst_derivations hmem covered, addressOn, hfind, Option.elim_some]

/-- What a whole run writes is what the device gives. -/
theorem after_derivations (answer : DeviceCall → String) (w : WalletDraft) :
    w.after (derivations answer w) = w.derivedOn answer := by
  have haddress : (w.after (derivations answer w)).address = answer (cryptoOrgStep.call w) :=
    address_after_of_cryptoOrg map_fst_derivations (mem_derivations (by decide)) rfl
  have hassets : (w.after (derivations answer w)).assets
      = w.assets.map (Asset.readdressed (Asset.addressOn answer w)) :=
    List.map_congr_left fun a _ => by rw [a.addressAfter_derivations]; rfl
  rw [WalletDraft.derivedOn, ← haddress, ← hassets]
  rfl

/-- A migration with the usual steps, on a device that always answers, and by the call alone. -/
structure Conduct (answer : DeviceCall → String) (q : Sequencer) (env : Surroundings)
    (scene : WalletDraft → Scene) : Prop where
  steps : ∀ w : WalletDraft, w.kind = .ledger → q.steps w = stepsFor .ledger
  device : ∀ earlier call, env.device earlier call = .ok (answer call)
  draft : ∀ w, (scene w).draft = w

namespace Conduct

variable {q : Sequencer} {env : Surroundings} {scene : WalletDraft → Scene}

/-- Such a device answers every step, whatever was called before. -/
theorem replies (conduct : Conduct answer q env scene) (ledger : w.kind = .ledger) :
    q.replies env (scene w) = granted (derivations answer w) := by
  have hreplies : ∀ (steps : List Step) (earlier : List DeviceCall), Ledger.replies env.device w earlier steps
      = granted (steps.map fun step => (step, answer (step.call w))) := by
    -- The induction is on the steps, for any calls before them: each adds its own call to these.
    intro steps
    induction steps with
    | nil => exact fun _ => rfl
    | cons step rest ih =>
      intro earlier
      rw [Ledger.replies, conduct.device, ih]
      rfl
  rw [Sequencer.replies, conduct.draft, conduct.steps w ledger]
  exact hreplies _ _

/-- A run that succeeds leaves the addresses that the device gives, whatever its listener does. -/
theorem draft_of_success (conduct : Conduct answer q env scene) (ledger : w.kind = .ledger)
    {result : DerivationResult} {t : Scene} (run : q.run env true (scene w) = (.ok result, t))
    (success : result.isSuccess = true) : t.draft = w.derivedOn answer := by
  obtain ⟨done, hreplies, -, -, -, hdraft⟩ := Sequencer.run_of_success run success
  rw [conduct.replies ledger] at hreplies
  have hdone := congrArg answers hreplies
  rw [answers_granted, answers_granted] at hdone
  rw [hdraft, conduct.draft, ← hdone, after_derivations]

/-- If the listener does not fail either, the run succeeds. -/
theorem success (conduct : Conduct answer q env scene) (ledger : w.kind = .ledger) (quiet : env.Quiet) :
    ∃ result t, q.run env true (scene w) = (.ok result, t) ∧ result.isSuccess = true := by
  have hledger : (scene w).draft.kind = .ledger := by rw [conduct.draft, ledger]
  obtain ⟨result, t, hrun, hiff⟩ : ∃ result t, q.run env true (scene w) = (.ok result, t)
      ∧ (result.isSuccess = true ↔ ∃ done, q.replies env (scene w) = granted done
        ∧ Unrefused true (scene w).draft done) := Sequencer.run_success_iff hledger quiet
  -- With the right to replace addresses no answer is refused.
  have hunrefused : Unrefused true (scene w).draft (derivations answer w) := fun _ _ _ refused => by
    cases refused.1
  exact ⟨result, t, hrun, hiff.mpr ⟨_, conduct.replies ledger, hunrefused⟩⟩

end Conduct

/-! ### What is stored -/

namespace WalletDraft

/-- Those of a list of assets whose identifier the draft does not have. -/
def unknown (w : WalletDraft) (new : List Asset) : List Asset :=
  new.filter (!(w.assets.map (·.identifier)).contains ·.identifier)

/-- A stored draft as a migration with new assets leaves it: the new ones that it does not have come last, as
assets of the wallet, and all have the addresses of the device. -/
def migrated (answer : DeviceCall → String) (w : WalletDraft) (new : List Asset) : WalletDraft :=
  derivedOn answer
    { w with assets := w.assets ++ (w.unknown new).map fun a => (a.ownedBy w.identifier).kept }

/-- The assets that a migration saves. -/
def rederived (answer : DeviceCall → String) (w : WalletDraft) (new : List Asset) : List Asset :=
  w.assets.map (Asset.readdressed (Asset.addressOn answer w))
    ++ (w.unknown new).map fun a => (a.ownedBy w.identifier).readdressed (Asset.addressOn answer w)

theorem mem_unknown {new : List Asset} : a ∈ w.unknown new
    ↔ a ∈ new ∧ a.identifier ∉ w.assets.map (·.identifier) := by
  simp [unknown]

end WalletDraft

namespace Store

/-- The tables after a migration of a stored draft with new assets. -/
def afterMigration (answer : DeviceCall → String) (s : Store) (w : WalletDraft) (new : List Asset) : Store :=
  { s with
    wallets := Keyed.upsert WalletRow.identifier (w.derivedOn answer).row s.wallets
    assets := (s.assets.map fun r => if r.owner = w.identifier then r.rewritten (Asset.addressOn answer w) else r)
      ++ (w.unknown new).map fun a => ((a.ownedBy w.identifier).readdressed (Asset.addressOn answer w)).row none }

/-- New assets for a stored wallet: each has an identifier of its own, under which at most this wallet has an
asset. -/
structure Admits (s : Store) (identifier : String) (new : List Asset) : Prop where
  distinct : (new.map (·.identifier)).Nodup
  attached : ∀ a ∈ new, a.walletId = "" ∨ a.walletId = identifier
  unclaimed : ∀ a ∈ new, ∀ r ∈ s.assets, r.identifier = a.identifier → r.owner = identifier
  storable : ∀ a ∈ new, a.Storable

/-- A draft is stored if its row is there, and the rows of its assets are. -/
structure Holds (s : Store) (w : WalletDraft) : Prop where
  wallet : s.findWallet w.identifier = some w.row
  assets : s.assetsOf w.identifier = .ok w.assets

variable {s : Store} {new : List Asset}

/-- A draft that can be loaded is stored. -/
theorem holds_of_findDraft {identifier : String} (h : s.findDraft identifier = .ok w) :
    w.identifier = identifier ∧ s.Holds w := by
  unfold findDraft at h
  split at h
  · cases h
  · next r hr =>
    obtain rfl : r.identifier = identifier := findWallet_identifier hr
    cases hassets : s.assetsOf r.identifier with
    | error f =>
      rw [hassets] at h
      cases h
    | ok assets =>
      rw [hassets] at h
      cases h
      exact ⟨rfl, hr, hassets⟩

namespace Holds

/-- A draft that is stored can be loaded. -/
theorem findDraft (holds : s.Holds w) : s.findDraft w.identifier = .ok w := by
  rw [Store.findDraft, holds.wallet]
  show (s.assetsOf w.identifier).map w.row.draft = .ok w
  rw [holds.assets]
  rfl

/-- Every asset of a stored draft is read from a row of the wallet. -/
theorem exists_row (holds : s.Holds w) (ha : a ∈ w.assets) :
    ∃ r ∈ s.assets, r.owner = w.identifier ∧ r.asset = .ok a := by
  obtain ⟨r, hr, hasset⟩ := exists_of_mem_mapM holds.assets ha
  obtain ⟨hr, howner⟩ := List.mem_filter.mp hr
  exact ⟨r, hr, beq_iff_eq.mp howner, hasset⟩

/-- Assets of a stored draft know their wallet. -/
theorem walletId (holds : s.Holds w) (ha : a ∈ w.assets) : a.walletId = w.identifier := by
  obtain ⟨r, -, howner, hasset⟩ := holds.exists_row ha
  rw [asset_walletId hasset, howner]

/-- Every row of the wallet is loaded with the draft, so an identifier in there is one of the draft's. -/
theorem mem_identifiers (holds : s.Holds w) (kept : s.WellKept) {r : AssetRow} (hr : r ∈ s.assets)
    (howner : r.owner = w.identifier) : r.identifier ∈ w.assets.map (·.identifier) := by
  obtain ⟨a, ha⟩ := kept.readable r hr
  rw [← asset_identifier ha]
  exact List.mem_map_of_mem
    (mem_of_mapM holds.assets (List.mem_filter.mpr ⟨hr, beq_iff_eq.mpr howner⟩) ha)

/-- What is saved of a draft after a migration. -/
theorem attachAssets (answer : DeviceCall → String) (holds : s.Holds w) (admits : s.Admits w.identifier new) :
    ((w.withNewAssets new).derivedOn answer).attachAssets
      = { w.derivedOn answer with assets := w.rederived answer new } := by
  -- What was loaded belongs to the wallet already, so attaching leaves it.
  have hloaded : (w.assets.map (Asset.readdressed (Asset.addressOn answer w))).map (Asset.ownedBy w.identifier)
      = w.assets.map (Asset.readdressed (Asset.addressOn answer w)) := by
    rw [List.map_map]
    refine List.map_congr_left fun a ha => ?_
    rw [Function.comp_apply, Asset.ownedBy, ← holds.walletId ha]
    rfl
  rw [WalletDraft.attachAssets_eq]
  · show { w.derivedOn answer with assets := ((w.assets ++ w.unknown new).map
      (Asset.readdressed (Asset.addressOn answer w))).map (Asset.ownedBy w.identifier) } = _
    rw [List.map_append, List.map_append, hloaded, List.map_map]
    rfl
  · intro b hb
    obtain ⟨a, ha, rfl⟩ := List.mem_map.mp hb
    rcases List.mem_append.mp ha with ha | ha
    · have hid : a.walletId = w.identifier := holds.walletId ha
      exact .inr hid
    · -- A new asset names no other wallet, which the store admits.
      exact admits.attached a (WalletDraft.mem_unknown.mp ha).1

/-- The index of a stored wallet has fitted its column before. -/
theorem index_fits (holds : s.Holds w) (fits : s.FitsColumns) : fitsColumn w.addressIndex = true :=
  fits.wallets w.row (List.mem_of_find?_eq_some holds.wallet)

/-- A new asset that the draft does not have is not stored at all. -/
theorem not_mem_of_unknown (holds : s.Holds w) (kept : s.WellKept) (admits : s.Admits w.identifier new)
    (ha : a ∈ w.unknown new) : a.identifier ∉ s.assets.map AssetRow.identifier := by
  obtain ⟨hnew, hunknown⟩ := WalletDraft.mem_unknown.mp ha
  intro hmem
  obtain ⟨r, hr, hid⟩ := List.mem_map.mp hmem
  have howner : r.owner = w.identifier := admits.unclaimed a hnew r hr hid
  exact hunknown (hid ▸ holds.mem_identifiers kept hr howner)

/-- All that a migration saves can be saved, as assets of the wallet. -/
theorem storable_rederived (answer : DeviceCall → String) (holds : s.Holds w) (fits : s.FitsColumns)
    (admits : s.Admits w.identifier new) :
    ∀ a ∈ w.rederived answer new, a.Storable ∧ a.walletId = w.identifier := by
  intro b hb
  rcases List.mem_append.mp hb with hb | hb
  · obtain ⟨a, ha, rfl⟩ := List.mem_map.mp hb
    obtain ⟨r, hr, howner, hasset⟩ := holds.exists_row ha
    have hbalance : a.balance.exactRange = true := AssetRow.exactRange_of_asset hasset
    have hwalletId : a.walletId = w.identifier := holds.walletId ha
    obtain ⟨balance, -, rfl⟩ := AssetRow.exists_of_asset hasset
    exact ⟨⟨fits.assets r hr, hbalance⟩, hwalletId⟩
  · obtain ⟨a, ha, rfl⟩ := List.mem_map.mp hb
    have hstorable := admits.storable a (WalletDraft.mem_unknown.mp ha).1
    exact ⟨⟨hstorable.decimals, hstorable.balance⟩, rfl⟩

end Holds

/-- The rows of the wallet are rewritten, and those of the new assets come after all others. -/
theorem foldl_putAsset_rederived (kept : s.WellKept) (load : s.assetsOf w.identifier = .ok w.assets)
    (distinct : (new.map (·.identifier)).Nodup)
    (unstored : ∀ a ∈ w.unknown new, a.identifier ∉ s.assets.map AssetRow.identifier) :
    (w.rederived answer new).foldl putAsset s
      = { s with assets := (s.afterMigration answer w new).assets } := by
  -- The stored assets rewrite their rows where they are, and only then come the new ones.
  rw [WalletDraft.rederived, List.foldl_append, foldl_putAsset_of_loaded kept load, foldl_putAsset_of_new]
  · rw [List.map_map]
    rfl
  · have hids : ((w.unknown new).map fun a =>
        (a.ownedBy w.identifier).readdressed (Asset.addressOn answer w)).map (·.identifier)
          = (w.unknown new).map (·.identifier) := by
      rw [List.map_map]
      rfl
    rw [hids]
    exact distinct.sublist (List.filter_sublist.map _)
  · intro b hb
    obtain ⟨a, ha, rfl⟩ := List.mem_map.mp hb
    rw [map_identifier_rewritten]
    exact unstored a ha

/-- The rows of the wallet after a migration, in their order. -/
theorem filter_owner_afterMigration (answer : DeviceCall → String) (s : Store) (w : WalletDraft)
    (new : List Asset) :
    (s.afterMigration answer w new).assets.filter (·.owner == w.identifier)
      = (s.assets.filter (·.owner == w.identifier)).map (AssetRow.rewritten (Asset.addressOn answer w))
        ++ (w.unknown new).map fun a =>
          ((a.ownedBy w.identifier).readdressed (Asset.addressOn answer w)).row none := by
  rw [afterMigration, List.filter_append, filter_owner_rewritten]
  congr 1
  -- All new rows belong to the wallet.
  rw [List.filter_eq_self]
  intro r hr
  obtain ⟨a, -, rfl⟩ := List.mem_map.mp hr
  exact beq_self_eq_true w.identifier

/-- What is stored after a migration is the migrated draft. -/
theorem holds_afterMigration (answer : DeviceCall → String) (holds : s.Holds w)
    (balances : ∀ a ∈ w.unknown new, a.balance.exactRange = true) :
    (s.afterMigration answer w new).Holds (w.migrated answer new) where
  wallet := findWallet_putWallet_self s (w.derivedOn answer)
  assets := by
    let f := Asset.addressOn answer w
    let added := (w.unknown new).map fun a => (a.ownedBy w.identifier).readdressed f
    have hloaded := mapM_asset_rewritten (f := f) holds.assets
    have hadded : (added.map (·.row none)).mapM AssetRow.asset = .ok (added.map Asset.kept) := by
      refine mapM_asset_row fun b hb => ?_
      obtain ⟨a, ha, rfl⟩ := List.mem_map.mp hb
      exact balances a ha
    -- An asset is kept without its fee settings, and these do not decide about its address.
    have hkept : added.map Asset.kept
        = ((w.unknown new).map fun a => (a.ownedBy w.identifier).kept).map (Asset.readdressed f) := by
      rw [List.map_map, List.map_map]
      refine List.map_congr_left fun a _ => ?_
      have haddress : (a.ownedBy w.identifier).kept.addressOn answer w
          = (a.ownedBy w.identifier).addressOn answer w := Asset.addressOn_kept
      show { (a.ownedBy w.identifier).kept with address := (a.ownedBy w.identifier).addressOn answer w } = _
      rw [← haddress]
      rfl
    show ((s.afterMigration answer w new).assets.filter (·.owner == w.identifier)).mapM AssetRow.asset
      = .ok ((w.assets ++ (w.unknown new).map fun a => (a.ownedBy w.identifier).kept).map
        (Asset.readdressed f))
    rw [List.map_map] at hadded
    rw [filter_owner_afterMigration, List.mapM_append, hloaded, List.map_append, ← hkept]
    exact congrArg (Except.bind · fun more => pure (w.assets.map (Asset.readdressed f) ++ more)) hadded

section Migration

variable (answer : DeviceCall → String) (holds : s.Holds w) (kept : s.WellKept) (fits : s.FitsColumns)
  (admits : s.Admits w.identifier new)

include holds kept fits admits

/-- What is saved passes every check on the way, and these are the tables then. -/
theorem save_afterMigration :
    ∃ t, s.saveWallet { w.derivedOn answer with assets := w.rederived answer new } = .ok t
      ∧ t.saveAssets (w.rederived answer new) = .ok (s.afterMigration answer w new) := by
  have hstorable := holds.storable_rederived answer fits admits
  have hwallet : s.saveWallet { w.derivedOn answer with assets := w.rederived answer new }
      = .ok (s.putWallet (w.derivedOn answer)) := saveWallet_of_fits (holds.index_fits fits)
  refine ⟨_, hwallet, ?_⟩
  -- The row of the wallet is written first, so the assets have an owner when they are saved.
  have howned : ∀ a ∈ w.rederived answer new,
      ((s.putWallet (w.derivedOn answer)).findWallet a.walletId).isSome := by
    intro a ha
    rw [(hstorable a ha).2]
    exact Option.isSome_iff_exists.mpr ⟨_, findWallet_putWallet_self s (w.derivedOn answer)⟩
  rw [saveAssets_of_owned howned fun a ha => (hstorable a ha).1.decimals,
    foldl_putAsset_rederived (kept.saveWallet hwallet) holds.assets admits.distinct
      fun a ha => holds.not_mem_of_unknown kept admits ha]
  rfl

/-- A draft that a run has derived is stored. -/
theorem storeDraft_of_derivedOn {scene : Scene}
    (draft : scene.draft = (w.withNewAssets new).derivedOn answer) :
    ∃ left, storeDraft scene s = (.ok (), left, s.afterMigration answer w new) := by
  obtain ⟨t, hwallet, hassets⟩ := save_afterMigration answer holds kept fits admits
  have hattached := holds.attachAssets answer admits
  rw [← draft] at hattached
  exact ⟨_, storeDraft_of_saved (hattached ▸ hwallet) (hattached ▸ hassets)⟩

/-- The tables stay well kept. -/
theorem wellKept_afterMigration : (s.afterMigration answer w new).WellKept := by
  obtain ⟨t, hwallet, hassets⟩ := save_afterMigration answer holds kept fits admits
  exact (kept.saveWallet hwallet).saveAssets
    (fun a ha => (holds.storable_rederived answer fits admits a ha).1.balance) hassets

/-- What was written fits the columns. -/
theorem fitsColumns_afterMigration : (s.afterMigration answer w new).FitsColumns := by
  obtain ⟨t, hwallet, hassets⟩ := save_afterMigration answer holds kept fits admits
  exact (fits.saveWallet hwallet).saveAssets hassets

end Migration

/-- New assets may be given a second time: the rows that are there now belong to this wallet. -/
theorem admits_afterMigration (admits : s.Admits w.identifier new) :
    (s.afterMigration answer w new).Admits w.identifier new :=
  { admits with
    unclaimed := fun a ha r hr hid => by
      -- A row with the identifier of a new asset was there before, or was written for this wallet.
      rcases List.mem_append.mp hr with hr | hr
      · obtain ⟨before, hbefore, rfl⟩ := List.mem_map.mp hr
        by_cases howner : before.owner = w.identifier
        · rw [if_pos howner, AssetRow.rewritten_owner, howner]
        · rw [if_neg howner] at hid
          exact absurd (admits.unclaimed a ha before hbefore hid) howner
      · obtain ⟨b, -, rfl⟩ := List.mem_map.mp hr
        rfl }

end Store

/-- After a migration none of its new assets is unknown. -/
theorem WalletDraft.unknown_migrated (answer : DeviceCall → String) (w : WalletDraft) (new : List Asset) :
    (w.migrated answer new).unknown new = [] := by
  have hids : (w.migrated answer new).assets.map (·.identifier)
      = w.assets.map (·.identifier) ++ (w.unknown new).map (·.identifier) := by
    rw [migrated, derivedOn, List.map_map, List.map_append, List.map_map]
    rfl
  rw [List.eq_nil_iff_forall_not_mem]
  -- A new asset was either there before, or has been added by the migration.
  intro a ha
  obtain ⟨hnew, hunknown⟩ := mem_unknown.mp ha
  rw [hids, List.mem_append, not_or] at hunknown
  exact hunknown.2 (List.mem_map_of_mem (mem_unknown.mpr ⟨hnew, hunknown.1⟩))

/-- A second migration writes what is there. -/
theorem Store.afterMigration_afterMigration (answer : DeviceCall → String) {s : Store} {new : List Asset}
    (kept : s.WellKept)
    (balances : ∀ a ∈ w.unknown new, a.balance.exactRange = true) :
    (s.afterMigration answer w new).afterMigration answer (w.migrated answer new) new
      = s.afterMigration answer w new := by
  have hwallets : Keyed.upsert WalletRow.identifier (w.derivedOn answer).row
        (s.afterMigration answer w new).wallets
      = (s.afterMigration answer w new).wallets :=
    (Keyed.upsert_eq_self_iff ..).mpr (Keyed.find?_upsert_self ..)
  have hassets : ((s.afterMigration answer w new).assets.map fun r =>
      if r.owner = w.identifier then r.rewritten (Asset.addressOn answer w) else r)
        = (s.afterMigration answer w new).assets := by
    refine (List.map_congr_left fun r hr => ?_).trans (List.map_id _)
    by_cases howner : r.owner = w.identifier
    · rw [if_pos howner, id]
      -- The row has been written by the first migration, whether it was there before or not.
      rcases List.mem_append.mp hr with hr | hr
      · obtain ⟨before, hbefore, rfl⟩ := List.mem_map.mp hr
        obtain ⟨a, ha⟩ := kept.readable before hbefore
        by_cases hrow : before.owner = w.identifier
        · rw [if_pos hrow, AssetRow.rewritten_rewritten (fun a => Asset.addressOn_readdressed) ha]
        · rw [if_neg hrow] at howner
          exact absurd howner hrow
      · obtain ⟨a, ha, rfl⟩ := List.mem_map.mp hr
        refine AssetRow.rewritten_row (balances a ha) ?_
        rw [Asset.keptOver_none, Asset.addressOn_kept, Asset.addressOn_readdressed]
        rfl
    · rw [if_neg howner, id]
  -- The second migration adds nothing.
  have hnone := w.unknown_migrated answer new
  show Store.mk (Keyed.upsert WalletRow.identifier (w.derivedOn answer).row
      (s.afterMigration answer w new).wallets)
    (((s.afterMigration answer w new).assets.map fun r =>
      if r.owner = w.identifier then r.rewritten (Asset.addressOn answer w) else r)
        ++ ((w.migrated answer new).unknown new).map _) s.prices = s.afterMigration answer w new
  rw [hwallets, hassets, hnone, List.map_nil, List.append_nil]
  rfl

/-! ### Whole migrations -/

/-- Assets that the draft has already make no difference. -/
theorem WalletDraft.withNewAssets_unknown (w : WalletDraft) (new : List Asset) :
    w.withNewAssets (w.unknown new) = w.withNewAssets new := by
  show { w with assets := w.assets ++ w.unknown (w.unknown new) } = { w with assets := w.assets ++ w.unknown new }
  rw [unknown, unknown, List.filter_filter]
  simp only [Bool.and_self]

/-- So they make none for the migration. -/
theorem migrateWallet_unknown {s : Store} {identifier : String} (load : s.findDraft identifier = .ok w)
    (new : List Asset) (q : Sequencer) (env : Surroundings) (scene : WalletDraft → Scene) :
    migrateWallet identifier (w.unknown new) q env scene s = migrateWallet identifier new q env scene s := by
  simp only [migrateWallet, migrateThrough, load, WalletDraft.withNewAssets_unknown]

section Whole

variable {s : Store} {new : List Asset} {q : Sequencer} {env : Surroundings} {scene : WalletDraft → Scene}

/-- A migration either stores what the device gives, or it fails, which only a failing listener can bring about,
and stores nothing. -/
theorem Conduct.migrateWallet_cases (conduct : Conduct answer q env scene) (holds : s.Holds w)
    (ledger : w.kind = .ledger) (kept : s.WellKept) (fits : s.FitsColumns)
    (admits : s.Admits w.identifier new) :
    (∃ left, migrateWallet w.identifier new q env scene s
        = (.ok (), some left, s.afterMigration answer w new))
      ∨ ¬ env.Quiet ∧ ∃ fault left, migrateWallet w.identifier new q env scene s = (.error fault, left, s) := by
  have hledger : (w.withNewAssets new).kind = .ledger := ledger
  -- Only the listener can keep such a run from its success.
  have hloud : (∀ result t, q.run env true (scene (w.withNewAssets new)) = (.ok result, t) →
      result.isSuccess = false) → ¬ env.Quiet := by
    intro hfails quiet
    obtain ⟨result, t, hrun, success⟩ := conduct.success hledger quiet
    rw [hfails result t hrun] at success
    cases success
  -- The draft that is loaded is the one that is stored, so only the run decides.
  rcases run : q.run env true (scene (w.withNewAssets new)) with ⟨f | result, t⟩
  · refine .inr ⟨hloud fun result t hrun => ?_, _, _,
      migrateThrough_of_refused (.raised holds.findDraft ledger run) storeDraft⟩
    rw [run] at hrun
    cases hrun
  · cases success : result.isSuccess with
    | false =>
      refine .inr ⟨hloud fun result' t' hrun => ?_, _, _,
        migrateThrough_of_refused (.notDerived holds.findDraft ledger run success) storeDraft⟩
      rw [run] at hrun
      cases hrun
      exact success
    | true =>
      have hmigrate := migrateThrough_of_cleared (.derived holds.findDraft ledger run success) storeDraft
      obtain ⟨left, hstored⟩ := Store.storeDraft_of_derivedOn answer holds kept fits admits
        (conduct.draft_of_success hledger run success)
      rw [hstored] at hmigrate
      exact .inl ⟨left, hmigrate⟩

end Whole

/-- Unless the listener fails, a migration leaves the assets that were stored, in their order, and after them the
new ones that were not, all with the addresses that the device gives; new assets that were stored make no
difference at all. To do it again leaves every table as it is. -/
theorem migrated_once (s : Store) (identifier : String) (new : List Asset) (answer : DeviceCall → String)
    (r : WalletRow) (kept : s.WellKept) (fits : s.FitsColumns) (stored : s.findWallet identifier = some r)
    (ledger : r.kind = .ledger) (admits : s.Admits identifier new) :
    ∃ w, s.findDraft identifier = .ok w
      ∧ (∀ a ∈ (w.migrated answer new).assets, ∀ step ∈ stepsFor .ledger, step.covers a = true →
        a.address = answer (step.call w))
      ∧ ∀ q env scene, Conduct answer q env scene →
        (env.Quiet → (migrateWallet identifier new q env scene s).1 = .ok ())
        ∧ migrateWallet identifier (w.unknown new) q env scene s = migrateWallet identifier new q env scene s
        ∧ ∀ left after, migrateWallet identifier new q env scene s = (.ok (), left, after) →
          after.findDraft identifier = .ok (w.migrated answer new)
          ∧ ∀ q' env' scene', Conduct answer q' env' scene' →
            (env'.Quiet → (migrateWallet identifier new q' env' scene' after).1 = .ok ())
            ∧ (migrateWallet identifier new q' env' scene' after).2.2 = after := by
  obtain ⟨w, load, hkind⟩ : ∃ w, s.findDraft identifier = .ok w ∧ w.kind = .ledger := by
    obtain ⟨loaded, -, hload⟩ := Store.exists_findDraft kept.readable stored
    exact ⟨_, hload, ledger⟩
  obtain ⟨rfl, holds⟩ := Store.holds_of_findDraft load
  refine ⟨w, load, fun b hb step hstep covered => ?_, fun q env scene conduct => ?_⟩
  · obtain ⟨a, -, rfl⟩ := List.mem_map.mp hb
    exact Asset.addressOn_of_covers hstep covered
  have hcases := conduct.migrateWallet_cases holds hkind kept fits admits
  refine ⟨fun quiet => ?_, migrateWallet_unknown load new q env scene, fun left after hmigrate => ?_⟩
  · rcases hcases with ⟨left, hmigrate⟩ | ⟨loud, -⟩
    · rw [hmigrate]
    · exact absurd quiet loud
  obtain rfl : s.afterMigration answer w new = after := by
    rcases hcases with ⟨left', hmigrate'⟩ | ⟨-, fault, left', hfailed⟩
    · rw [hmigrate'] at hmigrate
      cases hmigrate
      rfl
    · rw [hfailed] at hmigrate
      cases hmigrate
  have hbalances : ∀ a ∈ w.unknown new, a.balance.exactRange = true := fun a ha =>
    (admits.storable a (WalletDraft.mem_unknown.mp ha).1).balance
  have holdsAfter := Store.holds_afterMigration answer holds hbalances
  refine ⟨holdsAfter.findDraft, fun q' env' scene' conduct' => ?_⟩
  -- The second migration begins with the draft that the first one left, and with no asset that is new.
  have hagain := conduct'.migrateWallet_cases (w := w.migrated answer new) holdsAfter hkind
    (Store.wellKept_afterMigration answer holds kept fits admits)
    (Store.fitsColumns_afterMigration answer holds kept fits admits)
    (Store.admits_afterMigration admits)
  have hsame := Store.afterMigration_afterMigration answer kept hbalances
  rw [hsame] at hagain
  change (∃ left, migrateWallet w.identifier new q' env' scene' _ = _)
    ∨ ¬ env'.Quiet ∧ ∃ fault left, migrateWallet w.identifier new q' env' scene' _ = _ at hagain
  rcases hagain with ⟨left', hmigrate'⟩ | ⟨loud, fault, left', hfailed⟩
  · rw [hmigrate']
    exact ⟨fun _ => rfl, rfl⟩
  · rw [hfailed]
    exact ⟨fun quiet => absurd quiet loud, rfl⟩

theorem withCoinAndToken_saved : ∃ t, Store.empty.saveWallet coinAndToken.attachAssets = .ok t
    ∧ t.saveAssets coinAndToken.attachAssets.assets = .ok withCoinAndToken :=
  ⟨_, rfl, rfl⟩

theorem wellKept_withCoinAndToken : withCoinAndToken.WellKept := by
  obtain ⟨t, hwallet, hassets⟩ := withCoinAndToken_saved
  exact (Store.wellKept_empty.saveWallet hwallet).saveAssets (by decide +kernel) hassets

/-- A coin that is stored already, and a voucher and a coin that are not. -/
def coinsAndVoucher : List Asset := [
  { identifier := "coin", walletId := "", assetType := .evm, mainnetSymbol := "ETH", symbol := "ETH", name := ""
    decimals := 18, balance := ⟨false, 5, 0⟩, address := "0xother", config := none },
  { identifier := "voucher", walletId := "wallet-1", assetType := .ibc, mainnetSymbol := "ATOM", symbol := "ATOM"
    name := "", decimals := 6, balance := ⟨false, 10, -1⟩, address := "ibc1"
    config := some ⟨.cosmosHub, none, none, none, none, none, none, false⟩ },
  { identifier := "atom", walletId := "", assetType := .tendermint, mainnetSymbol := "ATOM", symbol := "ATOM"
    name := "", decimals := 6, balance := .zero, address := ""
    config := some ⟨.cosmosHub, none, none, none, none, none, some "25000", false⟩ }]

/-- The coin is the one that was stored, the token has a new address, and the voucher has the one it had. -/
theorem coins_and_voucher_migrated :
    ∃ left after,
      migrateWallet "wallet-1" coinsAndVoucher ⟨.whole 60, []⟩ withEveryApp (⟨·, .unset, [], []⟩) withCoinAndToken
          = (.ok (), left, after)
        ∧ (∃ w, after.findDraft "wallet-1" = .ok w ∧ w.address = "cro1x"
          ∧ w.assets.map (fun a => (a.identifier, a.assetType, a.address)) = [("coin", .tendermint, "cro1x"),
            ("token", .erc20, "0xnew"), ("voucher", .ibc, "ibc1"), ("atom", .tendermint, "cosmos1x")])
        ∧ (migrateWallet "wallet-1" coinsAndVoucher ⟨.whole 60, []⟩ withEveryApp (⟨·, .unset, [], []⟩) after).2.2
          = after := by
  let answer (call : DeviceCall) : String := (withEveryApp.device [] call).toOption.getD ""
  obtain ⟨t, hwallet, hassets⟩ := withCoinAndToken_saved
  have fits : withCoinAndToken.FitsColumns := (Store.fitsColumns_empty.saveWallet hwallet).saveAssets hassets
  have admits : withCoinAndToken.Admits "wallet-1" coinsAndVoucher :=
    ⟨by decide, by decide, by decide +kernel, by
      simpa [coinsAndVoucher] using
        ⟨⟨by decide, by decide +kernel⟩, ⟨by decide, by decide +kernel⟩, ⟨by decide, by decide +kernel⟩⟩⟩
  -- This device answers by the call alone, so its answers are a function of the call.
  have conduct : Conduct answer ⟨.whole 60, []⟩ withEveryApp (⟨·, .unset, [], []⟩) := by
    refine ⟨fun w ledger => by simp [Sequencer.steps, ledger], ?_, fun _ => rfl⟩
    rintro _ (_ | _) <;> rfl
  have quiet : withEveryApp.Quiet := by rintro _ ⟨⟩
  obtain ⟨w, load, -, hall⟩ :=
    migrated_once withCoinAndToken "wallet-1" coinsAndVoucher answer _ wellKept_withCoinAndToken fits rfl rfl
      admits
  obtain ⟨hsuccess, -, hmigrated⟩ := hall _ _ _ conduct
  have hload : withCoinAndToken.findDraft "wallet-1" = .ok coinAndToken.attachAssets.kept := by decide +kernel
  rw [hload] at load
  cases load
  generalize hmigrate : migrateWallet "wallet-1" coinsAndVoucher ⟨.whole 60, []⟩ withEveryApp
    (⟨·, .unset, [], []⟩) withCoinAndToken = outcome
  obtain ⟨result, left, after⟩ := outcome
  have hresult : result = .ok () := by
    have := hsuccess quiet
    rwa [hmigrate] at this
  subst hresult
  obtain ⟨hloaded, hagain⟩ := hmigrated left after hmigrate
  refine ⟨left, after, rfl, ⟨_, hloaded, ?_, ?_⟩, (hagain _ _ _ conduct).2⟩
  · decide +kernel
  · decide +kernel

end ChainWallet
