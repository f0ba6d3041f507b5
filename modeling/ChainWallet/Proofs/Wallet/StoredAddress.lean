import ChainWallet.Proofs.Ledger.AddressesKept
import ChainWallet.Proofs.Prefixwise
import ChainWallet.Proofs.Wallet.StoredAfterSuccess
import ChainWallet.Proofs.Wallet.Storing
import ChainWallet.Refresh
import Mathlib.Data.List.Induction

/-!
# Stored addresses over the history of a store

An address that is stored under an identifier is meant to stay there unless the asset is migrated. What
guards it is the draft: a run without the right to replace addresses refuses another one for an asset that
comes with its address. A draft that comes without it, or with another one, is stored as it then is.

* **`Operation`, `history`** — what is done to the store, and the store after some of it.
* **`addressOf_saveAssets`** — saving assets leaves under an identifier the address of the last one that has
  it.
* **`Operation.keeps`** — what an operation keeps, by the draft that comes to be stored.
* **`stored_address_kept`** — a stored address stays over any history in which no migration succeeds and no
  wallet is created from a draft that has another address, or none, under its identifier.
* **`address_replaced_by_creation`** — the latter cannot be left out.
-/

namespace ChainWallet

open Ledger

/-- The address that is stored under the identifier of an asset. -/
def Store.addressOf (s : Store) (identifier : String) : Option String :=
  (s.findAssetRow identifier).map (·.address)

/-- What is done to the store. -/
inductive Operation where
  | create (sequencer : Option Sequencer) (env : Surroundings) (scene : Scene)
  | migrate (identifier : String) (assets : List Asset) (sequencer : Sequencer) (env : Surroundings)
      (scene : WalletDraft → Scene)
  | refresh (resolver : Resolver) (feed : Feed) (currency : String) (desk : Enquiry.Desk)

namespace Operation

/-- The store after an operation. -/
def leaves (s : Store) : Operation → Store
  | create sequencer env scene => (createWallet sequencer env scene s).2.2
  | migrate identifier assets sequencer env scene =>
    (migrateWallet identifier assets sequencer env scene s).2.2
  | refresh resolver feed currency desk => (refreshPrices resolver feed currency desk s).2.2

/-- The operation is a migration, and it succeeds. -/
def Migrates (s : Store) : Operation → Prop
  | migrate identifier assets sequencer env scene =>
    (migrateWallet identifier assets sequencer env scene s).1 = .ok ()
  | create .. | refresh .. => False

/-- The operation creates a wallet from a draft that has an asset under an identifier, but not with a given
address. -/
def Overlooks (identifier address : String) (s : Store) : Operation → Prop
  | create sequencer env scene => (createWallet sequencer env scene s).1 = .ok ()
      ∧ ∃ a ∈ scene.draft.assets, a.identifier = identifier ∧ a.address ≠ address
  | migrate .. | refresh .. => False

end Operation

/-- The store after operations, in order. -/
def history (s : Store) (ops : List Operation) : Store :=
  ops.foldl Operation.leaves s

variable {s t : Store} {identifier address : String}

/-! ### Saving -/

/-- Addresses are those of the rows of assets. -/
theorem addressOf_congr (h : t.assets = s.assets) : t.addressOf identifier = s.addressOf identifier := by
  rw [Store.addressOf, Store.findAssetRow, h]
  rfl

/-- An asset that is saved has its address stored under its identifier. -/
theorem addressOf_saveAsset {a : Asset} (h : s.saveAsset a = .ok t) :
    t.addressOf identifier
      = if a.identifier = identifier then some a.address else s.addressOf identifier := by
  obtain ⟨-, -, rfl⟩ := Store.saveAsset_eq_ok h
  rw [Store.addressOf, Store.findAssetRow_putAsset]
  by_cases hid : a.identifier = identifier
  · rw [if_pos hid, if_pos hid]
    rfl
  · rw [if_neg hid, if_neg hid]
    rfl

/-- Saved assets leave under an identifier the address of the last one that has it. -/
theorem addressOf_saveAssets {assets : List Asset} (h : s.saveAssets assets = .ok t) :
    t.addressOf identifier
      = (assets.reverse.find? (·.identifier = identifier)).elim (s.addressOf identifier)
        (some ·.address) := by
  induction assets generalizing s with
  | nil =>
    cases h
    rfl
  | cons a rest ih =>
    rw [Store.saveAssets_cons] at h
    cases ha : s.saveAsset a with
    | error f =>
      rw [ha] at h
      cases h
    | ok saved =>
      rw [ha] at h
      rw [ih h, addressOf_saveAsset ha, List.reverse_cons, List.find?_append]
      -- The last asset that has the identifier decides: one of the rest, or else the first.
      cases rest.reverse.find? (·.identifier = identifier) with
      | some b => rfl
      | none => by_cases hid : a.identifier = identifier <;> simp [hid]

/-- Storing a draft either fails and leaves the assets that are stored, or saves all those of the draft. -/
theorem storeDraft_cases (scene : Scene) (s : Store) :
    (storeDraft scene s).1 ≠ .ok () ∧ (storeDraft scene s).2.2.assets = s.assets
      ∨ (storeDraft scene s).1 = .ok () ∧ ∃ stored : Store, stored.assets = s.assets
        ∧ stored.saveAssets scene.draft.attachAssets.assets = .ok (storeDraft scene s).2.2 := by
  cases hwallet : s.saveWallet scene.draft.attachAssets with
  | error f =>
    rw [storeDraft_of_unsaved hwallet]
    exact .inl ⟨by simp, rfl⟩
  | ok saved =>
    have hsame : saved.assets = s.assets := by rw [Store.saveWallet_eq_ok hwallet]; rfl
    cases hassets : saved.saveAssets scene.draft.attachAssets.assets with
    | error f =>
      rw [storeDraft_of_strayed hwallet hassets]
      exact .inl ⟨by simp, hsame⟩
    | ok stored =>
      rw [storeDraft_of_saved hwallet hassets]
      exact .inr ⟨rfl, saved, hsame, hassets⟩

/-! ### Operations -/

/-- Storing a draft whose assets under an identifier have the stored address leaves it there, and so does
storing that fails. -/
theorem addressOf_storeDraft {scene : Scene} (stored : s.addressOf identifier = some address)
    (agrees : (storeDraft scene s).1 = .ok () →
      ∀ a ∈ scene.draft.assets, a.identifier = identifier → a.address = address) :
    (storeDraft scene s).2.2.addressOf identifier = some address := by
  rcases storeDraft_cases scene s with ⟨-, hsame⟩ | ⟨hok, walletStored, hassets, hsaved⟩
  · exact (addressOf_congr hsame).trans stored
  · rw [addressOf_saveAssets hsaved]
    cases hfind : scene.draft.attachAssets.assets.reverse.find? (·.identifier = identifier) with
    | none => exact (addressOf_congr hassets).trans stored
    | some b =>
      have hmem : b ∈ scene.draft.attachAssets.assets :=
        List.mem_reverse.mp (List.mem_of_find?_eq_some hfind)
      have hid : b.identifier = identifier := by simpa using List.find?_some hfind
      obtain ⟨a, ha, walletId, rfl⟩ := WalletDraft.exists_mem_of_attachAssets hmem
      exact congrArg some (agrees hok a ha hid)

/-- Only prices are refreshed. -/
theorem refreshPrices_others (resolver : Resolver) (feed : Feed) (currency : String)
    (desk : Enquiry.Desk) (s : Store) :
    (refreshPrices resolver feed currency desk s).2.2.wallets = s.wallets
      ∧ (refreshPrices resolver feed currency desk s).2.2.assets = s.assets := by
  -- Saving prices, however many, writes the table of prices alone.
  have hprices : ∀ (ps : List MarketPrice) (s : Store),
      (ps.foldl Store.savePrice s).wallets = s.wallets ∧ (ps.foldl Store.savePrice s).assets = s.assets := by
    intro ps
    induction ps with
    | nil => exact fun _ => ⟨rfl, rfl⟩
    | cons p rest ih => exact fun s => ih (s.savePrice p)
  unfold refreshPrices
  split
  · exact ⟨rfl, rfl⟩
  · exact ⟨rfl, rfl⟩
  · split
    · exact ⟨rfl, rfl⟩
    · exact hprices _ s

/-- An operation leaves a stored address where it is, unless it is a migration that succeeds or creates a wallet
from a draft that overlooks the address. A draft that does not overlook it has it after its run as well. -/
theorem Operation.keeps (op : Operation) (stored : s.addressOf identifier = some address)
    (nonempty : address ≠ "") (unmigrated : ¬ op.Migrates s)
    (heeded : ¬ op.Overlooks identifier address s) :
    (op.leaves s).addressOf identifier = some address := by
  cases op with
  | create sequencer env scene =>
    rcases cleared_or_creation_refused sequencer env scene with ⟨after, h⟩ | ⟨fault, after, h⟩
    · have hcreate : createWallet sequencer env scene s = storeDraft after s :=
        createThrough_of_cleared h storeDraft
      rw [leaves, hcreate]
      refine addressOf_storeDraft stored fun hok => ?_
      -- The draft has the stored address, since otherwise it would overlook it.
      have hdraft : ∀ a ∈ scene.draft.assets, a.identifier = identifier → a.address = address := by
        intro a ha hid
        by_contra hne
        exact heeded ⟨hcreate ▸ hok, a, ha, hid, hne⟩
      cases h with
      | normal kind => exact hdraft
      | @derived q result after kind given run success =>
        intro b hb hid
        -- A run of a creation replaces no address, so the draft has it afterwards.
        have hkeeps := Sequencer.run_keeps q env scene
        rw [run] at hkeeps
        obtain ⟨a, ha, hsame, hkept⟩ := hkeeps.exists_mem hb
        rw [hsame] at hid
        have haddress : a.address = address := hdraft a ha hid
        rw [hkept (haddress ▸ nonempty), haddress]
    · have hcreate : createWallet sequencer env scene s = (.error fault, after, s) :=
        createThrough_of_refused h storeDraft
      rw [leaves, hcreate]
      exact stored
  | migrate wallet assets q env scene =>
    rcases cleared_or_migration_refused wallet assets q env scene s with ⟨after, h⟩ | ⟨fault, left, h⟩
    · have hmigrate : migrateWallet wallet assets q env scene s
          = ((storeDraft after s).1, some (storeDraft after s).2.1, (storeDraft after s).2.2) :=
        migrateThrough_of_cleared h storeDraft
      rw [Migrates, hmigrate] at unmigrated
      rw [leaves, hmigrate]
      -- Storing has failed, or the migration would have succeeded.
      exact addressOf_storeDraft stored fun hok => absurd hok unmigrated
    · have hmigrate : migrateWallet wallet assets q env scene s = (.error fault, left, s) :=
        migrateThrough_of_refused h storeDraft
      rw [leaves, hmigrate]
      exact stored
  | refresh resolver feed currency desk =>
    exact (addressOf_congr (refreshPrices_others resolver feed currency desk s).2).trans stored

/-- A stored address stays where it is over any history in which no migration succeeds and no wallet is created
from a draft that overlooks it. -/
theorem stored_address_kept (ops : List Operation) (s : Store) (identifier address : String)
    (stored : s.addressOf identifier = some address) (nonempty : address ≠ "")
    (heeded : Prefixwise (fun before op => ¬ op.Migrates (history s before)
      ∧ ¬ op.Overlooks identifier address (history s before)) ops) :
    (history s ops).addressOf identifier = some address := by
  induction ops using List.reverseRecOn with
  | nil => exact stored
  | append_singleton ops op ih =>
    obtain ⟨hbefore, hmigrates, hoverlooks⟩ := prefixwise_concat.mp heeded
    -- The last operation starts from the store that the others leave.
    have hstep : history s (ops ++ [op]) = op.leaves (history s ops) := by simp [history]
    rw [hstep]
    exact op.keeps (ih hbefore) nonempty hmigrates hoverlooks

/-- A device with other keys. -/
def withOtherKeys : Surroundings where
  device := .steady fun
    | .address _ addressPrefix .. => .ok (addressPrefix ++ "1y")
    | .evmAddress .. => .ok "0xother"
  listener := none
  duringCall _ := []
  duringWait _ := []

/-- A ledger wallet is created with a device. -/
def creationOn (env : Surroundings) (draft : WalletDraft) : Operation :=
  .create (some ⟨.whole 60, []⟩) env ⟨draft, .unset, [], []⟩

/-- The draft that a first creation leaves, with its addresses. -/
def derivedCoinAndToken : WalletDraft :=
  (createWallet (some ⟨.whole 60, []⟩) withEveryApp ⟨newCoinAndToken, .unset, [], []⟩ .empty).2.1.draft

/-- A migration fails, and a device with other keys is refused by the draft that the first creation left. -/
theorem address_kept_by_second_creation :
    (history (history .empty [creationOn withEveryApp newCoinAndToken])
      [.migrate "wallet-1" [] ⟨.whole 60, []⟩ withoutEthereumApp (⟨·, .unset, [], []⟩),
        creationOn withOtherKeys derivedCoinAndToken]).addressOf "coin" = some "cro1x" := by
  let s := history .empty [creationOn withEveryApp newCoinAndToken]
  let migration : Operation :=
    .migrate "wallet-1" [] ⟨.whole 60, []⟩ withoutEthereumApp (⟨·, .unset, [], []⟩)
  have hfails : (migrateWallet "wallet-1" [] ⟨.whole 60, []⟩ withoutEthereumApp
      (⟨·, .unset, [], []⟩) s).1 ≠ .ok () := by decide +kernel
  have hrefused : (createWallet (some ⟨.whole 60, []⟩) withOtherKeys
      ⟨derivedCoinAndToken, .unset, [], []⟩ (migration.leaves s)).1 ≠ .ok () := by decide +kernel
  -- Both operations fail, so neither migrates or overlooks anything.
  have hheeded : Prefixwise (fun before op => ¬ op.Migrates (history s before)
      ∧ ¬ op.Overlooks "coin" "cro1x" (history s before))
      ([migration] ++ [creationOn withOtherKeys derivedCoinAndToken]) :=
    prefixwise_concat.mpr ⟨prefixwise_concat (l := []).mpr ⟨prefixwise_nil, hfails, id⟩, id,
      fun overlooks => hrefused overlooks.1⟩
  have hstored : s.addressOf "coin" = some "cro1x" := by decide +kernel
  exact stored_address_kept _ s "coin" "cro1x" hstored (by decide) hheeded

/-- The same wallet is created twice from a draft without addresses, with devices of different keys. -/
theorem address_replaced_by_creation :
    ¬ ∀ (earlier later : List Operation) (identifier address : String),
      (history .empty earlier).addressOf identifier = some address → address ≠ "" →
      Prefixwise (fun before op => ¬ op.Migrates (history .empty (earlier ++ before))) later →
      (history .empty (earlier ++ later)).addressOf identifier = some address := by
  intro h
  have hkept := h [creationOn withEveryApp newCoinAndToken] [creationOn withOtherKeys newCoinAndToken]
    "coin" "cro1x" (by decide +kernel) (by decide)
    (prefixwise_concat (l := []).mpr ⟨prefixwise_nil, id⟩)
  revert hkept
  decide +kernel

end ChainWallet
