import ChainWallet.Ledger.Sequencer
import ChainWallet.Store.Session

/-!
# Creating wallets and moving assets to a new device

Derived addresses reach the store in two places only: when a wallet is created, and when the assets of
a ledger wallet are migrated to a new device.

* `createWallet` — a normal wallet is stored as it is; a ledger wallet is stored only after a run of the
  sequencer has succeeded on it.
* `migrateWallet` — loads a ledger wallet, adds new assets, and runs the sequencer with the right to
  replace addresses.
* `storeDraft` — the stage both end in: first the wallet, then its assets, each committed by itself.
  `createThrough` and `migrateThrough` are the two ways up to there, with the stage left open.

The draft is part of the `Scene`, since a run that fails leaves the addresses it derived in the draft.
-/

namespace ChainWallet

open Ledger

/-- The causes for which a wallet is not created or migrated: a run that did not succeed, or anything
else. -/
inductive WalletFault where
  | derivation (result : DerivationResult)
  | failure (f : Failure)
  deriving DecidableEq, Repr

namespace WalletDraft

/-- The draft with those of a list of assets whose identifier it does not have. -/
def withNewAssets (w : WalletDraft) (assets : List Asset) : WalletDraft :=
  let known := w.assets.map (·.identifier)
  { w with assets := w.assets ++ assets.filter (!known.contains ·.identifier) }

/-- Stores a wallet and then its assets. The wallet stays stored if the assets cannot be. -/
def persist (w : WalletDraft) (x : Session) : Except Failure Unit × Session :=
  match x.saveWallet w with
  | (.error f, x) => (.error f, x)
  -- From here on the wallet is stored, whatever becomes of its assets.
  | (.ok (), x) => x.saveAssets w.assets

end WalletDraft

/-- What takes over the draft of a scene once it may be stored. -/
abbrev Stage := Scene → Store → Except WalletFault Unit × Scene × Store

/-- Attaches the assets of a scene's draft to its wallet and stores them. The caller's session is taken as fresh,
and as closed when the call has ended: what it had not committed before is not part of the store, and what a
failed call has not committed is lost. -/
def storeDraft : Stage := fun scene s =>
  let draft := scene.draft.attachAssets
  let (result, session) := draft.persist (.on s)
  (result.mapError .failure, { scene with draft }, session.close)

/-- Runs a sequencer on a scene and hands its draft on if the run succeeds. -/
def deriveThrough (stage : Stage) (sequencer : Sequencer) (env : Surroundings) (migrate : Bool)
    (scene : Scene) (s : Store) : Except WalletFault Unit × Scene × Store :=
  match sequencer.run env migrate scene with
  | (.error f, scene) => (.error (.failure f), scene, s)
  | (.ok result, scene) =>
    if result.isSuccess then stage scene s else (.error (.derivation result), scene, s)

/-- Creates the wallet of a scene's draft, up to a stage that stores it. -/
def createThrough (stage : Stage) (sequencer : Option Sequencer) (env : Surroundings) (scene : Scene)
    (s : Store) : Except WalletFault Unit × Scene × Store :=
  match scene.draft.kind with
  | .normal => stage scene s
  | .ledger =>
    match sequencer with
    | none => (.error (.failure .sequencerMissing), scene, s)
    | some sequencer => deriveThrough stage sequencer env false scene s

def createWallet : Option Sequencer → Surroundings → Scene → Store →
    Except WalletFault Unit × Scene × Store :=
  createThrough storeDraft

/-- Migrates a stored ledger wallet, with new assets, to the device at hand, up to a stage that stores
it. `scene` makes the scene of a run from its draft; without a wallet to migrate there is no run. -/
def migrateThrough (stage : Stage) (identifier : String) (assets : List Asset) (sequencer : Sequencer)
    (env : Surroundings) (scene : WalletDraft → Scene) (s : Store) :
    Except WalletFault Unit × Option Scene × Store :=
  match s.findDraft identifier with
  | .error f => (.error (.failure f), none, s)
  | .ok w =>
    if w.kind = .ledger then
      let (result, scene, s) :=
        deriveThrough stage sequencer env true (scene (w.withNewAssets assets)) s
      (result, some scene, s)
    else (.error (.failure (.notALedgerWallet identifier)), none, s)

/-- Migrates a stored ledger wallet, with new assets, to the device at hand. -/
def migrateWallet : String → List Asset → Sequencer → Surroundings → (WalletDraft → Scene) → Store →
    Except WalletFault Unit × Option Scene × Store :=
  migrateThrough storeDraft

end ChainWallet
