import ChainWallet.Proofs.Ledger.AddressesKept
import ChainWallet.Wallet.Creation

/-!
# Nothing is stored before every address is there

A draft reaches the stage that stores it in two ways only: as a normal wallet, or after a run of the
sequencer that succeeded on it. On all other ways the call fails with the cause, and the store is the one
that was there before; what a run derived until then is in the draft at most.

The flows are told with their stage left open, so that to reach it is to return what it returns, whatever
the stage does, and not to reach it is to return the same for every stage. What is so of every stage is so of
the one that stores, which is that of `createWallet` and `migrateWallet`.

* **`ClearedToCreate`, `ClearedToMigrate`** — the draft may be stored, and the scene in which it is.
* **`CreationRefused`, `MigrationRefused`** — it may not, with the fault and the scene left behind.
* **`createThrough_of_cleared`, `createThrough_of_refused`** and their companions for migration — what a
  flow does with a draft of either kind. `cleared_or_creation_refused` says that there is no third kind.
* **`stored_only_after_success`** — both flows together.
-/

namespace ChainWallet

open Ledger

section Creation

variable (sequencer : Option Sequencer) (env : Surroundings) (scene : Scene)

/-- A draft may be stored as it is if its wallet is normal, and otherwise after a successful run. -/
inductive ClearedToCreate : Scene → Prop where
  | normal (kind : scene.draft.kind = .normal) : ClearedToCreate scene
  | derived {q : Sequencer} {result : DerivationResult} {after : Scene}
      (kind : scene.draft.kind = .ledger) (given : sequencer = some q)
      (run : q.run env false scene = (.ok result, after)) (success : result.isSuccess = true) :
      ClearedToCreate after

/-- The ways in which a wallet is not created, each with its fault and the scene left behind. -/
inductive CreationRefused : WalletFault → Scene → Prop where
  | noSequencer (kind : scene.draft.kind = .ledger) (missing : sequencer = none) :
      CreationRefused (.failure .sequencerMissing) scene
  | notDerived {q : Sequencer} {result : DerivationResult} {after : Scene}
      (kind : scene.draft.kind = .ledger) (given : sequencer = some q)
      (run : q.run env false scene = (.ok result, after)) (failed : result.isSuccess = false) :
      CreationRefused (.derivation result) after
  | raised {q : Sequencer} {f : Failure} {after : Scene}
      (kind : scene.draft.kind = .ledger) (given : sequencer = some q)
      (run : q.run env false scene = (.error f, after)) : CreationRefused (.failure f) after

end Creation

section Migration

variable (identifier : String) (assets : List Asset) (q : Sequencer) (env : Surroundings)
  (scene : WalletDraft → Scene) (s : Store)

/-- A stored ledger wallet may be stored again after a successful run. -/
inductive ClearedToMigrate : Scene → Prop where
  | derived {w : WalletDraft} {result : DerivationResult} {after : Scene}
      (stored : s.findDraft identifier = .ok w) (kind : w.kind = .ledger)
      (run : q.run env true (scene (w.withNewAssets assets)) = (.ok result, after))
      (success : result.isSuccess = true) : ClearedToMigrate after

/-- The ways in which a wallet is not migrated, each with its fault and the scene left behind, if there
is one. -/
inductive MigrationRefused : WalletFault → Option Scene → Prop where
  | unknown (missing : s.findWallet identifier = none) :
      MigrationRefused (.failure (.walletMissing identifier)) none
  | unreadable {r : WalletRow} {f : Failure} (stored : s.findWallet identifier = some r)
      (read : s.findDraft identifier = .error f) : MigrationRefused (.failure f) none
  | notLedger {w : WalletDraft} (stored : s.findDraft identifier = .ok w) (kind : w.kind ≠ .ledger) :
      MigrationRefused (.failure (.notALedgerWallet identifier)) none
  | notDerived {w : WalletDraft} {result : DerivationResult} {after : Scene}
      (stored : s.findDraft identifier = .ok w) (kind : w.kind = .ledger)
      (run : q.run env true (scene (w.withNewAssets assets)) = (.ok result, after))
      (failed : result.isSuccess = false) : MigrationRefused (.derivation result) (some after)
  | raised {w : WalletDraft} {f : Failure} {after : Scene}
      (stored : s.findDraft identifier = .ok w) (kind : w.kind = .ledger)
      (run : q.run env true (scene (w.withNewAssets assets)) = (.error f, after)) :
      MigrationRefused (.failure f) (some after)

end Migration

variable {env : Surroundings} {s : Store}

/-! ### Creation -/

/-- A cleared draft gets to the stage. -/
theorem createThrough_of_cleared {sequencer : Option Sequencer} {scene after : Scene}
    (h : ClearedToCreate sequencer env scene after) (stage : Stage) :
    createThrough stage sequencer env scene s = stage after s := by
  cases h with
  | normal kind => simp only [createThrough, kind]
  | derived kind given run success =>
    subst given
    simp only [createThrough, kind, deriveThrough, run, success, if_true]

/-- A refused one does not, whatever the stage. -/
theorem createThrough_of_refused {sequencer : Option Sequencer} {scene after : Scene}
    {fault : WalletFault} (h : CreationRefused sequencer env scene fault after) (stage : Stage) :
    createThrough stage sequencer env scene s = (.error fault, after, s) := by
  cases h with
  | noSequencer kind missing =>
    subst missing
    simp only [createThrough, kind]
  | notDerived kind given run failed =>
    subst given
    simp only [createThrough, kind, deriveThrough, run, failed, if_false, Bool.false_eq_true]
  | raised kind given run =>
    subst given
    simp only [createThrough, kind, deriveThrough, run]

/-- There is no third way: by the kind of the wallet, the sequencer, and how its run ends. -/
theorem cleared_or_creation_refused (sequencer : Option Sequencer) (env : Surroundings)
    (scene : Scene) : (∃ after, ClearedToCreate sequencer env scene after)
      ∨ ∃ fault after, CreationRefused sequencer env scene fault after := by
  cases kind : scene.draft.kind with
  | normal => exact .inl ⟨scene, .normal kind⟩
  | ledger =>
    cases sequencer with
    | none => exact .inr ⟨_, scene, .noSequencer kind rfl⟩
    | some q =>
      -- A run either has a result, good or bad, or was ended by the listener.
      rcases run : q.run env false scene with ⟨f | result, after⟩
      · exact .inr ⟨_, after, .raised kind rfl run⟩
      · cases success : result.isSuccess with
        | true => exact .inl ⟨after, .derived kind rfl run success⟩
        | false => exact .inr ⟨_, after, .notDerived kind rfl run success⟩

/-! ### Migration -/

theorem migrateThrough_of_cleared {identifier : String} {assets : List Asset} {q : Sequencer}
    {scene : WalletDraft → Scene} {after : Scene}
    (h : ClearedToMigrate identifier assets q env scene s after) (stage : Stage) :
    migrateThrough stage identifier assets q env scene s
      = ((stage after s).1, some (stage after s).2.1, (stage after s).2.2) := by
  cases h with
  | derived stored kind run success =>
    simp only [migrateThrough, stored, kind, deriveThrough, run, success, if_true]

theorem migrateThrough_of_refused {identifier : String} {assets : List Asset} {q : Sequencer}
    {scene : WalletDraft → Scene} {fault : WalletFault} {left : Option Scene}
    (h : MigrationRefused identifier assets q env scene s fault left) (stage : Stage) :
    migrateThrough stage identifier assets q env scene s = (.error fault, left, s) := by
  -- The flow looks up the wallet, reads it back, checks its kind and runs, in this order.
  cases h with
  | unknown missing => simp only [migrateThrough, Store.findDraft, missing]
  | unreadable stored read => simp only [migrateThrough, read]
  | notLedger stored kind => simp only [migrateThrough, stored, kind, if_false]
  | notDerived stored kind run failed =>
    simp only [migrateThrough, stored, kind, deriveThrough, run, failed, if_true, if_false,
      Bool.false_eq_true]
  | raised stored kind run => simp only [migrateThrough, stored, kind, deriveThrough, run, if_true]

/-- There is no third way: by what is stored, the kind of the wallet, and how the run ends. -/
theorem cleared_or_migration_refused (identifier : String) (assets : List Asset) (q : Sequencer)
    (env : Surroundings) (scene : WalletDraft → Scene) (s : Store) :
    (∃ after, ClearedToMigrate identifier assets q env scene s after)
      ∨ ∃ fault left, MigrationRefused identifier assets q env scene s fault left := by
  -- An unknown wallet is told apart from one whose rows cannot be read back.
  cases found : s.findWallet identifier with
  | none => exact .inr ⟨_, _, .unknown found⟩
  | some r =>
    cases read : s.findDraft identifier with
    | error f => exact .inr ⟨_, _, .unreadable found read⟩
    | ok w =>
      by_cases kind : w.kind = .ledger
      · rcases run : q.run env true (scene (w.withNewAssets assets)) with ⟨f | result, after⟩
        · exact .inr ⟨_, _, .raised read kind run⟩
        · cases success : result.isSuccess with
          | true => exact .inl ⟨after, .derived read kind run success⟩
          | false => exact .inr ⟨_, _, .notDerived read kind run success⟩
      · exact .inr ⟨_, _, .notLedger read kind⟩

/-! ### Both flows -/

/-- Creation and migration store a draft exactly if it is cleared. Otherwise they fail, with one of the listed
faults, and the store is the one before. Both are so because of the way up to the stage, whatever a stage would
do. Storing a normal wallet asks no device. -/
theorem stored_only_after_success (env : Surroundings) (s : Store) :
    (∀ sequencer scene,
      (∀ after, ClearedToCreate sequencer env scene after →
        createWallet sequencer env scene s = storeDraft after s
          ∧ ∀ stage, createThrough stage sequencer env scene s = stage after s)
      ∧ ((∀ after, ¬ ClearedToCreate sequencer env scene after) →
        ∃ fault after, CreationRefused sequencer env scene fault after
          ∧ createWallet sequencer env scene s = (.error fault, after, s)
          ∧ ∀ stage, createThrough stage sequencer env scene s = (.error fault, after, s))
      ∧ (scene.draft.kind = .normal →
        (createWallet sequencer env scene s).2.1.deviceCalls = scene.deviceCalls
          ∧ (createWallet sequencer env scene s).2.1.log = scene.log))
    ∧ ∀ identifier assets q scene,
      (∀ after, ClearedToMigrate identifier assets q env scene s after →
        migrateWallet identifier assets q env scene s
            = ((storeDraft after s).1, some (storeDraft after s).2.1, (storeDraft after s).2.2)
          ∧ ∀ stage, migrateThrough stage identifier assets q env scene s
            = ((stage after s).1, some (stage after s).2.1, (stage after s).2.2))
      ∧ ((∀ after, ¬ ClearedToMigrate identifier assets q env scene s after) →
        ∃ fault left, MigrationRefused identifier assets q env scene s fault left
          ∧ migrateWallet identifier assets q env scene s = (.error fault, left, s)
          ∧ ∀ stage, migrateThrough stage identifier assets q env scene s = (.error fault, left, s)) := by
  constructor
  · intro sequencer scene
    refine ⟨fun after h => ?_, fun hnone => ?_, fun kind => ?_⟩
    · -- The flow itself is the way up to the stage that stores the draft.
      have hstage := fun stage => createThrough_of_cleared (s := s) h stage
      exact ⟨hstage storeDraft, hstage⟩
    · rcases cleared_or_creation_refused sequencer env scene with ⟨after, h⟩ | ⟨fault, after, h⟩
      · exact absurd h (hnone after)
      · have hstage := fun stage => createThrough_of_refused (s := s) h stage
        exact ⟨fault, after, h, hstage storeDraft, hstage⟩
    · -- A normal wallet is stored as it is given, and storing makes no call.
      rw [createWallet, createThrough_of_cleared (.normal kind)]
      exact ⟨rfl, rfl⟩
  · intro identifier assets q scene
    refine ⟨fun after h => ?_, fun hnone => ?_⟩
    · have hstage := migrateThrough_of_cleared h
      exact ⟨hstage storeDraft, hstage⟩
    · rcases cleared_or_migration_refused identifier assets q env scene s with ⟨after, h⟩ | ⟨fault, left, h⟩
      · exact absurd h (hnone after)
      · have hstage := migrateThrough_of_refused h
        exact ⟨fault, left, h, hstage storeDraft, hstage⟩

/-- The store with the wallet of `coinAndToken`. -/
def withCoinAndToken : Store :=
  (storeDraft ⟨coinAndToken, .unset, [], []⟩ .empty).2.2

/-- The wallet of `coinAndToken` as it is loaded again. -/
def loadedCoinAndToken : WalletDraft :=
  (withCoinAndToken.findDraft "wallet-1").toOption.getD coinAndToken

theorem findDraft_withCoinAndToken : withCoinAndToken.findDraft "wallet-1" = .ok loadedCoinAndToken := by
  decide +kernel

/-- The second step wants another address for the coin than the first one has written. -/
theorem mismatch_not_cleared (after : Scene) :
    ¬ ClearedToCreate (some overlappingSteps) withoutEthereumApp ⟨coinAndToken, .unset, [], []⟩ after := by
  have hfails : (overlappingSteps.run withoutEthereumApp false ⟨coinAndToken, .unset, [], []⟩).1.toOption.map
      (·.isSuccess) = some false := by decide +kernel
  rintro (kind | ⟨-, given, run, success⟩)
  · cases kind
  · cases given
    simp [run, success, Except.toOption] at hfails

/-- The stored wallet has a token, whose step fails on a device without the Ethereum app. -/
theorem withoutEthereumApp_not_cleared (after : Scene) : ¬ ClearedToMigrate "wallet-1" [] ⟨.whole 60, []⟩
    withoutEthereumApp (⟨·, .unset, [], []⟩) withCoinAndToken after := by
  have hfails : (Sequencer.run ⟨.whole 60, []⟩ withoutEthereumApp true
      ⟨loadedCoinAndToken.withNewAssets [], .unset, [], []⟩).1.toOption.map (·.isSuccess) = some false := by
    decide +kernel
  rintro ⟨stored, -, run, success⟩
  cases findDraft_withCoinAndToken.symm.trans stored
  simp [run, success, Except.toOption] at hfails

/-- On a device with every app the run over the stored wallet succeeds. -/
theorem withEveryApp_cleared : ∃ after, ClearedToMigrate "wallet-1" [] ⟨.whole 60, []⟩ withEveryApp
    (⟨·, .unset, [], []⟩) withCoinAndToken after := by
  have hsucceeds : (Sequencer.run ⟨.whole 60, []⟩ withEveryApp true
      ⟨loadedCoinAndToken.withNewAssets [], .unset, [], []⟩).1.toOption.map (·.isSuccess) = some true := by
    decide +kernel
  rcases hrun : Sequencer.run ⟨.whole 60, []⟩ withEveryApp true
    ⟨loadedCoinAndToken.withNewAssets [], .unset, [], []⟩ with ⟨f | result, after⟩
  · simp [hrun, Except.toOption] at hsucceeds
  · have success : result.isSuccess = true := by simpa [hrun, Except.toOption] using hsucceeds
    exact ⟨after, .derived findDraft_withCoinAndToken (by decide +kernel) hrun success⟩

/-- A wallet is not created after a mismatch, and the draft left behind has the address of the first step. A
stored one is not migrated to a device without an Ethereum app. Migrated to a device with all apps, it has the
addresses of that device. -/
theorem stored_nothing_after_mismatch :
    (∃ result after,
      createWallet (some overlappingSteps) withoutEthereumApp ⟨coinAndToken, .unset, [], []⟩ .empty
          = (.error (.derivation result), after, .empty)
        ∧ result.failure.map (·.cause) = some (.addressMismatch "cosmos1x" .cosmosHub)
        ∧ after.draft.address = "cro1x")
    ∧ (∃ fault left,
      migrateWallet "wallet-1" [] ⟨.whole 60, []⟩ withoutEthereumApp (⟨·, .unset, [], []⟩) withCoinAndToken
          = (.error fault, left, withCoinAndToken)
        ∧ withCoinAndToken.assets.map (·.address) = ["", "0xold"])
    ∧ ∃ left after,
      migrateWallet "wallet-1" [] ⟨.whole 60, []⟩ withEveryApp (⟨·, .unset, [], []⟩) withCoinAndToken
          = (.ok (), left, after)
        ∧ after.assets.map (·.address) = ["cro1x", "0xnew"] := by
  refine ⟨?_, ?_, ?_⟩
  · obtain ⟨fault, after, refused, hcreate, -⟩ :=
      ((stored_only_after_success withoutEthereumApp .empty).1 (some overlappingSteps)
        ⟨coinAndToken, .unset, [], []⟩).2.1 mismatch_not_cleared
    have hcause : ((overlappingSteps.run withoutEthereumApp false ⟨coinAndToken, .unset, [], []⟩).1.toOption.bind
        (·.failure)).map (·.cause) = some (.addressMismatch "cosmos1x" .cosmosHub) := by decide +kernel
    have hdraft : (overlappingSteps.run withoutEthereumApp false
        ⟨coinAndToken, .unset, [], []⟩).2.draft.address = "cro1x" := by decide +kernel
    -- The run has a result, so it is this failure and no other.
    cases refused with
    | noSequencer _ missing => cases missing
    | raised _ given run =>
      cases given
      simp [run, Except.toOption] at hcause
    | notDerived _ given run failed =>
      cases given
      rw [run] at hcause hdraft
      exact ⟨_, _, hcreate, hcause, hdraft⟩
  · obtain ⟨fault, left, -, hmigrate, -⟩ := ((stored_only_after_success withoutEthereumApp withCoinAndToken).2
      "wallet-1" [] ⟨.whole 60, []⟩ (⟨·, .unset, [], []⟩)).2 withoutEthereumApp_not_cleared
    exact ⟨fault, left, hmigrate, by decide +kernel⟩
  · obtain ⟨after, cleared⟩ := withEveryApp_cleared
    obtain ⟨hmigrate, -⟩ := ((stored_only_after_success withEveryApp withCoinAndToken).2
      "wallet-1" [] ⟨.whole 60, []⟩ (⟨·, .unset, [], []⟩)).1 after cleared
    -- What the flow stores is what the stage stores, so the rows can be read off.
    have hresult : (migrateWallet "wallet-1" [] ⟨.whole 60, []⟩ withEveryApp (⟨·, .unset, [], []⟩)
        withCoinAndToken).1 = .ok () := by decide +kernel
    have haddresses : (migrateWallet "wallet-1" [] ⟨.whole 60, []⟩ withEveryApp (⟨·, .unset, [], []⟩)
        withCoinAndToken).2.2.assets.map (·.address) = ["cro1x", "0xnew"] := by decide +kernel
    rw [hmigrate] at hresult haddresses
    exact ⟨_, _, hmigrate.trans (by rw [hresult]), haddresses⟩

end ChainWallet
