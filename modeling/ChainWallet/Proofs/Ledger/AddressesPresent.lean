import ChainWallet.Proofs.Ledger.AddressesKept
import ChainWallet.Proofs.Ledger.RunSuccess
import Mathlib.Data.List.Nodup

/-!
# What a successful run has derived

After a successful run of the steps of a ledger wallet every asset that a step covers has the answer of
that step, since no asset is covered by two of them, and the wallet has the answer of the Crypto.org step.
An answer is an address unless it is empty: a run takes the empty text for one, and where the device gives
it, the run succeeds with nothing derived.

* **`eq_of_covers`** — the steps of a ledger wallet share no asset.
* **`assetsWithoutAddress_after`** — what is left without an address when no answer is empty.
* **`addresses_after_success`** — the whole of it.
* **`success_without_address`** — what becomes of the empty answer.
-/

namespace ChainWallet

open Ledger

namespace Ledger

/-- A step covers the assets of its types, on its chains if it names any. -/
theorem Step.covers_iff {step : Step} {a : Asset} : step.covers a = true
    ↔ a.assetType ∈ step.assetTypes ∧ ∀ cs, step.chains = some cs → ∃ c ∈ cs, a.chain = some c := by
  cases hs : step.chains with
  | none => simp [covers, hs]
  | some cs => cases hc : a.chain <;> simp [covers, hs, hc]

/-- The steps of a ledger wallet differ in the types of their assets, or else in the chain. -/
theorem eq_of_covers {a : Asset} {step step' : Step} (hs : step ∈ stepsFor .ledger)
    (hs' : step' ∈ stepsFor .ledger) (covered : step.covers a = true) (covered' : step'.covers a = true) :
    step = step' := by
  obtain ⟨htype, hchain⟩ := Step.covers_iff.mp covered
  obtain ⟨htype', hchain'⟩ := Step.covers_iff.mp covered'
  simp only [stepsFor, List.mem_cons, List.not_mem_nil, or_false] at hs hs'
  rcases hs with rfl | rfl | rfl <;> rcases hs' with rfl | rfl | rfl
  case inl.inl | inr.inl.inr.inl | inr.inr.inr.inr => rfl
  -- The steps for Crypto.org and the Cosmos Hub share a type of assets, and their chains differ.
  case inl.inr.inr | inr.inr.inl =>
    obtain ⟨c, hc, ha⟩ := hchain _ rfl
    obtain ⟨c', hc', ha'⟩ := hchain' _ rfl
    rw [ha] at ha'
    simp_all
  all_goals
    generalize a.assetType = assetType at htype htype'
    revert htype htype'
    cases assetType <;> decide

end Ledger

/-! ### What is left without an address -/

variable {w : WalletDraft} {done : List (Step × String)}

/-- With answers that are not empty, an asset is without an address if it had none and no step covers it. -/
theorem Asset.isEmpty_addressAfter (a : Asset) (present : ∀ d ∈ done, d.2 ≠ "") :
    (a.addressAfter done).isEmpty = (a.address.isEmpty && !(done.map (·.1)).any (·.covers a)) := by
  cases h : lastAnswer (·.covers a) done with
  | none =>
    have uncovered := lastAnswer_eq_none_iff.mp h
    have hany : (done.map (·.1)).any (·.covers a) = false := by simpa using uncovered
    rw [addressAfter_of_uncovered uncovered, hany, Bool.not_false, Bool.and_true]
  | some address =>
    obtain ⟨d, hd, covered, rfl⟩ := exists_mem_of_lastAnswer h
    have hany : (done.map (·.1)).any (·.covers a) = true :=
      List.any_eq_true.mpr ⟨d.1, List.mem_map_of_mem hd, covered⟩
    rw [hany, addressAfter, h]
    simpa using present d hd

/-- If no answer is empty, the assets left without an address are those that had none and that no step
covers. -/
theorem WalletDraft.assetsWithoutAddress_after (present : ∀ d ∈ done, d.2 ≠ "") :
    (w.after done).assetsWithoutAddress
      = w.assetsWithoutAddress.filter fun a => !(done.map (·.1)).any (·.covers a) := by
  -- Those that are left without an address are uncovered, so nothing was written to them.
  have hkept : ∀ a ∈ w.assets.filter fun a => (a.addressAfter done).isEmpty,
      { a with address := a.addressAfter done } = a := by
    intro a ha
    have hempty := (List.mem_filter.mp ha).2
    rw [a.isEmpty_addressAfter present, Bool.and_eq_true, Bool.not_eq_true'] at hempty
    have uncovered : ∀ d ∈ done, d.1.covers a = false := by simpa using hempty.2
    rw [Asset.addressAfter_of_uncovered uncovered]
  calc (w.after done).assetsWithoutAddress
      = (w.assets.filter fun a => (a.addressAfter done).isEmpty).map
          fun a => { a with address := a.addressAfter done } := by
        rw [assetsWithoutAddress, after, List.filter_map]
        rfl
    _ = w.assets.filter fun a => (a.addressAfter done).isEmpty :=
        (List.map_congr_left hkept).trans (List.map_id _)
    _ = _ := by
        rw [assetsWithoutAddress, List.filter_filter]
        refine List.filter_congr fun a _ => ?_
        rw [a.isEmpty_addressAfter present, Bool.and_comm]

/-! ### Successful runs -/

namespace Ledger

section LedgerSteps

variable (ledgerSteps : done.map (·.1) = stepsFor .ledger) {d : Step × String} (hd : d ∈ done)

include ledgerSteps

theorem mem_stepsFor_of_mem (hd : d ∈ done) : d.1 ∈ stepsFor .ledger :=
  ledgerSteps ▸ List.mem_map_of_mem hd

include hd

/-- No step is made twice, so a step has one answer. -/
theorem eq_of_same_step {d' : Step × String} (hd' : d' ∈ done) (h : d'.1 = d.1) : d'.2 = d.2 := by
  have hnodup : (done.map (·.1)).Nodup := by rw [ledgerSteps]; decide
  rw [List.inj_on_of_nodup_map hnodup hd' hd h]

/-- The asset that a ledger step covers has the answer of that step. -/
theorem addressAfter_of_ledgerStep {a : Asset} (covered : d.1.covers a = true) :
    a.addressAfter done = d.2 := by
  refine Asset.addressAfter_of_covered hd covered fun d' hd' covered' => ?_
  have hstep : d'.1 = d.1 := eq_of_covers (mem_stepsFor_of_mem ledgerSteps hd')
    (mem_stepsFor_of_mem ledgerSteps hd) covered' covered
  exact eq_of_same_step ledgerSteps hd hd' hstep

/-- The wallet has the answer of the Crypto.org step, the only one that is primary. -/
theorem address_after_of_cryptoOrg (hstep : d.1 = cryptoOrgStep) : (w.after done).address = d.2 := by
  have honly : ∀ step ∈ stepsFor .ledger, step.isPrimary = true → step = cryptoOrgStep := by decide
  have hlast : lastAnswer (·.isPrimary) done = some d.2 := by
    refine lastAnswer_eq_some hd (by rw [hstep]; rfl) fun d' hd' primary => ?_
    have hstep' := honly d'.1 (mem_stepsFor_of_mem ledgerSteps hd') primary
    exact eq_of_same_step ledgerSteps hd hd' (hstep'.trans hstep.symm)
  rw [WalletDraft.after, hlast, Option.getD_some]

end LedgerSteps

/-- After a successful run of the steps of a ledger wallet, every asset that a step covers has the answer of
that step, and the wallet that of the Crypto.org step. If no answer is empty, all of these are there, and
the assets without an address are those that had none and that no step covers. -/
theorem addresses_after_success (q : Sequencer) (env : Surroundings) (migrate : Bool) (s t : Scene)
    (result : DerivationResult) (ledgerSteps : q.steps s.draft = stepsFor .ledger)
    (run : q.run env migrate s = (.ok result, t)) (success : result.isSuccess = true) :
    result.completed = stepsFor .ledger
      ∧ (∀ step ∈ result.completed, ∃ address, (step, .ok address) ∈ q.replies env s
        ∧ (∀ a ∈ t.draft.assets, step.covers a = true → a.address = address)
        ∧ (step = cryptoOrgStep → t.draft.address = address))
      ∧ ((∀ step address, (step, .ok address) ∈ q.replies env s → address ≠ "") →
        (∀ step ∈ result.completed, ∀ a ∈ t.draft.assets, step.covers a = true → a.address ≠ "")
        ∧ t.draft.address ≠ ""
        ∧ t.draft.assetsWithoutAddress
          = s.draft.assetsWithoutAddress.filter fun a => !(stepsFor .ledger).any (·.covers a)) := by
  obtain ⟨done, hreplies, -, hsteps, rfl, hdraft⟩ := Sequencer.run_of_success run success
  have hdone : done.map (·.1) = stepsFor .ledger := hsteps.trans ledgerSteps
  -- Every step of a ledger wallet was made, and the device granted it.
  have hanswer : ∀ step ∈ stepsFor .ledger, ∃ d ∈ done, d.1 = step := fun step hstep =>
    List.mem_map.mp (hdone ▸ hstep)
  have hreply : ∀ d ∈ done, (d.1, .ok d.2) ∈ q.replies env s := fun d hd => by
    rw [hreplies]
    exact mem_granted.mpr hd
  have hassets : ∀ d ∈ done, ∀ a ∈ t.draft.assets, d.1.covers a = true → a.address = d.2 := by
    intro d hd b hb covered
    rw [hdraft] at hb
    obtain ⟨a, -, rfl⟩ := List.mem_map.mp hb
    exact addressAfter_of_ledgerStep hdone hd covered
  have hprimary : ∀ d ∈ done, d.1 = cryptoOrgStep → t.draft.address = d.2 := fun d hd hstep =>
    hdraft ▸ address_after_of_cryptoOrg hdone hd hstep
  refine ⟨hdone, fun step hstep => ?_, fun present => ⟨fun step hstep a ha covered => ?_, ?_, ?_⟩⟩
  · obtain ⟨d, hd, rfl⟩ := hanswer step (hdone ▸ hstep)
    exact ⟨d.2, hreply d hd, hassets d hd, hprimary d hd⟩
  · obtain ⟨d, hd, rfl⟩ := hanswer step (hdone ▸ hstep)
    rw [hassets d hd a ha covered]
    exact present d.1 d.2 (hreply d hd)
  · -- The wallet has the answer of the Crypto.org step, which is not empty.
    obtain ⟨d, hd, hstep⟩ := hanswer cryptoOrgStep (by decide)
    rw [hprimary d hd hstep]
    exact present d.1 d.2 (hreply d hd)
  · have hpresent : ∀ d ∈ done, d.2 ≠ "" := fun d hd => present d.1 d.2 (hreply d hd)
    rw [hdraft, WalletDraft.assetsWithoutAddress_after hpresent, hdone]

/-- A ledger wallet with a token, and with a voucher that no step covers. -/
def tokenAndVoucher : WalletDraft where
  identifier := "wallet-1"
  name := ""
  address := ""
  addressIndex := 0
  standard := .bip44
  kind := .ledger
  networkPrefix := "cro"
  assets := [
    { identifier := "token", walletId := "", assetType := .erc20, mainnetSymbol := "USDC"
      symbol := "USDC", name := "", decimals := 6, balance := .zero, address := "0xold"
      config := none },
    { identifier := "voucher", walletId := "", assetType := .ibc, mainnetSymbol := "ATOM"
      symbol := "ATOM", name := "", decimals := 6, balance := .zero, address := ""
      config := some ⟨.cosmosHub, none, none, none, none, none, none, false⟩ }]

/-- On a device with every app, the voucher alone is left without an address. -/
theorem voucher_without_address :
    ∃ result t,
      Sequencer.run ⟨.whole 0, []⟩ withEveryApp true ⟨tokenAndVoucher, .unset, [], []⟩ = (.ok result, t)
      ∧ result.isSuccess = true ∧ t.draft.address ≠ ""
      ∧ t.draft.assetsWithoutAddress.map (·.identifier) = ["voucher"] := by
  let q : Sequencer := ⟨.whole 0, []⟩
  let scene : Scene := ⟨tokenAndVoucher, .unset, [], []⟩
  obtain ⟨result, t, hrun, success⟩ : ∃ result t, q.run withEveryApp true scene = (.ok result, t)
      ∧ result.isSuccess = true := ⟨_, _, rfl, rfl⟩
  have hreplies : q.replies withEveryApp scene
      = [(cryptoOrgStep, .ok "cro1x"), (evmStep, .ok "0xnew"), (cosmosHubStep, .ok "cosmos1x")] := by
    rfl
  obtain ⟨-, -, hpresent⟩ := addresses_after_success q withEveryApp true scene t result rfl hrun success
  obtain ⟨-, haddress, hwithout⟩ := hpresent fun step address h => by
    rw [hreplies] at h
    simp only [List.mem_cons, Prod.mk.injEq, Except.ok.injEq, List.not_mem_nil, or_false] at h
    rcases h with ⟨-, rfl⟩ | ⟨-, rfl⟩ | ⟨-, rfl⟩ <;> decide
  exact ⟨result, t, hrun, success, haddress, by rw [hwithout]; decide +kernel⟩

/-- A device whose Ethereum app answers with the empty text. -/
def withEmptyAnswer : Surroundings where
  device := .steady fun
    | .address _ addressPrefix .. => .ok (addressPrefix ++ "1x")
    | .evmAddress .. => .ok ""
  listener := none
  duringCall _ := []
  duringWait _ := []

/-- The empty answer takes the place of the token's address, and the run succeeds. -/
theorem success_without_address :
    ¬ ∀ (q : Sequencer) (env : Surroundings) (migrate : Bool) (s t : Scene) (result : DerivationResult),
      q.steps s.draft = stepsFor .ledger → q.run env migrate s = (.ok result, t) →
      result.isSuccess = true →
      ∀ step ∈ result.completed, ∀ a ∈ t.draft.assets, step.covers a = true → a.address ≠ "" := by
  intro h
  let q : Sequencer := ⟨.whole 0, []⟩
  let scene : Scene := ⟨coinAndToken, .unset, [], []⟩
  obtain ⟨result, t, hrun, success, hcompleted, a, ha, covered, hnone⟩ :
      ∃ result t, q.run withEmptyAnswer true scene = (.ok result, t) ∧ result.isSuccess = true
        ∧ result.completed = stepsFor .ledger
        ∧ ∃ a ∈ t.draft.assets, evmStep.covers a = true ∧ a.address = "" :=
    -- The token is the second asset of the draft.
    ⟨_, _, rfl, rfl, rfl, _, .tail _ (.head _), rfl, rfl⟩
  exact h q withEmptyAnswer true scene t result rfl hrun success evmStep (hcompleted ▸ by decide) a ha
    covered hnone

end Ledger

end ChainWallet
