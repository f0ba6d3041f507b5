import ChainWallet.Ledger.AddressList
import ChainWallet.Proofs.Ledger.AddressesPresent
import ChainWallet.Proofs.Ledger.Restart

/-!
# The address that was picked is the one that is derived

An owner picks an account from a list of addresses, and the wallet is then derived step by step. The list and
the steps put their calls together each in its own way, from a type and a chain here and from a draft there.
They agree because every list has its step.

* **`AddressQuery.step?`** — the step of a list. It covers the assets that the list is for
  (`covers_of_step?`), and over a draft with the settings of the list it makes the list's call
  (`call?_eq`).
* **`entries_eq`**, **`exists_list`** — a list has an entry for every index it was asked for, with the answer to
  its call, and there is one if the device answers.
* **`address_of_success`** — a successful run leaves the answer to the call of a step on what the step covers.
* **`success_of_answers`** — a run succeeds over assets that take any address, if the device answers every
  step.
* **`picked_address_is_derived`** — so a run writes the address that the list showed.
-/

namespace ChainWallet

open Ledger

/-- A device that answers by the call alone gives the answers to all calls of a list, if it fails on none. -/
theorem Device.ask_eq_map {device : Device} {answer : DeviceCall → String}
    (byCall : device.Answers answer) {earlier calls made : List DeviceCall} {addresses : List String}
    (h : device.ask earlier calls = (.ok addresses, made)) : addresses = calls.map answer := by
  induction calls generalizing earlier addresses with
  | nil =>
    cases h
    rfl
  | cons c rest ih =>
    simp only [Device.ask] at h
    split at h
    · cases h
    · -- The first call is answered as every call like it, and the rest is asked for behind it.
      next address hc =>
      rcases hr : device.ask (earlier ++ [c]) rest with ⟨_ | more, made'⟩
      · rw [hr] at h
        cases h
      · rw [hr] at h
        cases h
        rw [byCall earlier c address hc, ih hr, List.map_cons]

/-- A device that answers every call of a list is asked for all of them. -/
theorem Device.ask_of_answers {device : Device} {answer : DeviceCall → String} {calls : List DeviceCall}
    (answered : ∀ c ∈ calls, ∀ made, device made c = .ok (answer c)) (earlier : List DeviceCall) :
    ∃ made, device.ask earlier calls = (.ok (calls.map answer), made) := by
  induction calls generalizing earlier with
  | nil => exact ⟨earlier, rfl⟩
  | cons c rest ih =>
    obtain ⟨made, hrest⟩ := ih (fun b hb => answered b (List.mem_cons_of_mem c hb)) (earlier ++ [c])
    refine ⟨made, ?_⟩
    simp only [Device.ask, answered c List.mem_cons_self, hrest]
    rfl

namespace Ledger

namespace AddressQuery

/-- The step that derives the addresses of a list. -/
def step? (q : AddressQuery) : Option Step :=
  match q.assetType, q.chain with
  | .evm, _ => some evmStep
  | .tendermint, .cryptoOrg => some cryptoOrgStep
  | .tendermint, .cosmosHub => some cosmosHubStep
  | _, _ => none

/-- A draft derives its addresses with the settings that a list is asked with. -/
structure SharesSettings (q : AddressQuery) (w : WalletDraft) : Prop where
  standard : w.standard = q.standard
  networkPrefix : w.networkPrefix = q.addressPrefix

/-- The assets that a list is for: those of its type and chain, and on any chain for an EVM list. -/
def IsFor (q : AddressQuery) (a : Asset) : Prop :=
  a.assetType = q.assetType ∧ (q.assetType = .evm ∨ a.chain = some q.chain)

variable {q : AddressQuery} {w : WalletDraft} {step : Step}

/-- The kinds of lists, each with its step. -/
theorem step?_cases (h : q.step? = some step) :
    q.assetType = .evm ∧ step = evmStep
      ∨ q.assetType = .tendermint ∧ q.chain = .cryptoOrg ∧ step = cryptoOrgStep
      ∨ q.assetType = .tendermint ∧ q.chain = .cosmosHub ∧ step = cosmosHubStep := by
  unfold step? at h
  split at h <;> simp_all

/-- The step of a list is one of those of a ledger wallet. -/
theorem mem_stepsFor_of_step? (h : q.step? = some step) : step ∈ stepsFor .ledger := by
  obtain ⟨-, rfl⟩ | ⟨-, -, rfl⟩ | ⟨-, -, rfl⟩ := step?_cases h <;> decide

/-- The step of a list covers the assets that the list is for. -/
theorem covers_of_step? (h : q.step? = some step) {a : Asset} (ha : q.IsFor a) : step.covers a = true := by
  obtain ⟨htype, hchain⟩ := ha
  refine Step.covers_iff.mpr ?_
  obtain ⟨hevm, rfl⟩ | ⟨htendermint, hc, rfl⟩ | ⟨htendermint, hc, rfl⟩ := step?_cases h
  · rw [htype, hevm]
    exact ⟨by decide, fun _ hnone => by cases hnone⟩
  all_goals
    rw [htype, htendermint]
    refine ⟨by decide, ?_⟩
    rintro _ ⟨⟩
    have hchain : a.chain = some q.chain := hchain.resolve_left (by rw [htendermint]; decide)
    exact ⟨_, List.mem_cons_self, hc ▸ hchain⟩

/-- Over a draft with its settings a list calls for the draft's index as its step does. -/
theorem call?_eq (settings : q.SharesSettings w) :
    q.call? w.addressIndex = q.step?.map (·.call w) := by
  obtain ⟨hstandard, hprefix⟩ := settings
  obtain ⟨assetType, chain, standard, addressPrefix, start, stop⟩ := q
  cases hstandard
  cases hprefix
  -- The list and the steps part by type and chain, each in its own way.
  cases assetType <;> cases chain <;> rfl

/-- So it is for every index, with the draft at that index. -/
theorem call?_eq_of_step? (settings : q.SharesSettings w) (h : q.step? = some step) (index : Int) :
    q.call? index = some (step.call { w with addressIndex := index }) := by
  have hshared : q.SharesSettings { w with addressIndex := index } := ⟨settings.standard, settings.networkPrefix⟩
  have hcall := call?_eq hshared
  rwa [h] at hcall

end AddressQuery

/-! ### Lists -/

namespace AddressQuery

variable {q : AddressQuery} {w : WalletDraft} {step : Step}

/-- The indices of a list are those from its start to before its stop. -/
theorem mem_indices {index : Int} : index ∈ q.indices ↔ q.start ≤ index ∧ index < q.stop := by
  simp only [indices, List.mem_map, List.mem_range]
  constructor
  · rintro ⟨i, hi, rfl⟩
    omega
  · rintro ⟨hstart, hstop⟩
    exact ⟨(index - q.start).toNat, by omega, by omega⟩

/-- The calls of a list are those of its step, one for each index. -/
theorem calls_eq (settings : q.SharesSettings w) (hstep : q.step? = some step) :
    q.indices.mapM q.call? = some (q.indices.map fun i => step.call { w with addressIndex := i }) := by
  rw [funext (call?_eq_of_step? settings hstep)]
  exact List.mapM_pure

/-- A list shows for each index the answer to the call of its step. -/
theorem entries_eq {device : Device} {answer : DeviceCall → String} (byCall : device.Answers answer)
    (settings : q.SharesSettings w) (hstep : q.step? = some step) {earlier made : List DeviceCall}
    {entries : List AddressEntry} (listed : q.run device earlier = (.ok entries, made)) :
    entries = q.indices.map fun i => q.entry i (answer (step.call { w with addressIndex := i })) := by
  rw [run, calls_eq settings hstep] at listed
  rcases hask : device.ask earlier (q.indices.map fun i => step.call { w with addressIndex := i })
    with ⟨_ | addresses, made'⟩
  · simp [hask, Except.map] at listed
  · simp only [hask, Except.map, Prod.mk.injEq, Except.ok.injEq] at listed
    rw [← listed.1, Device.ask_eq_map byCall hask, List.map_map, List.zipWith_map_right, List.zipWith_self]
    rfl

/-- A list is shown if the device answers all its calls. -/
theorem exists_list {device : Device} {answer : DeviceCall → String} (settings : q.SharesSettings w)
    (hstep : q.step? = some step)
    (answered : ∀ i ∈ q.indices, ∀ call ∈ q.call? i, ∀ made, device made call = .ok (answer call))
    (earlier : List DeviceCall) : ∃ entries made, q.run device earlier = (.ok entries, made) := by
  have hanswered : ∀ call ∈ q.indices.map fun i => step.call { w with addressIndex := i }, ∀ made,
      device made call = .ok (answer call) := by
    intro call hcall
    obtain ⟨i, hi, rfl⟩ := List.mem_map.mp hcall
    exact answered i hi _ (call?_eq_of_step? settings hstep i)
  obtain ⟨made, hask⟩ := Device.ask_of_answers hanswered earlier
  rw [run, calls_eq settings hstep]
  simp only [hask]
  exact ⟨_, made, rfl⟩

end AddressQuery

/-! ### Runs -/

variable {q : Sequencer} {env : Surroundings} {migrate : Bool} {s t : Scene} {result : DerivationResult}

/-- A successful run leaves on the assets that a step covers the answer to its call. -/
theorem address_of_success {answer : DeviceCall → String} (byCall : env.device.Answers answer)
    (ledgerSteps : q.steps s.draft = stepsFor .ledger) (run : q.run env migrate s = (.ok result, t))
    (success : result.isSuccess = true) {step : Step} (hstep : step ∈ stepsFor .ledger) {a : Asset}
    (ha : a ∈ t.draft.assets) (covered : step.covers a = true) : a.address = answer (step.call s.draft) := by
  obtain ⟨done, hreplies, -, hsteps, -, hdraft⟩ := Sequencer.run_of_success run success
  have hdone : done.map (·.1) = stepsFor .ledger := hsteps.trans ledgerSteps
  -- The step is one of those that were completed, with some answer.
  obtain ⟨d, hd, rfl⟩ := List.mem_map.mp (hdone ▸ hstep)
  rw [hdraft] at ha
  obtain ⟨b, -, rfl⟩ := List.mem_map.mp ha
  have hreply : (d.1, .ok d.2) ∈ q.replies env s := hreplies ▸ mem_granted.mpr hd
  rw [← (eq_answer_of_mem byCall hreply).2]
  exact addressAfter_of_ledgerStep hdone hd covered

/-- An asset without an address has none before its step: no other step covers it. -/
theorem addressAfter_take_of_empty {done : List (Step × String)} (hdone : done.map (·.1) = stepsFor .ledger)
    {k : Nat} {d : Step × String} (hd : done[k]? = some d) {a : Asset} (covered : d.1.covers a = true)
    (empty : a.address = "") : a.addressAfter (done.take k) = "" := by
  rw [← empty]
  refine Asset.addressAfter_of_uncovered fun d' hd' => Bool.eq_false_iff.mpr fun covered' => ?_
  -- A step before it that covers the asset too would be the same step, at two places of the list.
  obtain ⟨j, hj⟩ := List.mem_iff_getElem?.mp hd'
  obtain ⟨hlt, hj⟩ : j < k ∧ done[j]? = some d' := by
    rw [List.getElem?_take] at hj
    split at hj
    · exact ⟨‹_›, hj⟩
    · cases hj
  have hsame : d'.1 = d.1 := eq_of_covers (mem_stepsFor_of_mem hdone (List.mem_of_getElem? hj))
    (mem_stepsFor_of_mem hdone (List.mem_of_getElem? hd)) covered' covered
  have hnodup : (done.map (·.1)).Nodup := by rw [hdone]; decide
  have hjlt : j < (done.map (·.1)).length := by
    rw [List.length_map]
    exact (List.getElem?_eq_some_iff.mp hj).1
  have hplaces : j = k := (List.getElem?_inj hjlt hnodup).mp (by simp [List.getElem?_map, hj, hd, hsame])
  omega

/-- If the device answers every step, only an address that is there already can keep a run from success. -/
theorem success_of_answers {answer : DeviceCall → String} (ledger : s.draft.kind = .ledger)
    (ledgerSteps : q.steps s.draft = stepsFor .ledger) (quiet : env.Quiet)
    (unset : migrate = true ∨ ∀ a ∈ s.draft.assets, a.address = "")
    (answered : ∀ step ∈ stepsFor .ledger, ∀ made,
      env.device made (step.call s.draft) = .ok (answer (step.call s.draft))) :
    ∃ result t, q.run env migrate s = (.ok result, t) ∧ result.isSuccess = true := by
  obtain ⟨result, t, hrun, hsuccess⟩ : ∃ result t, q.run env migrate s = (.ok result, t)
      ∧ (result.isSuccess = true
        ↔ ∃ done, q.replies env s = granted done ∧ Unrefused migrate s.draft done) :=
    Sequencer.run_success_iff ledger quiet
  refine ⟨result, t, hrun, hsuccess.mpr ?_⟩
  -- A reply that fails would be one to the call of a step, and these are answered.
  obtain ⟨done, hreplies⟩ : ∃ done, q.replies env s = granted done := by
    refine exists_granted fun r hr cause hfails => ?_
    obtain ⟨hmem, made, hreply⟩ := mem_replies hr
    rw [answered r.1 (ledgerSteps ▸ hmem) made, hfails] at hreply
    cases hreply
  have hdone : done.map (·.1) = stepsFor .ledger := by
    rw [← map_fst_granted, ← hreplies, Sequencer.replies, map_fst_replies, ledgerSteps]
  refine ⟨done, hreplies, fun k d hd refused => ?_⟩
  -- An answer is refused only for an address that an asset keeps, and there is none.
  obtain ⟨hkeeps, a, ha, covered, hne, -⟩ := refused
  rcases unset with rfl | empty
  · cases hkeeps
  · exact hne (addressAfter_take_of_empty hdone hd covered (empty a ha))

/-- Where a list has been asked for with the settings of a draft, it shows for the draft's index the address
that a successful run of the steps of a ledger wallet writes onto every asset that the list is for. The list is
there if the device answers its calls, and a run over assets without addresses, or with a migration, succeeds if
the device answers every step. -/
theorem picked_address_is_derived (query : AddressQuery) (q : Sequencer) (env : Surroundings)
    (answer : DeviceCall → String) (migrate : Bool) (s : Scene) (byCall : env.device.Answers answer)
    (ledger : s.draft.kind = .ledger) (ownSteps : q.customSteps = [])
    (settings : query.SharesSettings s.draft) (asked : (query.call? s.draft.addressIndex).isSome = true)
    (start : query.start ≤ s.draft.addressIndex) (stop : s.draft.addressIndex < query.stop) :
    (∀ earlier entries made, query.run env.device earlier = (.ok entries, made) →
      (∃ e ∈ entries, e.index = s.draft.addressIndex)
        ∧ ∀ e ∈ entries, e.index = s.draft.addressIndex →
          ∀ result t, q.run env migrate s = (.ok result, t) → result.isSuccess = true →
            ∀ a ∈ t.draft.assets, query.IsFor a → a.address = e.address)
      ∧ ((∀ i ∈ query.indices, ∀ call ∈ query.call? i, ∀ made, env.device made call = .ok (answer call)) →
        ∀ earlier, ∃ entries made, query.run env.device earlier = (.ok entries, made))
      ∧ (env.Quiet → (migrate = true ∨ ∀ a ∈ s.draft.assets, a.address = "") →
        (∀ step ∈ stepsFor .ledger, ∀ made,
          env.device made (step.call s.draft) = .ok (answer (step.call s.draft))) →
        ∃ result t, q.run env migrate s = (.ok result, t) ∧ result.isSuccess = true) := by
  have ledgerSteps : q.steps s.draft = stepsFor .ledger := by
    rw [Sequencer.steps, ownSteps, ledger]
    rfl
  -- A list with a call has a step, because both are told by type and chain.
  obtain ⟨step, hstep⟩ : ∃ step, query.step? = some step := by
    rw [AddressQuery.call?_eq settings, Option.isSome_map] at asked
    exact Option.isSome_iff_exists.mp asked
  refine ⟨fun earlier entries made listed => ?_, AddressQuery.exists_list settings hstep,
    fun quiet unset answered => success_of_answers ledger ledgerSteps quiet unset answered⟩
  obtain rfl := AddressQuery.entries_eq byCall settings hstep listed
  constructor
  · exact ⟨_, List.mem_map_of_mem (AddressQuery.mem_indices.mpr ⟨start, stop⟩), rfl⟩
  · intro e he hindex result t hrun success a ha hfor
    obtain ⟨i, -, rfl⟩ := List.mem_map.mp he
    obtain rfl : i = s.draft.addressIndex := hindex
    exact address_of_success byCall ledgerSteps hrun success (AddressQuery.mem_stepsFor_of_step? hstep) ha
      (AddressQuery.covers_of_step? hstep hfor)

/-- A device with every app, whose addresses tell their index. -/
def withNumberedAddresses : Surroundings where
  device := .steady fun
    | .address index addressPrefix .. => .ok (addressPrefix ++ "1-" ++ toString index)
    | .evmAddress index .. => .ok ("0x-" ++ toString index)
  listener := none
  duringCall _ := []
  duringWait _ := []

/-- The second account of a wallet on the test network, with a coin there and one on an EVM chain. -/
def secondAccount : WalletDraft where
  identifier := "wallet-1"
  name := ""
  address := ""
  addressIndex := 1
  standard := .ledgerLive
  kind := .ledger
  networkPrefix := "tcro"
  assets := [
    { identifier := "coin", walletId := "", assetType := .tendermint, mainnetSymbol := "CRO"
      symbol := "TCRO", name := "", decimals := 8, balance := .zero, address := ""
      config := some ⟨.cryptoOrg, none, none, none, none, none, none, false⟩ },
    { identifier := "ether", walletId := "", assetType := .evm, mainnetSymbol := "ETH"
      symbol := "ETH", name := "", decimals := 18, balance := .zero, address := ""
      config := some ⟨.ethereum, none, none, none, none, none, none, false⟩ }]

/-- Of the addresses from -1 to 1 on the test network, the last one is the coin's after a run. -/
theorem last_address_derived :
    ∃ entries made result t,
      AddressQuery.run ⟨.tendermint, .cryptoOrg, .ledgerLive, "tcro", -1, 2⟩ withNumberedAddresses.device []
        = (.ok entries, made)
      ∧ entries.map (·.address) = ["tcro1--1", "tcro1-0", "tcro1-1"]
      ∧ Sequencer.run ⟨.whole 0, []⟩ withNumberedAddresses false ⟨secondAccount, .unset, [], []⟩
        = (.ok result, t)
      ∧ result.isSuccess = true
      ∧ ∀ a ∈ t.draft.assets, a.assetType = .tendermint → a.chain = some .cryptoOrg → a.address = "tcro1-1" := by
  let query : AddressQuery := ⟨.tendermint, .cryptoOrg, .ledgerLive, "tcro", -1, 2⟩
  let answer (call : DeviceCall) : String := (withNumberedAddresses.device [] call).toOption.getD ""
  have hall : ∀ made call, withNumberedAddresses.device made call = .ok (answer call) := by
    rintro _ (_ | _) <;> rfl
  -- The device answers by the call alone.
  have hanswers : withNumberedAddresses.device.Answers answer := fun made call address h =>
    Except.ok.inj (h.symm.trans (hall made call))
  have hquiet : withNumberedAddresses.Quiet := by rintro _ ⟨⟩
  obtain ⟨hpicked, -, hsucceeds⟩ := picked_address_is_derived query ⟨.whole 0, []⟩ withNumberedAddresses answer
    false ⟨secondAccount, .unset, [], []⟩ hanswers rfl rfl ⟨rfl, rfl⟩ rfl (by decide) (by decide)
  obtain ⟨result, t, hrun, success⟩ := hsucceeds hquiet (.inr (by decide)) fun _ _ made => hall made _
  obtain ⟨entries, made, hlist, haddresses, e, he, hindex, haddress⟩ : ∃ entries made,
      query.run withNumberedAddresses.device [] = (.ok entries, made)
      ∧ entries.map (·.address) = ["tcro1--1", "tcro1-0", "tcro1-1"]
      ∧ ∃ e ∈ entries, e.index = 1 ∧ e.address = "tcro1-1" :=
    ⟨_, _, rfl, by decide +kernel, _, .tail _ (.tail _ (.head _)), rfl, by decide +kernel⟩
  refine ⟨entries, made, result, t, hlist, haddresses, hrun, success, fun a ha htype hchain => ?_⟩
  rw [← haddress]
  exact (hpicked [] entries made hlist).2 e he hindex result t hrun success a ha ⟨htype, .inr hchain⟩

end Ledger

end ChainWallet
