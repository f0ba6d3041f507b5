import ChainWallet.Proofs.Ledger.LastAnswer
import ChainWallet.Proofs.Ledger.StepOutcome

/-!
# How a run ends

A run over any list of steps, with any device, either completes all of them or ends at the first step
that fails. This is told here without the loop: the replies of the device are listed beforehand, and the
first one that is a failure, or that an asset refuses as it then stands, is where the run ends.

* **`replies`** — what a device replies to the steps of a draft, asked in order. The calls do not depend
  on what earlier steps wrote, so the list can be made before the run.
* **`Fault`, `FaultAt`, `FirstFault`** — a step that fails after given answers, such a step at a place of
  a list of replies, and the first one.
* **`Leaves`** — what a run leaves that completed steps with given answers: every asset, the wallet and
  every chain have the last answer that concerns them.
* **`EndsAfter`** — a run completes so many steps and no more, with what it then leaves. A fault ends a
  run at once (`EndsAfter.fault`), and a completed step puts the end off by one (`EndsAfter.cons`).
* **`GetsThrough`** — how far a run gets if the listener may fail: the draft has the answers of the steps
  up to there, whether or not the run returns.
* **`runSteps_getsThrough`** — the loop gets through some number of steps, by induction on them.
* **`runSteps_outcome`** — unless the listener fails, it ends there.
* **`run_ends_at_first_fault`** — the whole run.
-/

namespace ChainWallet.Ledger

/-- The replies of a device to the steps of a draft, asked in order. -/
def replies (device : Device) (w : WalletDraft) :
    (earlier : List DeviceCall) → List Step → List (Step × Except Failure String)
  | _, [] => []
  | earlier, step :: rest =>
    (step, device earlier (step.call w)) :: replies device w (earlier ++ [step.call w]) rest

/-- The replies of a run that no step ends early. -/
def Sequencer.replies (q : Sequencer) (env : Surroundings) (s : Scene) :
    List (Step × Except Failure String) :=
  Ledger.replies env.device s.draft s.deviceCalls (q.steps s.draft)

/-- The replies that are addresses. -/
def answers (rs : List (Step × Except Failure String)) : List (Step × String) :=
  rs.filterMap fun r => r.2.toOption.map (r.1, ·)

/-- A step fails, after steps have been completed with given answers, if the device does, or if an asset
refuses what the device replies. -/
inductive Fault (migrate : Bool) (w : WalletDraft) (done : List (Step × String)) (step : Step) :
    Except Failure String → Failure → Prop where
  | device (cause : Failure) : Fault migrate w done step (.error cause) cause
  | refusal {address : String} (refused : step.Refused migrate w done address) :
      Fault migrate w done step (.ok address) (.addressMismatch address step.chain)

/-- The step at a place of a list of replies fails when those before it have been completed. -/
def FaultAt (migrate : Bool) (w : WalletDraft) (done : List (Step × String))
    (rs : List (Step × Except Failure String)) (k : Nat) (cause : Failure) : Prop :=
  ∃ step reply, rs[k]? = some (step, reply)
    ∧ Fault migrate w (done ++ answers (rs.take k)) step reply cause

/-- The first step that fails. -/
def FirstFault (migrate : Bool) (w : WalletDraft) (rs : List (Step × Except Failure String)) (k : Nat)
    (cause : Failure) : Prop :=
  FaultAt migrate w [] rs k cause ∧ ∀ j < k, ∀ c, ¬ FaultAt migrate w [] rs j c

/-- What a run leaves that has completed steps with given answers: the result, and the draft. -/
structure Leaves (w : WalletDraft) (done : List (Step × String)) (result : DerivationResult)
    (final : WalletDraft) : Prop where
  completed : result.completed = done.map (·.1)
  addresses : ∀ chain, result.addresses.lookup chain = lastAnswer (·.chain == chain) done
  oneAddress : (result.addresses.map (·.1)).Nodup
  draft : final = w.after done

variable {env : Surroundings} {migrate : Bool} {w : WalletDraft} {done : List (Step × String)}

/-! ### Faults -/

/-- A step fails exactly on a fault, and with its cause. -/
theorem attempt_eq_error_iff {step : Step} {reply : Except Failure String} {cause : Failure} :
    step.attempt reply migrate (w.after done) = .error cause ↔ Fault migrate w done step reply cause := by
  cases reply with
  | error f =>
    constructor
    · intro h
      cases h
      exact .device cause
    · rintro ⟨⟩
      rfl
  | ok address =>
    -- An address fails the step only if the draft refuses it.
    by_cases hr : step.Refused migrate w done address
    · simp only [Step.attempt, Step.record_after_of_refused hr, Except.map, Except.error.injEq]
      constructor
      · rintro rfl
        exact .refusal hr
      · rintro ⟨⟩
        rfl
    · simp only [Step.attempt, Step.record_after hr, Except.map, reduceCtorEq, false_iff]
      rintro ⟨⟩
      exact hr ‹_›

/-- A step that does not fail has an address as its reply, and leads to the draft after one more
completed step. -/
theorem eq_of_attempt_eq_ok {step : Step} {reply : Except Failure String} {address : String}
    {written : WalletDraft} (h : step.attempt reply migrate (w.after done) = .ok (address, written)) :
    reply = .ok address ∧ written = w.after (done ++ [(step, address)]) := by
  obtain ⟨rfl, hrecord⟩ := Step.attempt_eq_ok_iff.mp h
  refine ⟨rfl, ?_⟩
  by_cases hr : step.Refused migrate w done address
  · rw [Step.record_after_of_refused hr] at hrecord
    cases hrecord
  · rw [Step.record_after hr] at hrecord
    exact (Except.ok.inj hrecord).symm

/-- The first step fails if its own reply is a fault. -/
theorem faultAt_zero {step : Step} {reply : Except Failure String}
    {rest : List (Step × Except Failure String)} {cause : Failure} :
    FaultAt migrate w done ((step, reply) :: rest) 0 cause ↔ Fault migrate w done step reply cause := by
  constructor
  · rintro ⟨s, r, hk, hf⟩
    simp only [List.getElem?_cons_zero, Option.some.injEq, Prod.mk.injEq] at hk
    obtain ⟨rfl, rfl⟩ := hk
    simpa [answers] using hf
  · intro hf
    exact ⟨step, reply, rfl, by simpa [answers] using hf⟩

/-- Behind a completed step, places count from the next one. -/
theorem faultAt_succ {step : Step} {address : String} {rest : List (Step × Except Failure String)}
    {k : Nat} {cause : Failure} :
    FaultAt migrate w done ((step, .ok address) :: rest) (k + 1) cause
      ↔ FaultAt migrate w (done ++ [(step, address)]) rest k cause := by
  simp [FaultAt, answers, Except.toOption]

/-- At one place there is one cause. -/
theorem FaultAt.unique {rs : List (Step × Except Failure String)} {k : Nat} {c c' : Failure}
    (h : FaultAt migrate w done rs k c) (h' : FaultAt migrate w done rs k c') : c = c' := by
  obtain ⟨step, reply, hk, hf⟩ := h
  obtain ⟨step', reply', hk', hf'⟩ := h'
  rw [hk] at hk'
  cases hk'
  -- The reply tells the cause, and a refusal tells of the answer that was refused.
  cases hf <;> cases hf' <;> rfl

@[simp] theorem length_replies (device : Device) (w : WalletDraft) (earlier : List DeviceCall)
    (steps : List Step) : (replies device w earlier steps).length = steps.length := by
  induction steps generalizing earlier with
  | nil => rfl
  | cons step rest ih => simp [replies, ih]

/-! ### The loop -/

/-- A run that has made no step leaves the draft as it was. -/
theorem Leaves.empty (w : WalletDraft) : Leaves w [] .empty w where
  completed := rfl
  addresses _ := rfl
  oneAddress := List.nodup_nil
  draft := (WalletDraft.after_nil w).symm

/-- One more completed step is one more answer. -/
theorem Leaves.complete {result : DerivationResult} {final : WalletDraft}
    (h : Leaves w done result final) (step : Step) (address : String) :
    Leaves w (done ++ [(step, address)]) (result.complete step address)
      (w.after (done ++ [(step, address)])) where
  completed := by simp [DerivationResult.complete, h.completed]
  addresses chain := by
    simp [DerivationResult.complete, DerivationResult.lookup_putAddress, h.addresses]
  oneAddress := by
    rw [DerivationResult.complete, DerivationResult.putAddress_eq_upsert]
    exact Keyed.nodup_upsert _ _ h.oneAddress
  draft := rfl

/-- A run over `steps`, whose replies are `rs`, completes the first `n` of them and no more, since the
next one fails or there is none. -/
structure EndsAfter (migrate : Bool) (w : WalletDraft) (done : List (Step × String))
    (rs : List (Step × Except Failure String)) (steps : List Step) (result final : DerivationResult)
    (draft : WalletDraft) (n : Nat) : Prop where
  leaves : Leaves w (done ++ answers (rs.take n)) final draft
  completed : final.completed = result.completed ++ steps.take n
  before : ∀ j < n, ∀ cause, ¬ FaultAt migrate w done rs j cause
  ending : n = steps.length ∧ final.failure = none
    ∨ ∃ step cause, steps[n]? = some step ∧ FaultAt migrate w done rs n cause
      ∧ final.failure = some (classify step cause)

namespace EndsAfter

variable {rs : List (Step × Except Failure String)} {steps : List Step} {step : Step}
  {result final : DerivationResult} {draft : WalletDraft}

theorem nil (h : Leaves w done result draft) (unfailed : result.failure = none) :
    EndsAfter migrate w done [] [] result result draft 0 where
  leaves := by simpa [answers] using h
  completed := by simp
  before := by simp
  ending := .inl ⟨rfl, unfailed⟩

/-- A fault at the first step ends the run with what it had. -/
theorem fault {reply : Except Failure String} {cause : Failure} (h : Leaves w done result draft)
    (hf : Fault migrate w done step reply cause) :
    EndsAfter migrate w done ((step, reply) :: rs) (step :: steps) result
      { result with failure := some (classify step cause) } draft 0 where
  leaves := by
    simpa [answers] using
      { completed := h.completed, addresses := h.addresses, oneAddress := h.oneAddress, draft := h.draft }
  completed := by simp
  before := by simp
  ending := .inr ⟨step, cause, rfl, faultAt_zero.mpr hf, rfl⟩

/-- A completed step puts off the end by one. -/
theorem cons {address : String} {n : Nat}
    (sound : ∀ cause, ¬ Fault migrate w done step (.ok address) cause)
    (h : EndsAfter migrate w (done ++ [(step, address)]) rs steps (result.complete step address) final
      draft n) :
    EndsAfter migrate w done ((step, .ok address) :: rs) (step :: steps) result final draft (n + 1) where
  leaves := by simpa [answers, Except.toOption] using h.leaves
  completed := by simp [h.completed, DerivationResult.complete]
  before j hj cause hf := by
    cases j with
    | zero => exact sound cause (faultAt_zero.mp hf)
    | succ j => exact h.before j (Nat.lt_of_succ_lt_succ hj) cause (faultAt_succ.mp hf)
  ending := by
    rcases h.ending with ⟨rfl, hf⟩ | ⟨next, cause, hn, hf, hc⟩
    · exact .inl ⟨rfl, hf⟩
    · exact .inr ⟨next, cause, by simpa using hn, faultAt_succ.mpr hf, hc⟩

end EndsAfter

/-- How far a run gets, whatever the listener does: through the first `n` of its steps, none of which
fails. If it returns, it ends there; if it does not, the listener has failed. -/
structure GetsThrough (env : Surroundings) (migrate : Bool) (w : WalletDraft)
    (done : List (Step × String)) (rs : List (Step × Except Failure String)) (steps : List Step)
    (result : DerivationResult) (r : Except Failure DerivationResult) (draft : WalletDraft) (n : Nat) :
    Prop where
  leaves : draft = w.after (done ++ answers (rs.take n))
  sound : ∀ j < n, ∀ cause, ¬ FaultAt migrate w done rs j cause
  raised : ∀ f, r = .error f → ¬ env.Quiet
  returned : ∀ final, r = .ok final → EndsAfter migrate w done rs steps result final draft n
  addresses : ∀ final, r = .ok final →
    final.addresses = DerivationResult.putAll (answers (rs.take n)) result.addresses

namespace GetsThrough

variable {rs : List (Step × Except Failure String)} {steps : List Step} {step : Step}
  {result : DerivationResult} {draft : WalletDraft}

/-- A listener that fails where a run stands ends it there. -/
theorem cut {f : Failure} (loud : ¬ env.Quiet) (h : draft = w.after done) :
    GetsThrough env migrate w done rs steps result (.error f) draft 0 where
  leaves := by simpa [answers] using h
  sound := by simp
  raised _ _ := loud
  returned _ h := by cases h
  addresses _ h := by cases h

/-- A completed step takes a run one step further, whether or not the listener hears of it in peace. -/
theorem cons {address : String} {r : Except Failure DerivationResult} {n : Nat}
    (unopposed : ∀ cause, ¬ Fault migrate w done step (.ok address) cause)
    (h : GetsThrough env migrate w (done ++ [(step, address)]) rs steps (result.complete step address) r
      draft n) :
    GetsThrough env migrate w done ((step, .ok address) :: rs) (step :: steps) result r draft (n + 1) where
  leaves := by simpa [answers, Except.toOption] using h.leaves
  sound j hj cause hf := by
    cases j with
    | zero => exact unopposed cause (faultAt_zero.mp hf)
    | succ j => exact h.sound j (Nat.lt_of_succ_lt_succ hj) cause (faultAt_succ.mp hf)
  raised := h.raised
  returned final hr := .cons unopposed (h.returned final hr)
  addresses final hr := by
    simpa [answers, Except.toOption, DerivationResult.putAll, DerivationResult.complete]
      using h.addresses final hr

end GetsThrough

/-- A run gets as far as no step fails and the listener lets it.

By induction on the steps. The draft stands as `done` says when the rest of the steps begins, and every
completed step moves one answer from the replies to `done`. -/
theorem runSteps_getsThrough (q : Sequencer) (env : Surroundings) (migrate : Bool) (steps : List Step)
    {result : DerivationResult} {s : Scene} (h : Leaves w done result s.draft)
    (unfailed : result.failure = none) :
    ∃ n, GetsThrough env migrate w done (replies env.device w s.deviceCalls steps) steps result
      (q.runSteps env migrate steps result s).1 (q.runSteps env migrate steps result s).2.draft n := by
  induction steps generalizing done result s with
  | nil =>
    refine ⟨0, ?_, by simp, ?_, ?_, ?_⟩
    · simpa [Sequencer.runSteps, answers] using h.draft
    · rintro f ⟨⟩
    · rintro final ⟨⟩
      exact .nil h unfailed
    · rintro final ⟨⟩
      simp [answers, DerivationResult.putAll]
  | cons step rest ih =>
    rcases hrun : q.runStep env migrate step result s with ⟨r, t⟩
    have houtcome := Sequencer.runStep_outcome hrun
    rw [h.draft] at houtcome
    generalize hcalls : t.deviceCalls = calls at houtcome
    generalize hdraft : t.draft = draft at houtcome
    -- What the step left says how far the run gets: nowhere, to a failure of this step, or past it.
    cases houtcome with
    | cut loud =>
      simp only [Sequencer.runSteps, hrun]
      exact ⟨0, .cut loud hdraft⟩
    | @failed cause ending attempt reported =>
      rw [Step.call_after] at attempt
      obtain rfl | ⟨loud, f, rfl⟩ := reported
      · -- The listener hears of the failure and lets the run return it.
        simp only [Sequencer.runSteps, hrun]
        refine ⟨0, by simpa [answers] using hdraft, by simp, by rintro f ⟨⟩, ?_, ?_⟩
        · rintro final ⟨⟩
          rw [hdraft, ← h.draft]
          exact .fault h (attempt_eq_error_iff.mp attempt)
        · rintro final ⟨⟩
          simp [answers, DerivationResult.putAll]
      · simp only [Sequencer.runSteps, hrun]
        exact ⟨0, .cut loud hdraft⟩
    | @recorded address written r attempt reported =>
      rw [Step.call_after] at attempt hcalls
      obtain ⟨hreply, rfl⟩ := eq_of_attempt_eq_ok attempt
      -- An answer that was written is not a fault, so the run is past this place.
      have unopposed : ∀ cause, ¬ Fault migrate w done step (.ok address) cause := by
        intro cause hf
        rw [← hreply, ← attempt_eq_error_iff, attempt] at hf
        cases hf
      rw [replies, hreply]
      obtain rfl | ⟨loud, f, rfl⟩ := reported
      · -- The step is done, so the rest runs from one more answer on.
        have hnext : Leaves w (done ++ [(step, address)]) (result.complete step address) t.draft :=
          hdraft ▸ h.complete step address
        obtain ⟨n, hthrough⟩ := ih hnext unfailed
        rw [hcalls] at hthrough
        simp only [Sequencer.runSteps, hrun]
        exact ⟨n + 1, .cons unopposed hthrough⟩
      · -- The answer is in the draft, although the listener fails on the news of it.
        simp only [Sequencer.runSteps, hrun]
        exact ⟨1, .cons unopposed (.cut loud hdraft)⟩

/-- A run whose listener never fails returns, with the cause of the first step that fails or with all
steps completed. -/
theorem runSteps_outcome (q : Sequencer) (migrate : Bool) (quiet : env.Quiet) (steps : List Step)
    {result : DerivationResult} {s : Scene} (h : Leaves w done result s.draft)
    (unfailed : result.failure = none) :
    ∃ n final t, q.runSteps env migrate steps result s = (.ok final, t)
      ∧ EndsAfter migrate w done (replies env.device w s.deviceCalls steps) steps result final t.draft n := by
  obtain ⟨n, hthrough⟩ := runSteps_getsThrough q env migrate steps h unfailed
  rcases hrun : q.runSteps env migrate steps result s with ⟨f | final, t⟩
  · exact absurd quiet (hthrough.raised f (by rw [hrun]))
  · rw [hrun] at hthrough
    exact ⟨n, final, t, rfl, hthrough.returned final rfl⟩

/-! ### The whole run -/

/-- A run of a ledger wallet returns, whatever its steps and its device, unless the listener fails. If a
step fails, the first one that does is the failed step, with the cause classified, and the steps before
it are the completed ones; otherwise all steps are. Either way every asset, the wallet and every chain
have the last answer that concerns them, and all else is as it was. -/
theorem run_ends_at_first_fault (q : Sequencer) (env : Surroundings) (migrate : Bool) (s : Scene)
    (ledger : s.draft.kind = .ledger) (quiet : env.Quiet) :
    (∀ k cause, FirstFault migrate s.draft (q.replies env s) k cause →
      ∃ step result t, (q.steps s.draft)[k]? = some step
        ∧ q.run env migrate s = (.ok result, t)
        ∧ result.completed = (q.steps s.draft).take k
        ∧ result.failure = some (classify step cause)
        ∧ Leaves s.draft (answers ((q.replies env s).take k)) result t.draft)
    ∧ ((∀ k cause, ¬ FirstFault migrate s.draft (q.replies env s) k cause) →
      ∃ result t, q.run env migrate s = (.ok result, t)
        ∧ result.isSuccess = true
        ∧ result.completed = q.steps s.draft
        ∧ Leaves s.draft (answers (q.replies env s)) result t.draft) := by
  obtain ⟨n, final, t, hruns, hleaves, hcompleted, hbefore, hend⟩ :=
    runSteps_outcome q migrate quiet (q.steps s.draft) (.empty s.draft) rfl
  -- A ledger wallet is run over, and from the beginning.
  have hrun : q.run env migrate s = (.ok final, t) := by
    rw [Sequencer.run, if_pos ledger, hruns]
  simp only [DerivationResult.empty, List.nil_append] at hcompleted hleaves
  constructor
  · rintro k cause ⟨hfault, hfirst⟩
    rcases hend with ⟨rfl, -⟩ | ⟨step, cause', hstep, hfault', hclass⟩
    · -- All steps were completed, but the one at `k` is among them and fails.
      obtain ⟨step, reply, hk, hf⟩ := hfault
      have hlt : k < (q.steps s.draft).length := by
        have := (List.getElem?_eq_some_iff.mp hk).1
        rwa [Sequencer.replies, length_replies] at this
      exact absurd ⟨step, reply, hk, hf⟩ (hbefore k hlt cause)
    · -- The run ends at the first fault, and there is no other first one.
      have hn : n = k := by
        rcases Nat.lt_trichotomy n k with h | h | h
        · exact absurd hfault' (hfirst n h cause')
        · exact h
        · exact absurd hfault (hbefore k h cause)
      subst hn
      obtain rfl := hfault.unique hfault'
      exact ⟨step, final, t, hstep, hrun, hcompleted, hclass, hleaves⟩
  · intro hnone
    rcases hend with ⟨rfl, hf⟩ | ⟨step, cause, hstep, hfault, hclass⟩
    · refine ⟨final, t, hrun, by simp [DerivationResult.isSuccess, hf], by simpa using hcompleted, ?_⟩
      rwa [List.take_of_length_le (Nat.le_of_eq (length_replies ..))] at hleaves
    · exact absurd ⟨hfault, hbefore⟩ (hnone n cause)

/-- A ledger wallet with a coin that has no address yet and a token that has one. -/
def coinAndToken : WalletDraft where
  identifier := "wallet-1"
  name := ""
  address := ""
  addressIndex := 0
  standard := .bip44
  kind := .ledger
  networkPrefix := "cro"
  assets := [
    { identifier := "coin", walletId := "", assetType := .tendermint, mainnetSymbol := "CRO"
      symbol := "CRO", name := "", decimals := 8, balance := .zero, address := ""
      config := some ⟨.cryptoOrg, none, none, none, none, none, none, false⟩ },
    { identifier := "token", walletId := "", assetType := .erc20, mainnetSymbol := "USDC"
      symbol := "USDC", name := "", decimals := 6, balance := .zero, address := "0xold"
      config := none }]

/-- A device without an Ethereum app, and a listener that confirms every app. -/
def withoutEthereumApp : Surroundings where
  device := .steady fun
    | .address _ addressPrefix .. => .ok (addressPrefix ++ "1x")
    | .evmAddress .. => .error (.device ⟨.wrongApp, "", none⟩)
  listener := some fun _ _ => ⟨[.advance], none⟩
  duringCall _ := []
  duringWait _ := []

/-- Two steps that both cover the coin, and one that cannot be made. -/
def overlappingSteps : Sequencer where
  window := .whole 60
  customSteps := [cryptoOrgStep, { cosmosHubStep with chains := none }, evmStep]

/-- The coin has the answer of the second step, the wallet that of the first one, and the token, whose
step failed, the address it had. -/
theorem run_ends_at_third_step :
    coinAndToken.kind = .ledger ∧ withoutEthereumApp.Quiet
      ∧ ∃ result t,
        overlappingSteps.run withoutEthereumApp true ⟨coinAndToken, .unset, [], []⟩ = (.ok result, t)
          ∧ result.completed = [cryptoOrgStep, { cosmosHubStep with chains := none }]
          ∧ result.failure = some (classify evmStep (.device ⟨.wrongApp, "", none⟩))
          ∧ result.addresses.lookup .cosmosHub = some "cosmos1x"
          ∧ t.draft.address = "cro1x"
          ∧ t.draft.assets.map (·.address) = ["cosmos1x", "0xold"] := by
  have quiet : withoutEthereumApp.Quiet := by
    rintro _ ⟨⟩ _ _
    rfl
  have first : FirstFault true coinAndToken
      (overlappingSteps.replies withoutEthereumApp ⟨coinAndToken, .unset, [], []⟩) 2
      (.device ⟨.wrongApp, "", none⟩) := by
    refine ⟨⟨evmStep, _, rfl, .device _⟩, ?_⟩
    rintro j hj c ⟨step, reply, hk, hf⟩
    -- The first two steps have answers, and a run that may replace addresses refuses none.
    match j, hj with
    | 0, _ => cases hk; cases hf with | refusal refused => cases refused.1
    | 1, _ => cases hk; cases hf with | refusal refused => cases refused.1
  obtain ⟨step, result, t, hstep, hrun, hcompleted, hclass, hleaves⟩ :=
    (run_ends_at_first_fault overlappingSteps withoutEthereumApp true ⟨coinAndToken, .unset, [], []⟩
      rfl quiet).1 2 _ first
  cases hstep
  refine ⟨rfl, quiet, result, t, hrun, hcompleted, hclass, ?_, ?_, ?_⟩
  · -- The chain of the second step has the answer of that step.
    rw [hleaves.addresses]
    decide +kernel
  · rw [hleaves.draft]
    decide +kernel
  · rw [hleaves.draft]
    decide +kernel

end ChainWallet.Ledger
