import ChainWallet.Proofs.Ledger.Transcript
import ChainWallet.Proofs.Ledger.UnnoticedCall

/-!
# What a check foretells

Before a wallet is created, and also while it is, its owner can check that the device answers on the app of a
step. The check builds its call from a draft of its own and a run from the draft of the wallet, and they tell of
a failure in different forms.

* **`call_probeDraft`** — the two calls are one.
* **`AppConnection.Tells`** — a check tells of a failure that a run reports.
* **`failure_eq_classify`, `turn_of_failure`** — what a run reports of a failure, however it came to it.
* **`Foretells`** — what a check tells of a step, set against every run over the draft.
* **`Bench.Unnoticed`** — a call that changes nothing but the lists of calls.
* **`check_foretells_run`** — a check makes the one call that a run makes for the step, tells of it what the run
  would, and is noticed by the device alone.
-/

namespace ChainWallet.Ledger

/-- A check tells of a failure of a run. -/
structure AppConnection.Tells (status : AppConnection) (failure : StepFailure) : Prop where
  chain : status.chain = failure.step.chain
  unconnected : status.connected = false
  message : status.message = failure.message
  kind : status.errorKind = some failure.kind

/-- A step asks for the account of a draft, and only for that. -/
theorem call_probeDraft (step : Step) (w : WalletDraft) :
    step.call (probeDraft w.addressIndex w.networkPrefix w.standard) = step.call w := rfl

/-! ### What a run reports -/

namespace Sequencer

variable (q : Sequencer) (env : Surroundings) (migrate : Bool)

/-- Whatever the listener does about an event, the event is what others notice. -/
theorem outward_emit (e : Event) (s : Scene) :
    outward (emit env e s).2.log = outward s.log ++ [.event e] := by
  cases hlistener : env.listener with
  | none =>
    simp only [emit, hlistener]
    exact outward_append
  | some listener =>
    -- The commands of a listener are not noticed by others.
    have hheard : ∀ cs, outward ((s.note (.event e)).obey cs).log = outward s.log ++ [.event e] := by
      intro cs
      rw [Scene.obey, outward_append, outward_commands, List.append_nil]
      exact outward_append
    simp only [emit, hlistener]
    cases (listener s.events e).failure <;> exact hheard _

/-- The failure with which a run returns is its cause, classified. -/
theorem failure_eq_classify {s t : Scene} {result : DerivationResult} {failure : StepFailure}
    (h : q.run env migrate s = (.ok result, t)) (failed : result.failure = some failure) :
    failure = classify failure.step failure.cause := by
  obtain ⟨-, hruns⟩ := run_eq_ok_iff.mp h
  obtain ⟨n, hthrough⟩ := runSteps_getsThrough q env migrate (q.steps s.draft) (.empty s.draft) rfl
  rw [hruns] at hthrough
  -- The run has got through its steps, or ended with the failure of one.
  rcases (hthrough.returned result rfl).ending with ⟨-, hnone⟩ | ⟨step, cause, -, -, hclass⟩
  · rw [failed] at hnone
    cases hnone
  · rw [failed, Option.some.injEq] at hclass
    rw [hclass]
    rfl

theorem snd_settle_error (step : Step) (result : DerivationResult) (cause : Failure) (s : Scene) :
    (settle env step result (.error cause) s).2
      = (emit env ⟨step, .failed, "", some (classify step cause)⟩ s).2 := by
  rcases hemit : emit env ⟨step, .failed, "", some (classify step cause)⟩ s with ⟨r, t⟩
  cases r <;> simp only [settle, hemit]

/-- A run whose call fails reports the failure and ends with it, unless the listener fails on the report. -/
theorem turn_of_failure (cause : Failure) (step : Step) (rest : List Step) (result : DerivationResult)
    (t : Scene) : ∃ ending u,
      q.turn env migrate (.held (.calling (.error cause)) step rest result) t = (.ended ending, u)
        ∧ outward u.log = outward t.log ++ [(classify step cause).report]
        ∧ (ending = .finished { result with failure := some (classify step cause) }
          ∨ ¬ env.Quiet ∧ ∃ f, ending = .raised f) := by
  obtain ⟨ending, u, hsettle, -, -, hending⟩ := settle_error env step result cause t
  refine ⟨ending, u, by simp only [turn, receive, hsettle], ?_, hending⟩
  have hscene : u = (emit env ⟨step, .failed, "", some (classify step cause)⟩ t).2 := by
    rw [← snd_settle_error env step result cause t, hsettle]
  rw [hscene, outward_emit]
  rfl

/-- A run makes the call of a step for the account of its draft, after those of the steps before. -/
theorem exists_calls {s t : Scene} {moves : List Move} {answer : Except Failure String} {step : Step}
    {rest : List Step} {result : DerivationResult} (ledger : s.draft.kind = .ledger)
    (h : q.course env migrate s moves = (.held (.calling answer) step rest result, t)) :
    ∃ earlier, t.deviceCalls = earlier ++ [step.call s.draft]
      ∧ answer = env.device earlier (step.call s.draft) := by
  have hrecounts := course_recounts q env migrate s ledger moves
  rw [h] at hrecounts
  -- A run that is calling has made the calls of the steps before and the one of its step.
  cases hrecounts with
  | asked unasked => exact absurd rfl (unasked answer)
  | @calling visits _ _ _ confirmed split tale =>
    refine ⟨_, ?_, rfl⟩
    rw [tale.calls, called_append, called_story, called_opening, List.append_assoc]

end Sequencer

/-! ### What a check tells -/

/-- What a check of a step tells, set against the runs over a draft: `device` was asked after the calls `earlier`,
and `status` is what the owner was told. -/
structure Foretells (device : Device) (earlier : List DeviceCall) (step : Step) (w : WalletDraft)
    (status : AppConnection) : Prop where
  chain : status.chain = step.chain
  connected : status.connected = true ↔ ∃ address, device earlier (step.call w) = .ok address
  /-- A run over the draft that makes the call of the step makes the same one. -/
  call : ∀ q env migrate s moves answer rest result t, s.draft = w → w.kind = .ledger →
    Sequencer.course q env migrate s moves = (.held (.calling answer) step rest result, t) →
    ∃ before, t.deviceCalls = before ++ [step.call w] ∧ answer = env.device before (step.call w)
  /-- If the call of a run failed as that of the check did, the run reports what the check tells. -/
  reported : ∀ cause, device earlier (step.call w) = .error cause → ∀ q env migrate rest result t,
    status.Tells (classify step cause) ∧ ∃ ending u,
      Sequencer.turn q env migrate (.held (.calling (.error cause)) step rest result) t = (.ended ending, u)
        ∧ outward u.log = outward t.log ++ [(classify step cause).report]
        ∧ (ending = .finished { result with failure := some (classify step cause) }
          ∨ ¬ env.Quiet ∧ ∃ f, ending = .raised f)
  /-- A run that returns with a failure that the check met returns with what the check tells. -/
  returned : ∀ q env migrate s result t failure, Sequencer.run q env migrate s = (.ok result, t) →
    result.failure = some failure → failure.step = step →
    device earlier (step.call w) = .error failure.cause → status.Tells failure

/-- Whatever happens after a call, nobody notices it but the device. -/
structure Bench.Unnoticed (b : Bench) (call : DeviceCall) : Prop where
  events : (b.probed call).scene.events = b.scene.events
  /-- A run goes on in the same way, however it is held up and whatever happens to it. -/
  course : ∀ q env migrate stage moves, Alike b.scene call
    (Sequencer.follow q (env.after b.scene.deviceCalls call) migrate (stage, b.scene) moves)
    (q.follow env migrate (stage, b.scene.probed call) moves)
  /-- The owner is told the same about everything that he does, with all the runs that hang. -/
  acts : ∀ all, ((b.probed call).acts all).1 = ((b.unprobed call).acts all).1
    ∧ Bench.Beside b.scene call ((b.unprobed call).acts all).2 ((b.probed call).acts all).2

theorem Bench.unnoticed (b : Bench) (call : DeviceCall) : b.Unnoticed call where
  events := (Scene.Beside.probed b.scene call).events_eq
  course q env migrate stage moves := by
    have hnow : Alike b.scene call (stage, b.scene) (stage, b.scene.probed call) :=
      ⟨rfl, .probed b.scene call⟩
    exact q.follow_alike env migrate hnow moves
  acts all := (Bench.Beside.probed b call).acts all

variable {device : Device} {earlier : List DeviceCall} {step : Step} {w : WalletDraft}

/-- A device that answers is connected. -/
theorem checkConnection_of_answer {address : String} (h : device earlier (step.call w) = .ok address) :
    (checkConnection device earlier step w.addressIndex w.networkPrefix w.standard).1
      = ⟨step.chain, true, "", none⟩ := by
  simp only [checkConnection, call_probeDraft, h]

theorem checkConnection_of_failure {cause : Failure} (h : device earlier (step.call w) = .error cause) :
    (checkConnection device earlier step w.addressIndex w.networkPrefix w.standard).1
      = ⟨step.chain, false, (classify step cause).message, some (classify step cause).kind⟩ := by
  simp only [checkConnection, call_probeDraft, h]

/-- A check tells of the failure that it met. -/
theorem tells_of_failure {cause : Failure} (h : device earlier (step.call w) = .error cause) :
    (checkConnection device earlier step w.addressIndex w.networkPrefix w.standard).1.Tells
      (classify step cause) := by
  rw [checkConnection_of_failure h]
  exact ⟨rfl, rfl, rfl, rfl⟩

/-- What a check tells is what the runs over the draft meet. -/
theorem foretells_checkConnection (device : Device) (earlier : List DeviceCall) (step : Step)
    (w : WalletDraft) : Foretells device earlier step w
      (checkConnection device earlier step w.addressIndex w.networkPrefix w.standard).1 := by
  refine ⟨?_, ?_, ?_, fun cause hfailed q env migrate rest result t => ?_,
    fun q env migrate s result t failure hrun hfailure hstep hfailed => ?_⟩
  · cases h : device earlier (step.call w) with
    | ok address => rw [checkConnection_of_answer h]
    | error cause => rw [checkConnection_of_failure h]
  · cases h : device earlier (step.call w) with
    | ok address => simp [checkConnection_of_answer h]
    | error cause => simp [checkConnection_of_failure h]
  · rintro q env migrate s moves answer rest result t rfl ledger hcourse
    exact q.exists_calls env migrate ledger hcourse
  · exact ⟨tells_of_failure hfailed, q.turn_of_failure env migrate cause step rest result t⟩
  · -- The failure of the run is the classified cause, which the check classifies the same way.
    have hclass := q.failure_eq_classify env migrate hrun hfailure
    rw [hclass, hstep]
    exact tells_of_failure hfailed

/-- A check makes the call that a run over the draft makes for the step and nothing else. It tells whether the
device answered, and if not, of the failure that a run would report; what it tells depends on the device and its
earlier calls alone. Neither the runs that hang nor anything that the owner does from then on is changed by it,
unless the device takes notice of the call. -/
theorem check_foretells_run (b : Bench) (step : Step) (w : WalletDraft) : ∃ status,
    b.check step w.addressIndex w.networkPrefix w.standard = (status, b.probed (step.call w))
      ∧ (∀ c : Bench, c.device = b.device → c.scene.deviceCalls = b.scene.deviceCalls →
        (c.check step w.addressIndex w.networkPrefix w.standard).1 = status)
      ∧ Foretells b.device b.scene.deviceCalls step w status
      ∧ b.Unnoticed (step.call w) := by
  refine ⟨_, Prod.ext rfl (b.check_snd ..), fun c hdevice hcalls => ?_, foretells_checkConnection ..,
    b.unnoticed _⟩
  simp only [Bench.check, hdevice, hcalls]

/-- A run that waits for the Ethereum app on a device that has none. -/
def waitingForEthereum : Bench :=
  ((Bench.new ⟨.whole 60, []⟩ none withoutEthereumApp.device coinAndToken false).start false).2

/-- The owner checks the app, is told that it is missing, and confirms it all the same. -/
theorem missing_app_foretold :
    waitingForEthereum.isRunning = true
      ∧ ∃ status failure, waitingForEthereum.check evmStep 0 "cro" .bip44
          = (status, waitingForEthereum.probed (.evmAddress 0 .bip44 false))
        ∧ ((waitingForEthereum.probed (.evmAddress 0 .bip44 false)).command .advance).1
          = some (.finished
            { DerivationResult.ofAnswers [(cryptoOrgStep, "cro1x")] with failure := some failure })
        ∧ status.Tells failure
        ∧ failure.message = "Please open the Ethereum app on your Ledger device and try again" := by
  obtain ⟨status, hcheck, -, foretells, -⟩ := check_foretells_run waitingForEthereum evmStep coinAndToken
  -- Asked for the Ethereum app the device fails, whatever it was asked before.
  have hfailed : waitingForEthereum.device waitingForEthereum.scene.deviceCalls (evmStep.call coinAndToken)
      = .error (.device ⟨.wrongApp, "", none⟩) := rfl
  have htells := (foretells.reported _ hfailed ⟨.whole 60, []⟩ waitingForEthereum.surroundings false [] .empty
    waitingForEthereum.scene).1
  exact ⟨by decide +kernel, status, _, hcheck, by decide +kernel, htells, by decide +kernel⟩

end ChainWallet.Ledger
