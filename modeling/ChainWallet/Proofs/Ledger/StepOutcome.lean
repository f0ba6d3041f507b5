import ChainWallet.Ledger.Sequencer

/-!
# What one step of a run does

A step tells the listener what it is about, may wait, makes one call and writes its address. Everything
that later modules say about runs rests on what this leaves of the draft and of the device:

* **`Step.attempt`** — what a reply of the device comes to: the address with the draft that holds it, or
  the cause for which the step fails. `receive_eq` says that this is what a run does with a reply.
* **`StepOutcome`** — the three ways in which a step goes: the listener cuts it off before the call, it
  fails, or its address is recorded. A failure of the listener is told apart from all others, since it
  ends a run without a result.
* **`runStep_outcome`** — every step goes in one of these ways, whatever the listener, the app switch and
  the window of the wait.
-/

namespace ChainWallet.Ledger

/-- No failure comes from the listener. -/
def Surroundings.Quiet (env : Surroundings) : Prop :=
  ∀ listener, env.listener = some listener →
    ∀ earlier e, (listener earlier e).failure = none

/-- What a step makes of a reply: the address and the draft that holds it, or the cause for which the
step fails. -/
def Step.attempt (step : Step) (reply : Except Failure String) (migrate : Bool) (w : WalletDraft) :
    Except Failure (String × WalletDraft) :=
  match reply with
  | .error f => .error f
  | .ok address => (step.record address migrate w).map (address, ·)

/-- A step has an address exactly if the device has and the draft takes it. -/
theorem Step.attempt_eq_ok_iff {step : Step} {reply : Except Failure String} {migrate : Bool}
    {w written : WalletDraft} {address : String} :
    step.attempt reply migrate w = .ok (address, written)
      ↔ reply = .ok address ∧ step.record address migrate w = .ok written := by
  cases reply with
  | error f => simp [attempt]
  | ok a =>
    -- The device has answered, so it is for the draft to take the address.
    cases h : step.record a migrate w with
    | error f =>
      simp only [attempt, h, Except.map, reduceCtorEq, Except.ok.injEq, false_iff, not_and]
      rintro rfl
      simp [h]
    | ok w' =>
      simp only [attempt, h, Except.map, Except.ok.injEq, Prod.mk.injEq]
      constructor
      · rintro ⟨rfl, rfl⟩
        exact ⟨rfl, h⟩
      · rintro ⟨rfl, hw⟩
        rw [h] at hw
        exact ⟨rfl, Except.ok.inj hw⟩

/-- What a step leaves of a draft `w` and of a device that has seen the calls `earlier`, and how the
step ends. -/
inductive StepOutcome (env : Surroundings) (migrate : Bool) (step : Step) (result : DerivationResult)
    (w : WalletDraft) (earlier : List DeviceCall) :
    Except Ending DerivationResult → WalletDraft → List DeviceCall → Prop where
  /-- The listener fails before the device is asked. -/
  | cut {f : Failure} (loud : ¬ env.Quiet) :
      StepOutcome env migrate step result w earlier (.error (.raised f)) w earlier
  /-- The device fails, or an asset refuses its answer. -/
  | failed {cause : Failure} {ending : Ending}
      (attempt : step.attempt (env.device earlier (step.call w)) migrate w = .error cause)
      (reported : ending = .finished { result with failure := some (classify step cause) }
        ∨ ¬ env.Quiet ∧ ∃ f, ending = .raised f) :
      StepOutcome env migrate step result w earlier (.error ending) w (earlier ++ [step.call w])
  /-- The answer of the device is written into the draft. -/
  | recorded {address : String} {written : WalletDraft} {r : Except Ending DerivationResult}
      (attempt : step.attempt (env.device earlier (step.call w)) migrate w = .ok (address, written))
      (reported : r = .ok (result.complete step address)
        ∨ ¬ env.Quiet ∧ ∃ f, r = .error (.raised f)) :
      StepOutcome env migrate step result w earlier r written (earlier ++ [step.call w])

namespace Sequencer

variable {env : Surroundings} {migrate : Bool} {step : Step} {result : DerivationResult}

/-! ### The parts of a step -/

/-- An event leaves the draft and the device alone, and only a loud listener fails on it. -/
theorem emit_cases (env : Surroundings) (e : Event) (s : Scene) :
    ∃ t : Scene, t.draft = s.draft ∧ t.deviceCalls = s.deviceCalls
      ∧ (emit env e s = (.ok (), t) ∨ ∃ f, ¬ env.Quiet ∧ emit env e s = (.error f, t)) := by
  cases hl : env.listener with
  -- Without a listener, the event is noted and nobody hears of it.
  | none => exact ⟨s.note (.event e), rfl, rfl, .inl (by simp only [emit, hl])⟩
  | some listener =>
    cases hf : (listener s.events e).failure with
    | none =>
      refine ⟨(s.note (.event e)).obey (listener s.events e).commands, rfl, rfl, .inl ?_⟩
      simp only [emit, hl, hf]
    | some f =>
      have loud : ¬ env.Quiet := by
        intro quiet
        have := quiet listener hl s.events e
        simp [hf] at this
      refine ⟨(s.note (.event e)).obey (listener s.events e).commands, rfl, rfl,
        .inr ⟨f, loud, ?_⟩⟩
      simp only [emit, hl, hf]

/-- A run treats a reply as `Step.attempt` says. -/
theorem receive_eq (migrate : Bool) (step : Step) (reply : Except Failure String) (s : Scene) :
    receive migrate step reply s =
      match step.attempt reply migrate s.draft with
      | .error f => (.error f, s)
      | .ok (address, draft) => (.ok address, { s with draft }) := by
  cases reply with
  | error f => rfl
  | ok address =>
    cases h : step.record address migrate s.draft with
    | error f => simp [receive, Step.attempt, h, Except.map]
    | ok draft => simp [receive, Step.attempt, h, Except.map]

theorem await_draft (q : Sequencer) (env : Surroundings) (step : Step) (s : Scene) :
    (q.await env step s).draft = s.draft := rfl

theorem await_deviceCalls (q : Sequencer) (env : Surroundings) (step : Step) (s : Scene) :
    (q.await env step s).deviceCalls = s.deviceCalls := rfl

/-- Announcing a step and making its call: unless the listener fails first, the device is asked once and
its reply handed on. -/
theorem query_cases (env : Surroundings) (migrate : Bool) (step : Step) (s : Scene) :
    (∃ f t, ¬ env.Quiet ∧ query env migrate step s = (.error f, t)
        ∧ t.draft = s.draft ∧ t.deviceCalls = s.deviceCalls)
      ∨ ∃ t : Scene, t.draft = s.draft ∧ t.deviceCalls = s.deviceCalls ++ [step.call s.draft]
        ∧ query env migrate step s =
          match step.attempt (env.device s.deviceCalls (step.call s.draft)) migrate s.draft with
          | .error f => (.ok (.error f), t)
          | .ok (address, draft) => (.ok (.ok address), { t with draft }) := by
  -- Either the listener bears the announcement, and the device is asked, or it fails before.
  obtain ⟨t, hd, hc, he | ⟨f, loud, he⟩⟩ := emit_cases env ⟨step, .inProgress, "", none⟩ s
  · refine .inr ⟨{ (t.note (.call (step.call t.draft))).obey (env.duringCall t.deviceCalls.length) with
      deviceCalls := t.deviceCalls ++ [step.call t.draft] }, hd, by rw [← hc, ← hd], ?_⟩
    simp only [query, ask, he, receive_eq, ← hc, ← hd]
    split <;> simp_all [Scene.note, Scene.obey]
  · refine .inl ⟨f, t, loud, ?_, hd, hc⟩
    simp only [query, ask, he]

/-- Reporting a failure changes neither the draft nor the device. -/
theorem settle_error (env : Surroundings) (step : Step) (result : DerivationResult) (cause : Failure)
    (s : Scene) : ∃ ending t, settle env step result (.error cause) s = (.error ending, t)
      ∧ t.draft = s.draft ∧ t.deviceCalls = s.deviceCalls
      ∧ (ending = .finished { result with failure := some (classify step cause) }
        ∨ ¬ env.Quiet ∧ ∃ f, ending = .raised f) := by
  obtain ⟨t, hd, hc, he | ⟨f, loud, he⟩⟩ :=
    emit_cases env ⟨step, .failed, "", some (classify step cause)⟩ s
  · exact ⟨_, t, by simp only [settle, he], hd, hc, .inl rfl⟩
  · exact ⟨_, t, by simp only [settle, he], hd, hc, .inr ⟨loud, f, rfl⟩⟩

/-- Reporting a success changes neither the draft nor the device. -/
theorem settle_ok (env : Surroundings) (step : Step) (result : DerivationResult) (address : String)
    (s : Scene) : ∃ r t, settle env step result (.ok address) s = (r, t)
      ∧ t.draft = s.draft ∧ t.deviceCalls = s.deviceCalls
      ∧ (r = .ok (result.complete step address) ∨ ¬ env.Quiet ∧ ∃ f, r = .error (.raised f)) := by
  obtain ⟨t, hd, hc, he | ⟨f, loud, he⟩⟩ := emit_cases env ⟨step, .succeeded, address, none⟩ s
  · exact ⟨_, t, by simp only [settle, he], hd, hc, .inl rfl⟩
  · exact ⟨_, t, by simp only [settle, he], hd, hc, .inr ⟨loud, f, rfl⟩⟩

/-! ### The whole step -/

/-- The announcement, the call and the report go in one of the ways of `StepOutcome`. -/
theorem derive_outcome {s t : Scene} {r : Except Ending DerivationResult}
    (h : derive env migrate step result s = (r, t)) :
    StepOutcome env migrate step result s.draft s.deviceCalls r t.draft t.deviceCalls := by
  rcases query_cases env migrate step s with ⟨f, u, loud, hq, hd, hc⟩ | ⟨u, hd, hc, hq⟩
  · have hderive : derive env migrate step result s = (.error (.raised f), u) := by
      simp only [derive, hq]
    obtain ⟨rfl, rfl⟩ := Prod.mk.inj (hderive.symm.trans h)
    rw [hd, hc]
    exact .cut loud
  · -- The reply decides, and what is reported of it changes nothing but the way it ends.
    cases ha : step.attempt (env.device s.deviceCalls (step.call s.draft)) migrate s.draft with
    | error cause =>
      simp only [ha] at hq
      obtain ⟨ending, v, hs, hvd, hvc, hend⟩ := settle_error env step result cause u
      have hderive : derive env migrate step result s = (.error ending, v) := by
        simp only [derive, hq, hs]
      obtain ⟨rfl, rfl⟩ := Prod.mk.inj (hderive.symm.trans h)
      rw [hvd, hvc, hd, hc]
      exact .failed ha hend
    | ok recorded =>
      -- The address is in the draft before its success is reported.
      obtain ⟨address, written⟩ := recorded
      simp only [ha] at hq
      obtain ⟨r', v, hs, hvd, hvc, hend⟩ :=
        settle_ok env step result address { u with draft := written }
      have hderive : derive env migrate step result s = (r', v) := by
        simp only [derive, hq, hs]
      obtain ⟨rfl, rfl⟩ := Prod.mk.inj (hderive.symm.trans h)
      rw [hvd, hvc]
      exact hc ▸ .recorded ha hend

/-- Whatever the listener and the app switch do, a step goes in one of the ways of `StepOutcome`. -/
theorem runStep_outcome {q : Sequencer} {s t : Scene} {r : Except Ending DerivationResult}
    (h : q.runStep env migrate step result s = (r, t)) :
    StepOutcome env migrate step result s.draft s.deviceCalls r t.draft t.deviceCalls := by
  -- A wait has an event before it, on which the listener may already fail.
  by_cases hw : step.awaitsAppSwitch
  · obtain ⟨u, hd, hc, he | ⟨f, loud, he⟩⟩ :=
      emit_cases env ⟨step, .awaitingAppSwitch, "", none⟩ (s.rearm step)
    · simp only [runStep, hw, if_true, arm, he] at h
      have houtcome := derive_outcome h
      rwa [await_draft, await_deviceCalls, hd, hc] at houtcome
    · simp only [runStep, hw, if_true, arm, he] at h
      obtain ⟨rfl, rfl⟩ := Prod.mk.inj h
      rw [hd, hc]
      exact .cut loud
  · simp only [runStep, hw, if_false, Bool.false_eq_true] at h
    exact derive_outcome h

end Sequencer

end ChainWallet.Ledger
