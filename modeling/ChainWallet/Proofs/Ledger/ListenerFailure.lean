import ChainWallet.Proofs.Ledger.Transcript

/-!
# A listener that fails

A listener may fail on any event: on the request for an app, on the announcement of a call, on the report of a
failure, or on the report of a success, when the draft has been written already. Wherever it does, the run is cut
there.

* **`answered`** — the steps whose success is reported in a log, with their addresses. In the story of completed
  steps these are just those steps (`answered_story`), and in the beginning of another step there are none
  (`CutOff.answered`).
* **`Surroundings.Hears.cut`** — nothing is told after an event on which the listener failed.
* **`Recounts.cut`** — how a run stands to such an event.
* **`run_cut_by_listener`** — the run raises the failure of the listener, notices nothing more, and leaves in the
  draft what the reported successes say.
-/

namespace ChainWallet.Ledger

/-- The steps whose success is reported in a log, with the addresses they had. -/
def answered (log : List LogEntry) : List (Step × String) :=
  log.filterMap fun | .event ⟨step, .succeeded, address, _⟩ => some (step, address) | _ => none

variable {log more before after : List LogEntry} {w : WalletDraft} {step : Step} {confirmed : Bool}
  {visits : List Visit} {e : Event} {f : Failure}

@[simp] theorem answered_append : answered (log ++ more) = answered log ++ answered more :=
  List.filterMap_append

/-- Only the report of a success tells an answer. -/
theorem answered_event (unsuccessful : e.state ≠ .succeeded) : answered [.event e] = [] := by
  obtain ⟨step, state, address, failure⟩ := e
  cases state with
  | succeeded => exact absurd rfl unsuccessful
  | awaitingAppSwitch | inProgress | failed => rfl

@[simp] theorem answered_preparation : answered (step.preparation confirmed) = [] := by
  unfold Step.preparation
  split <;> rfl

@[simp] theorem answered_opening : answered (step.opening w confirmed) = [] := by
  rw [Step.opening, answered_append, answered_preparation]
  rfl

@[simp] theorem answered_story : answered (story w visits) = visits.map Visit.answer := by
  induction visits with
  | nil => rfl
  | cons v rest ih =>
    rw [story_cons, answered_append, ih, Visit.entries, answered_append, answered_opening]
    rfl

/-- What is noticed of a step that is cut off ends with an event of that step, which reports no success. -/
theorem CutOff.last {part : List LogEntry} (cut : CutOff w step part) :
    ∃ init e, part = init ++ [.event e] ∧ answered init = [] ∧ e.step = step ∧ e.state ≠ .succeeded := by
  cases cut with
  | requested awaits => exact ⟨[], _, rfl, rfl, rfl, by simp⟩
  | announced confirmed => exact ⟨_, _, rfl, answered_preparation, rfl, by simp⟩
  | failed confirmed ofStep => exact ⟨_, _, rfl, answered_opening, ofStep, by simp⟩

/-- The story of completed steps ends with the report of the last one. -/
theorem story_eq_concat {entry : LogEntry} (h : story w visits = before ++ [entry]) :
    ∃ earlier v, visits = earlier ++ [v] ∧ entry = v.report
      ∧ answered before = earlier.map Visit.answer := by
  rcases List.eq_nil_or_concat visits with rfl | ⟨earlier, v, rfl⟩
  · simp [story] at h
  · rw [List.concat_eq_append, story_concat, Visit.entries, ← List.append_assoc] at h
    obtain ⟨hbefore, hentry⟩ := List.append_inj' h rfl
    refine ⟨earlier, v, List.concat_eq_append, (List.head_eq_of_cons_eq hentry).symm, ?_⟩
    rw [← hbefore, answered_append, answered_opening, answered_story, List.append_nil]

/-- Nothing is told after an event on which the listener failed. -/
theorem Surroundings.Hears.cut {env : Surroundings} {earlier : List Event} {trouble : Option Failure}
    (h : env.Hears earlier (before ++ .event e :: after) trouble)
    (raised : env.objection (earlier ++ heard before) e = some f) : after = [] ∧ trouble = some f := by
  -- An event among those that the listener bore cannot be the one on which it failed.
  have hborne : ∀ more, ¬ Prefixwise (env.Bears earlier) (before ++ .event e :: more) := by
    intro more hbears
    have hplace : (before ++ .event e :: more)[before.length]? = some (.event e) := by simp
    have hevent := hbears before.length (.event e) hplace e rfl
    rw [List.take_left, raised] at hevent
    cases hevent
  cases trouble with
  | none => exact absurd h (hborne after)
  | some f' =>
    obtain ⟨before', e', htold, hbears, hobjection⟩ := h
    -- The listener failed on the last event that it heard, so nothing can follow this one.
    rcases List.eq_nil_or_concat after with rfl | ⟨more, entry, rfl⟩
    · obtain ⟨rfl, hlast⟩ := List.append_inj' htold rfl
      cases hlast
      exact ⟨rfl, hobjection.symm.trans raised⟩
    · rw [List.concat_eq_append, ← List.cons_append, ← List.append_assoc] at htold
      obtain ⟨rfl, -⟩ := List.append_inj' htold rfl
      exact absurd hbears (hborne more)

/-- A run on one of whose events the listener failed has ended there. The event is about the step after those
that were completed before it. -/
theorem Recounts.cut {env : Surroundings} {s t : Scene} {steps : List Step} {stage : Stage}
    (h : Recounts env s steps (stage, t))
    (noticed : outward t.log = outward s.log ++ (before ++ .event e :: after))
    (raised : env.objection (s.events ++ heard before) e = some f) :
    stage = .ended (.raised f) ∧ after = []
      ∧ t.draft = s.draft.after (answered (before ++ [.event e]))
      ∧ t.deviceCalls = s.deviceCalls ++ called before
      ∧ (answered before).map (·.1) ++ [e.step] <+: steps := by
  -- However far the run has come, its listener has raised at this event and heard nothing since.
  have hends : ∀ {visits part trouble}, Tale env s visits part trouble t →
      story s.draft visits ++ part = before ++ [.event e] ∧ after = [] ∧ trouble = some f
        ∧ t.deviceCalls = s.deviceCalls ++ called before := by
    intro visits part trouble tale
    have htold : story s.draft visits ++ part = before ++ .event e :: after :=
      List.append_cancel_left (tale.log.symm.trans noticed)
    have hlistener := tale.listener
    rw [htold] at hlistener
    obtain ⟨rfl, rfl⟩ := hlistener.cut raised
    refine ⟨htold, rfl, rfl, ?_⟩
    rw [tale.calls, htold, called_append]
    exact congrArg _ (List.append_nil _)
  cases h with
  | asked _ _ _ tale | calling _ _ tale | completed _ tale | failed _ _ tale =>
    obtain ⟨-, -, htrouble, -⟩ := hends tale
    cases htrouble
  | @cutAfter visits f' rest _ split tale =>
    obtain ⟨htold, hafter, htrouble, hcalls⟩ := hends tale
    cases htrouble
    rw [List.append_nil] at htold
    obtain ⟨earlier, v, rfl, hreport, hanswered⟩ := story_eq_concat htold
    cases hreport
    refine ⟨rfl, hafter, ?_, hcalls, rest, ?_⟩
    · -- The last report is this event, so its answer counts.
      rw [← htold, answered_story, tale.draft]
    · rw [hanswered, map_fst_answer, split, List.map_append]
      rfl
  | @cutOff visits f' step rest part _ split cut tale =>
    obtain ⟨htold, hafter, htrouble, hcalls⟩ := hends tale
    cases htrouble
    -- The step was cut off, so this event ends what was noticed of it.
    obtain ⟨init, last, rfl, hinit, rfl, hstate⟩ := cut.last
    rw [← List.append_assoc] at htold
    obtain ⟨rfl, hlast⟩ := List.append_inj' htold rfl
    cases hlast
    have hanswered : answered (story s.draft visits ++ init) = visits.map Visit.answer := by
      rw [answered_append, answered_story, hinit, List.append_nil]
    refine ⟨rfl, hafter, ?_, hcalls, rest, ?_⟩
    · rw [answered_append, hanswered, answered_event hstate, List.append_nil, tale.draft]
    · rw [hanswered, map_fst_answer, split, List.append_assoc]
      rfl

/-- A run fails only if its listener failed on the last that was noticed. -/
theorem Recounts.raised {env : Surroundings} {s t : Scene} {steps : List Step}
    (h : Recounts env s steps (.ended (.raised f), t)) :
    ∃ before e, outward t.log = outward s.log ++ (before ++ [.event e])
      ∧ env.objection (s.events ++ heard before) e = some f := by
  cases h with
  | cutAfter _ tale | cutOff _ _ tale =>
    obtain ⟨before, e, htold, -, hobjection⟩ := tale.listener
    exact ⟨before, e, by rw [tale.log, htold], hobjection⟩

/-- If the listener fails on an event of a run, the run raises that very failure, nothing more is noticed of it,
and the device has seen only the calls before. The draft has what those steps derived whose success was reported,
with the last event if that is such a report, and of no other step: not of the one that the event is about, if
it is another event, which is the next step after them. A run fails in no other way. -/
theorem run_cut_by_listener (q : Sequencer) (env : Surroundings) (migrate : Bool) (s t : Scene)
    (outcome : Except Failure DerivationResult) (ledger : s.draft.kind = .ledger)
    (hrun : q.run env migrate s = (outcome, t)) :
    (∀ before e after f, outward t.log = outward s.log ++ (before ++ .event e :: after) →
      env.objection (s.events ++ heard before) e = some f →
      outcome = .error f ∧ after = []
        ∧ t.draft = s.draft.after (answered (before ++ [.event e]))
        ∧ (e.state ≠ .succeeded → t.draft = s.draft.after (answered before))
        ∧ t.deviceCalls = s.deviceCalls ++ called before
        ∧ (answered before).map (·.1) ++ [e.step] <+: q.steps s.draft)
    ∧ ∀ f, outcome = .error f →
      ∃ before e, outward t.log = outward s.log ++ (before ++ [.event e])
        ∧ env.objection (s.events ++ heard before) e = some f := by
  -- A run in one go is a course, of which every ending is recounted.
  obtain ⟨moves, hcourse⟩ := Sequencer.course_of_run q env migrate s
  have hrecounts := Sequencer.course_recounts q env migrate s ledger moves
  rw [hcourse, hrun] at hrecounts
  refine ⟨fun before e after f noticed raised => ?_, ?_⟩
  · obtain ⟨hending, hafter, hdraft, hcalls, hstep⟩ := hrecounts.cut noticed raised
    refine ⟨?_, hafter, hdraft, fun unsuccessful => ?_, hcalls, hstep⟩
    · cases outcome with
      | ok result => cases hending
      | error f' =>
        cases hending
        rfl
    · rw [hdraft, answered_append, answered_event unsuccessful, List.append_nil]
  · rintro f rfl
    exact hrecounts.raised

/-- The surroundings of `withoutEthereumApp`, but with a listener that fails on the success of the Cosmos step. -/
def withBrokenListener : Surroundings where
  device := withoutEthereumApp.device
  listener := some fun _ e =>
    ⟨[.advance], if e.step.chain = .cosmosHub ∧ e.state = .succeeded then some (.foreign .os "") else none⟩
  duringCall _ := []
  duringWait _ := []

/-- The coin has the address whose report was the last, and the Ethereum app is not asked for. -/
theorem run_cut_at_cosmos_success :
    coinAndToken.kind = .ledger
      ∧ ∃ t, overlappingSteps.run withBrokenListener true ⟨coinAndToken, .unset, [], []⟩
          = (.error (.foreign .os ""), t)
        ∧ t.draft.address = "cro1x" ∧ t.draft.assets.map (·.address) = ["cosmos1x", "0xold"]
        ∧ t.deviceCalls = [.address 0 "cro" .cryptoOrg .bip44 false,
          .address 0 "cosmos" .cosmosHub .bip44 false] := by
  let q := overlappingSteps
  let s : Scene := ⟨coinAndToken, .unset, [], []⟩
  let told := outward (q.run withBrokenListener true s).2.log
  let last : Event := ⟨{ cosmosHubStep with chains := none }, .succeeded, "cosmos1x", none⟩
  have noticed : told = outward s.log ++ (told.dropLast ++ .event last :: []) := by decide +kernel
  have raised : withBrokenListener.objection (s.events ++ heard told.dropLast) last
      = some (.foreign .os "") := by decide +kernel
  obtain ⟨houtcome, -, hdraft, -, hcalls, -⟩ :=
    (run_cut_by_listener q withBrokenListener true s _ _ rfl rfl).1 _ _ _ _ noticed raised
  refine ⟨rfl, _, Prod.ext houtcome rfl, ?_, ?_, ?_⟩
  · rw [hdraft]
    decide +kernel
  · rw [hdraft]
    decide +kernel
  · rw [hcalls]
    decide +kernel

end ChainWallet.Ledger
