import ChainWallet.Proofs.Ledger.Course
import ChainWallet.Proofs.Ledger.RunSuccess

/-!
# What is noticed of a run

Others notice a run by its events, its waits and its calls. What they notice is made up of its steps one after
the other: each has a beginning, which ends with its call, and a report of how the call went. A step that is
held up anywhere has nothing of a later step behind it.

* **`outward`** — the part of a log that others notice. What is done to the switch is left out, and so are the
  warnings, which are looked at apart (`warned`, `unconfirmed`).
* **`Step.Calls`** — the call of a step, spelled out by its kind.
* **`Step.opening`, `Visit.entries`, `story`** — what is noticed of a step up to its call, of a step that was
  completed, and of several of them.
* **`Surroundings.objection`, `Surroundings.Hears`** — the failure of the listener on an event, and whether the
  listener bore all that it heard or failed on the last of it.
* **`Tale`** — what a scene has to tell since the run began: the story of the completed steps, the part of the
  next one, and the draft that goes with them. Events, waits and calls each prolong it (`Tale.emit`,
  `Tale.wait`, `Tale.ask`), and a reported answer completes a step (`Tale.complete`).
* **`Recounts`** — how a run that is held up or has ended stands to its tale. A turn, a command and the end of a
  window each keep this (`move_recounts`), so a course does (`course_recounts`).
* **`noticed_step_by_step`** — what is noticed of a whole run, and of its course at any time.
-/

namespace ChainWallet.Ledger

/-! ### Logs as others notice them -/

/-- Events, waits that are over and calls are noticed by others, what is done to the switch is not. -/
def LogEntry.isOutward : LogEntry → Bool
  | .event _ | .wait .. | .call _ => true
  | .armed _ | .command _ | .warned _ => false

def outward (log : List LogEntry) : List LogEntry :=
  log.filter (·.isOutward)

def heard (log : List LogEntry) : List Event :=
  log.filterMap fun | .event e => some e | _ => none

def called (log : List LogEntry) : List DeviceCall :=
  log.filterMap fun | .call c => some c | _ => none

/-- The steps that there was a warning about. -/
def warned (log : List LogEntry) : List Step :=
  log.filterMap fun | .warned step => some step | _ => none

/-- The steps whose waits were over without a confirmation. -/
def unconfirmed (log : List LogEntry) : List Step :=
  log.filterMap fun | .wait step false => some step | _ => none

/-- There is one text for each warning, about the app of its step. -/
theorem Sequencer.warnings_eq (q : Sequencer) (log : List LogEntry) :
    q.warnings log = (warned log).map q.unconfirmedWarning := by
  rw [warned, List.map_filterMap]
  refine List.filterMap_congr fun e _ => ?_
  cases e <;> rfl

variable {log more : List LogEntry}

@[simp] theorem outward_append : outward (log ++ more) = outward log ++ outward more :=
  List.filter_append ..

/-- Commands to the switch are not noticed. -/
@[simp] theorem outward_commands (cs : List Command) : outward (cs.map .command) = [] := by
  simp [outward, LogEntry.isOutward]

@[simp] theorem heard_append : heard (log ++ more) = heard log ++ heard more :=
  List.filterMap_append

@[simp] theorem called_append : called (log ++ more) = called log ++ called more :=
  List.filterMap_append

@[simp] theorem warned_append : warned (log ++ more) = warned log ++ warned more :=
  List.filterMap_append

/-- Commands to the switch are not warned of. -/
@[simp] theorem warned_commands (cs : List Command) : warned (cs.map .command) = [] := by
  simp [warned]

@[simp] theorem unconfirmed_append : unconfirmed (log ++ more) = unconfirmed log ++ unconfirmed more :=
  List.filterMap_append

/-- The listener hears of nothing that is not noticed. -/
theorem heard_outward (log : List LogEntry) : heard (outward log) = heard log := by
  induction log with
  | nil => rfl
  | cons e rest ih =>
    rw [← List.singleton_append, outward_append, heard_append, heard_append, ih]
    -- What is left out is no event.
    cases e <;> rfl

/-- The events of a scene can be read off from what is noticed. -/
theorem Scene.events_eq (s : Scene) : s.events = heard (outward s.log) :=
  (heard_outward s.log).symm

/-! ### Steps as others notice them -/

namespace Step

variable (step : Step) (w : WalletDraft) (confirmed : Bool)

/-- The owner is asked for the app of a step. -/
def request : LogEntry := .event ⟨step, .awaitingAppSwitch, "", none⟩

def announcement : LogEntry := .event ⟨step, .inProgress, "", none⟩

/-- The call of a step over a draft, by the kind of the step. The device is never asked to show the address. -/
inductive Calls : DeviceCall → Prop where
  | evm (evm : step.isEvm = true) : Calls (.evmAddress w.addressIndex w.standard false)
  | ownPrefix {p : String} (other : step.isEvm = false) (given : step.addressPrefix = some p)
      (nonempty : p ≠ "") : Calls (.address w.addressIndex p step.chain w.standard false)
  | draftPrefix (other : step.isEvm = false)
      (missing : step.addressPrefix = none ∨ step.addressPrefix = some "") :
      Calls (.address w.addressIndex w.networkPrefix step.chain w.standard false)

/-- The call that a step makes is the one of its kind. -/
theorem calls_call : step.Calls w (step.call w) := by
  cases hevm : step.isEvm with
  | true =>
    rw [call, if_pos hevm]
    exact .evm hevm
  | false =>
    rw [call, if_neg (by simp [hevm])]
    cases hprefix : step.addressPrefix with
    | none =>
      rw [prefixFor, hprefix]
      exact .draftPrefix hevm (.inl hprefix)
    | some p =>
      by_cases hempty : p = ""
      · -- An empty prefix counts as none.
        subst hempty
        rw [prefixFor, hprefix]
        exact .draftPrefix hevm (.inr hprefix)
      · have hnonempty : p.isEmpty = false := by simpa using hempty
        simp only [prefixFor, hprefix, hnonempty, Bool.false_eq_true, if_false]
        exact .ownPrefix hevm hprefix hempty

/-- The request for the app and the wait, if a step has one. -/
def preparation : List LogEntry :=
  if step.awaitsAppSwitch then [step.request, .wait step confirmed] else []

/-- What is noticed of a step up to its call. -/
def opening : List LogEntry :=
  step.preparation confirmed ++ [step.announcement, .call (step.call w)]

end Step

/-- The report of a step that failed. -/
def StepFailure.report (f : StepFailure) : LogEntry := .event ⟨f.step, .failed, "", some f⟩

/-- A step that was completed: whether its wait, if it has one, was confirmed, and the answer to its call. -/
structure Visit where
  step : Step
  confirmed : Bool
  address : String

namespace Visit

def answer (v : Visit) : Step × String := (v.step, v.address)

/-- The report of a step that was completed. -/
def report (v : Visit) : LogEntry := .event ⟨v.step, .succeeded, v.address, none⟩

def entries (w : WalletDraft) (v : Visit) : List LogEntry :=
  v.step.opening w v.confirmed ++ [v.report]

end Visit

def story (w : WalletDraft) (visits : List Visit) : List LogEntry :=
  visits.flatMap (Visit.entries w)

variable {w : WalletDraft} {step : Step} {confirmed : Bool} {visits : List Visit}

theorem story_cons (v : Visit) : story w (v :: visits) = v.entries w ++ story w visits :=
  List.flatMap_cons

/-- A step that is completed last is told last. -/
theorem story_concat (v : Visit) : story w (visits ++ [v]) = story w visits ++ v.entries w := by
  simp [story]

/-- A step makes no call before its wait is over. -/
@[simp] theorem called_preparation : called (step.preparation confirmed) = [] := by
  unfold Step.preparation
  split <;> rfl

/-- A step makes one call. -/
@[simp] theorem called_opening : called (step.opening w confirmed) = [step.call w] := by
  rw [Step.opening, called_append, called_preparation]
  rfl

/-- Each completed step has made its own call, in order. -/
@[simp] theorem called_story : called (story w visits) = visits.map fun v => v.step.call w := by
  induction visits with
  | nil => rfl
  | cons v rest ih =>
    -- The report of a completed step is no call.
    rw [story_cons, called_append, ih, Visit.entries, called_append, called_opening]
    rfl

@[simp] theorem map_fst_answer : (visits.map Visit.answer).map (·.1) = visits.map (·.step) := by
  simp [Visit.answer]

/-! ### The listener -/

namespace Surroundings

/-- The failure of the listener on an event, if it fails, given the events before. -/
def objection (env : Surroundings) (earlier : List Event) (e : Event) : Option Failure :=
  env.listener.bind fun listener => (listener earlier e).failure

/-- A listener that never fails objects to nothing. -/
theorem Quiet.objection {env : Surroundings} (quiet : env.Quiet) (earlier : List Event) (e : Event) :
    env.objection earlier e = none := by
  cases hlistener : env.listener with
  | none => simp [Surroundings.objection, hlistener]
  | some listener => simpa [Surroundings.objection, hlistener] using quiet listener hlistener earlier e

/-- The listener bears an entry unless it is an event on which it fails. -/
def Bears (env : Surroundings) (earlier : List Event) (before : List LogEntry) (entry : LogEntry) : Prop :=
  ∀ e, entry = .event e → env.objection (earlier ++ heard before) e = none

/-- The listener bears every entry, or all but the last, which is an event on which it fails. -/
def Hears (env : Surroundings) (earlier : List Event) (told : List LogEntry) : Option Failure → Prop
  | none => Prefixwise (env.Bears earlier) told
  | some f => ∃ before e, told = before ++ [.event e] ∧ Prefixwise (env.Bears earlier) before
      ∧ env.objection (earlier ++ heard before) e = some f

end Surroundings

/-! ### Tales -/

/-- What `t` has to tell of a run over the draft of `s`: that of the steps that were completed, and `part` of
the step after them. `trouble` is the failure of the listener on the last of it. -/
structure Tale (env : Surroundings) (s : Scene) (visits : List Visit) (part : List LogEntry)
    (trouble : Option Failure) (t : Scene) : Prop where
  log : outward t.log = outward s.log ++ (story s.draft visits ++ part)
  listener : env.Hears s.events (story s.draft visits ++ part) trouble
  draft : t.draft = s.draft.after (visits.map Visit.answer)
  calls : t.deviceCalls = s.deviceCalls ++ called (story s.draft visits ++ part)
  warnings : warned t.log = warned s.log ++ unconfirmed (story s.draft visits ++ part)
  replies : Prefixwise (fun before v =>
    env.device (s.deviceCalls ++ before.map fun u => u.step.call s.draft) (v.step.call s.draft)
      = .ok v.address) visits

namespace Tale

variable {env : Surroundings} {s t u : Scene} {part : List LogEntry} {trouble : Option Failure}

/-- At the beginning of a run there is nothing to tell. -/
theorem refl (env : Surroundings) (s : Scene) : Tale env s [] [] none s where
  log := by simp [story]
  listener := prefixwise_nil
  draft := (WalletDraft.after_nil s.draft).symm
  calls := by simp [story, called]
  warnings := by simp [story, unconfirmed]
  replies := prefixwise_nil

/-- Commands to the switch are neither noticed nor warned of. -/
theorem obey (h : Tale env s visits part trouble t) (cs : List Command) :
    Tale env s visits part trouble (t.obey cs) :=
  { h with
    log := by rw [Scene.obey, outward_append, outward_commands, List.append_nil, h.log]
    warnings := by rw [Scene.obey, warned_append, warned_commands, List.append_nil, h.warnings] }

/-- That the switch is armed anew is not noticed. -/
theorem rearm (h : Tale env s visits part trouble t) (step : Step) :
    Tale env s visits part trouble (t.rearm step) :=
  { h with
    log := by simpa [Scene.rearm, Scene.note, outward, LogEntry.isOutward] using h.log
    warnings := by simpa [Scene.rearm, Scene.note, warned] using h.warnings }

/-- A tale goes on with an entry that others notice. -/
theorem prolong {entry : LogEntry} (h : Tale env s visits part none t)
    (log : outward u.log = outward t.log ++ [entry]) (draft : u.draft = t.draft)
    (calls : u.deviceCalls = t.deviceCalls ++ called [entry])
    (warnings : warned u.log = warned t.log ++ unconfirmed [entry])
    (listener : env.Hears s.events (story s.draft visits ++ part ++ [entry]) trouble) :
    Tale env s visits (part ++ [entry]) trouble u where
  log := by rw [log, h.log, List.append_assoc, List.append_assoc]
  listener := by rwa [← List.append_assoc]
  draft := draft.trans h.draft
  calls := by rw [calls, h.calls, List.append_assoc, ← called_append, List.append_assoc]
  warnings := by rw [warnings, h.warnings, List.append_assoc, ← unconfirmed_append, List.append_assoc]
  replies := h.replies

/-- The warnings since the run began are those of its waits that nobody has confirmed. -/
theorem warnings_eq (h : Tale env s visits part trouble t) (q : Sequencer) : q.warnings t.log
    = q.warnings s.log ++ (unconfirmed (story s.draft visits ++ part)).map q.unconfirmedWarning := by
  rw [q.warnings_eq, h.warnings, List.map_append, ← q.warnings_eq]

/-- The listener bears what it does not hear of. -/
theorem hears_concat {entry : LogEntry} (h : Tale env s visits part none t)
    (unheard : ∀ e, entry ≠ .event e) :
    env.Hears s.events (story s.draft visits ++ part ++ [entry]) none :=
  prefixwise_concat.mpr ⟨h.listener, fun e he => absurd he (unheard e)⟩

/-- The end of a wait is noticed, and is warned of if nobody has confirmed the app. -/
theorem wait (h : Tale env s visits part none t) (step : Step) (confirmed : Bool) :
    Tale env s visits (part ++ [.wait step confirmed]) none (t.endWait step confirmed) := by
  have hheard : env.Hears s.events (story s.draft visits ++ part ++ [.wait step confirmed]) none :=
    h.hears_concat (by simp)
  cases confirmed with
  | true => exact h.prolong (outward_append ..) rfl (List.append_nil _).symm warned_append hheard
  | false =>
    exact h.prolong (u := t.endWait step false) (outward_append ..) rfl (List.append_nil _).symm
      warned_append hheard

/-- The wait that a step asked for is over. -/
theorem prepared (h : Tale env s visits [step.request] none t) (awaits : step.awaitsAppSwitch = true)
    (confirmed : Bool) :
    Tale env s visits (step.preparation confirmed) none (t.endWait step confirmed) := by
  rw [Step.preparation, if_pos awaits]
  exact h.wait step confirmed

/-- A tale goes on with an event, whether or not the listener bears it. -/
theorem emit (h : Tale env s visits part none t) (e : Event) :
    ∃ trouble u, Sequencer.emit env e t = (trouble.elim (.ok ()) .error, u)
      ∧ Tale env s visits (part ++ [.event e]) trouble u := by
  have hevents : t.events = s.events ++ heard (story s.draft visits ++ part) := by
    rw [t.events_eq, h.log, heard_append, ← s.events_eq]
  -- What the listener does to the switch is not noticed.
  obtain ⟨cs, hemit⟩ : ∃ cs, Sequencer.emit env e t
      = ((env.objection t.events e).elim (.ok ()) .error, (t.note (.event e)).obey cs) := by
    cases hlistener : env.listener with
    | none => exact ⟨[], by simp [Sequencer.emit, Surroundings.objection, hlistener, Scene.obey_nil]⟩
    | some listener =>
      refine ⟨(listener t.events e).commands, ?_⟩
      cases hfailure : (listener t.events e).failure <;>
        simp [Sequencer.emit, Surroundings.objection, hlistener, hfailure]
  have hlistener : env.Hears s.events (story s.draft visits ++ part ++ [.event e])
      (env.objection t.events e) := by
    rw [hevents]
    cases hobjection : env.objection (s.events ++ heard (story s.draft visits ++ part)) e with
    | none =>
      refine prefixwise_concat.mpr ⟨h.listener, fun e' he => ?_⟩
      cases he
      exact hobjection
    | some f => exact ⟨_, e, rfl, h.listener, hobjection⟩
  have hnoted := h.prolong (u := t.note (.event e)) (outward_append ..) rfl (List.append_nil _).symm warned_append
    hlistener
  exact ⟨_, _, hemit, hnoted.obey cs⟩

/-- The step is announced and makes its call. The calls before are those of the completed steps. -/
theorem ask (h : Tale env s visits (step.preparation confirmed) none t) :
    (∃ f u, Sequencer.ask env step t = (.error f, u)
        ∧ Tale env s visits (step.preparation confirmed ++ [step.announcement]) (some f) u)
      ∨ ∃ u, Sequencer.ask env step t
          = (.ok (env.device (s.deviceCalls ++ visits.map fun v => v.step.call s.draft)
              (step.call s.draft)), u)
        ∧ Tale env s visits (step.opening s.draft confirmed) none u := by
  obtain ⟨trouble, u, hemit, htale⟩ := h.emit ⟨step, .inProgress, "", none⟩
  cases trouble with
  | some f =>
    refine .inl ⟨f, u, ?_, htale⟩
    simp only [Sequencer.ask, hemit, Option.elim_some]
  | none =>
    have hcall : step.call u.draft = step.call s.draft := by rw [htale.draft, Step.call_after]
    have hcalls : u.deviceCalls = s.deviceCalls ++ visits.map fun v => v.step.call s.draft := by
      rw [htale.calls, called_append, called_story, called_append, called_preparation]
      simp [called]
    -- What happens to the switch during the call comes after the call is noted, and is not noticed.
    have hasked := (htale.prolong (u := { u.note (.call (step.call s.draft)) with
        deviceCalls := u.deviceCalls ++ [step.call s.draft] }) (outward_append ..) rfl rfl warned_append
      (htale.hears_concat (by simp))).obey (env.duringCall u.deviceCalls.length)
    rw [List.append_assoc] at hasked
    refine .inr ⟨_, ?_, hasked⟩
    simp only [Sequencer.ask, hemit, Option.elim_none, hcall, hcalls]
    rfl

/-- Once its success is reported, a step is one of the completed ones. -/
theorem complete {address : String} (reply : env.device
      (s.deviceCalls ++ visits.map fun v => v.step.call s.draft) (step.call s.draft) = .ok address)
    (h : Tale env s visits
      (step.opening s.draft confirmed ++ [.event ⟨step, .succeeded, address, none⟩]) trouble t) :
    Tale env s (visits ++ [⟨step, confirmed, address⟩]) [] trouble
      { t with draft := s.draft.after (visits.map Visit.answer ++ [(step, address)]) } := by
  have hstory : story s.draft (visits ++ [⟨step, confirmed, address⟩]) ++ []
      = story s.draft visits
        ++ (step.opening s.draft confirmed ++ [.event ⟨step, .succeeded, address, none⟩]) := by
    rw [List.append_nil, story_concat]
    rfl
  refine ⟨?_, ?_, ?_, ?_, ?_, prefixwise_concat.mpr ⟨h.replies, reply⟩⟩
  · rw [hstory]
    exact h.log
  · rw [hstory]
    exact h.listener
  · rw [List.map_append]
    rfl
  · rw [hstory]
    exact h.calls
  · rw [hstory]
    exact h.warnings

end Tale

/-! ### Runs that are held up -/

/-- What is noticed of a step on whose beginning or failure the listener fails. -/
inductive CutOff (w : WalletDraft) (step : Step) : List LogEntry → Prop where
  | requested (awaits : step.awaitsAppSwitch = true) : CutOff w step [step.request]
  | announced (confirmed : Bool) : CutOff w step (step.preparation confirmed ++ [step.announcement])
  | failed {failure : StepFailure} (confirmed : Bool) (ofStep : failure.step = step) :
      CutOff w step (step.opening w confirmed ++ [failure.report])

/-- How a run over `steps` stands to its tale where it is held up, and when it has ended. -/
inductive Recounts (env : Surroundings) (s : Scene) (steps : List Step) : Stage × Scene → Prop where
  /-- The owner was asked for the app of a step, and the wait is not over. -/
  | asked {visits : List Visit} {hold : Hold} {step : Step} {rest : List Step} {t : Scene}
      (unasked : ∀ answer, hold ≠ .calling answer)
      (split : steps = visits.map (·.step) ++ step :: rest) (awaits : step.awaitsAppSwitch = true)
      (tale : Tale env s visits [step.request] none t) :
      Recounts env s steps (.held hold step rest (.ofAnswers (visits.map Visit.answer)), t)
  /-- A step has made its call. -/
  | calling {visits : List Visit} {step : Step} {rest : List Step} {t : Scene} (confirmed : Bool)
      (split : steps = visits.map (·.step) ++ step :: rest)
      (tale : Tale env s visits (step.opening s.draft confirmed) none t) :
      Recounts env s steps
        (.held (.calling (env.device (s.deviceCalls ++ visits.map fun v => v.step.call s.draft)
          (step.call s.draft))) step rest (.ofAnswers (visits.map Visit.answer)), t)
  | completed {visits : List Visit} {t : Scene} (split : steps = visits.map (·.step))
      (tale : Tale env s visits [] none t) :
      Recounts env s steps (.ended (.finished (.ofAnswers (visits.map Visit.answer))), t)
  | failed {visits : List Visit} {failure : StepFailure} {rest : List Step} {t : Scene} (confirmed : Bool)
      (split : steps = visits.map (·.step) ++ failure.step :: rest)
      (tale : Tale env s visits (failure.step.opening s.draft confirmed ++ [failure.report]) none t) :
      Recounts env s steps (.ended (.finished
        { DerivationResult.ofAnswers (visits.map Visit.answer) with failure := some failure }), t)
  /-- The listener has failed on the success of the last of the completed steps. -/
  | cutAfter {visits : List Visit} {f : Failure} {rest : List Step} {t : Scene}
      (split : steps = visits.map (·.step) ++ rest) (tale : Tale env s visits [] (some f) t) :
      Recounts env s steps (.ended (.raised f), t)
  /-- The listener has failed on the beginning or the failure of a step. -/
  | cutOff {visits : List Visit} {f : Failure} {step : Step} {rest : List Step} {part : List LogEntry}
      {t : Scene} (split : steps = visits.map (·.step) ++ step :: rest) (cut : CutOff s.draft step part)
      (tale : Tale env s visits part (some f) t) :
      Recounts env s steps (.ended (.raised f), t)

namespace Recounts

variable {env : Surroundings} {s t : Scene} {steps rest : List Step} {result : DerivationResult}
  {stage : Stage} {hold hold' : Hold}

/-- Wherever a run is held up, commands to the switch do not change what it has told. -/
theorem obey (h : Recounts env s steps (stage, t)) (cs : List Command) :
    Recounts env s steps (stage, t.obey cs) := by
  cases h with
  | asked unasked split awaits tale => exact .asked unasked split awaits (tale.obey cs)
  | calling confirmed split tale => exact .calling confirmed split (tale.obey cs)
  | completed split tale => exact .completed split (tale.obey cs)
  | failed confirmed split tale => exact .failed confirmed split (tale.obey cs)
  | cutAfter split tale => exact .cutAfter split (tale.obey cs)
  | cutOff split cut tale => exact .cutOff split cut (tale.obey cs)

/-- How far a wait has come is not noticed. -/
theorem rehold (h : Recounts env s steps (.held hold step rest result, t))
    (unasked : ∀ answer, hold ≠ .calling answer) (unasked' : ∀ answer, hold' ≠ .calling answer) :
    Recounts env s steps (.held hold' step rest result, t) := by
  cases h with
  | asked _ split awaits tale => exact .asked unasked' split awaits tale
  | calling => exact absurd rfl (unasked _)

/-- A wait that is confirmed is noticed only when it is over. -/
theorem wake (h : Recounts env s steps (stage, t)) : Recounts env s steps (stage.wake, t) := by
  unfold Stage.wake
  split
  · exact h.rehold (by simp) (by simp)
  · exact h

/-- So is one whose window has passed. -/
theorem expire (h : Recounts env s steps (stage, t)) : Recounts env s steps (stage.expire, t) := by
  unfold Stage.expire
  split
  · exact h.rehold (by simp) (by simp)
  · exact h

end Recounts

/-- The result of the completed steps grows by the answer to the last of them. -/
theorem ofAnswers_concat (done : List (Step × String)) (step : Step) (address : String) :
    (DerivationResult.ofAnswers done).complete step address
      = .ofAnswers (done ++ [(step, address)]) := by
  simp [DerivationResult.ofAnswers, DerivationResult.complete, DerivationResult.putAll]

namespace Sequencer

variable {q : Sequencer} {env : Surroundings} {migrate : Bool} {s t : Scene} {steps rest : List Step}

/-- An event does not depend on the draft, and leaves it alone. -/
theorem emit_withDraft (env : Surroundings) (e : Event) (s : Scene) (draft : WalletDraft) :
    emit env e { s with draft } = ((emit env e s).1, { (emit env e s).2 with draft }) := by
  cases hlistener : env.listener with
  | none => simp only [emit, hlistener]; rfl
  | some listener =>
    have hevents : ({ s with draft } : Scene).events = s.events := rfl
    simp only [emit, hlistener, hevents]
    cases (listener s.events e).failure <;> rfl

/-- Once the wait is over, the step is announced and makes its call, or is cut off by the listener. -/
theorem call_recounts (split : steps = visits.map (·.step) ++ step :: rest)
    (tale : Tale env s visits (step.preparation confirmed) none t) :
    Recounts env s steps (call env step rest (.ofAnswers (visits.map Visit.answer)) t) := by
  rcases tale.ask with ⟨f, u, hask, htale⟩ | ⟨u, hask, htale⟩
  · simp only [call, hask]
    exact .cutOff split (.announced confirmed) htale
  · simp only [call, hask]
    exact .calling confirmed split htale

/-- The next step begins, or the run has completed the last one. The tale so far is that of the completed
steps. -/
theorem enter_recounts (split : steps = visits.map (·.step) ++ rest) (tale : Tale env s visits [] none t) :
    Recounts env s steps (q.enter env rest (.ofAnswers (visits.map Visit.answer)) t) := by
  cases rest with
  | nil => exact .completed (by simpa using split) tale
  | cons step rest =>
    -- A step with a wait first asks for its app, and the listener may fail on that.
    by_cases hawaits : step.awaitsAppSwitch = true
    · obtain ⟨trouble, u, harm, htale⟩ := (tale.rearm step).emit ⟨step, .awaitingAppSwitch, "", none⟩
      cases trouble with
      | some f =>
        simp only [enter, hawaits, arm, harm, Option.elim_some, if_true]
        exact .cutOff split (.requested hawaits) htale
      | none =>
        simp only [enter, hawaits, arm, harm, Option.elim_none, if_true]
        split
        · exact .asked (by simp) split hawaits htale
        · -- A window without length is over at once.
          have hwaited := htale.obey (u.appSwitch.seen q.window (env.duringWait u.deviceCalls.length))
          exact call_recounts split (hwaited.prepared hawaits _)
    · -- Without a wait there is nothing before the announcement.
      simp only [enter, hawaits, if_false, Bool.false_eq_true]
      have hnone : step.preparation false = [] := if_neg hawaits
      exact call_recounts split (hnone ▸ tale)

/-- The answer is written, its step is reported, and the next one begins. -/
theorem answer_recounts (split : steps = visits.map (·.step) ++ step :: rest)
    (tale : Tale env s visits (step.opening s.draft confirmed) none t) :
    Recounts env s steps (q.turn env migrate
      (.held (.calling (env.device (s.deviceCalls ++ visits.map fun v => v.step.call s.draft)
        (step.call s.draft))) step rest (.ofAnswers (visits.map Visit.answer))) t) := by
  generalize hreply : env.device (s.deviceCalls ++ visits.map fun v => v.step.call s.draft)
    (step.call s.draft) = reply
  have hreceive := receive_eq migrate step reply t
  cases hattempt : step.attempt reply migrate t.draft with
  | error cause =>
    rw [hattempt] at hreceive
    obtain ⟨trouble, u, hemit, htale⟩ := tale.emit ⟨step, .failed, "", some (classify step cause)⟩
    cases trouble with
    | some f =>
      have cut : CutOff s.draft step (step.opening s.draft confirmed ++ [(classify step cause).report]) :=
        .failed confirmed rfl
      simp only [turn, hreceive, settle, hemit, Option.elim_some]
      exact .cutOff split cut htale
    | none =>
      have htold : Tale env s visits
          ((classify step cause).step.opening s.draft confirmed ++ [(classify step cause).report]) none u := htale
      simp only [turn, hreceive, settle, hemit, Option.elim_none]
      exact .failed confirmed split htold
  | ok recorded =>
    obtain ⟨address, written⟩ := recorded
    rw [hattempt] at hreceive
    -- What is written goes on top of what the completed steps have written.
    rw [tale.draft] at hattempt
    obtain ⟨rfl, rfl⟩ := eq_of_attempt_eq_ok hattempt
    obtain ⟨trouble, u, hemit, htale⟩ := tale.emit ⟨step, .succeeded, address, none⟩
    have hwritten := htale.complete hreply
    have hsplit : steps = (visits ++ [(⟨step, confirmed, address⟩ : Visit)]).map (·.step) ++ rest := by
      rw [split, List.map_append, List.append_assoc]
      rfl
    -- The draft is written before the success is reported.
    have hreport := emit_withDraft env ⟨step, .succeeded, address, none⟩ t
      (s.draft.after (visits.map Visit.answer ++ [(step, address)]))
    rw [hemit] at hreport
    cases trouble with
    | some f =>
      simp only [turn, hreceive, settle, hreport, Option.elim_some]
      exact .cutAfter hsplit hwritten
    | none =>
      simp only [turn, hreceive, settle, hreport, Option.elim_none, ofAnswers_concat]
      have hnext := enter_recounts (q := q) hsplit hwritten
      rwa [List.map_append] at hnext

/-- A turn of the run goes on with its tale. -/
theorem turn_recounts {stage : Stage} (h : Recounts env s steps (stage, t)) :
    Recounts env s steps (q.turn env migrate stage t) := by
  cases stage with
  | ended ending => exact h
  | held hold step rest result =>
    cases hold with
    | looking =>
      cases hset : t.appSwitch.isSet <;> simp only [turn, hset] <;> exact h.rehold (by simp) (by simp)
    | waiting => exact h
    | noticed | «over» => exact h.rehold (by simp) (by simp)
    -- The two ways in which a wait ends differ in what is noticed of it, and both lead to the call.
    | released =>
      cases h with
      | asked _ split awaits tale => exact call_recounts split (tale.prepared awaits true)
    | expired =>
      cases h with
      | asked _ split awaits tale => exact call_recounts split (tale.prepared awaits false)
    | calling answer =>
      cases h with
      | asked unasked => exact absurd rfl (unasked answer)
      | calling confirmed split tale => exact answer_recounts split tale

/-- So does everything else that can happen, be it a command or the end of a window. -/
theorem move_recounts {p : Stage × Scene} (h : Recounts env s steps p) (m : Move) :
    Recounts env s steps (q.move env migrate p m) := by
  obtain ⟨stage, t⟩ := p
  cases m with
  | turn => exact turn_recounts h
  | command c =>
    cases c with
    | reset => exact h.obey [.reset]
    | advance => exact h.wake.obey [.advance]
  | expire => exact h.expire

/-- By induction on what happens: a course is as its tale says, wherever it is held up. -/
theorem course_recounts (q : Sequencer) (env : Surroundings) (migrate : Bool) (s : Scene)
    (ledger : s.draft.kind = .ledger) (moves : List Move) :
    Recounts env s (q.steps s.draft) (q.course env migrate s moves) := by
  have hbegin : Recounts env s (q.steps s.draft) (q.begin env s) := by
    have henter : Recounts env s (q.steps s.draft)
        (q.enter env (q.steps s.draft) (.ofAnswers (([] : List Visit).map Visit.answer)) s) :=
      enter_recounts rfl (.refl env s)
    rw [begin, if_pos ledger]
    exact henter
  exact List.foldlRecOn (motive := Recounts env s (q.steps s.draft)) moves (q.move env migrate) hbegin
    fun _ h m _ => move_recounts h m

end Sequencer

/-! ### Whole runs -/

/-- What is noticed of the step that failed, if one did. -/
def failedStory (w : WalletDraft) (confirmed : Bool) : Option StepFailure → List LogEntry
  | none => []
  | some failure => failure.step.opening w confirmed ++ [failure.report]

/-- A listener that never fails lets every run end with a result. -/
theorem Recounts.returned {env : Surroundings} {s t : Scene} {steps : List Step} {ending : Ending}
    (quiet : env.Quiet) (h : Recounts env s steps (.ended ending, t)) :
    ∃ result visits confirmed, ending = .finished result
      ∧ result.completed = visits.map (·.step)
      ∧ visits.map (·.step) ++ result.failure.toList.map (·.step) <+: steps
      ∧ (result.isSuccess = true → visits.map (·.step) = steps)
      ∧ Tale env s visits (failedStory s.draft confirmed result.failure) none t := by
  -- A tale with trouble ends with an event that the listener objects to, and there is none.
  have hbears : ∀ {visits part f}, ¬ Tale env s visits part (some f) t := by
    intro visits part f tale
    obtain ⟨before, e, -, -, hobjection⟩ := tale.listener
    rw [quiet.objection] at hobjection
    cases hobjection
  cases h with
  | @completed visits _ split tale =>
    exact ⟨_, visits, false, rfl, map_fst_answer, by simp [DerivationResult.ofAnswers, split],
      fun _ => split.symm, tale⟩
  | @failed visits failure rest _ confirmed split tale =>
    refine ⟨_, visits, confirmed, rfl, map_fst_answer, ?_, fun success => ?_, tale⟩
    · rw [split]
      exact List.prefix_append_right_inj _ |>.mpr ⟨rest, rfl⟩
    · cases success
  | cutAfter _ tale => exact absurd tale hbears
  | cutOff _ _ tale => exact absurd tale hbears

/-- What is noticed of a run whose listener never fails is the story of the completed steps and that of the step
that failed, if one did, and nothing else; each step makes one call, each completed step reports the answer to
its own, and the failed one the failure that the run returns. There is one warning for each wait of the run that
was over without a confirmation. As long as a step waits for its answer, nothing of the steps behind it has been
noticed, whatever happens meanwhile. -/
theorem noticed_step_by_step (q : Sequencer) (env : Surroundings) (migrate : Bool) (s : Scene)
    (ledger : s.draft.kind = .ledger) (quiet : env.Quiet) :
    (∃ result t visits confirmed, q.run env migrate s = (.ok result, t)
      ∧ outward t.log = outward s.log
        ++ (story s.draft visits ++ failedStory s.draft confirmed result.failure)
      ∧ result.completed = visits.map (·.step)
      ∧ visits.map (·.step) ++ result.failure.toList.map (·.step) <+: q.steps s.draft
      ∧ (result.isSuccess = true → visits.map (·.step) = q.steps s.draft)
      ∧ t.deviceCalls = s.deviceCalls
        ++ (visits.map (·.step) ++ result.failure.toList.map (·.step)).map (·.call s.draft)
      ∧ (∀ k v, visits[k]? = some v → env.device
          (s.deviceCalls ++ (visits.take k).map fun u => u.step.call s.draft) (v.step.call s.draft)
            = .ok v.address)
      ∧ q.warnings t.log = q.warnings s.log
        ++ (unconfirmed (story s.draft visits ++ failedStory s.draft confirmed result.failure)).map
          q.unconfirmedWarning)
    ∧ (∀ moves answer step rest result t,
      q.course env migrate s moves = (.held (.calling answer) step rest result, t) →
      ∃ visits confirmed, q.steps s.draft = visits.map (·.step) ++ step :: rest
        ∧ outward t.log = outward s.log ++ (story s.draft visits ++ step.opening s.draft confirmed)
        ∧ q.warnings t.log = q.warnings s.log
          ++ (unconfirmed (story s.draft visits ++ step.opening s.draft confirmed)).map q.unconfirmedWarning)
    ∧ ∀ step : Step, step.Calls s.draft (step.call s.draft) := by
  refine ⟨?_, ?_, fun step => step.calls_call s.draft⟩
  · obtain ⟨moves, hcourse⟩ := Sequencer.course_of_run q env migrate s
    have hrecounts := Sequencer.course_recounts q env migrate s ledger moves
    rw [hcourse] at hrecounts
    obtain ⟨result, visits, confirmed, hending, hcompleted, htried, hall, tale⟩ := hrecounts.returned quiet
    rcases hrun : q.run env migrate s with ⟨f | result', t⟩
    · rw [hrun] at hending
      cases hending
    · rw [hrun] at hending tale
      cases hending
      refine ⟨result, t, visits, confirmed, rfl, tale.log, hcompleted, htried, hall, ?_, tale.replies,
        tale.warnings_eq q⟩
      -- The step that failed has made its call too.
      have hcalls : called (failedStory s.draft confirmed result.failure)
          = result.failure.toList.map fun failure => failure.step.call s.draft := by
        cases result.failure with
        | none => rfl
        | some failure =>
          rw [failedStory, called_append, called_opening]
          rfl
      rw [tale.calls, called_append, called_story, hcalls]
      simp [Function.comp_def]
  · intro moves answer step rest result t hcourse
    have hrecounts := Sequencer.course_recounts q env migrate s ledger moves
    rw [hcourse] at hrecounts
    -- Held at its call, a run has told the story of the steps before and the opening of this one.
    cases hrecounts with
    | asked unasked => exact absurd rfl (unasked answer)
    | @calling visits _ _ _ confirmed split tale =>
      exact ⟨visits, confirmed, split, tale.log, tale.warnings_eq q⟩

/-- `coinAndToken` at another account, numbered in the other way. -/
def fourthAccount : WalletDraft := { coinAndToken with addressIndex := 3, standard := .ledgerLive }

/-- A device without an Ethereum app, and nobody who confirms any app. -/
def withoutConfirmation : Surroundings := { withoutEthereumApp with listener := none }

/-- The story of two completed steps, and that of the step for which the device has no app. Both waits were over
without a confirmation, so there are two warnings. -/
theorem noticed_of_overlapping_steps :
    fourthAccount.kind = .ledger ∧ withoutConfirmation.Quiet
      ∧ ∃ result t visits confirmed,
        overlappingSteps.run withoutConfirmation true ⟨fourthAccount, .unset, [], []⟩ = (.ok result, t)
          ∧ outward t.log = story fourthAccount visits ++ (evmStep.opening fourthAccount confirmed
            ++ [(classify evmStep (.device ⟨.wrongApp, "", none⟩)).report])
          ∧ visits.map (·.step) = [cryptoOrgStep, { cosmosHubStep with chains := none }]
          ∧ t.deviceCalls = [.address 3 "cro" .cryptoOrg .ledgerLive false,
            .address 3 "cosmos" .cosmosHub .ledgerLive false, .evmAddress 3 .ledgerLive false]
          ∧ overlappingSteps.warnings t.log = [
            "No confirmation of Cosmos app within 60s, querying the device anyway",
            "No confirmation of Ethereum app within 60s, querying the device anyway"] := by
  have quiet : withoutConfirmation.Quiet := by
    rintro _ ⟨⟩
  obtain ⟨result, t, visits, confirmed, hrun, hlog, hcompleted, -, -, hcalls, -, hwarnings⟩ :=
    (noticed_step_by_step overlappingSteps withoutConfirmation true ⟨fourthAccount, .unset, [], []⟩
      rfl quiet).1
  -- The run ends at the third step with the device's refusal.
  have houtcome : (overlappingSteps.run withoutConfirmation true ⟨fourthAccount, .unset, [], []⟩).1
      = .ok { DerivationResult.ofAnswers [(cryptoOrgStep, "cro1x"),
            ({ cosmosHubStep with chains := none }, "cosmos1x")] with
          failure := some (classify evmStep (.device ⟨.wrongApp, "", none⟩)) } := by
    decide +kernel
  rw [hrun] at houtcome
  cases houtcome
  have hwarned : overlappingSteps.warnings t.log
      = (unconfirmed (outward t.log)).map overlappingSteps.unconfirmedWarning := by
    rw [hlog]
    exact hwarnings
  -- Only the first step begins without a wait.
  have hwaits : unconfirmed (outward (overlappingSteps.run withoutConfirmation true
      ⟨fourthAccount, .unset, [], []⟩).2.log) = [{ cosmosHubStep with chains := none }, evmStep] := by
    decide +kernel
  refine ⟨rfl, quiet, _, t, visits, confirmed, hrun, hlog, hcompleted.symm, ?_, ?_⟩
  · rw [hcalls, ← hcompleted]
    decide +kernel
  · rw [hrun] at hwaits
    rw [hwarned, hwaits]
    decide +kernel

end ChainWallet.Ledger
