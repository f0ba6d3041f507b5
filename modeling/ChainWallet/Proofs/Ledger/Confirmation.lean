import ChainWallet.Proofs.Ledger.AddressesKept
import ChainWallet.Proofs.Ledger.Course
import ChainWallet.Proofs.Ledger.LogOrder

/-!
# One confirmation, one step

The app switch is a flag that anybody may raise or lower at any time, and a wait is confirmed if it finds the
flag raised or sees it raised. What keeps a confirmation from counting twice is that every wait lowers the
flag when it begins. Whatever the commands and their order, and however the switch stands at first, a wait is
therefore confirmed by a confirmation of its own.

* **`Tells`** — from the beginning of a run on, every entry of its log was admitted, and the switch stands as
  the log tells.
* **`Fits`** — how a run that is held up stands to its log. A turn, a command and the end of a window each
  keep this (`move_stands`), so a course does (`course_stands`).
* **`one_confirmation_one_step`** — in the log of every course confirmations count one by one, and so they do
  in that of a run in one go.
-/

namespace ChainWallet.Ledger

variable {log : List LogEntry} {e : LogEntry} {cs : List Command}

/-- A flag that is up was up before, or a confirmation has raised it. -/
theorem AppSwitch.isSet_applyAll {switch : AppSwitch} (h : (switch.applyAll cs).isSet = true) :
    (switch.isSet || cs.contains .advance) = true := by
  induction cs using List.reverseRecOn with
  | nil => simpa [applyAll] using h
  | append_singleton cs c ih =>
    cases c with
    | advance => simp
    | reset => simp [applyAll, apply] at h

/-- From `s` to `t` the log has grown by `more`, all of it admitted, and the switch stands as `more` tells. -/
structure Tells (elapses : Prop) (s t : Scene) (more : List LogEntry) : Prop where
  log : t.log = s.log ++ more
  sound : Prefixwise (Admits elapses) more
  switch : t.appSwitch = s.appSwitch.applyAll (switched more)

variable {elapses : Prop} {s t u : Scene} {more : List LogEntry} {step : Step}

namespace Tells

/-- At the beginning of a run nothing has been noted. -/
theorem refl (elapses : Prop) (s : Scene) : Tells elapses s s [] where
  log := by simp
  sound := prefixwise_nil
  switch := rfl

/-- The draft and the calls of the device are not told of. -/
theorem of_eq (h : Tells elapses s t more) (log : u.log = t.log) (switch : u.appSwitch = t.appSwitch) :
    Tells elapses s u more :=
  ⟨log.trans h.log, h.sound, switch.trans h.switch⟩

/-- An admitted entry that does nothing to the switch is noted. -/
theorem note (h : Tells elapses s t more) (admitted : Admits elapses more e) (idle : switched [e] = []) :
    Tells elapses s (t.note e) (more ++ [e]) where
  log := by simp [Scene.note, h.log]
  sound := prefixwise_concat.mpr ⟨h.sound, admitted⟩
  switch := by
    rw [switched, List.filterMap_append, ← switched, ← switched, idle, List.append_nil]
    exact h.switch

/-- Arming the switch is always admitted. -/
theorem rearm (h : Tells elapses s t more) (step : Step) :
    Tells elapses s (t.rearm step) (more ++ [.armed step]) where
  log := by simp [Scene.rearm, Scene.note, h.log]
  sound := prefixwise_concat.mpr ⟨h.sound, trivial⟩
  switch := by simp [Scene.rearm, Scene.note, switched, AppSwitch.applyAll, h.switch]

/-- So are commands, and the switch obeys them in order. -/
theorem obey (h : Tells elapses s t more) (cs : List Command) :
    Tells elapses s (t.obey cs) (more ++ cs.map .command) where
  log := by simp [Scene.obey, h.log]
  sound := by
    induction cs using List.reverseRecOn with
    | nil => simpa using h.sound
    | append_singleton cs c ih =>
      rw [List.map_append, ← List.append_assoc]
      exact prefixwise_concat.mpr ⟨ih, trivial⟩
  switch := by
    simp [Scene.obey, switched, AppSwitch.applyAll, h.switch, List.filterMap_map]

end Tells

/-- How a run that is held up stands to the log and to the switch. -/
def Fits (elapses : Prop) (more : List LogEntry) (switch : AppSwitch) : Stage → Prop
  | .held .looking step _ _ => ∃ released, openWait more = some (step, released)
      ∧ (switch.isSet = true → released = true)
  | .held .waiting step _ _ => ∃ released, openWait more = some (step, released)
  | .held .noticed step _ _ | .held .over step _ _ | .held .released step _ _ =>
    openWait more = some (step, true)
  | .held .expired step _ _ => elapses ∧ ∃ released, openWait more = some (step, released)
  | .held (.calling _) _ _ _ | .ended _ => True

/-- A confirmation counts for the wait that is open, and wakes a run that waits. -/
theorem Fits.advance {switch : AppSwitch} {stage : Stage} (h : Fits elapses more switch stage) :
    Fits elapses (more ++ [.command .advance]) (switch.apply .advance) stage.wake := by
  -- Whatever wait is open has its confirmation now.
  have hopen : ∀ {step released}, openWait more = some (step, released) →
      openWait (more ++ [.command .advance]) = some (step, true) := by
    intro step released hwait
    rw [openWait_concat, hwait]
    rfl
  cases stage with
  | ended ending => trivial
  | held hold step rest result =>
    cases hold with
    | looking =>
      obtain ⟨released, hwait, -⟩ := h
      exact ⟨true, hopen hwait, fun _ => rfl⟩
    | waiting =>
      obtain ⟨released, hwait⟩ := h
      exact hopen hwait
    | noticed | «over» | released => exact hopen h
    | expired =>
      obtain ⟨helapses, released, hwait⟩ := h
      exact ⟨helapses, true, hopen hwait⟩
    | calling answer => trivial

/-- A reset takes nothing back: what is open stays so, and a run that is awake goes on. -/
theorem Fits.reset {switch : AppSwitch} {stage : Stage} (h : Fits elapses more switch stage) :
    Fits elapses (more ++ [.command .reset]) (switch.apply .reset) stage := by
  have hopen : openWait (more ++ [.command .reset]) = openWait more := openWait_concat
  cases stage with
  | ended ending => trivial
  | held hold step rest result =>
    cases hold with
    | looking =>
      obtain ⟨released, hwait, -⟩ := h
      exact ⟨released, hopen.trans hwait, fun hset => by cases hset⟩
    | noticed | «over» | released => exact hopen.trans h
    | waiting | expired => simpa only [Fits, hopen] using h
    | calling answer => trivial

/-- A window that passes ends a wait only where windows can pass. -/
theorem Fits.expire {switch : AppSwitch} {stage : Stage} (expires : elapses)
    (h : Fits elapses more switch stage) : Fits elapses more switch stage.expire := by
  cases stage with
  | ended ending => trivial
  | held hold step rest result =>
    cases hold with
    | waiting => exact ⟨expires, h⟩
    | looking | noticed | «over» | released | expired | calling => exact h

/-- What holds of a run over the draft of `s` wherever it is held up. -/
def Stands (elapses : Prop) (s : Scene) (p : Stage × Scene) : Prop :=
  ∃ more, Tells elapses s p.2 more ∧ Fits elapses more p.2.appSwitch p.1

/-! ### The parts of a run -/

namespace Sequencer

variable {q : Sequencer} {env : Surroundings} {migrate : Bool} {rest : List Step}
  {result : DerivationResult}

/-- The listener hears of an event and gives commands. -/
theorem emit_scene (env : Surroundings) (e : Event) (s : Scene) :
    ∃ cs, (emit env e s).2 = (s.note (.event e)).obey cs := by
  cases hl : env.listener with
  | none => exact ⟨[], by simp only [emit, hl, Scene.obey_nil]⟩
  | some listener =>
    refine ⟨(listener s.events e).commands, ?_⟩
    cases hf : (listener s.events e).failure <;> simp only [emit, hl, hf]

/-- An event and the commands that it brings leave all as it was, but for confirmations. -/
theorem emit_tells (env : Surroundings) (e : Event) (h : Tells elapses s t more) :
    ∃ cs, Tells elapses s (emit env e t).2 (more ++ [.event e] ++ cs.map .command)
      ∧ (emit env e t).2.appSwitch = t.appSwitch.applyAll cs := by
  obtain ⟨cs, hscene⟩ := emit_scene env e t
  rw [hscene]
  exact ⟨cs, (h.note (e := .event e) trivial rfl).obey cs, rfl⟩

/-- A call is admitted for a step that waits for nothing, and for one whose wait is over. -/
theorem ask_tells (env : Surroundings) (h : Tells elapses s t more)
    (cleared : step.awaitsAppSwitch = true → isCleared more = true) :
    ∃ more', Tells elapses s (ask env step t).2 more' := by
  obtain ⟨cs, htells, -⟩ := emit_tells env ⟨step, .inProgress, "", none⟩ h
  -- The call is admitted only if the announcement was borne.
  rcases hemit : emit env ⟨step, .inProgress, "", none⟩ t with ⟨f | _, u⟩
  · rw [hemit] at htells
    exact ⟨_, by simpa only [ask, hemit] using htells⟩
  · rw [hemit] at htells
    have hcall := htells.note (e := .call (step.call u.draft)) ?_ rfl
    · refine ⟨_, (hcall.obey (env.duringCall u.deviceCalls.length)).of_eq ?_ ?_⟩ <;>
        simp only [ask, hemit]
    · -- The listener may give commands between the announcement and the call, but announces nothing.
      intro next hannounced hawaits
      rw [announced_commands, announced_event] at hannounced
      cases hannounced
      rw [isCleared_commands, isCleared_concat]
      exact cleared hawaits

/-- A step that is completed or has failed is reported, and nothing else is noted. -/
theorem settle_tells (env : Surroundings) (step : Step) (result : DerivationResult)
    (outcome : Except Failure String) (h : Tells elapses s t more) :
    ∃ more', Tells elapses s (settle env step result outcome t).2 more' := by
  -- Either way one event is told.
  obtain ⟨e, hscene⟩ : ∃ e, (settle env step result outcome t).2 = (emit env e t).2 := by
    cases outcome with
    | error cause =>
      refine ⟨⟨step, .failed, "", some (classify step cause)⟩, ?_⟩
      rcases hemit : emit env ⟨step, .failed, "", some (classify step cause)⟩ t with ⟨_ | _, u⟩ <;>
        simp only [settle, hemit]
    | ok address =>
      refine ⟨⟨step, .succeeded, address, none⟩, ?_⟩
      rcases hemit : emit env ⟨step, .succeeded, address, none⟩ t with ⟨_ | _, u⟩ <;>
        simp only [settle, hemit]
  obtain ⟨cs, htells, -⟩ := emit_tells env e h
  exact ⟨_, hscene ▸ htells⟩

/-- A run that makes its call is either held up by it or has ended. -/
theorem call_stands (h : Tells elapses s t more)
    (cleared : step.awaitsAppSwitch = true → isCleared more = true) :
    Stands elapses s (call env step rest result t) := by
  obtain ⟨more', htells⟩ := ask_tells env h cleared
  rcases hask : ask env step t with ⟨f | answer, u⟩
  · rw [hask] at htells
    simp only [call, hask]
    exact ⟨more', htells, trivial⟩
  · rw [hask] at htells
    simp only [call, hask]
    exact ⟨more', htells, trivial⟩

/-- A wait that is over admits the call of its step, also if there is a warning between them. -/
theorem call_after_wait {confirmed released : Bool} (h : Tells elapses s t more)
    (hwait : openWait more = some (step, released)) (hconfirmed : confirmed = true → released = true)
    (helapses : confirmed = false → elapses) :
    Stands elapses s (call env step rest result (t.endWait step confirmed)) := by
  have hover : Tells elapses s (t.note (.wait step confirmed)) (more ++ [.wait step confirmed]) :=
    h.note ⟨released, hwait, hconfirmed, helapses⟩ rfl
  cases confirmed with
  | true => exact call_stands hover fun _ => isCleared_concat
  | false =>
    have hwarned := hover.note (e := .warned step) trivial rfl
    have hscene : t.endWait step false = (t.note (.wait step false)).note (.warned step) := by
      simp [Scene.endWait, Scene.note]
    exact hscene ▸ call_stands hwarned fun _ => isCleared_concat.trans isCleared_concat

/-- The flag is down when a wait begins, so if it is up when the switch is looked at, it was raised since. -/
theorem arm_tells (env : Surroundings) (step : Step) (h : Tells elapses s t more) :
    ∃ more' released, Tells elapses s (arm env step t).2 more' ∧ openWait more' = some (step, released)
      ∧ ((arm env step t).2.appSwitch.isSet = true → released = true) := by
  obtain ⟨cs, htells, hswitch⟩ :=
    emit_tells env ⟨step, .awaitingAppSwitch, "", none⟩ (h.rearm step)
  refine ⟨_, false || cs.contains .advance, htells, ?_, fun hset => ?_⟩
  · -- The wait has begun before the event was told, so commands of the listener count for it.
    rw [openWait_commands, openWait_concat, openWait_concat]
    rfl
  · rw [arm, hswitch] at hset
    exact AppSwitch.isSet_applyAll hset

/-- Writing an answer is not noted. -/
theorem receive_log {answer : Except Failure String} {outcome : Except Failure String}
    (h : receive migrate step answer t = (outcome, u)) : u.log = t.log ∧ u.appSwitch = t.appSwitch := by
  unfold receive at h
  split at h
  · cases h
    exact ⟨rfl, rfl⟩
  · split at h <;> cases h <;> exact ⟨rfl, rfl⟩

/-- The next step begins with a wait of its own or with its call. -/
theorem enter_stands (closed : q.window.isOpen = false → elapses) (steps : List Step)
    (result : DerivationResult) (h : Tells elapses s t more) :
    Stands elapses s (q.enter env steps result t) := by
  cases steps with
  | nil => exact ⟨more, h, trivial⟩
  | cons step rest =>
    by_cases hawaits : step.awaitsAppSwitch = true
    · -- A step that waits re-arms the switch first, whatever becomes of its prompt.
      obtain ⟨more', released, htells, hwait, hset⟩ := arm_tells env step h
      rcases harm : arm env step t with ⟨f | _, u⟩
      · rw [harm] at htells
        simp only [enter, hawaits, harm, if_true]
        exact ⟨more', htells, trivial⟩
      · rw [harm] at htells hset
        simp only [enter, hawaits, harm, if_true]
        by_cases hopen : q.window.isOpen = true
        · rw [if_pos hopen]
          exact ⟨more', htells, released, hwait, hset⟩
        · -- A wait without length finds the flag as it is, and no command comes in it.
          have hseen : u.appSwitch.seen q.window (env.duringWait u.deviceCalls.length) = [] := by
            simp [AppSwitch.seen, AppSwitch.answersAtOnce, hopen]
          have hawait : q.await env step u = u.endWait step u.appSwitch.isSet := by
            simp only [await, AppSwitch.wait, hseen, Scene.obey_nil]
            simp
          rw [if_neg hopen, hawait]
          exact call_after_wait htells hwait hset fun _ => closed (by simpa using hopen)
    · simp only [enter, hawaits, if_false, Bool.false_eq_true]
      exact call_stands h fun hw => absurd hw hawaits

/-- A turn keeps a run in step with its log. -/
theorem turn_stands (closed : q.window.isOpen = false → elapses) {stage : Stage}
    (h : Stands elapses s (stage, t)) : Stands elapses s (q.turn env migrate stage t) := by
  obtain ⟨more, htells, hfits⟩ := h
  cases stage with
  | ended ending => exact ⟨more, htells, trivial⟩
  | held hold step rest result =>
    cases hold with
    | looking =>
      obtain ⟨released, hwait, hset⟩ := hfits
      cases hflag : t.appSwitch.isSet with
      | true =>
        have hturn : q.turn env migrate (.held .looking step rest result) t
            = (.held .over step rest result, t) := by simp [turn, hflag]
        rw [hturn]
        exact ⟨more, htells, by rw [Fits, hwait, hset hflag]⟩
      | false =>
        have hturn : q.turn env migrate (.held .looking step rest result) t
            = (.held .waiting step rest result, t) := by simp [turn, hflag]
        rw [hturn]
        exact ⟨more, htells, released, hwait⟩
    | waiting | noticed | «over» => exact ⟨more, htells, hfits⟩
    | released => exact call_after_wait htells hfits (fun _ => rfl) (fun h => by cases h)
    | expired =>
      obtain ⟨helapses, released, hwait⟩ := hfits
      exact call_after_wait htells hwait (fun h => by cases h) (fun _ => helapses)
    | calling answer =>
      -- The answer is written and reported, and the next step begins in the same turn.
      rcases hreceive : receive migrate step answer t with ⟨outcome, u⟩
      have hreceived : Tells elapses s u more :=
        htells.of_eq (receive_log hreceive).1 (receive_log hreceive).2
      obtain ⟨more', hsettled⟩ := settle_tells env step result outcome hreceived
      rcases hsettle : settle env step result outcome u with ⟨ending | next, v⟩
      · rw [hsettle] at hsettled
        simp only [turn, hreceive, hsettle]
        exact ⟨more', hsettled, trivial⟩
      · rw [hsettle] at hsettled
        simp only [turn, hreceive, hsettle]
        exact enter_stands closed rest next hsettled

/-- A turn, a command and the end of a window each leave the run as the log tells. -/
theorem move_stands (closed : q.window.isOpen = false → elapses) {m : Move}
    (expires : m = .expire → elapses) {p : Stage × Scene} (h : Stands elapses s p) :
    Stands elapses s (q.move env migrate p m) := by
  obtain ⟨stage, t⟩ := p
  cases m with
  | turn => exact turn_stands closed h
  | command c =>
    obtain ⟨more, htells, hfits⟩ := h
    cases c with
    | advance => exact ⟨_, htells.obey [.advance], hfits.advance⟩
    | reset => exact ⟨_, htells.obey [.reset], hfits.reset⟩
  | expire =>
    obtain ⟨more, htells, hfits⟩ := h
    exact ⟨more, htells, hfits.expire (expires rfl)⟩

/-- By induction on what happens: a course is as its log tells, wherever it is held up. -/
theorem course_stands (q : Sequencer) (env : Surroundings) (migrate : Bool) (s : Scene)
    (moves : List Move) :
    Stands (q.window.isOpen = false ∨ .expire ∈ moves) s (q.course env migrate s moves) := by
  generalize helapses : (q.window.isOpen = false ∨ .expire ∈ moves) = elapses
  have closed : q.window.isOpen = false → elapses := fun h => helapses ▸ .inl h
  have expires : ∀ m ∈ moves, m = .expire → elapses := fun m hm h => helapses ▸ .inr (h ▸ hm)
  have hbegin : Stands elapses s (q.begin env s) := by
    by_cases ledger : s.draft.kind = .ledger
    · simp only [begin, ledger, if_true]
      exact enter_stands closed _ _ (.refl elapses s)
    · simp only [begin, ledger, if_false]
      exact ⟨[], .refl elapses s, trivial⟩
  -- What `elapses` stands for has done its part: the induction is on fewer and fewer moves.
  clear helapses
  unfold course
  generalize q.begin env s = p at hbegin
  induction moves generalizing p with
  | nil => exact hbegin
  | cons m rest ih =>
    have hmove : Stands elapses s (q.move env migrate p m) :=
      move_stands closed (expires m List.mem_cons_self) hbegin
    exact ih (fun m' hm' => expires m' (List.mem_cons_of_mem m hm')) _ hmove

end Sequencer

/-- Whatever happens to a run and to its switch, and however the switch stands at first, confirmations count
one by one from the beginning of the run on, and the log tells of everything that was done to the switch. A
window that lasts leaves no wait unconfirmed. The same holds of a run in one go. -/
theorem one_confirmation_one_step (q : Sequencer) (env : Surroundings) (migrate : Bool) (s : Scene) :
    (∀ moves, ∃ more, (q.course env migrate s moves).2.log = s.log ++ more ∧ OneByOne more
      ∧ (q.course env migrate s moves).2.appSwitch = s.appSwitch.applyAll (switched more)
      ∧ (q.window.isOpen = true → .expire ∉ moves → ∀ step, .wait step false ∉ more))
    ∧ ∃ more, (q.run env migrate s).2.log = s.log ++ more ∧ OneByOne more
      ∧ (q.run env migrate s).2.appSwitch = s.appSwitch.applyAll (switched more) := by
  have hcourse : ∀ moves, ∃ more, (q.course env migrate s moves).2.log = s.log ++ more ∧ OneByOne more
      ∧ (q.course env migrate s moves).2.appSwitch = s.appSwitch.applyAll (switched more)
      ∧ (q.window.isOpen = true → .expire ∉ moves → ∀ step, .wait step false ∉ more) := by
    intro moves
    obtain ⟨more, ⟨hlog, admitted, hswitch⟩, -⟩ := Sequencer.course_stands q env migrate s moves
    refine ⟨more, hlog, oneByOne_of_admitted admitted, hswitch, fun hopen hlasting step => ?_⟩
    refine not_mem_wait_of_admitted admitted ?_
    -- A wait can be over unconfirmed only without a window, or when one passes.
    rintro (hclosed | hexpires)
    · rw [hopen] at hclosed
      cases hclosed
    · exact hlasting hexpires
  refine ⟨hcourse, ?_⟩
  -- A run in one go is the end of a course.
  obtain ⟨moves, hrun⟩ := Sequencer.course_of_run q env migrate s
  obtain ⟨more, hlog, honce, hswitch, -⟩ := hcourse moves
  rw [hrun] at hlog hswitch
  exact ⟨more, hlog, honce, hswitch⟩

/-- A flag that is up before the run, two confirmations in the first wait, and one in the call after it. -/
def eagerOwner : Stage × Scene :=
  Sequencer.course ⟨.whole 60, []⟩ withEveryApp true ⟨coinAndToken, AppSwitch.unset.apply .advance, [], []⟩
    [.turn, .turn, .command .advance, .command .advance, .turn, .turn, .turn, .command .advance,
      .turn, .turn]

/-- One confirmation counts for the first wait, and the second one is open still. -/
theorem next_step_waits_on :
    eagerOwner.1.isWaiting = true ∧ openWait eagerOwner.2.log = some (cosmosHubStep, false)
      ∧ eagerOwner.2.log[7]? = some (.wait evmStep true) ∧ ∃ k, Confirms eagerOwner.2.log k 7 := by
  have hwait : eagerOwner.2.log[7]? = some (.wait evmStep true) := by decide +kernel
  obtain ⟨more, hlog, honce, -⟩ := (one_confirmation_one_step ⟨.whole 60, []⟩ withEveryApp true
    ⟨coinAndToken, AppSwitch.unset.apply .advance, [], []⟩).1
    [.turn, .turn, .command .advance, .command .advance, .turn, .turn, .turn, .command .advance,
      .turn, .turn]
  -- The log is empty at first, so the places in it are those of the run.
  have hmore : eagerOwner.2.log = more := hlog
  refine ⟨by decide +kernel, by decide +kernel, hwait, ?_⟩
  exact hmore ▸ honce.confirmed 7 evmStep (hmore ▸ hwait)

end ChainWallet.Ledger
