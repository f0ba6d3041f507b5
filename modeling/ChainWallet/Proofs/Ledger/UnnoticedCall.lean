import ChainWallet.Ledger.Bench
import ChainWallet.Proofs.Ledger.Course
import ChainWallet.Proofs.Ledger.StepOutcome

/-!
# A call that no run notices

A device is asked for an address while runs are under way. Only the device can tell: it has had one call more.
So two scenes are compared, of which one has the call in its lists, and two devices, of which one adds the call
to those that it has counted. Whatever happens from then on, the same comes out of both.

* **`Device.after`, `Surroundings.after`** — a device that adds a call to those it has counted.
* **`Scene.Beside`** — a scene beside the same one with a call more. Whatever a run does to both keeps this
  (`emit_alike` up to `run_alike`), and so does the course of a run (`follow_alike`).
* **`Interplay.Beside`, `Bench.Beside`** — the same for several runs and for their owner. Whatever he does, he
  is told the same (`Bench.Beside.acts`).
-/

namespace ChainWallet

/-- A device that has had one call more than it counts, behind the calls that are given. -/
def Device.after (device : Device) (calls : List DeviceCall) (call : DeviceCall) : Device :=
  fun earlier c => device (calls ++ call :: earlier.drop calls.length) c

namespace Ledger

/-! ### Two scenes, one of which was probed -/

namespace Scene

/-- A scene after a call that belongs to no run. -/
def probed (s : Scene) (call : DeviceCall) : Scene :=
  { s.note (.call call) with deviceCalls := s.deviceCalls ++ [call] }

/-- `t` is `s` with one call more, which was made when both were as `origin` is. -/
structure Beside (origin : Scene) (call : DeviceCall) (s t : Scene) : Prop where
  draft : t.draft = s.draft
  appSwitch : t.appSwitch = s.appSwitch
  calls : ∃ later, s.deviceCalls = origin.deviceCalls ++ later
    ∧ t.deviceCalls = origin.deviceCalls ++ call :: later
  log : ∃ later, s.log = origin.log ++ later ∧ t.log = origin.log ++ .call call :: later

namespace Beside

variable {origin s t : Scene} {call : DeviceCall}

/-- Right after the call the two scenes differ in the call and in nothing else. -/
theorem probed (s : Scene) (call : DeviceCall) : Beside s call s (s.probed call) where
  draft := rfl
  appSwitch := rfl
  calls := ⟨[], (List.append_nil _).symm, rfl⟩
  log := ⟨[], (List.append_nil _).symm, rfl⟩

/-- A call is not heard by a listener. -/
theorem events_eq (h : Beside origin call s t) : t.events = s.events := by
  obtain ⟨later, hs, ht⟩ := h.log
  simp [Scene.events, hs, ht]

/-- The probed device has had one call more, and it stays one whatever follows. -/
theorem length_deviceCalls (h : Beside origin call s t) : t.deviceCalls.length = s.deviceCalls.length + 1 := by
  obtain ⟨later, hs, ht⟩ := h.calls
  simp [hs, ht, Nat.add_assoc]

/-- What is noted of both is noted behind the call. -/
theorem withLog (h : Beside origin call s t) (more : List LogEntry) :
    Beside origin call { s with log := s.log ++ more } { t with log := t.log ++ more } := by
  obtain ⟨later, hs, ht⟩ := h.log
  exact { h with log := ⟨later ++ more, by simp [hs], by simp [ht]⟩ }

/-- A draft that is the same for both. -/
theorem withDraft (h : Beside origin call s t) (draft : WalletDraft) :
    Beside origin call { s with draft } { t with draft } :=
  { h with draft := rfl }

theorem note (h : Beside origin call s t) (e : LogEntry) : Beside origin call (s.note e) (t.note e) :=
  h.withLog [e]

theorem endWait (h : Beside origin call s t) (step : Step) (confirmed : Bool) :
    Beside origin call (s.endWait step confirmed) (t.endWait step confirmed) :=
  h.withLog (.wait step confirmed :: if confirmed then [] else [.warned step])

/-- Commands do the same to both switches, because these stand alike. -/
theorem obey (h : Beside origin call s t) (cs : List Command) : Beside origin call (s.obey cs) (t.obey cs) :=
  { h.withLog (cs.map .command) with appSwitch := congrArg (·.applyAll cs) h.appSwitch }

/-- A reset leaves both switches down. -/
theorem rearm (h : Beside origin call s t) (step : Step) :
    Beside origin call (s.rearm step) (t.rearm step) :=
  { h.withLog [.armed step] with appSwitch := congrArg (·.apply .reset) h.appSwitch }

/-- A call of a run comes behind the probe in the one list, and at the same place otherwise. -/
theorem withCall (h : Beside origin call s t) (c : DeviceCall) : Beside origin call
    { s with deviceCalls := s.deviceCalls ++ [c] } { t with deviceCalls := t.deviceCalls ++ [c] } := by
  obtain ⟨later, hs, ht⟩ := h.calls
  exact { h with calls := ⟨later ++ [c], by simp [hs], by simp [ht]⟩ }

/-- The device answers as if it had counted the call. -/
theorem after_eq (h : Beside origin call s t) (device : Device) (c : DeviceCall) :
    device.after origin.deviceCalls call s.deviceCalls c = device t.deviceCalls c := by
  obtain ⟨later, hs, ht⟩ := h.calls
  rw [Device.after, hs, ht, List.drop_left]

end Beside

end Scene

/-- What a run cannot foresee after a call that it does not know of. -/
def Surroundings.after (env : Surroundings) (calls : List DeviceCall) (call : DeviceCall) : Surroundings where
  device := env.device.after calls call
  listener := env.listener
  duringCall n := env.duringCall (n + 1)
  duringWait n := env.duringWait (n + 1)

/-- The same came out of both scenes, and they are still beside each other. -/
def Alike {α : Type} (origin : Scene) (call : DeviceCall) (x y : α × Scene) : Prop :=
  y.1 = x.1 ∧ Scene.Beside origin call x.2 y.2

/-- What came out of both, under one name. -/
theorem Alike.exists_eq {α : Type} {origin : Scene} {call : DeviceCall} {x y : α × Scene}
    (h : Alike origin call x y) :
    ∃ a u v, x = (a, u) ∧ y = (a, v) ∧ Scene.Beside origin call u v := by
  obtain ⟨a, u⟩ := x
  obtain ⟨b, v⟩ := y
  obtain ⟨rfl, hbeside⟩ := h
  exact ⟨b, u, v, rfl, rfl, hbeside⟩

namespace Sequencer

variable {origin s t : Scene} {call : DeviceCall} (q : Sequencer) (env : Surroundings) (migrate : Bool)
  (step : Step) (rest : List Step) (result : DerivationResult)

/-- The listener is told the same events, so it says the same. -/
theorem emit_alike (e : Event) (h : Scene.Beside origin call s t) :
    Alike origin call (emit (env.after origin.deviceCalls call) e s) (emit env e t) := by
  have hlistener : (env.after origin.deviceCalls call).listener = env.listener := rfl
  cases hl : env.listener with
  | none =>
    simp only [emit, hlistener, hl]
    exact ⟨rfl, h.note _⟩
  | some listener =>
    simp only [emit, hlistener, hl, h.events_eq]
    -- Whether the listener fails or not, it has given its commands before.
    cases (listener s.events e).failure <;> exact ⟨rfl, (h.note _).obey _⟩

/-- A step asks for its app in both. -/
theorem arm_alike (h : Scene.Beside origin call s t) :
    Alike origin call (arm (env.after origin.deviceCalls call) step s) (arm env step t) :=
  emit_alike env _ (h.rearm step)

/-- A wait ends in both alike, with a warning or without one. -/
theorem await_beside (h : Scene.Beside origin call s t) : Scene.Beside origin call
    (q.await (env.after origin.deviceCalls call) step s) (q.await env step t) := by
  -- What arrives during a wait is listed by the number of calls, and there is one more of them.
  have hcommands : env.duringWait t.deviceCalls.length
      = (env.after origin.deviceCalls call).duringWait s.deviceCalls.length := by
    rw [h.length_deviceCalls]
    rfl
  simp only [await, hcommands, h.appSwitch]
  exact (h.obey _).endWait _ _

/-- The call of a step gets the same answer, though one of the devices has been asked once more. -/
theorem ask_alike (h : Scene.Beside origin call s t) :
    Alike origin call (ask (env.after origin.deviceCalls call) step s) (ask env step t) := by
  obtain ⟨r, u, v, hs, ht, hnext⟩ := (emit_alike env ⟨step, .inProgress, "", none⟩ h).exists_eq
  simp only [ask, hs, ht]
  cases r with
  | error f => exact ⟨rfl, hnext⟩
  | ok =>
    -- What arrives during a call is listed by the number of calls too.
    have hcommands : env.duringCall v.deviceCalls.length
        = (env.after origin.deviceCalls call).duringCall u.deviceCalls.length := by
      rw [hnext.length_deviceCalls]
      rfl
    have hanswer : env.device v.deviceCalls (step.call u.draft)
        = (env.after origin.deviceCalls call).device u.deviceCalls (step.call u.draft) :=
      (hnext.after_eq env.device _).symm
    simp only [hnext.draft, hcommands, hanswer]
    exact ⟨rfl, ((hnext.note _).obey _).withCall _⟩

/-- An answer is written into the same draft, or refused by the same asset. -/
theorem receive_alike (answer : Except Failure String) (h : Scene.Beside origin call s t) :
    Alike origin call (receive migrate step answer s) (receive migrate step answer t) := by
  rw [receive_eq, receive_eq, h.draft]
  cases step.attempt answer migrate s.draft with
  | error f => exact ⟨rfl, h⟩
  | ok written => exact ⟨rfl, h.withDraft _⟩

/-- The same outcome is reported, and either bears it or not. -/
theorem settle_alike (outcome : Except Failure String) (h : Scene.Beside origin call s t) :
    Alike origin call (settle (env.after origin.deviceCalls call) step result outcome s)
      (settle env step result outcome t) := by
  cases outcome with
  | error cause =>
    obtain ⟨r, u, v, hs, ht, hnext⟩ :=
      (emit_alike env ⟨step, .failed, "", some (classify step cause)⟩ h).exists_eq
    simp only [settle, hs, ht]
    cases r <;> exact ⟨rfl, hnext⟩
  | ok address =>
    obtain ⟨r, u, v, hs, ht, hnext⟩ := (emit_alike env ⟨step, .succeeded, address, none⟩ h).exists_eq
    simp only [settle, hs, ht]
    cases r <;> exact ⟨rfl, hnext⟩

/-- A step makes its call in both, or the listener has ended both. -/
theorem call_alike (h : Scene.Beside origin call s t) :
    Alike origin call (Sequencer.call (env.after origin.deviceCalls call) step rest result s)
      (Sequencer.call env step rest result t) := by
  obtain ⟨r, u, v, hs, ht, hnext⟩ := (ask_alike env step h).exists_eq
  simp only [Sequencer.call, hs, ht]
  cases r <;> exact ⟨rfl, hnext⟩

/-- The next step begins alike, up to where it is held up. -/
theorem enter_alike (steps : List Step) (h : Scene.Beside origin call s t) :
    Alike origin call (q.enter (env.after origin.deviceCalls call) steps result s)
      (q.enter env steps result t) := by
  cases steps with
  | nil => exact ⟨rfl, h⟩
  | cons step rest =>
    by_cases hawaits : step.awaitsAppSwitch = true
    · obtain ⟨r, u, v, hs, ht, hnext⟩ := (arm_alike env step h).exists_eq
      simp only [enter, hawaits, hs, ht, if_true]
      cases r with
      | error f => exact ⟨rfl, hnext⟩
      | ok =>
        dsimp only
        -- A window with a length holds both up; without one the wait is over at once.
        split
        · exact ⟨rfl, hnext⟩
        · exact call_alike env step rest result (await_beside q env step hnext)
    · simp only [enter, hawaits, Bool.false_eq_true, if_false]
      exact call_alike env step rest result h

/-- Whether a draft has a run at all is a question of its kind. -/
theorem begin_alike (h : Scene.Beside origin call s t) :
    Alike origin call (q.begin (env.after origin.deviceCalls call) s) (q.begin env t) := by
  unfold begin
  rw [h.draft]
  split
  · exact enter_alike q env .empty _ h
  · exact ⟨rfl, h⟩

/-- One turn of a run, by what holds it up. -/
theorem turn_alike (stage : Stage) (h : Scene.Beside origin call s t) :
    Alike origin call (q.turn (env.after origin.deviceCalls call) migrate stage s)
      (q.turn env migrate stage t) := by
  match stage with
  | .held .looking step rest result =>
    simp only [turn, h.appSwitch]
    exact ⟨rfl, h⟩
  | .held .noticed .. | .held .over .. | .held .waiting .. | .ended _ => exact ⟨rfl, h⟩
  | .held .released step rest result | .held .expired step rest result =>
    exact call_alike env step rest result (h.endWait _ _)
  | .held (.calling answer) step rest result =>
    -- The answer was given before the call came in between; only the next step has one that could differ.
    obtain ⟨outcome, u, v, hs, ht, hnext⟩ := (receive_alike migrate step answer h).exists_eq
    obtain ⟨r, u', v', hs', ht', hsettled⟩ := (settle_alike env step result outcome hnext).exists_eq
    simp only [turn, hs, ht, hs', ht']
    cases r with
    | error ending => exact ⟨rfl, hsettled⟩
    | ok result => exact enter_alike q env result rest hsettled

/-- A turn, a command and the end of a window. -/
theorem move_alike {x y : Stage × Scene} (h : Alike origin call x y) (m : Move) :
    Alike origin call (q.move (env.after origin.deviceCalls call) migrate x m) (q.move env migrate y m) := by
  obtain ⟨stage, u, v, rfl, rfl, hbeside⟩ := h.exists_eq
  cases m with
  | turn => exact turn_alike q env migrate stage hbeside
  | command c => exact ⟨rfl, hbeside.obey [c]⟩
  | expire => exact ⟨rfl, hbeside⟩

/-- The part of a step after its wait, in one go. -/
theorem derive_alike (h : Scene.Beside origin call s t) :
    Alike origin call (derive (env.after origin.deviceCalls call) migrate step result s)
      (derive env migrate step result t) := by
  obtain ⟨r, u, v, hs, ht, hasked⟩ := (ask_alike env step h).exists_eq
  cases r with
  | error f =>
    simp only [derive, query, hs, ht]
    exact ⟨rfl, hasked⟩
  | ok answer =>
    obtain ⟨outcome, u', v', hs', ht', hreceived⟩ := (receive_alike migrate step answer hasked).exists_eq
    simp only [derive, query, hs, ht, hs', ht']
    exact settle_alike env step result outcome hreceived

/-- A whole step in one go. -/
theorem runStep_alike (h : Scene.Beside origin call s t) :
    Alike origin call (q.runStep (env.after origin.deviceCalls call) migrate step result s)
      (q.runStep env migrate step result t) := by
  by_cases hawaits : step.awaitsAppSwitch = true
  · obtain ⟨r, u, v, hs, ht, harmed⟩ := (arm_alike env step h).exists_eq
    simp only [runStep, hawaits, hs, ht, if_true]
    cases r with
    | error f => exact ⟨rfl, harmed⟩
    | ok => exact derive_alike env migrate step result (await_beside q env step harmed)
  · simp only [runStep, hawaits, Bool.false_eq_true, if_false]
    exact derive_alike env migrate step result h

/-- By induction on the steps: they go alike in one go. -/
theorem runSteps_alike (steps : List Step) (h : Scene.Beside origin call s t) :
    Alike origin call (q.runSteps (env.after origin.deviceCalls call) migrate steps result s)
      (q.runSteps env migrate steps result t) := by
  induction steps generalizing result s t with
  | nil => exact ⟨rfl, h⟩
  | cons step rest ih =>
    obtain ⟨r, u, v, hs, ht, hnext⟩ := (runStep_alike q env migrate step result h).exists_eq
    simp only [runSteps, hs, ht]
    cases r with
    | ok result => exact ih result hnext
    -- The first step that fails ends both.
    | error ending => cases ending <;> exact ⟨rfl, hnext⟩

/-- A run in one go has the same result and leaves the same draft. -/
theorem run_alike (h : Scene.Beside origin call s t) :
    Alike origin call (q.run (env.after origin.deviceCalls call) migrate s) (q.run env migrate t) := by
  unfold run
  rw [h.draft]
  split
  · exact runSteps_alike q env migrate .empty _ h
  · exact ⟨rfl, h⟩

/-- By induction on what happens: a run goes on as it would. -/
theorem follow_alike {x y : Stage × Scene} (h : Alike origin call x y) (moves : List Move) :
    Alike origin call (q.follow (env.after origin.deviceCalls call) migrate x moves)
      (q.follow env migrate y moves) := by
  induction moves generalizing x y with
  | nil => exact h
  | cons m rest ih => exact ih (move_alike q env migrate h m)

end Sequencer

/-! ### Runs that share a sequencer -/

section

variable {origin s t : Scene} {call : DeviceCall}

/-- A run does the same over its own draft, and over that of the scene if it has none. -/
theorem Runner.act_alike (r : Runner) {does does' : Stage → Scene → Stage × Scene}
    (alike : ∀ stage {s t}, Scene.Beside origin call s t → Alike origin call (does stage s) (does' stage t))
    (h : Scene.Beside origin call s t) : Alike origin call (r.act does s) (r.act does' t) := by
  cases hdraft : r.draft with
  | none =>
    obtain ⟨stage, u, v, hs, ht, hnext⟩ := (alike r.stage h).exists_eq
    simp only [act, hdraft, hs, ht]
    exact ⟨rfl, hnext⟩
  | some draft =>
    obtain ⟨stage, u, v, hs, ht, hnext⟩ := (alike r.stage (h.withDraft draft)).exists_eq
    simp only [act, hdraft, hs, ht, hnext.draft, h.draft]
    -- The run keeps its draft, and the scene gets its own back.
    exact ⟨rfl, hnext.withDraft _⟩

/-- The same runs over two scenes that are beside each other. -/
def Interplay.Beside (origin : Scene) (call : DeviceCall) (i j : Interplay) : Prop :=
  ∃ t, j = { i with scene := t } ∧ Scene.Beside origin call i.scene t

namespace Interplay

variable {i j : Interplay}

/-- A run does something in both. The switches stand alike after it, so it wakes the same runs. -/
theorem Beside.act (h : Beside origin call i j) (place : Nat) {does does' : Stage → Scene → Stage × Scene}
    (alike : ∀ stage {s t}, Scene.Beside origin call s t → Alike origin call (does stage s) (does' stage t)) :
    Beside origin call (i.act place does) (j.act place does') := by
  obtain ⟨t, rfl, hbeside⟩ := h
  cases hrunner : i.runners[place]? with
  | none =>
    simp only [Interplay.act, hrunner]
    exact ⟨t, rfl, hbeside⟩
  | some r =>
    obtain ⟨r, u, v, hs, ht, hnext⟩ := (r.act_alike alike hbeside).exists_eq
    simp only [Interplay.act, hrunner, hs, ht, hbeside.appSwitch, hnext.appSwitch]
    exact ⟨v, rfl, hnext⟩

/-- A confirmation wakes the same runs. -/
theorem Beside.wake (h : Beside origin call i j) : Beside origin call i.wake j.wake := by
  obtain ⟨t, rfl, hbeside⟩ := h
  exact ⟨t, rfl, hbeside⟩

/-- By induction on the turns: the runs take the same ones. -/
theorem Beside.play (q : Sequencer) (env : Surroundings) (turns : Nat) (h : Beside origin call i j) :
    Beside origin call (play q (env.after origin.deviceCalls call) turns i) (play q env turns j) := by
  induction turns generalizing i j with
  | zero => exact h
  | succ turns ih =>
    obtain ⟨t, rfl, hbeside⟩ := h
    obtain ⟨s, runners, line, waiting, front⟩ := i
    cases line with
    | cons place line =>
      have hrest : Beside origin call ⟨s, runners, line, waiting, front⟩
          ⟨t, runners, line, waiting, front⟩ := ⟨t, rfl, hbeside⟩
      have hacted := hrest.act place fun stage =>
        Sequencer.turn_alike q env ((runners[place]?).any (·.migrate)) stage
      exact ih hacted
    | nil =>
      -- Nobody can go on, and whether all is over is a question of the runs alone.
      have hover : isOver ⟨t, runners, [], waiting, front⟩ = isOver ⟨s, runners, [], waiting, front⟩ := rfl
      simp only [Interplay.play, hover]
      split
      · exact ⟨t, rfl, hbeside⟩
      · exact ih ⟨t, rfl, hbeside⟩

/-- The runs have the same number of turns to take. -/
theorem Beside.finish (q : Sequencer) (env : Surroundings) (h : Beside origin call i j) :
    Beside origin call (i.finish q (env.after origin.deviceCalls call)) (j.finish q env) := by
  obtain ⟨t, rfl, hbeside⟩ := h
  exact Beside.play q env _ ⟨t, rfl, hbeside⟩

end Interplay

end

/-! ### A sequencer at work -/

namespace Bench

/-- Two sequencers at work, of which the second has had a call more, made when its scene was as `origin` is. -/
structure Beside (origin : Scene) (call : DeviceCall) (b c : Bench) : Prop where
  sequencer : c.sequencer = b.sequencer
  surroundings : b.surroundings = c.surroundings.after origin.deviceCalls call
  scene : Scene.Beside origin call b.scene c.scene
  hanging : c.hanging = b.hanging

/-- A sequencer at work after a call that belongs to none of its runs. -/
def probed (b : Bench) (call : DeviceCall) : Bench :=
  { b with scene := b.scene.probed call }

/-- A sequencer at work whose device has had the call, but has not counted it. -/
def unprobed (b : Bench) (call : DeviceCall) : Bench :=
  { b with device := b.device.after b.scene.deviceCalls call }

/-- What the owner can do. -/
inductive Act where
  | run (migrate : Bool)
  | start (migrate : Bool)
  | command (c : Command)
  | check (step : Step) (index : Int) (addressPrefix : String) (standard : DerivationStandard)
  | exchangeDraft (draft : WalletDraft)

/-- What the owner is told about what he has done. -/
inductive Told where
  | result (result : Except Failure DerivationResult) (background : Option Ending)
  | background (background : Option Ending)
  | connection (status : AppConnection)
  | nothing

/-- What the owner does and is told. -/
def act (b : Bench) : Act → Told × Bench
  | .run migrate => let (result, background, b) := b.run migrate; (.result result background, b)
  | .start migrate => let (background, b) := b.start migrate; (.background background, b)
  | .command c => let (background, b) := b.command c; (.background background, b)
  | .check step index addressPrefix standard =>
    let (status, b) := b.check step index addressPrefix standard; (.connection status, b)
  | .exchangeDraft draft => (.nothing, b.exchangeDraft draft)

/-- All that the owner does and is told. -/
def acts (b : Bench) : List Act → List Told × Bench
  | [] => ([], b)
  | a :: rest =>
    let (told, b) := b.act a
    let (more, b) := b.acts rest
    (told :: more, b)

/-- All that a check does is one call. -/
theorem check_snd (b : Bench) (step : Step) (index : Int) (addressPrefix : String)
    (standard : DerivationStandard) : (b.check step index addressPrefix standard).2
      = b.probed (step.call (probeDraft index addressPrefix standard)) := by
  simp [check, checkConnection, probed, Scene.probed, Scene.note]

variable {origin : Scene} {call : DeviceCall} {b c : Bench} {i j : Interplay}

namespace Beside

/-- Behind a probe the owner has the bench that was probed, as if the device had not counted it. -/
theorem probed (b : Bench) (call : DeviceCall) : Beside b.scene call (b.unprobed call) (b.probed call) :=
  ⟨rfl, rfl, .probed b.scene call, rfl⟩

/-- What hangs in the background of the one hangs in that of the other. -/
theorem background (h : Beside origin call b c) : b.background.Beside origin call c.background :=
  ⟨c.scene, by rw [Bench.background, h.hanging]; rfl, h.scene⟩

/-- The owner is told the same about the runs that are left to themselves. -/
theorem leave (h : Beside origin call b c) (hi : i.Beside origin call j) :
    (c.leave j).1 = (b.leave i).1 ∧ Beside origin call (b.leave i).2 (c.leave j).2 := by
  have hfinish := hi.finish b.sequencer c.surroundings
  rw [← h.surroundings] at hfinish
  obtain ⟨t, hj, hbeside⟩ := hfinish
  rw [Bench.leave, Bench.leave, h.sequencer, hj]
  exact ⟨rfl, rfl, h.surroundings, hbeside, rfl⟩

/-- A run joins the others in both. -/
theorem join (h : Beside origin call b c) (hi : i.Beside origin call j) (newcomer : Runner) :
    (b.join newcomer i).Beside origin call (c.join newcomer j) := by
  obtain ⟨t, rfl, hbeside⟩ := hi
  have hjoined : Interplay.Beside origin call { i with runners := i.runners ++ [newcomer] }
      { i with scene := t, runners := i.runners ++ [newcomer] } := ⟨t, rfl, hbeside⟩
  refine hjoined.act i.runners.length fun _ {s t} hscene => ?_
  rw [h.sequencer, h.surroundings]
  exact Sequencer.begin_alike b.sequencer c.surroundings hscene

theorem obey (h : Beside origin call b c) (cs : List Command) :
    Beside origin call { b with scene := b.scene.obey cs } { c with scene := c.scene.obey cs } :=
  ⟨h.sequencer, h.surroundings, h.scene.obey cs, h.hanging⟩

/-- A reset is all there is to it; a confirmation lets the runs go on. -/
theorem command (h : Beside origin call b c) (cmd : Command) :
    (c.command cmd).1 = (b.command cmd).1 ∧ Beside origin call (b.command cmd).2 (c.command cmd).2 := by
  cases cmd with
  | reset => exact ⟨rfl, h.obey [.reset]⟩
  | advance =>
    have hobeyed := h.obey [.advance]
    exact hobeyed.leave hobeyed.background.wake

/-- A run that is started takes the place of the one whose end the owner was told of. -/
theorem start (h : Beside origin call b c) (migrate : Bool) :
    (c.start migrate).1 = (b.start migrate).1 ∧ Beside origin call (b.start migrate).2 (c.start migrate).2 := by
  let others := b.hanging.map fun r => { r with isWatched := false }
  have hothers : Beside origin call { b with hanging := others } { c with hanging := others } :=
    ⟨h.sequencer, h.surroundings, h.scene, rfl⟩
  simp only [Bench.start, h.hanging]
  exact h.leave (h.join hothers.background _)

/-- A check makes one more call, with the same answer. -/
theorem check (h : Beside origin call b c) (step : Step) (index : Int) (addressPrefix : String)
    (standard : DerivationStandard) :
    (c.check step index addressPrefix standard).1 = (b.check step index addressPrefix standard).1
      ∧ Beside origin call (b.check step index addressPrefix standard).2
        (c.check step index addressPrefix standard).2 := by
  let probe := step.call (probeDraft index addressPrefix standard)
  have hanswer : b.device b.scene.deviceCalls probe = c.device c.scene.deviceCalls probe := by
    have hdevice : b.device = c.device.after origin.deviceCalls call := congrArg (·.device) h.surroundings
    rw [hdevice, h.scene.after_eq]
  refine ⟨?_, ?_⟩
  · simp only [Bench.check, checkConnection, probe, hanswer]
  · rw [check_snd, check_snd]
    exact ⟨h.sequencer, h.surroundings, (h.scene.note _).withCall _, h.hanging⟩

/-- Another draft is put in front of both, and what hangs keeps the one that it had. -/
theorem exchangeDraft (h : Beside origin call b c) (draft : WalletDraft) :
    Beside origin call (b.exchangeDraft draft) (c.exchangeDraft draft) := by
  refine ⟨h.sequencer, h.surroundings, h.scene.withDraft draft, ?_⟩
  simp only [Bench.exchangeDraft, h.hanging, h.scene.draft]

/-- A run that the owner waits for, alone or among others. -/
theorem run (h : Beside origin call b c) (migrate : Bool) :
    (c.run migrate).1 = (b.run migrate).1 ∧ (c.run migrate).2.1 = (b.run migrate).2.1
      ∧ Beside origin call (b.run migrate).2.2 (c.run migrate).2.2 := by
  unfold Bench.run
  rw [h.hanging]
  split
  -- With nobody in the background the run goes through in one go, otherwise it takes turns with the others.
  · obtain ⟨r, u, v, hs, ht, hran⟩ :=
      (Sequencer.run_alike b.sequencer c.surroundings migrate h.scene).exists_eq
    rw [← h.surroundings] at hs
    rw [h.sequencer, hs, ht]
    exact ⟨rfl, rfl, rfl, h.surroundings, hran, rfl⟩
  · have hfront : Interplay.Beside origin call { b.background with front := some b.hanging.length }
        { c.background with front := some b.hanging.length } := by
      obtain ⟨t, ht, hbeside⟩ := h.background
      exact ⟨t, by rw [ht], hbeside⟩
    have hjoined := h.join hfront (newcomer migrate false)
    have hfinished := hjoined.finish b.sequencer c.surroundings
    rw [← h.surroundings] at hfinished
    dsimp only
    rw [h.sequencer]
    -- How the run in front has ended is read off the runs, which are the same.
    have hleft := h.leave hfinished
    obtain ⟨t, ht, -⟩ := hfinished
    refine ⟨?_, hleft⟩
    rw [ht]

/-- Whatever the owner does, he is told the same. -/
theorem act (h : Beside origin call b c) (a : Act) :
    (c.act a).1 = (b.act a).1 ∧ Beside origin call (b.act a).2 (c.act a).2 := by
  cases a with
  | run migrate =>
    obtain ⟨hresult, hbackground, hnext⟩ := h.run migrate
    refine ⟨?_, hnext⟩
    show Told.result (c.run migrate).1 (c.run migrate).2.1 = Told.result (b.run migrate).1 (b.run migrate).2.1
    rw [hresult, hbackground]
  | start migrate =>
    obtain ⟨hbackground, hnext⟩ := h.start migrate
    exact ⟨congrArg Told.background hbackground, hnext⟩
  | command cmd =>
    obtain ⟨hbackground, hnext⟩ := h.command cmd
    exact ⟨congrArg Told.background hbackground, hnext⟩
  | check step index addressPrefix standard =>
    obtain ⟨hstatus, hnext⟩ := h.check step index addressPrefix standard
    exact ⟨congrArg Told.connection hstatus, hnext⟩
  | exchangeDraft draft => exact ⟨rfl, h.exchangeDraft draft⟩

/-- By induction on what the owner does: he is told the same. -/
theorem acts (h : Beside origin call b c) (all : List Act) :
    (c.acts all).1 = (b.acts all).1 ∧ Beside origin call (b.acts all).2 (c.acts all).2 := by
  induction all generalizing b c with
  | nil => exact ⟨rfl, h⟩
  | cons a rest ih =>
    obtain ⟨htold, hnext⟩ := h.act a
    obtain ⟨hmore, hlast⟩ := ih hnext
    refine ⟨?_, hlast⟩
    show (c.act a).1 :: ((c.act a).2.acts rest).1 = (b.act a).1 :: ((b.act a).2.acts rest).1
    rw [htold, hmore]

end Beside

end Bench

end Ledger

end ChainWallet
