import ChainWallet.Ledger.Interplay

/-!
# The course of a run

A run is held up again and again, by a wait or by a call, and whoever else has to do with the app switch
goes on meanwhile. Its course is what happens from its beginning on: it has a turn, somebody gives the switch
a command, or the window of its wait is over. Nothing is assumed about the order, so that a command may come
between any two turns, and the commands of the listener come with the turns in which it hears an event.

* **`Move`, `Sequencer.follow`** — the things that happen, and the run after some of them.
* **`Sequencer.course`** — the run from its beginning on.
* **`course_of_run`** — a run in one go, with the commands that its surroundings give it, is the course of a
  run up to its end. What holds on every course holds for it.
-/

namespace ChainWallet.Ledger

/-- What can happen to a run that is held up. -/
inductive Move where
  /-- The run has a turn. -/
  | turn
  /-- Somebody outside gives the switch a command. -/
  | command (c : Command)
  /-- The window of a wait is over. -/
  | expire
  deriving DecidableEq, Repr

/-- How a run has ended that returned a result or failed. -/
def Ending.ofOutcome : Except Failure DerivationResult → Ending
  | .ok result => .finished result
  | .error f => .raised f

theorem Scene.obey_nil (s : Scene) : s.obey [] = s := by
  simp [obey, AppSwitch.applyAll]

theorem Scene.obey_append (s : Scene) (cs cs' : List Command) :
    s.obey (cs ++ cs') = (s.obey cs).obey cs' := by
  simp [obey, AppSwitch.applyAll]

theorem Stage.wake_wake (stage : Stage) : stage.wake.wake = stage.wake := by
  unfold wake
  grind

namespace Sequencer

/-- A run and its scene after something has happened. A confirmation wakes a run that waits. -/
def move (q : Sequencer) (env : Surroundings) (migrate : Bool) : Stage × Scene → Move → Stage × Scene
  | (stage, s), .turn => q.turn env migrate stage s
  | (stage, s), .command c => (if c = .advance then stage.wake else stage, s.obey [c])
  | (stage, s), .expire => (stage.expire, s)

/-- A run and its scene after several things have happened. -/
def follow (q : Sequencer) (env : Surroundings) (migrate : Bool) (p : Stage × Scene)
    (moves : List Move) : Stage × Scene :=
  moves.foldl (q.move env migrate) p

/-- A run over the draft of a scene, as far as it has come. -/
def course (q : Sequencer) (env : Surroundings) (migrate : Bool) (s : Scene) (moves : List Move) :
    Stage × Scene :=
  q.follow env migrate (q.begin env s) moves

variable (q : Sequencer) (env : Surroundings) (migrate : Bool)

@[simp] theorem follow_nil (p : Stage × Scene) : q.follow env migrate p [] = p := rfl

@[simp] theorem follow_cons (p : Stage × Scene) (m : Move) (moves : List Move) :
    q.follow env migrate p (m :: moves) = q.follow env migrate (q.move env migrate p m) moves := rfl

@[simp] theorem follow_append (p : Stage × Scene) (moves more : List Move) :
    q.follow env migrate p (moves ++ more)
      = q.follow env migrate (q.follow env migrate p moves) more :=
  List.foldl_append

/-- After commands a run is awake if one of them was a confirmation. -/
theorem follow_commands (cs : List Command) (stage : Stage) (s : Scene) :
    q.follow env migrate (stage, s) (cs.map .command)
      = (if .advance ∈ cs then stage.wake else stage, s.obey cs) := by
  induction cs generalizing stage s with
  | nil => simp [Scene.obey_nil]
  | cons c rest ih =>
    have hscene : (s.obey [c]).obey rest = s.obey (c :: rest) := (s.obey_append [c] rest).symm
    rw [List.map_cons, follow_cons, move, ih, hscene]
    cases c with
    | reset => simp
    | advance => by_cases h : Command.advance ∈ rest <;> simp [h, Stage.wake_wake]

/-! ### A run in one go -/

variable (step : Step) (rest : List Step) (result : DerivationResult)

/-- A wait in one go is one that is looked at, given its commands, and then over. -/
theorem follow_wait (s : Scene) : ∃ moves,
    q.follow env migrate (.held .looking step rest result, s) moves
      = call env step rest result (q.await env step s) := by
  let cs := s.appSwitch.seen q.window (env.duringWait s.deviceCalls.length)
  have hawait : q.await env step s
      = (s.obey cs).endWait step (s.appSwitch.isSet || cs.contains .advance) := rfl
  rw [hawait]
  by_cases hset : s.appSwitch.isSet = true
  · -- The confirmation is there, and no command is seen.
    have hcs : cs = [] := by
      simp only [cs, AppSwitch.seen, AppSwitch.answersAtOnce, hset, Bool.true_or, if_true]
    refine ⟨[.turn, .turn, .turn], ?_⟩
    simp [move, turn, hset, hcs, Scene.obey_nil]
  · have hlooked : q.turn env migrate (.held .looking step rest result) s
        = (.held .waiting step rest result, s) := by simp [turn, hset]
    by_cases hconfirmed : Command.advance ∈ cs
    · -- A confirmation wakes the run, and whatever commands follow it cannot send it back to sleep.
      refine ⟨.turn :: (cs.map .command ++ [.turn, .turn, .turn]), ?_⟩
      rw [follow_cons, move, hlooked, follow_append, follow_commands, if_pos hconfirmed]
      simp [move, turn, Stage.wake, hset, hconfirmed]
    · -- Other commands leave it asleep until the window is over.
      refine ⟨.turn :: (cs.map .command ++ [.expire, .turn]), ?_⟩
      rw [follow_cons, move, hlooked, follow_append, follow_commands, if_neg hconfirmed]
      simp [move, turn, Stage.expire, hset, hconfirmed]

/-- What a step does after its wait is a call and the turn in which its answer comes. -/
theorem follow_derive (s : Scene) : ∃ moves,
    q.follow env migrate (call env step rest result s) moves
      = match derive env migrate step result s with
        | (.ok next, t) => q.enter env rest next t
        | (.error ending, t) => (.ended ending, t) := by
  -- A listener that raises at the announcement ends the run before the call.
  rcases hask : ask env step s with ⟨f | answer, t⟩
  · refine ⟨[], ?_⟩
    simp [call, derive, query, hask]
  · refine ⟨[.turn], ?_⟩
    simp only [follow_cons, follow_nil, move, call, derive, query, hask, turn]
    rcases settle env step result (receive migrate step answer t).1 (receive migrate step answer t).2
      with ⟨ending | next, u⟩ <;> rfl

/-- A step in one go is a course to the beginning of the next step, or to the end of the run. -/
theorem follow_step (s : Scene) : ∃ moves,
    q.follow env migrate (q.enter env (step :: rest) result s) moves
      = match q.runStep env migrate step result s with
        | (.ok next, t) => q.enter env rest next t
        | (.error ending, t) => (.ended ending, t) := by
  by_cases hawaits : step.awaitsAppSwitch = true
  · rcases harm : arm env step s with ⟨f | _, t⟩
    · -- A listener that raises at the prompt ends the run on entry: there is no move to make.
      refine ⟨[], ?_⟩
      simp [enter, runStep, hawaits, harm]
    · obtain ⟨derived, hderived⟩ := follow_derive q env migrate step rest result (q.await env step t)
      have hrun : q.runStep env migrate step result s
          = derive env migrate step result (q.await env step t) := by
        simp only [runStep, hawaits, harm, if_true]
      rw [hrun]
      by_cases hopen : q.window.isOpen = true
      · have henter : q.enter env (step :: rest) result s = (.held .looking step rest result, t) := by
          simp only [enter, hawaits, harm, hopen, if_true]
        obtain ⟨waited, hwaited⟩ := follow_wait q env migrate step rest result t
        refine ⟨waited ++ derived, ?_⟩
        rw [henter, follow_append, hwaited, hderived]
      · -- A window without length is over before anything can happen.
        have henter : q.enter env (step :: rest) result s
            = call env step rest result (q.await env step t) := by
          simp only [enter, hawaits, harm, hopen, if_true, if_false, Bool.false_eq_true]
        exact ⟨derived, by rw [henter, hderived]⟩
  · -- A step without a wait begins with its call.
    obtain ⟨derived, hderived⟩ := follow_derive q env migrate step rest result s
    have henter : q.enter env (step :: rest) result s = call env step rest result s := by
      simp only [enter, hawaits, if_false, Bool.false_eq_true]
    have hrun : q.runStep env migrate step result s = derive env migrate step result s := by
      simp only [runStep, hawaits, if_false, Bool.false_eq_true]
    exact ⟨derived, by rw [henter, hrun, hderived]⟩

/-- By induction on the steps: the course of a step that is done leads to the beginning of the next one. -/
theorem follow_runSteps (steps : List Step) (result : DerivationResult) (s : Scene) : ∃ moves,
    q.follow env migrate (q.enter env steps result s) moves
      = (.ended (.ofOutcome (q.runSteps env migrate steps result s).1),
        (q.runSteps env migrate steps result s).2) := by
  induction steps generalizing result s with
  | nil => exact ⟨[], rfl⟩
  | cons step rest ih =>
    obtain ⟨stepped, hstepped⟩ := follow_step q env migrate step rest result s
    -- A step that ends the run is the last one of its course.
    rcases hrun : q.runStep env migrate step result s with ⟨ending | next, t⟩
    · rw [hrun] at hstepped
      refine ⟨stepped, ?_⟩
      cases ending <;> simp [hstepped, runSteps, hrun, Ending.ofOutcome]
    · rw [hrun] at hstepped
      obtain ⟨others, hothers⟩ := ih next t
      refine ⟨stepped ++ others, ?_⟩
      simp only [follow_append, hstepped, hothers, runSteps, hrun]

/-- A run in one go is a course that has come to its end. -/
theorem course_of_run (s : Scene) : ∃ moves,
    q.course env migrate s moves
      = (.ended (.ofOutcome (q.run env migrate s).1), (q.run env migrate s).2) := by
  by_cases ledger : s.draft.kind = .ledger
  · simp only [course, begin, run, ledger, if_true]
    exact follow_runSteps q env migrate (q.steps s.draft) .empty s
  · -- Any other wallet is refused at the beginning.
    refine ⟨[], ?_⟩
    simp [course, begin, run, ledger, Ending.ofOutcome]

end Sequencer

end ChainWallet.Ledger
