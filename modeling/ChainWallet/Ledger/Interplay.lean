import ChainWallet.Ledger.Connection

/-!
# Several runs at a time

Several runs can share a sequencer: some in the background, and one that the owner waits for in front.
Each goes on until something holds it up — a wait for an app, or a call to the device — and then lets the
others have their turns. The runs that could go on stand in line, and the first of them has the next turn.

* `Hold` — what holds a run up. A wait takes three turns: the switch is looked at, the wait is over, and
  the run goes on. A wait that finds no confirmation leaves the line, and a confirmation puts it back.
* `Stage` — a run that is held up or has ended; `Sequencer.turn` is what it does in one turn.
* `Interplay` — the runs over a scene. When none can go on and the one in front has not ended, the windows
  of their waits are over, in the order in which they began.
-/

namespace ChainWallet.Ledger

/-- What holds a run up. -/
inductive Hold where
  /-- A wait has begun, and the switch has not been looked at yet. -/
  | looking
  /-- Nobody has confirmed the app yet. -/
  | waiting
  /-- The confirmation has come. -/
  | noticed
  /-- The wait is over. -/
  | over
  /-- The run hears that its wait is over. -/
  | released
  /-- The window of a wait is over without a confirmation. -/
  | expired
  /-- The device is about to give its answer. -/
  | calling (answer : Except Failure String)

/-- How a run stands. -/
inductive Stage where
  /-- Held up in a step, with the steps after it and the result so far. -/
  | held (hold : Hold) (step : Step) (rest : List Step) (result : DerivationResult)
  | ended (ending : Ending)

namespace Stage

/-- Whether a run waits for a confirmation. -/
def isWaiting : Stage → Bool
  | held .waiting .. => true
  | _ => false

/-- Whether a run stands in line for a turn. -/
def isReady : Stage → Bool
  | held .waiting .. | ended _ => false
  | held .. => true

/-- A run that waits, after the confirmation came. -/
def wake : Stage → Stage
  | held .waiting step rest result => held .noticed step rest result
  | stage => stage

/-- A run that waits, after the window of its wait is over. -/
def expire : Stage → Stage
  | held .waiting step rest result => held .expired step rest result
  | stage => stage

end Stage

namespace Sequencer

/-- The call of a step. -/
def call (env : Surroundings) (step : Step) (rest : List Step) (result : DerivationResult) (s : Scene) :
    Stage × Scene :=
  match ask env step s with
  | (.error f, s) => (.ended (.raised f), s)
  | (.ok answer, s) => (.held (.calling answer) step rest result, s)

/-- The beginning of the next step, up to where it is held up. -/
def enter (q : Sequencer) (env : Surroundings) :
    List Step → DerivationResult → Scene → Stage × Scene
  | [], result, s => (.ended (.finished result), s)
  | step :: rest, result, s =>
    if step.awaitsAppSwitch then
      match arm env step s with
      | (.error f, s) => (.ended (.raised f), s)
      | (.ok (), s) =>
        -- A wait without a window is over at once and gives nobody else a turn.
        if q.window.isOpen then (.held .looking step rest result, s)
        else call env step rest result (q.await env step s)
    else call env step rest result s

/-- The beginning of a run over the draft of a scene. -/
def begin (q : Sequencer) (env : Surroundings) (s : Scene) : Stage × Scene :=
  if s.draft.kind = .ledger then q.enter env (q.steps s.draft) .empty s
  else (.ended (.raised (.notALedgerWallet s.draft.identifier)), s)

/-- What a run does in one turn. -/
def turn (q : Sequencer) (env : Surroundings) (migrate : Bool) : Stage → Scene → Stage × Scene
  | .held .looking step rest result, s =>
    (.held (if s.appSwitch.isSet then .over else .waiting) step rest result, s)
  | .held .noticed step rest result, s => (.held .over step rest result, s)
  | .held .over step rest result, s => (.held .released step rest result, s)
  | .held .released step rest result, s => call env step rest result (s.endWait step true)
  | .held .expired step rest result, s => call env step rest result (s.endWait step false)
  | .held (.calling answer) step rest result, s =>
    let (outcome, s) := receive migrate step answer s
    match settle env step result outcome s with
    | (.error ending, s) => (.ended ending, s)
    | (.ok result, s) => q.enter env rest result s
  | stage, s => (stage, s)

end Sequencer

/-- A run that shares a sequencer. -/
structure Runner where
  migrate : Bool
  /-- The draft of the run, if it is another one than that of the scene. -/
  draft : Option WalletDraft
  stage : Stage
  /-- Whether the owner is told how the run in the background ends. -/
  isWatched : Bool

namespace Runner

/-- A run that does something over its own draft. -/
def act (r : Runner) (does : Stage → Scene → Stage × Scene) (s : Scene) : Runner × Scene :=
  match r.draft with
  | none =>
    let (stage, s) := does r.stage s
    ({ r with stage }, s)
  | some draft =>
    let (stage, after) := does r.stage { s with draft }
    ({ r with stage, draft := some after.draft }, { after with draft := s.draft })

/-- A run after its wait, if it has one, was confirmed. -/
def wake (r : Runner) : Runner := { r with stage := r.stage.wake }

/-- A run after the window of its wait, if it has one, is over. -/
def expire (r : Runner) : Runner := { r with stage := r.stage.expire }

/-- How a run ended, if it did. -/
def ending? (r : Runner) : Option Ending :=
  match r.stage with
  | .ended ending => some ending
  | .held .. => none

end Runner

/-- Runs over a scene. They are named by their places. -/
structure Interplay where
  scene : Scene
  runners : List Runner
  /-- The runs that could go on, in the order of their turns. -/
  line : List Nat
  /-- The runs that wait for a confirmation, in the order in which their waits began. -/
  waiting : List Nat
  /-- The run that the owner waits for. -/
  front : Option Nat

namespace Interplay

/-- Something that one of the runs does. A confirmation wakes all that wait. -/
def act (i : Interplay) (place : Nat) (does : Stage → Scene → Stage × Scene) : Interplay :=
  match i.runners[place]? with
  | none => i
  | some r =>
    let (r, scene) := r.act does i.scene
    -- The switch may be reset again in the same turn, so the count tells, not the flag.
    let confirmed := i.scene.appSwitch.advances != scene.appSwitch.advances
    let others := if confirmed then i.runners.map Runner.wake else i.runners
    { i with
      scene
      runners := others.set place r
      line := i.line ++ (if confirmed then i.waiting else []) ++ (if r.stage.isReady then [place] else [])
      waiting := (if confirmed then [] else i.waiting) ++ (if r.stage.isWaiting then [place] else []) }

/-- The runs after all that wait were confirmed. -/
def wake (i : Interplay) : Interplay :=
  { i with runners := i.runners.map Runner.wake, line := i.line ++ i.waiting, waiting := [] }

/-- The runs after the windows of their waits are over. -/
def expire (i : Interplay) : Interplay :=
  { i with runners := i.runners.map Runner.expire, line := i.line ++ i.waiting, waiting := [] }

/-- Whether nobody waits for a run any more. -/
def isOver (i : Interplay) : Bool :=
  match i.front.bind (i.runners[·]?) with
  | some r => r.ending?.isSome
  | none => true

/-- The runs after at most `turns` turns. They stop earlier when the one in front has ended and none of
the others can go on. -/
def play (q : Sequencer) (env : Surroundings) : (turns : Nat) → Interplay → Interplay
  | 0, i => i
  | turns + 1, i =>
    match i.line with
    | place :: line =>
      let migrate := (i.runners[place]?).any (·.migrate)
      play q env turns (({ i with line }).act place (q.turn env migrate))
    | [] => if i.isOver then i else play q env turns i.expire

/-- The turns that a step can take at most: the wait is looked at, woken or expired, over and released, and
the call is answered. -/
def turnsPerStep : Nat := 5

/-- A number of turns in which a run ends unless it is left waiting. -/
def turnsOf (r : Runner) : Nat :=
  match r.stage with
  | .held _ _ rest _ => turnsPerStep * (rest.length + 1)
  | .ended _ => 0

/-- The runs after all the turns that they take. -/
def finish (q : Sequencer) (env : Surroundings) (i : Interplay) : Interplay :=
  play q env ((i.runners.map turnsOf).foldl (· + ·) 1) i

end Interplay

end ChainWallet.Ledger
