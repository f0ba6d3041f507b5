import ChainWallet.Ledger.AppSwitch
import ChainWallet.Ledger.Step

/-!
# The derivation sequencer

A sequencer takes a ledger wallet through its steps, one app after the other. Each step waits for its
app, makes one call to the device and writes the address onto the assets of its chain. The first step
that fails ends the run; what the steps before it derived stays in the draft, so that the owner can be
shown how far it came, and nothing is stored from here.

* `Scene` — what a run changes: the draft, the app switch, the calls the device has seen, and a log of
  everything that happened, in order.
* `Surroundings` — what a run cannot foresee: the device, the listener to its events, and the commands
  that reach the app switch while the run waits or calls.
* `Sequencer.run` — a whole run. Its parts `arm`, `ask`, `receive` and `settle` are the stretches between
  two points at which a run can be held up.
-/

namespace ChainWallet.Ledger

/-- A step that failed, as the owner is told. -/
structure StepFailure where
  step : Step
  kind : DeviceErrorKind
  message : String
  cause : Failure
  deriving DecidableEq, Repr

/-- The kind of a failure of a derivation. -/
def deviceErrorKind (f : Failure) : DeviceErrorKind :=
  match f with
  | .device e => e.kind
  | _ =>
    if f.cls = .addressImmutable then .addressMismatch
    else if f.cls.isTransportFailure then .disconnected
    else .unknown

/-- What an owner is told who can only look after the device. -/
def checkDeviceMessage : String :=
  "Cannot detect any Ledger device, please make sure it is connected, "
    ++ "unlocked and no other wallet application is using it"

/-- What an owner is told who has to open another app. -/
def openAppMessage (appLabel : String) : String :=
  "Please open the " ++ appLabel ++ " app on your Ledger device and try again"

/-- The failure of a step, from its cause. -/
def classify (s : Step) (cause : Failure) : StepFailure :=
  let kind := deviceErrorKind cause
  { step := s
    kind
    message :=
      if kind.isAppMismatch then openAppMessage s.appLabel
      else if kind = .addressMismatch then cause.message
      else checkDeviceMessage
    cause }

/-- Where a step stands. -/
inductive StepState where
  | awaitingAppSwitch
  | inProgress
  | succeeded
  | failed
  deriving DecidableEq, Repr

instance : Named StepState where
  category := "StepState"
  members := [.awaitingAppSwitch, .inProgress, .succeeded, .failed]
  name
    | .awaitingAppSwitch => "AWAITING_APP_SWITCH"
    | .inProgress => "DERIVING"
    | .succeeded => "SUCCEEDED"
    | .failed => "FAILED"

/-- What a listener is told. -/
structure Event where
  step : Step
  state : StepState
  address : String
  failure : Option StepFailure
  deriving DecidableEq, Repr

/-- What came of a run: the completed steps, the addresses of the chains, and the failure that ended
it, if one did. -/
structure DerivationResult where
  completed : List Step
  addresses : List (Chain × String)
  failure : Option StepFailure
  deriving DecidableEq, Repr

namespace DerivationResult

def empty : DerivationResult := ⟨[], [], none⟩

def isSuccess (r : DerivationResult) : Bool := r.failure.isNone

/-- The address of a chain in an address book; a chain keeps its place when it gets a new address. -/
def putAddress (chain : Chain) (address : String) : List (Chain × String) → List (Chain × String)
  | [] => [(chain, address)]
  | (c, a) :: rest =>
    if c = chain then (c, address) :: rest else (c, a) :: putAddress chain address rest

def complete (r : DerivationResult) (s : Step) (address : String) : DerivationResult :=
  { r with completed := r.completed ++ [s], addresses := putAddress s.chain address r.addresses }

/-- What the owner is told about a run that did not succeed. -/
def message (r : DerivationResult) : String :=
  match r.failure with
  | some f => f.message
  | none => "Ledger derivation failed"

end DerivationResult

/-- What happens in a run. -/
inductive LogEntry where
  | event (e : Event)
  /-- The switch is reset for the wait of a step. -/
  | armed (s : Step)
  /-- The listener or somebody outside does something to the switch. -/
  | command (c : Command)
  /-- The wait of a step is over. -/
  | wait (s : Step) (confirmed : Bool)
  /-- It is put on record that a device is queried although nobody confirmed that the app of a step is open. -/
  | warned (s : Step)
  | call (c : DeviceCall)
  deriving DecidableEq, Repr

/-- What a run changes. -/
structure Scene where
  draft : WalletDraft
  appSwitch : AppSwitch
  /-- The calls that the device has seen. -/
  deviceCalls : List DeviceCall
  log : List LogEntry
  deriving DecidableEq, Repr

namespace Scene

def events (s : Scene) : List Event :=
  s.log.filterMap fun | .event e => some e | _ => none

def note (s : Scene) (e : LogEntry) : Scene :=
  { s with log := s.log ++ [e] }

/-- A scene after commands to the app switch. -/
def obey (s : Scene) (cs : List Command) : Scene :=
  { s with appSwitch := s.appSwitch.applyAll cs, log := s.log ++ cs.map .command }

/-- A scene with the app switch reset for the wait of a step. -/
def rearm (s : Scene) (step : Step) : Scene :=
  { s with appSwitch := s.appSwitch.apply .reset }.note (.armed step)

/-- A scene after the end of the wait of a step. Without a confirmation there is a warning. -/
def endWait (s : Scene) (step : Step) (confirmed : Bool) : Scene :=
  { s with log := s.log ++ .wait step confirmed :: if confirmed then [] else [.warned step] }

end Scene

/-- What a listener does about an event: commands to the app switch, and perhaps a failure of its own,
which ends the run. -/
structure Reaction where
  commands : List Command
  failure : Option Failure
  deriving DecidableEq, Repr

/-- A listener, given the events before the present one. -/
abbrev Listener := (earlier : List Event) → Event → Reaction

/-- What a run cannot foresee. -/
structure Surroundings where
  device : Device
  listener : Option Listener
  /-- The commands that arrive during the device call after a number of calls. -/
  duringCall : Nat → List Command
  /-- The commands that arrive during the wait after a number of calls, before its window is over. -/
  duringWait : Nat → List Command

/-- A sequencer: the window of its waits, and its steps if they are not those of the wallet's kind. -/
structure Sequencer where
  window : Window
  customSteps : List Step
  deriving DecidableEq, Repr

/-- How a run ended. -/
inductive Ending where
  | finished (result : DerivationResult)
  | raised (failure : Failure)
  deriving DecidableEq, Repr

namespace Sequencer

/-- The steps of a run on a draft. -/
def steps (q : Sequencer) (w : WalletDraft) : List Step :=
  if q.customSteps.isEmpty then stepsFor w.kind else q.customSteps

def emit (env : Surroundings) (e : Event) (s : Scene) : Except Failure Unit × Scene :=
  match env.listener with
  | none => (.ok (), s.note (.event e))
  | some listener =>
    let reaction := listener s.events e
    -- Whatever a listener commands has been done by the time that it fails.
    let s := (s.note (.event e)).obey reaction.commands
    match reaction.failure with
    | some f => (.error f, s)
    | none => (.ok (), s)

/-- Arms the wait of a step and asks for its app. -/
def arm (env : Surroundings) (step : Step) (s : Scene) : Except Failure Unit × Scene :=
  emit env ⟨step, .awaitingAppSwitch, "", none⟩ (s.rearm step)

/-- Announces a step and makes its call: the answer of the device, unless the listener fails. -/
def ask (env : Surroundings) (step : Step) (s : Scene) :
    Except Failure (Except Failure String) × Scene :=
  match emit env ⟨step, .inProgress, "", none⟩ s with
  | (.error f, s) => (.error f, s)
  | (.ok (), s) =>
    let call := step.call s.draft
    -- The answer is fixed by the calls so far; what is commanded during the call comes before the run goes
    -- on.
    (.ok (env.device s.deviceCalls call),
      { (s.note (.call call)).obey (env.duringCall s.deviceCalls.length) with
        deviceCalls := s.deviceCalls ++ [call] })

def receive (migrate : Bool) (step : Step) (answer : Except Failure String) (s : Scene) :
    Except Failure String × Scene :=
  match answer with
  | .error f => (.error f, s)
  | .ok address =>
    match step.record address migrate s.draft with
    | .error f => (.error f, s)
    | .ok draft => (.ok address, { s with draft })

/-- Announces a step, makes its call and writes the address. -/
def query (env : Surroundings) (migrate : Bool) (step : Step) (s : Scene) :
    Except Failure (Except Failure String) × Scene :=
  match ask env step s with
  | (.error f, s) => (.error f, s)
  | (.ok answer, s) =>
    let (outcome, s) := receive migrate step answer s
    (.ok outcome, s)

/-- Reports the outcome of a step: the result with the step completed, or how the run ended. -/
def settle (env : Surroundings) (step : Step) (result : DerivationResult)
    (outcome : Except Failure String) (s : Scene) : Except Ending DerivationResult × Scene :=
  match outcome with
  | .error cause =>
    -- The failure is reported before the run ends with it.
    let failure := classify step cause
    match emit env ⟨step, .failed, "", some failure⟩ s with
    | (.error f, s) => (.error (.raised f), s)
    | (.ok (), s) => (.error (.finished { result with failure := some failure }), s)
  | .ok address =>
    match emit env ⟨step, .succeeded, address, none⟩ s with
    | (.error f, s) => (.error (.raised f), s)
    | (.ok (), s) => (.ok (result.complete step address), s)

/-- The part of a step after its wait. -/
def derive (env : Surroundings) (migrate : Bool) (step : Step) (result : DerivationResult) (s : Scene) :
    Except Ending DerivationResult × Scene :=
  match query env migrate step s with
  | (.error f, s) => (.error (.raised f), s)
  | (.ok outcome, s) => settle env step result outcome s

/-- The wait of a step, once it is over. -/
def await (q : Sequencer) (env : Surroundings) (step : Step) (s : Scene) : Scene :=
  let commands := env.duringWait s.deviceCalls.length
  let (confirmed, _) := s.appSwitch.wait q.window commands
  (s.obey (s.appSwitch.seen q.window commands)).endWait step confirmed

/-- One step of a run that waits until its window is over. -/
def runStep (q : Sequencer) (env : Surroundings) (migrate : Bool) (step : Step)
    (result : DerivationResult) (s : Scene) : Except Ending DerivationResult × Scene :=
  if step.awaitsAppSwitch then
    match arm env step s with
    | (.error f, s) => (.error (.raised f), s)
    | (.ok (), s) => derive env migrate step result (q.await env step s)
  else derive env migrate step result s

/-- The steps of a run, from a result on. -/
def runSteps (q : Sequencer) (env : Surroundings) (migrate : Bool) :
    List Step → DerivationResult → Scene → Except Failure DerivationResult × Scene
  | [], result, s => (.ok result, s)
  | step :: rest, result, s =>
    match q.runStep env migrate step result s with
    | (.ok result, s) => q.runSteps env migrate rest result s
    -- Only a listener raises. Any other failure is in the result.
    | (.error (.raised f), s) => (.error f, s)
    | (.error (.finished result), s) => (.ok result, s)

/-- A whole run over the draft of a scene. Only a ledger wallet has one. -/
def run (q : Sequencer) (env : Surroundings) (migrate : Bool) (s : Scene) :
    Except Failure DerivationResult × Scene :=
  if s.draft.kind = .ledger then q.runSteps env migrate (q.steps s.draft) .empty s
  else (.error (.notALedgerWallet s.draft.identifier), s)

/-! ### Warnings -/

/-- The text of the warning about a step. -/
def unconfirmedWarning (q : Sequencer) (step : Step) : String :=
  "No confirmation of " ++ step.appLabel ++ " app within " ++ q.window.text
    ++ "s, querying the device anyway"

/-- The warnings in a log. -/
def warnings (q : Sequencer) (log : List LogEntry) : List String :=
  log.filterMap fun | .warned step => some (q.unconfirmedWarning step) | _ => none

end Sequencer

end ChainWallet.Ledger
