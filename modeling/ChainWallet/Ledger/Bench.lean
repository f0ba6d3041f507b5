import ChainWallet.Ledger.Interplay

/-!
# A sequencer at work

A `Bench` is one sequencer over one draft with an owner beside it: the owner starts runs, confirms apps,
exchanges the device, and checks connections, and runs may hang in the background meanwhile. A confirmation
releases them, and they go on until they wait again or end; a reset behind the confirmation does not call
them back. A run in front of hanging ones shares the switch with them, so that they take turns. The owner
is told how the run ends that was started last.
-/

namespace ChainWallet.Ledger

/-- A sequencer with its draft, its device and its owner's side. -/
structure Bench where
  sequencer : Sequencer
  listener : Option Listener
  device : Device
  scene : Scene
  /-- The runs in the background, in the order in which their waits began. -/
  hanging : List Runner

namespace Bench

def new (sequencer : Sequencer) (listener : Option Listener) (device : Device) (draft : WalletDraft)
    (confirmed : Bool) : Bench where
  sequencer
  listener
  device
  scene := ⟨draft, if confirmed then AppSwitch.unset.apply .advance else .unset, [], []⟩
  hanging := []

/-- The surroundings of a run on a bench: nobody interferes from outside while it runs. -/
def surroundings (b : Bench) : Surroundings where
  device := b.device
  listener := b.listener
  duringCall _ := []
  duringWait _ := []

/-- Whether the run that was started last hangs in the background. -/
def isRunning (b : Bench) : Bool :=
  b.hanging.any (·.isWatched)

/-- The runs that hang, with nobody in front of them. -/
def background (b : Bench) : Interplay :=
  ⟨b.scene, b.hanging, [], List.range b.hanging.length, none⟩

/-- The bench after runs have taken all their turns, and how the one that is watched ended. -/
def leave (b : Bench) (i : Interplay) : Option Ending × Bench :=
  let i := i.finish b.sequencer b.surroundings
  ((i.runners.filter (·.isWatched)).findSome? Runner.ending?,
    { b with scene := i.scene, hanging := i.waiting.filterMap (i.runners[·]?) })

def join (b : Bench) (newcomer : Runner) (i : Interplay) : Interplay :=
  ({ i with runners := i.runners ++ [newcomer] }).act i.runners.length
    fun _ s => b.sequencer.begin b.surroundings s

def newcomer (migrate isWatched : Bool) : Runner :=
  ⟨migrate, none, .ended (.finished .empty), isWatched⟩

/-- A whole run in the foreground, and how the one in the background ended if it did. -/
def run (b : Bench) (migrate : Bool) : Except Failure DerivationResult × Option Ending × Bench :=
  if b.hanging.isEmpty then
    let (result, scene) := b.sequencer.run b.surroundings migrate b.scene
    (result, none, { b with scene })
  else
    let place := b.hanging.length
    let i := b.join (newcomer migrate false) { b.background with front := some place }
    let i := i.finish b.sequencer b.surroundings
    let result := match (i.runners[place]?).bind Runner.ending? with
      | some (.finished result) => .ok result
      | some (.raised f) => .error f
      | none => .ok .empty
    (result, b.leave i)

def start (b : Bench) (migrate : Bool) : Option Ending × Bench :=
  let others := b.hanging.map fun r => { r with isWatched := false }
  b.leave (b.join (newcomer migrate true) ({ b with hanging := others }).background)

def check (b : Bench) (step : Step) (index : Int) (addressPrefix : String)
    (standard : DerivationStandard) : AppConnection × Bench :=
  let (status, deviceCalls) :=
    checkConnection b.device b.scene.deviceCalls step index addressPrefix standard
  let log := b.scene.log ++ (deviceCalls.drop b.scene.deviceCalls.length).map .call
  (status, { b with scene := { b.scene with deviceCalls, log } })

/-- A command to the app switch. A confirmation releases the runs in the background. -/
def command (b : Bench) (c : Command) : Option Ending × Bench :=
  let b := { b with scene := b.scene.obey [c] }
  match c with
  | .advance => b.leave b.background.wake
  | .reset => (none, b)

/-- Another device, which has seen no call yet. -/
def exchangeDevice (b : Bench) (device : Device) : Bench :=
  { b with device, scene := { b.scene with deviceCalls := [] } }

/-- Another draft; a run that hangs keeps the one it has. -/
def exchangeDraft (b : Bench) (draft : WalletDraft) : Bench :=
  { b with
    scene := { b.scene with draft }
    hanging := b.hanging.map fun r => { r with draft := some (r.draft.getD b.scene.draft) } }

end Bench

end ChainWallet.Ledger
