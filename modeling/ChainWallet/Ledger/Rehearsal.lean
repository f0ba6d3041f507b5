import ChainWallet.Ledger.Sequencer

/-!
# Rehearsed devices and listeners

A wallet can be tried out without hardware: a `DeviceRehearsal` lists the addresses that a device gives
and the failures it shows, and a `ListenerRehearsal` the events on which a listener confirms or fails.
-/

namespace ChainWallet.Ledger

/-- A failure that a device shows: at one index or at all, and a number of times or always. -/
structure RehearsedFailure where
  failure : Failure
  atIndex : Option Int
  times : Option Int
  deriving Repr

/-- The answers of a device, by the name of a chain, or `EVM` for all EVM chains. -/
structure DeviceRehearsal where
  addresses : List (String × String)
  failures : List (String × RehearsedFailure)
  deriving Repr

namespace DeviceRehearsal

def plain : DeviceRehearsal := ⟨[], []⟩

/-- The name under which the answers to a call are listed. -/
def keyOf : DeviceCall → String
  | .address _ _ chain _ _ => Named.name chain
  | .evmAddress .. => "EVM"

/-- The address that a call gets if none is listed for it; different calls get different ones. -/
def standIn : DeviceCall → String
  | .address index addressPrefix chain standard _ =>
    addressPrefix ++ "1-" ++ Named.name chain ++ "-" ++ Named.name standard ++ "-" ++ toString index
  | .evmAddress index standard _ => "0x-" ++ Named.name standard ++ "-" ++ toString index

def RehearsedFailure.concerns (f : RehearsedFailure) (c : DeviceCall) : Bool :=
  match f.atIndex with
  | none => true
  | some i => c.index == i

/-- The rehearsed device. A failure that is shown a number of times is shown by the first calls that it
concerns. -/
def device (r : DeviceRehearsal) : Device := fun earlier call =>
  let key := keyOf call
  let answer := (r.addresses.lookup key).getD (standIn call)
  match r.failures.lookup key with
  | none => .ok answer
  | some f =>
    let shown := (earlier.filter fun c => keyOf c == key && RehearsedFailure.concerns f c).length
    if RehearsedFailure.concerns f call && f.times.all ((shown : Int) < ·) then .error f.failure
    else .ok answer

end DeviceRehearsal

/-- The events at which a listener confirms that the app is open, and those at which it fails. -/
structure ListenerRehearsal where
  advanceOn : List (String × String)
  raiseOn : List (String × String)
  deriving Repr

def listenerFailure : Failure := .foreign .runtime "listener failed"

def ListenerRehearsal.listener (r : ListenerRehearsal) : Listener := fun _ e =>
  let key := (Named.name e.step.chain, Named.name e.state)
  { commands := if r.advanceOn.contains key then [.advance] else []
    failure := if r.raiseOn.contains key then some listenerFailure else none }

end ChainWallet.Ledger
