import ChainWallet.Failure
import ChainWallet.Wallet.Draft

/-!
# The signing device

A device is asked for one address at a time. It answers with a text or fails, and its answer may
depend on everything it was asked before: it can be unplugged, locked, or switched to another app
between two calls. A `Device` is therefore a function of the earlier calls and the present one; one
that ignores the earlier calls is `steady`.

`Device.ask` makes a list of calls in order and stops at the first failure; `ask_ok` says that otherwise
every call has its address.
-/

namespace ChainWallet

/-- A request to the device. -/
inductive DeviceCall where
  /-- The address of an account on a chain whose addresses begin with `addressPrefix`. -/
  | address (index : Int) (addressPrefix : String) (chain : Chain) (standard : DerivationStandard)
      (confirm : Bool)
  /-- The address of an account on an EVM chain. -/
  | evmAddress (index : Int) (standard : DerivationStandard) (confirm : Bool)
  deriving DecidableEq, Repr

/-- The account index that a call asks for. -/
def DeviceCall.index : DeviceCall → Int
  | .address i .. => i
  | .evmAddress i .. => i

/-- A device: its answer to a call, given the calls before it from first to last. -/
abbrev Device := (earlier : List DeviceCall) → DeviceCall → Except Failure String

namespace Device

/-- A device whose answers depend on the call alone. -/
def steady (answer : DeviceCall → Except Failure String) : Device :=
  fun _ c => answer c

/-- Asks for the calls in order until one fails. Returns the addresses, or the failure, and the calls
made including the earlier ones. -/
def ask (device : Device) : (earlier calls : List DeviceCall) →
    Except Failure (List String) × List DeviceCall
  | earlier, [] => (.ok [], earlier)
  | earlier, c :: rest =>
    let made := earlier ++ [c]
    match device earlier c with
    | .error f => (.error f, made)
    | .ok address =>
      let (addresses, made) := device.ask made rest
      (addresses.map (address :: ·), made)

/-! ### Characterization -/

/-- Unless a call fails there is one address for each call, and all calls are made. -/
theorem ask_ok {device : Device} {earlier calls made : List DeviceCall} {addresses : List String}
    (h : device.ask earlier calls = (.ok addresses, made)) :
    addresses.length = calls.length ∧ made = earlier ++ calls := by
  induction calls generalizing earlier addresses with
  | nil =>
    simp only [ask, Prod.mk.injEq, Except.ok.injEq] at h
    simp [← h.1, ← h.2]
  | cons c rest ih =>
    simp only [ask] at h
    split at h
    · simp at h
    · next address _ =>
      cases hr : device.ask (earlier ++ [c]) rest with
      | mk result rest' =>
        rw [hr] at h
        cases result with
        | error f => simp [Except.map] at h
        | ok more =>
          simp only [Except.map, Prod.mk.injEq, Except.ok.injEq] at h
          obtain ⟨hl, hm⟩ := ih (h.2 ▸ hr)
          simp [← h.1, hl, hm]

end Device

end ChainWallet
