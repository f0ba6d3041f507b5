import ChainWallet.Naming
import ChainWallet.Text.Quoted

/-!
# Errors of the signing device

A device reports a failure as a kind, so nobody has to read error texts. Sessions that talk to the
transport get a status word, or none when the device is gone; `DeviceErrorKind.ofStatusWord` is the
one place where status words are told apart.
-/

namespace ChainWallet

/-- What went wrong on the device. -/
inductive DeviceErrorKind where
  | disconnected
  | locked
  | wrongApp
  | conditionsNotSatisfied
  | addressMismatch
  | unknown
  deriving DecidableEq, Repr, Inhabited

instance : Named DeviceErrorKind where
  category := "DeviceErrorKind"
  members := [.disconnected, .locked, .wrongApp, .conditionsNotSatisfied, .addressMismatch, .unknown]
  name
    | .disconnected => "DISCONNECTED"
    | .locked => "LOCKED"
    | .wrongApp => "WRONG_APP"
    | .conditionsNotSatisfied => "CONDITIONS_NOT_SATISFIED"
    | .addressMismatch => "ADDRESS_MISMATCH"
    | .unknown => "UNKNOWN"

namespace DeviceErrorKind

/-- The status words of a device on which another app, or none, is open. -/
def wrongAppWords : List Int := [0x6E00, 0x6E01, 0x6D00, 0x6511]

def lockedWords : List Int := [0x5515, 0x6982]

/-- The status word of a device that refuses the request in its present state. -/
def conditionsWord : Int := 0x6985

/-- What a status word says; no status word means that the device does not answer. -/
def ofStatusWord : Option Int → DeviceErrorKind
  | none => disconnected
  | some w =>
    if w ∈ wrongAppWords then wrongApp
    else if w ∈ lockedWords then locked
    else if w = conditionsWord then conditionsNotSatisfied
    else unknown

/-- Whether opening the right app on the device cures the error. -/
def isAppMismatch : DeviceErrorKind → Bool
  | wrongApp | conditionsNotSatisfied => true
  | _ => false

end DeviceErrorKind

/-- An error that a device reports. -/
structure DeviceError where
  kind : DeviceErrorKind
  text : String
  statusWord : Option Int
  deriving DecidableEq, Repr

namespace DeviceError

/-- The message of an error: its text, or the name of its kind if it has none. -/
def message (e : DeviceError) : String :=
  if e.text.isEmpty then Named.name e.kind else e.text

/-- A hexadecimal number of at least `width` characters, counting a minus sign, filled with zeros. -/
def hexText (width : Nat) (n : Int) : String :=
  let sign := if n < 0 then ['-'] else []
  let ds := Nat.toDigits 16 n.natAbs
  String.ofList (sign ++ List.replicate (width - sign.length - ds.length) '0' ++ ds)

/-- The error behind a status word, with a text of its own or one that shows the word. -/
def ofStatusWord (w : Option Int) (text : String) : DeviceError where
  kind := .ofStatusWord w
  text := match text.isEmpty, w with
    | true, some n => "Device returned status 0x" ++ hexText 4 n
    | _, _ => text
  statusWord := w

example : (ofStatusWord (some 0x5515) "").message = "Device returned status 0x5515" := by
  decide +kernel

end DeviceError

end ChainWallet
