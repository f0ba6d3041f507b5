import ChainWallet.Asset
import ChainWallet.Ledger.DeviceError
import ChainWallet.Schema
import ChainWallet.Text.Quoted

/-!
# What can go wrong

`Failure` lists the causes for which an operation of the wallet ends without a result. A cause belongs
to a `FailureClass`, which is what callers tell failures apart by, and has a `message`.

Failures that come from outside — from a transport or a network library — carry their class and text
with them (`Failure.foreign`).
-/

namespace ChainWallet

/-- The classes of failures. -/
inductive FailureClass where
  | priceResolver
  | priceFeed
  | httpStatus
  | slugNotFound
  | directoryUnavailable
  | rateNotFound
  | device
  | invalidWalletType
  | addressImmutable
  | walletNotFound
  | ledgerDerivation
  | validation
  | value
  | runtime
  | os
  | connection
  | timeout
  | client
  | invalidOperation
  | overflow
  | typeMismatch
  | integerRange
  | malformedJson
  /-- A value is nested more deeply than it can be taken apart. -/
  | nesting
  /-- The target of a request is no address. -/
  | invalidTarget
  /-- A text cannot be written in the characters that are asked for. -/
  | encoding
  /-- A setting contradicts what the program takes for granted. -/
  | assertion
  deriving DecidableEq, Repr, Inhabited

namespace FailureClass

/-- The failures of a price feed to answer as it should. -/
def isFeedFailure : FailureClass → Bool
  | priceFeed | httpStatus | directoryUnavailable | rateNotFound => true
  | _ => false

/-- The failures of the operating system to reach a device or a host. -/
def isTransportFailure : FailureClass → Bool
  | os | connection | timeout => true
  | _ => false

end FailureClass

/-- The faults of a text that should say when a job runs. -/
inductive ScheduleFault where
  | fieldCount (found : Nat)
  | unrecognized (expression field : String)
  | zeroStep
  | reversedRange
  | unknownMonth (name : String)
  | unknownWeekday (name : String)
  | stepTooLarge (expression : String) (step range : Int)
  | belowRange (expression : String) (value least : Nat)
  | aboveRange (expression : String) (value greatest : Nat)
  /-- A number has more digits than are read. -/
  | tooManyDigits (count : Nat)
  deriving DecidableEq, Repr

/-- The message about an integer that has more digits than are read. -/
def tooManyDigitsMessage (count : Nat) : String :=
  s!"Exceeds the limit ({Text.integerDigitLimit} digits) for integer string conversion: value has "
    ++ s!"{count} digits; use sys.set_int_max_str_digits() to increase the limit"

open Text in
def ScheduleFault.message : ScheduleFault → String
  | fieldCount n => s!"Wrong number of fields; got {n}, expected 5"
  | unrecognized e f => s!"Unrecognized expression \"{e}\" for field \"{f}\""
  | zeroStep => "Increment must be higher than 0"
  | reversedRange => "The minimum value in a range must not be higher than the maximum"
  | unknownMonth n => s!"Invalid month name \"{n}\""
  | unknownWeekday n => s!"Invalid weekday name \"{n}\""
  | stepTooLarge e step range => "Error validating expression " ++ quoted e
      ++ s!": the step value ({step}) is higher than the total range of the expression ({range})"
  | belowRange e value least => "Error validating expression " ++ quoted e
      ++ s!": the first value ({value}) is lower than the minimum value ({least})"
  | aboveRange e value greatest => "Error validating expression " ++ quoted e
      ++ s!": the last value ({value}) is higher than the maximum value ({greatest})"
  | tooManyDigits count => tooManyDigitsMessage count

/-- The causes for which an operation ends without a result. -/
inductive Failure where
  /-- Reported from outside, with its class and text. -/
  | foreign (cls : FailureClass) (text : String)
  | device (error : DeviceError)
  | httpStatus (status : Option Int) (url : String)
  /-- No name in the price feed belongs to the asset with this symbol. -/
  | slugNotFound (symbol : String)
  /-- The price feed has no series for a token. -/
  | seriesMissing (slug : String)
  /-- The price feed has no directory of names. -/
  | directoryEmpty
  /-- The rate from one currency to another is not known. -/
  | rateMissing (base quote : String)
  /-- An asset has another address already. -/
  | addressTaken (identifier address : String)
  /-- A device derived an address that differs from one that is there. -/
  | addressMismatch (address : String) (chain : Chain)
  | notALedgerWallet (identifier : String)
  | walletMissing (identifier : String)
  /-- The wallet that an asset belongs to is not stored. -/
  | ownerMissing (wallet asset : String)
  /-- A ledger wallet cannot be created without a sequencer. -/
  | sequencerMissing
  | rejected (model : String) (faults : List Schema.Fault)
  | arithmetic (signal : Decimal.Signal)
  /-- A list was expected where a number or truth value came. -/
  | notIterable
  /-- An integer has more than 64 bits. -/
  | integerRange
  | unreadable (fault : ReadFault)
  /-- A text is not the name of a member of a category. -/
  | unknownName (text category : String)
  | unreadableNumber (text : String)
  | schedule (fault : ScheduleFault)
  | invalidTarget
  /-- A header of a request is not ASCII. -/
  | unencodableHeader
  /-- The HTTP interface cannot be at a path that does not begin with a slash or that ends in one. -/
  | invalidBase
  deriving DecidableEq, Repr

namespace Failure

def cls : Failure → FailureClass
  | foreign c _ => c
  | device _ => .device
  | httpStatus .. => .httpStatus
  | slugNotFound _ => .slugNotFound
  | seriesMissing _ => .priceFeed
  | directoryEmpty => .directoryUnavailable
  | rateMissing .. => .rateNotFound
  | addressTaken .. | addressMismatch .. => .addressImmutable
  | notALedgerWallet _ => .invalidWalletType
  | walletMissing _ | ownerMissing .. => .walletNotFound
  | sequencerMissing | unknownName .. | unreadableNumber _ | schedule _ => .value
  | rejected .. => .validation
  | arithmetic .invalidOperation => .invalidOperation
  | arithmetic .overflow => .overflow
  | notIterable => .typeMismatch
  | integerRange => .integerRange
  | unreadable .malformed => .malformedJson
  | unreadable (.tooManyDigits _) => .value
  | unreadable .tooDeep => .nesting
  | invalidTarget => .invalidTarget
  | unencodableHeader => .encoding
  | invalidBase => .assertion

def statusText : Option Int → String
  | some n => toString n
  | none => "None"

open Text in
/-- The message of a failure. Failures that are told by their class alone have none. -/
def message : Failure → String
  | foreign _ text => text
  | device e => e.message
  | httpStatus status url => "Got response status " ++ statusText status ++ " from " ++ url
  | slugNotFound symbol => "Couldn't find a valid slug name for " ++ symbol
  | seriesMissing slug => "Could not find requested token price info for " ++ slug
  | directoryEmpty => "Could not fetch token slug list"
  | rateMissing base quote => "Could not find " ++ base ++ " to " ++ quote ++ " rate"
  | addressTaken identifier address => "Asset " ++ identifier ++ " already has address " ++ address
  | addressMismatch address chain =>
    "The connected Ledger derived " ++ address ++ " for " ++ Named.name chain
      ++ ", which differs from the address already stored for this wallet"
  | notALedgerWallet identifier => "Wallet " ++ identifier ++ " is not a ledger wallet"
  | walletMissing identifier => "Wallet " ++ identifier ++ " not found"
  | ownerMissing wallet asset => "Wallet " ++ wallet ++ " of asset " ++ asset ++ " is not saved"
  | sequencerMissing => "Ledger wallets need a derivation sequencer"
  | unknownName text category => quoted text ++ " is not a valid " ++ category
  | unreadableNumber text => "could not convert string to float: " ++ quoted text
  | schedule fault => fault.message
  | unreadable (.tooManyDigits count) => tooManyDigitsMessage count
  | _ => ""

/-- The member of a category with a given name, or the failure that names what was looked for. -/
def memberOrFail {α : Type} [Named α] (s : String) : Except Failure α :=
  match Named.ofName? s with
  | some a => .ok a
  | none => .error (.unknownName s (Named.category α))

end Failure

/-- A record that a value writes, or the failure that names its faults. -/
def Schema.Model.validate {α : Type} (m : Schema.Model α) (j : Json) : Except Failure α :=
  match m.read j with
  | .valid a => .ok a
  | .faulty fs => .error (.rejected m.name fs)

/-- The result of decimal arithmetic, with its signal as a failure. -/
def Decimal.orFail {α : Type} : Except Decimal.Signal α → Except Failure α :=
  Except.mapError .arithmetic

end ChainWallet
