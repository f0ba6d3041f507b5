import ChainWallet.Ledger.Sequencer

/-!
# Is the right app open?

Before a wallet is created its owner can check that the device answers on the app of a step. The check
makes the call that a run would make and reports its failure in the words of a run, but it tells no
listener, waits for nothing and changes no draft.
-/

namespace ChainWallet.Ledger

/-- What a check found. -/
structure AppConnection where
  chain : Chain
  connected : Bool
  message : String
  errorKind : Option DeviceErrorKind
  deriving DecidableEq, Repr

open Schema in
def AppConnection.model : Model AppConnection where
  name := "AppConnectionStatus"
  read := record fun ms =>
    AppConnection.mk <$> ms.required "chain_name" (member Named.ofName?)
      <*> ms.required "connected" boolean <*> ms.optional "message" "" text
      <*> ms.optional "error_kind" none (nullable (member Named.ofName?))

/-- An empty ledger wallet with the account that a check asks for. -/
def probeDraft (index : Int) (addressPrefix : String) (standard : DerivationStandard) : WalletDraft where
  identifier := "app-connection-check"
  name := ""
  address := ""
  addressIndex := index
  standard := standard
  kind := .ledger
  networkPrefix := addressPrefix
  assets := []

/-- Checks the app of a step, given the calls that the device has seen; returns them with one more. -/
def checkConnection (device : Device) (earlier : List DeviceCall) (step : Step) (index : Int)
    (addressPrefix : String) (standard : DerivationStandard) : AppConnection × List DeviceCall :=
  let call := step.call (probeDraft index addressPrefix standard)
  let status := match device earlier call with
    | .ok _ => ⟨step.chain, true, "", none⟩
    | .error cause =>
      let failure := classify step cause
      ⟨step.chain, false, failure.message, some failure.kind⟩
  (status, earlier ++ [call])

end ChainWallet.Ledger
