import ChainWallet.Ledger.AddressList

/-!
# Derivation steps

A ledger wallet gets its addresses app by app. A step names the app to open on the device, the call to
make there, and the assets whose address comes from it.

`Step.record` writes a derived address into a draft: either every matching asset accepts it and gets it,
or the draft stays as it is and the step is refused.
-/

namespace ChainWallet.Ledger

/-- One derivation of a wallet. -/
structure Step where
  chain : Chain
  appLabel : String
  assetTypes : List AssetType
  /-- The chains of the matching assets; without it assets of all chains match, and such with none. -/
  chains : Option (List Chain)
  /-- The prefix of the addresses; without it, or with an empty one, that of the wallet. -/
  addressPrefix : Option String
  isEvm : Bool
  isPrimary : Bool
  awaitsAppSwitch : Bool
  deriving DecidableEq, Repr

namespace Step

/-- Whether the address of an asset comes from a step. -/
def covers (s : Step) (a : Asset) : Bool :=
  s.assetTypes.contains a.assetType
    && match s.chains with
      | none => true
      | some cs => match a.chain with
        | none => false
        | some c => cs.contains c

/-- The prefix that a step asks the device for. -/
def prefixFor (s : Step) (w : WalletDraft) : String :=
  match s.addressPrefix with
  | some p => if p.isEmpty then w.networkPrefix else p
  | none => w.networkPrefix

def call (s : Step) (w : WalletDraft) : DeviceCall :=
  if s.isEvm then .evmAddress w.addressIndex w.standard false
  else .address w.addressIndex (s.prefixFor w) s.chain w.standard false

/-- The assets with an address set on those that a step covers. -/
def writeAddress (s : Step) (address : String) (a : Asset) : Asset :=
  if s.covers a then { a with address } else a

/-- A draft with a derived address, unless an asset that the step covers refuses it. -/
def record (s : Step) (address : String) (migrate : Bool) (w : WalletDraft) :
    Except Failure WalletDraft :=
  if (w.assets.filter s.covers).all (·.accepts address migrate) then
    .ok { w with
      assets := w.assets.map (s.writeAddress address)
      address := if s.isPrimary then address else w.address }
  else .error (.addressMismatch address s.chain)

/-! ### Characterization -/

/-- An address is recorded exactly if every covered asset accepts it. -/
theorem record_eq_ok_iff {s : Step} {address : String} {migrate : Bool} {w w' : WalletDraft} :
    s.record address migrate w = .ok w'
      ↔ (∀ a ∈ w.assets, s.covers a = true → a.accepts address migrate = true)
        ∧ w' = { w with
          assets := w.assets.map (s.writeAddress address)
          address := if s.isPrimary then address else w.address } := by
  have hall : (w.assets.filter s.covers).all (·.accepts address migrate) = true
      ↔ ∀ a ∈ w.assets, s.covers a = true → a.accepts address migrate = true := by
    simp only [List.all_eq_true, List.mem_filter, and_imp]
  rw [← hall]
  unfold record
  split
  · next h => simp only [Except.ok.injEq, h, true_and, eq_comm]
  · next h => simp only [reduceCtorEq, h, false_and]

/-- If one of them refuses, the step does. -/
theorem record_of_refusing {s : Step} {address : String} {migrate : Bool} {w : WalletDraft} {a : Asset}
    (mem : a ∈ w.assets) (covered : s.covers a = true) (refuses : a.accepts address migrate = false) :
    s.record address migrate w = .error (.addressMismatch address s.chain) := by
  unfold record
  rw [if_neg]
  intro hall
  have haccepts := List.all_eq_true.mp hall a (List.mem_filter.mpr ⟨mem, covered⟩)
  rw [refuses] at haccepts
  cases haccepts

end Step

/-- The step for the Crypto.org chain. Its app is the one that the owner opens first, so nothing is
waited for; its address becomes that of the wallet. -/
def cryptoOrgStep : Step where
  chain := .cryptoOrg
  appLabel := "Crypto.org"
  assetTypes := [.tendermint, .ibc]
  chains := some [.cryptoOrg]
  addressPrefix := none
  isEvm := false
  isPrimary := true
  awaitsAppSwitch := false

/-- The step for all EVM chains; one address serves them all. -/
def evmStep : Step where
  chain := .cronos
  appLabel := "Ethereum"
  assetTypes := [.evm, .crc20, .erc20]
  chains := none
  addressPrefix := none
  isEvm := true
  isPrimary := false
  awaitsAppSwitch := true

def cosmosHubStep : Step where
  chain := .cosmosHub
  appLabel := "Cosmos"
  assetTypes := [.tendermint]
  chains := some [.cosmosHub]
  addressPrefix := some cosmosHubPrefix
  isEvm := false
  isPrimary := false
  awaitsAppSwitch := true

/-- The steps of a wallet; only a ledger wallet has any. -/
def stepsFor : WalletKind → List Step
  | .ledger => [cryptoOrgStep, evmStep, cosmosHubStep]
  | .normal => []

end ChainWallet.Ledger
