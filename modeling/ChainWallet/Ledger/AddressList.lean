import ChainWallet.Ledger.Device
import ChainWallet.Ledger.Path

/-!
# Lists of addresses to pick from

Before a wallet is created its owner picks an account from the first addresses of a chain.
`AddressQuery.run` asks the device for a range of indices and pairs each address with its index and
path. Only asset types with chain addresses of their own have a list (`AddressQuery.calls?`); for all
others the list is empty and the device is not asked.
-/

namespace ChainWallet.Ledger

/-- The prefix of addresses on the Cosmos Hub. -/
def cosmosHubPrefix : String := "cosmos"

/-- The number of addresses on the first page of a list. -/
def pageSize : Int := 10

/-- An address to pick. -/
structure AddressEntry where
  index : Int
  address : String
  path : String
  balance : String
  deriving DecidableEq, Repr

open Schema in
def AddressEntry.model : Model AddressEntry where
  name := "LedgerAddressEntry"
  read := record fun ms =>
    AddressEntry.mk <$> ms.required "index" integer <*> ms.required "public_address" text
      <*> ms.required "derivation_path" text <*> ms.optional "balance" "0" text

/-- What a list is asked for: the addresses with the indices from `start` to before `stop`. -/
structure AddressQuery where
  assetType : AssetType
  chain : Chain
  standard : DerivationStandard
  addressPrefix : String
  start : Int
  stop : Int
  deriving DecidableEq, Repr

namespace AddressQuery

def indices (q : AddressQuery) : List Int :=
  (List.range (q.stop - q.start).toNat).map fun (i : Nat) => q.start + (i : Int)

/-- How the device is asked for one address of the list, for assets that have a list. -/
def call? (q : AddressQuery) (index : Int) : Option DeviceCall :=
  match q.assetType, q.chain with
  | .evm, _ => some (.evmAddress index q.standard false)
  | .tendermint, .cryptoOrg => some (.address index q.addressPrefix .cryptoOrg q.standard false)
  | .tendermint, .cosmosHub => some (.address index cosmosHubPrefix .cosmosHub q.standard false)
  | _, _ => none

/-- Whether the addresses of the list belong to a test network. Only the Crypto.org chain tells its
networks apart by the prefix. -/
def testnet (q : AddressQuery) : Bool :=
  match q.assetType, q.chain with
  | .tendermint, .cryptoOrg => isTestnetPrefix q.addressPrefix
  | _, _ => false

/-- The entry for an index and the address that the device gave for it. -/
def entry (q : AddressQuery) (index : Int) (address : String) : AddressEntry where
  index := index
  address := address
  path := derivationPath index q.assetType q.chain q.standard q.testnet
  balance := "0"

/-- The list, and the calls made including the earlier ones. -/
def run (q : AddressQuery) (device : Device) (earlier : List DeviceCall) :
    Except Failure (List AddressEntry) × List DeviceCall :=
  match q.indices.mapM q.call? with
  | none => (.ok [], earlier)
  | some calls =>
    let (addresses, made) := device.ask earlier calls
    (addresses.map (List.zipWith q.entry q.indices), made)

end AddressQuery

end ChainWallet.Ledger
