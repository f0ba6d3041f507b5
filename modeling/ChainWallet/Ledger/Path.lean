import ChainWallet.Wallet.Draft

/-!
# Derivation paths

The path of an account names its coin and its index. The two standards put the index in different
places: BIP 44 walks the address index, Ledger Live the account index.
-/

namespace ChainWallet.Ledger

def cryptoOrgCoin : Nat := 394

def testnetCoin : Nat := 1

def evmCoin : Nat := 60

def cosmosHubCoin : Nat := 118

/-- Whether assets of a type are held at an EVM address. -/
def isEvmType : AssetType → Bool
  | .evm | .crc20 | .erc20 => true
  | .tendermint | .ibc => false

/-- The coin in the path of an asset. Only the Crypto.org chain has another one on its test network. -/
def coinType (assetType : AssetType) (chain : Chain) (testnet : Bool) : Nat :=
  if isEvmType assetType then evmCoin
  else match chain with
    | .cosmosHub => cosmosHubCoin
    | .cryptoOrg => if testnet then testnetCoin else cryptoOrgCoin
    | .cronos | .ethereum => evmCoin

/-- The path of the account with a given index. -/
def derivationPath (index : Int) (assetType : AssetType) (chain : Chain)
    (standard : DerivationStandard) (testnet : Bool) : String :=
  let coin := "m/44'/" ++ toString (coinType assetType chain testnet) ++ "'/"
  match standard with
  | .ledgerLive => coin ++ toString index ++ "'/0/0"
  | .bip44 => coin ++ "0'/0/" ++ toString index

/-- Whether addresses that begin with a prefix belong to a test network. -/
def isTestnetPrefix (addressPrefix : String) : Bool :=
  addressPrefix.toList.head? == some 't'

end ChainWallet.Ledger
