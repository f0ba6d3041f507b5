import ChainWallet.Naming
import ChainWallet.Schema

/-!
# Assets

An asset is a coin or token that a wallet holds: which chain it lives on, what it is called there and
on the main network, how much of it there is, and the chain address it is held at.

* `AssetType` and `Chain` — the kinds of assets and the chains, by their names.
* `Asset.accepts` — an address may be set while there is none, and may be set again to itself; only
  an override replaces an address by another one.
* `Asset.model` and `AssetConfig.model` — the records that assets are read from.
-/

namespace ChainWallet

/-- The kinds of assets. -/
inductive AssetType where
  | tendermint
  | ibc
  | evm
  | crc20
  | erc20
  deriving DecidableEq, Repr, Inhabited

instance : Named AssetType where
  category := "UserAssetType"
  members := [.tendermint, .ibc, .evm, .crc20, .erc20]
  name
    | .tendermint => "TENDERMINT"
    | .ibc => "IBC"
    | .evm => "EVM"
    | .crc20 => "CRC_20_TOKEN"
    | .erc20 => "ERC_20_TOKEN"

/-- The chains that the wallet knows. -/
inductive Chain where
  | cryptoOrg
  | cronos
  | ethereum
  | cosmosHub
  deriving DecidableEq, Repr, Inhabited

instance : Named Chain where
  category := "SupportedChainName"
  members := [.cryptoOrg, .cronos, .ethereum, .cosmosHub]
  name
    | .cryptoOrg => "Crypto.org Chain"
    | .cronos => "Cronos Chain"
    | .ethereum => "Ethereum"
    | .cosmosHub => "Cosmos Hub"

/-- Where and how an asset is reached on its chain. -/
structure AssetConfig where
  chain : Chain
  nodeUrl : Option String
  indexingUrl : Option String
  explorerUrl : Option String
  addressPrefix : Option String
  feeGasLimit : Option String
  feeAmount : Option String
  ledgerDisabled : Bool
  deriving DecidableEq, Repr

/-- An asset of a wallet. -/
structure Asset where
  identifier : String
  walletId : String
  assetType : AssetType
  mainnetSymbol : String
  symbol : String
  name : String
  decimals : Int
  balance : Decimal
  address : String
  config : Option AssetConfig
  deriving DecidableEq, Repr

namespace Asset

/-- The chain of an asset, if its configuration names one. -/
def chain (a : Asset) : Option Chain :=
  a.config.map (·.chain)

/-- Whether an address may be set: always with an override, otherwise if it is the first one or the
one that is there. -/
def accepts (a : Asset) (address : String) (override : Bool) : Bool :=
  override || a.address.isEmpty || a.address == address

/-- The asset with an address set, if it accepts it. -/
def assign? (a : Asset) (address : String) (override : Bool) : Option Asset :=
  if a.accepts address override then some { a with address } else none

/-! ### Characterization -/

theorem accepts_override (a : Asset) (address : String) : a.accepts address true = true := by
  simp [accepts]

theorem accepts_iff (a : Asset) (address : String) :
    a.accepts address false = true ↔ a.address = "" ∨ a.address = address := by
  simp [accepts]

theorem assign?_eq_some_iff {a b : Asset} {address : String} {override : Bool} :
    a.assign? address override = some b
      ↔ a.accepts address override = true ∧ b = { a with address } := by
  unfold assign?
  by_cases h : a.accepts address override = true
  · rw [if_pos h]
    exact ⟨fun e => ⟨h, (Option.some.inj e).symm⟩, fun e => by rw [e.2]⟩
  · rw [if_neg h]
    simp [h]

end Asset

open Schema

def AssetConfig.model : Model AssetConfig where
  name := "AssetConfig"
  read := record fun ms =>
    let optionalText (name : String) : Checked (Option String) := ms.optional name none (nullable text)
    AssetConfig.mk <$> ms.required "chain_name" (member Named.ofName?)
      <*> optionalText "node_url" <*> optionalText "indexing_url" <*> optionalText "explorer_url"
      <*> optionalText "address_prefix" <*> optionalText "fee_gas_limit" <*> optionalText "fee_amount"
      <*> ms.optional "is_ledger_support_disabled" false boolean

def Asset.model : Model Asset where
  name := "Asset"
  read := record fun ms =>
    Asset.mk <$> ms.required "identifier" text <*> ms.optional "wallet_id" "" text
      <*> ms.required "asset_type" (member Named.ofName?) <*> ms.required "mainnet_symbol" text
      <*> ms.required "symbol" text <*> ms.optional "name" "" text
      <*> ms.optional "decimals" 0 integer <*> ms.optional "balance" .zero decimal
      <*> ms.optional "address" "" text
      <*> ms.optional "config" none (nullable AssetConfig.model.read)

end ChainWallet
