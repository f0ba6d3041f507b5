import ChainWallet.Decimal.Printer
import ChainWallet.Decimal.Reader
import ChainWallet.Failure
import ChainWallet.Keyed
import ChainWallet.Market.Price
import ChainWallet.Wallet.Draft

/-!
# The store

The store keeps three tables: wallets, assets and prices. A row is found by its key — the identifier of
a wallet or an asset, the type, symbol and currency of a price — and rows come in the order in which
their keys were first saved. Saving under a key that is there replaces the row, and the last save wins.

* `WalletRow`, `AssetRow` — what is kept of a wallet and an asset. The fee settings of an asset have no
  column; its balance is kept as a text that writes the decimal exactly.
* `Store.saveWallet`, `Store.saveAssets`, `Store.savePrice` — the writes. A write that fails changes
  nothing.
* `Store.findDraft`, `Store.walletAssets`, `Store.allAssets`, `Store.findAsset`, `Store.findPrice` —
  the reads.
-/

namespace ChainWallet

/-- What the store keeps of a wallet. -/
structure WalletRow where
  identifier : String
  name : String
  address : String
  addressIndex : Int
  standard : DerivationStandard
  kind : WalletKind
  networkPrefix : String
  deriving DecidableEq, Repr

/-- What the store keeps of the configuration of an asset. -/
structure ChainColumns where
  chain : Chain
  nodeUrl : Option String
  indexingUrl : Option String
  explorerUrl : Option String
  addressPrefix : Option String
  deriving DecidableEq, Repr

/-- What the store keeps of an asset. -/
structure AssetRow where
  identifier : String
  /-- The identifier of the wallet that the asset belongs to. -/
  owner : String
  assetType : AssetType
  mainnetSymbol : String
  symbol : String
  name : String
  decimals : Int
  balance : String
  address : String
  columns : Option ChainColumns
  deriving DecidableEq, Repr

/-- The key of a price. -/
structure PriceKey where
  assetType : AssetType
  symbol : String
  currency : String
  deriving DecidableEq, Repr

/-- The key under which the store keeps a price. -/
def MarketPrice.storeKey (p : MarketPrice) : PriceKey :=
  ⟨p.assetType, p.symbol, p.currency⟩

/-- The tables of the store. -/
structure Store where
  wallets : List WalletRow
  assets : List AssetRow
  prices : List MarketPrice
  deriving DecidableEq, Repr

/-! ### Rows -/

/-- An integer has a column if it has at most 64 bits. -/
def fitsColumn (n : Int) : Bool :=
  -0x8000000000000000 ≤ n && n < 0x8000000000000000

def WalletDraft.row (w : WalletDraft) : WalletRow where
  identifier := w.identifier
  name := w.name
  address := w.address
  addressIndex := w.addressIndex
  standard := w.standard
  kind := w.kind
  networkPrefix := w.networkPrefix

/-- The wallet of a row, with its assets. -/
def WalletRow.draft (r : WalletRow) (assets : List Asset) : WalletDraft where
  identifier := r.identifier
  name := r.name
  address := r.address
  addressIndex := r.addressIndex
  standard := r.standard
  kind := r.kind
  networkPrefix := r.networkPrefix
  assets := assets

def AssetConfig.columns (c : AssetConfig) : ChainColumns where
  chain := c.chain
  nodeUrl := c.nodeUrl
  indexingUrl := c.indexingUrl
  explorerUrl := c.explorerUrl
  addressPrefix := c.addressPrefix

def ChainColumns.config (c : ChainColumns) : AssetConfig where
  chain := c.chain
  nodeUrl := c.nodeUrl
  indexingUrl := c.indexingUrl
  explorerUrl := c.explorerUrl
  addressPrefix := c.addressPrefix
  -- There are no columns for these three.
  feeGasLimit := none
  feeAmount := none
  ledgerDisabled := false

/-- The row of an asset. An asset without a configuration leaves the columns that are there. -/
def Asset.row (a : Asset) (present : Option AssetRow) : AssetRow where
  identifier := a.identifier
  owner := a.walletId
  assetType := a.assetType
  mainnetSymbol := a.mainnetSymbol
  symbol := a.symbol
  name := a.name
  decimals := a.decimals
  balance := a.balance.toText
  address := a.address
  columns := match a.config with
    | some c => some c.columns
    | none => present.bind (·.columns)

def AssetRow.asset (r : AssetRow) : Except Failure Asset :=
  match Decimal.read? r.balance with
  | none => .error (.arithmetic .invalidOperation)
  | some balance => .ok {
      identifier := r.identifier
      walletId := r.owner
      assetType := r.assetType
      mainnetSymbol := r.mainnetSymbol
      symbol := r.symbol
      name := r.name
      decimals := r.decimals
      balance
      address := r.address
      config := r.columns.map (·.config) }

namespace Store

def empty : Store := ⟨[], [], []⟩

/-! ### Writing -/

def findWallet (s : Store) (identifier : String) : Option WalletRow :=
  Keyed.find? WalletRow.identifier identifier s.wallets

def findAssetRow (s : Store) (identifier : String) : Option AssetRow :=
  Keyed.find? AssetRow.identifier identifier s.assets

def saveWallet (s : Store) (w : WalletDraft) : Except Failure Store :=
  if fitsColumn w.addressIndex then
    .ok { s with wallets := Keyed.upsert WalletRow.identifier w.row s.wallets }
  else .error .integerRange

def saveAsset (s : Store) (a : Asset) : Except Failure Store :=
  match s.findWallet a.walletId with
  | none => .error (.ownerMissing a.walletId a.identifier)
  | some _ =>
    -- The owner is looked for first, so an asset without one has no other fault.
    if fitsColumn a.decimals then
      let row := a.row (s.findAssetRow a.identifier)
      .ok { s with assets := Keyed.upsert AssetRow.identifier row s.assets }
    else .error .integerRange

/-- Saves a list of assets in order, all of them or none. -/
def saveAssets (s : Store) (assets : List Asset) : Except Failure Store :=
  assets.foldlM saveAsset s

def savePrice (s : Store) (p : MarketPrice) : Store :=
  { s with prices := Keyed.upsert MarketPrice.storeKey p s.prices }

/-- Saves a list of prices in order and tells how many; an empty price leaves the one that is there. -/
def saveMarketPrices (s : Store) (prices : List MarketPrice) : Nat × Store :=
  let found := prices.filter (!·.price.isEmpty)
  (found.length, found.foldl savePrice s)

/-! ### Reading -/

/-- The assets of the wallet that a row belongs to. -/
def assetsOf (s : Store) (owner : String) : Except Failure (List Asset) :=
  (s.assets.filter (·.owner == owner)).mapM AssetRow.asset

def walletAssets (s : Store) (identifier : String) : Except Failure (List Asset) :=
  match s.findWallet identifier with
  | none => .error (.walletMissing identifier)
  | some r => s.assetsOf r.identifier

def findDraft (s : Store) (identifier : String) : Except Failure WalletDraft :=
  match s.findWallet identifier with
  | none => .error (.walletMissing identifier)
  | some r => (s.assetsOf r.identifier).map r.draft

def allAssets (s : Store) : Except Failure (List Asset) :=
  s.assets.mapM AssetRow.asset

def findAsset (s : Store) (identifier : String) : Except Failure (Option Asset) :=
  (s.findAssetRow identifier).mapM AssetRow.asset

def findPrice (s : Store) (assetType : AssetType) (symbol currency : String) : Option MarketPrice :=
  Keyed.find? MarketPrice.storeKey ⟨assetType, symbol, currency⟩ s.prices

end Store

/-! ### Texts of rows -/

/-- A wallet row as a line of text. -/
def WalletRow.toText (r : WalletRow) : String :=
  "wallet: " ++ r.identifier ++ ", type: " ++ Named.name r.kind ++ ", address: " ++ r.address

/-- An asset row as a line of text. -/
def AssetRow.toText (r : AssetRow) : String :=
  "asset: " ++ r.identifier ++ ", symbol: " ++ r.symbol ++ ", address: " ++ r.address

end ChainWallet
