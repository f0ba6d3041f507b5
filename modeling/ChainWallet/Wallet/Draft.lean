import ChainWallet.Asset

/-!
# Wallet drafts

A draft is a wallet with its assets as a value, before it is stored or after it was loaded. The
addresses of a normal wallet come with the draft; those of a ledger wallet are derived on a device.
-/

namespace ChainWallet

/-- How the accounts of a wallet are numbered in derivation paths. -/
inductive DerivationStandard where
  | bip44
  | ledgerLive
  deriving DecidableEq, Repr, Inhabited

instance : Named DerivationStandard where
  category := "DerivationPathStandard"
  members := [.bip44, .ledgerLive]
  name
    | .bip44 => "bip-44"
    | .ledgerLive => "ledger-live"

/-- Where the keys of a wallet are. -/
inductive WalletKind where
  | normal
  | ledger
  deriving DecidableEq, Repr, Inhabited

instance : Named WalletKind where
  category := "WalletType"
  members := [.normal, .ledger]
  name
    | .normal => "normal"
    | .ledger => "ledger"

/-- A wallet with its assets. -/
structure WalletDraft where
  identifier : String
  name : String
  address : String
  addressIndex : Int
  standard : DerivationStandard
  kind : WalletKind
  networkPrefix : String
  assets : List Asset
  deriving DecidableEq, Repr

namespace WalletDraft

/-- The human-readable part of addresses of the main network. -/
def mainnetPrefix : String := "cro"

def assetsWithoutAddress (w : WalletDraft) : List Asset :=
  w.assets.filter (·.address.isEmpty)

/-- The draft with every asset that names no wallet put into this one. -/
def attachAssets (w : WalletDraft) : WalletDraft :=
  { w with assets := w.assets.map fun a =>
      if a.walletId.isEmpty then { a with walletId := w.identifier } else a }

open Schema

def model : Model WalletDraft where
  name := "WalletDraft"
  read := record fun ms =>
    WalletDraft.mk <$> ms.required "identifier" text <*> ms.optional "name" "" text
      <*> ms.optional "address" "" text <*> ms.optional "address_index" 0 integer
      <*> ms.optional "derivation_path_standard" .bip44 (member Named.ofName?)
      <*> ms.optional "wallet_type" .normal (member Named.ofName?)
      <*> ms.optional "network_address_prefix" mainnetPrefix text
      <*> ms.optional "assets" [] (list Asset.model.read)

end WalletDraft

end ChainWallet
