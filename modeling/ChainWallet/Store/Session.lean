import ChainWallet.Store.Basic

/-!
# Sessions

The store is written to in sessions. A session sees its own writes at once; every other one sees them
when they are committed, and what is not committed when a session is closed is lost.

* `Session.saveWallet`, `Session.savePrice` — save a wallet or a price and commit it.
* `Session.saveAssets` — saves assets one by one, each of which sees those before it, and commits after
  the last one. One that fails ends it there, with the assets before it saved but not committed.
-/

namespace ChainWallet

/-- A session that works on the store. -/
structure Session where
  /-- What every other session sees. -/
  committed : Store
  /-- What the session itself sees. -/
  current : Store
  deriving DecidableEq, Repr

namespace Session

def on (s : Store) : Session := ⟨s, s⟩

/-- Makes the writes of a session visible to all. -/
def commit (x : Session) : Session := ⟨x.current, x.current⟩

/-- What is left of a session that ends. -/
def close (x : Session) : Store := x.committed

def saveWallet (x : Session) (w : WalletDraft) : Except Failure Unit × Session :=
  match x.current.saveWallet w with
  | .error f => (.error f, x)
  | .ok s => (.ok (), { x with current := s }.commit)

def savePrice (x : Session) (p : MarketPrice) : Session :=
  { x with current := x.current.savePrice p }.commit

/-- Saves assets in order, up to the first one that fails, without committing them. -/
def addAssets (x : Session) : List Asset → Except Failure Unit × Session
  | [] => (.ok (), x)
  | a :: rest =>
    match x.current.saveAsset a with
    | .error f => (.error f, x)
    | .ok s => { x with current := s }.addAssets rest

def saveAssets (x : Session) (assets : List Asset) : Except Failure Unit × Session :=
  match x.addAssets assets with
  | (.error f, x) => (.error f, x)
  | (.ok (), x) => (.ok (), x.commit)

end Session

end ChainWallet
