import ChainWallet.Api.Message

/-!
# Which pages may read answers

A browser shows an answer to the page that asked for it only if the answer names the page's origin. If
origins are configured, an answer to one of them names it, and a browser that asks beforehand what it
may do is told.
-/

namespace ChainWallet.Api

/-- The methods that a browser may be allowed. -/
def allowedMethods : List String := ["GET"]

/-- What a browser asks beforehand. -/
structure Preflight where
  /-- The origin of the page. -/
  origin : String
  /-- The method that the page wants to use. -/
  method : String
  /-- Whether the page is on a public network and the interface on a private one. -/
  crossesNetworks : Bool
  deriving DecidableEq, Repr

/-- Why a browser is not allowed what it asks for. -/
def Preflight.faults (origins : List String) (p : Preflight) : List String :=
  (if origins.contains p.origin then [] else ["origin"])
    ++ (if allowedMethods.contains p.method then [] else ["method"])
    ++ (if p.crossesNetworks then ["private-network"] else [])

/-- The answer to a browser that asks what a page from an origin may do. -/
def Preflight.answer (origins : List String) (p : Preflight) : Answer :=
  let allowOrigin := if origins.contains p.origin then some p.origin else none
  match p.faults origins with
  | [] => { status := 200, body := .text "OK", allowOrigin }
  | faults =>
    { status := 400, body := .text ("Disallowed CORS " ++ String.intercalate ", " faults), allowOrigin }

/-- What a browser asks beforehand with a request, if it does. -/
def Call.preflight? (c : Call) : Option Preflight :=
  if c.method = "OPTIONS" then do
    some {
      origin := ← c.header? "origin"
      method := ← c.header? "access-control-request-method"
      crossesNetworks := (c.header? "access-control-request-private-network").isSome }
  else none

/-- An answer that names the origin of the page that asked, if it is one of the configured ones. -/
def Answer.forOrigin (a : Answer) (origins : List String) (c : Call) : Answer :=
  { a with allowOrigin := (c.header? "origin").filter origins.contains }

end ChainWallet.Api
