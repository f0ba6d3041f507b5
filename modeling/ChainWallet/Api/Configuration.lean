import ChainWallet.Failure
import ChainWallet.Web.Address

/-!
# How the HTTP interface is set up

The interface is set up by a record: the path at which its pages are, and the web addresses of the pages
that may read its answers.
-/

namespace ChainWallet.Api

open Schema

/-- A web address of one of the two schemes of pages. -/
def webAddress : Reader Web.Address
  | .str s =>
    ofText (fun s => match Web.Address.read ["http", "https"] s with
      | .ok a => pure a
      | .error .unreadable => .refuse .unreadableAddress
      | .error .otherScheme => .refuse .otherScheme) s
  | _ => .refuse .notAnAddress

/-- How the interface is set up. -/
structure Configuration where
  title : String
  /-- The path under which the pages are. -/
  base : String
  /-- The addresses whose pages may read answers. -/
  origins : List Web.Address
  deriving DecidableEq, Repr

namespace Configuration

/-- The title of the interface unless it is configured. -/
def standardTitle : String := "crowallet-api"

/-- The path of the interface unless it is configured. -/
def standardBase : String := "/api/v1"

def model : Model Configuration where
  name := "Settings"
  read := record fun ms =>
    Configuration.mk <$> ms.optional "PROJECT_NAME" standardTitle text
      <*> ms.optional "API_PATH" standardBase text
      <*> ms.optional "BACKEND_CORS_ORIGINS" [] (list webAddress)

/-- Whether pages can be at a path: it is empty, or begins with a slash and ends in none. -/
def isBase (path : String) : Bool :=
  let cs := path.toList
  cs.isEmpty || (cs.head? = some '/' && cs.getLast? ≠ some '/')

def read (j : Json) : Except Failure Configuration := do
  let c ← model.validate j
  if isBase c.base then pure c else .error .invalidBase

/-- An address without the slashes at its end. -/
def originText (a : Web.Address) : String :=
  String.ofList (a.toText.toList.reverse.dropWhile (· == '/')).reverse

def originTexts (c : Configuration) : List String :=
  c.origins.map originText

end Configuration

end ChainWallet.Api
