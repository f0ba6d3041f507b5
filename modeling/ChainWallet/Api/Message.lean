import ChainWallet.Json.Basic

/-!
# Requests and answers of the HTTP interface

A request has a method, a path, the names and values of its query, and headers. An answer has a status
and a body.
-/

namespace ChainWallet.Api

/-- A request as it reaches the interface. -/
structure Call where
  /-- The method, in upper case. -/
  method : String
  /-- The decoded path. -/
  path : List Char
  query : List (String × String)
  headers : List (String × String)
  deriving DecidableEq, Repr

namespace Call

/-- The value of a name in the query; of several ones the last counts. -/
def param? (c : Call) (name : String) : Option String :=
  c.query.reverse.lookup name

/-- The value of a header; the letter case of its name does not count. -/
def header? (c : Call) (name : String) : Option String :=
  (c.headers.find? fun h => h.1.toLower == name).map Prod.snd

end Call

/-- The body of an answer. -/
inductive Body where
  | json (value : Json)
  | text (content : String)

/-- Whether a body can be written in UTF-8. -/
def Body.isEncodable : Body → Bool
  | .json value => value.isEncodable
  | .text _ => true

/-- An answer to a client. -/
structure Answer where
  status : Nat
  body : Body
  /-- The origin whose pages may read the answer. -/
  allowOrigin : Option String := none

namespace Answer

def ok (value : Json) : Answer := { status := 200, body := .json value }

def refusal (status : Nat) (reason : String) : Answer :=
  { status, body := .json (.obj [("detail", .str reason)]) }

/-- The answer for an address that does not exist. -/
def notFound : Answer := refusal 404 "Not Found"

/-- The answer for an address that exists, but not for the method. -/
def methodNotAllowed : Answer := refusal 405 "Method Not Allowed"

/-- The answer for an address that exists without its final slashes. -/
def redirect : Answer := { status := 307, body := .text "" }

/-- The answer for a request that the server failed on. -/
def serverError : Answer := { status := 500, body := .text "Internal Server Error" }

end Answer

end ChainWallet.Api
