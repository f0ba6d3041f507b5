import ChainWallet.Api.Origin
import ChainWallet.Market.Resolver
import ChainWallet.Store.Basic

/-!
# Prices over HTTP

The interface has three pages under `/prices`: the stored price of a token, the present price of a
stored asset, and the prices of a stored asset over time.

* `Page.ofPath?` — the page at a path. A path is decoded before it is taken apart, so a slash inside an
  identifier cannot be told from one between two parts.
* `Service.storedPrice`, `Service.price`, `Service.history` — what the pages show.
* `Service.respond` — the answer to any request. A failure that a page has no answer for ends in a
  server error.
-/

namespace ChainWallet.Api

open Text

/-- The pages, with what their paths name. -/
inductive Page where
  | storedPrice (assetType symbol : String)
  | price (identifier : String)
  | history (identifier : String)
  deriving DecidableEq, Repr

namespace Page

/-- The last part of a history's path; a line break behind it does not count. -/
def isHistory (part : String) : Bool :=
  part == "history" || part == "history\n"

/-- The page at the parts of a path behind `/prices`. -/
def ofParts? : List String → Option Page
  | ["stored", assetType, symbol] => some (storedPrice assetType symbol)
  | [identifier] => some (price identifier)
  | [identifier, last] => if isHistory last then some (history identifier) else none
  | _ => none

/-- The page at a decoded path, the interface being at `base`. Every part has a character. -/
def ofPath? (base : String) (path : List Char) : Option Page :=
  let start := (base ++ "/prices/").toList
  if start.isPrefixOf path then
    let parts := pieces '/' (path.drop start.length)
    if parts.any (·.isEmpty) then none else ofParts? (parts.map String.ofList)
  else none

end Page

/-- What the interface works with. -/
structure Service where
  /-- The path under which the pages are. -/
  base : String
  /-- The origins whose pages may read answers. -/
  origins : List String
  defaultCurrency : String
  resolver : Resolver

namespace Service

/-- The interval of a history unless the request names one. -/
def standardInterval : String := "d"

def currency (v : Service) (c : Call) : String :=
  (c.param? "currency").getD v.defaultCurrency

def storedPrice (v : Service) (s : Store) (c : Call) (assetType symbol : String) : Answer :=
  match Named.ofName? assetType with
  | none =>
    { status := 422
      body := .json (.arr [.obj [("type", .str "enum"), ("loc", .arr [.str "path", .str "asset_type"])]]) }
  | some t =>
    match s.findPrice t symbol (v.currency c) with
    | none => .refusal 404 "No stored price"
    | some p => .ok p.toJson

/-- The answer for an asset that is not stored. -/
def assetMissing (identifier : String) : Answer :=
  .refusal 404 ("Asset " ++ identifier ++ " not found")

def price (v : Service) (s : Store) (c : Call) (identifier : String) : Enquiry Answer := do
  match ← .ofExcept (s.findAsset identifier) with
  | none => pure (assetMissing identifier)
  | some a =>
    let p ← v.resolver.assetPrice a (v.currency c)
    pure (.ok p.toJson)

/-- The answer that a history's outcome leads to; some failures have none. -/
def historyAnswer : Except Failure PriceSeries → Except Failure Answer
  | .ok series => .ok (.ok series.toJson.withoutNonFinite)
  | .error f =>
    if f.cls = .slugNotFound then .ok (.refusal 404 f.message)
    else if f.cls.isFeedFailure || f.cls = .client then .ok (.refusal 502 "Price feed unavailable")
    else .error f

/-- The prices of a stored asset over time. -/
def history (v : Service) (s : Store) (c : Call) (identifier : String) : Enquiry Answer := do
  match ← .ofExcept (s.findAsset identifier) with
  | none => pure (assetMissing identifier)
  | some a =>
    let interval := (c.param? "interval").getD standardInterval
    let found ← (v.resolver.priceSeries a (v.currency c) interval).attempt
    .ofExcept (historyAnswer found)

def display (v : Service) (s : Store) (c : Call) : Page → Enquiry Answer
  | .storedPrice assetType symbol => pure (v.storedPrice s c assetType symbol)
  | .price identifier => v.price s c identifier
  | .history identifier => v.history s c identifier

/-- The answer for a path without a page: a path that ends in slashes leads to the one without. -/
def elsewhere (v : Service) (path : List Char) : Answer :=
  if path.getLast? = some '/' ∧ path ≠ ['/']
      ∧ (Page.ofPath? v.base (path.reverse.dropWhile (· == '/')).reverse).isSome then .redirect
  else .notFound

/-- The answer to a request, before the origin of the page that asked is looked at. -/
def dispatch (v : Service) (s : Store) (c : Call) : Enquiry Answer :=
  match Page.ofPath? v.base c.path with
  | none => pure (v.elsewhere c.path)
  | some page => if c.method = "GET" then v.display s c page else pure .methodNotAllowed

/-- A body as a client gets to see it: the headers alone have none. -/
def withoutBody (c : Call) (a : Answer) : Answer :=
  if c.method = "HEAD" then { a with body := .text "" } else a

def answer (v : Service) (s : Store) (c : Call) : Enquiry Answer := do
  match c.preflight?, v.origins with
  -- Without configured origins a preflight is a request like any other.
  | some p, _ :: _ => pure (p.answer v.origins)
  | _, _ =>
    match ← (v.dispatch s c).attempt with
    | .ok a =>
      pure (withoutBody c (if a.body.isEncodable then a.forOrigin v.origins c else .serverError))
    -- A server error is answered before any origin is looked at.
    | .error _ => pure (withoutBody c .serverError)

end Service

end ChainWallet.Api
