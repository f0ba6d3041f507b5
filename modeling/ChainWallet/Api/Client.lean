import ChainWallet.Api.Message
import ChainWallet.Failure
import ChainWallet.Text.UpperCase
import ChainWallet.Web.Host

/-!
# What a client sends

A client writes its request down with a target: a path and perhaps a query, both percent-encoded, or a
whole address. `ClientRequest.send` is what reaches the server. The client settles the places above and
here (`..` and `.`) in the path before anything is decoded, and it refuses what it cannot send.
-/

namespace ChainWallet.Api

open Text

/-- A request as a client writes it. -/
structure ClientRequest where
  method : String
  target : String
  headers : List (String × String)
  deriving DecidableEq, Repr

/-- The parts of a target. What follows a hash sign stays with the client. -/
structure Target where
  scheme : List Char
  user : List Char
  host : List Char
  port : List Char
  path : List Char
  query : List Char
  deriving DecidableEq, Repr

namespace Target

def greatestLength : Nat := 65536

/-- A scheme with a colon behind it, and the rest; the colon may stand alone. -/
def splitScheme (cs : List Char) : List Char × List Char :=
  let (scheme, rest) := cs.span fun c => c.isAlphanum || c == '+' || c == '.' || c == '-'
  match rest with
  | ':' :: rest => if scheme.head?.all Char.isAlpha then (scheme, rest) else ([], cs)
  | _ => ([], cs)

/-- The user, host and port of an authority. -/
def splitAuthority (cs : List Char) : List Char × List Char × List Char :=
  let (user, rest) := cs.span (· != '@')
  let (user, cs) := if rest.isEmpty then ([], cs) else (user, rest.tail)
  let (host, rest) :=
    -- Colons between brackets belong to the host.
    if cs.head? = some '[' ∧ cs.contains ']' then
      let behind := (cs.reverse.takeWhile (· != ']')).reverse
      (cs.take (cs.length - behind.length), behind)
    else cs.span fun c => c != ':' && c != '@'
  (user, host, if rest.head? = some ':' then rest.tail else rest)

def ofChars (cs : List Char) : Target :=
  let (scheme, rest) := splitScheme cs
  let (authority, rest) := match rest with
    -- Without two slashes there is no authority, and everything is path.
    | '/' :: '/' :: rest => rest.span fun c => c != '/' && c != '?' && c != '#'
    | _ => ([], rest)
  let (path, rest) := rest.span fun c => c != '?' && c != '#'
  let query := match rest with
    | '?' :: rest => rest.takeWhile (· != '#')
    | _ => []
  let (user, host, port) := splitAuthority authority
  { scheme, user, host, port, path, query }

/-- Whether a target names nothing but a path and a query. -/
def isBare (t : Target) : Bool :=
  t.scheme.isEmpty && t.user.isEmpty && t.host.isEmpty && t.port.isEmpty

def isWhole (t : Target) : Bool :=
  !t.scheme.isEmpty && !t.host.isEmpty

/-- Whether a host is written like an IPv4 address. -/
def looksLikeIpv4 (host : List Char) : Bool :=
  let parts := pieces '.' host
  parts.length == 4 && parts.all fun p => !p.isEmpty && p.all Char.isDigit

/-- Whether a host can be reached by its name. -/
def hostIsFine (host : List Char) : Bool :=
  if host.head? = some '[' then (Web.readHost? host).isSome
  else !looksLikeIpv4 host || (Web.byteGroups? host).isSome

/-- Whether a target can be sent. Without anything before it, a path must not look like an authority or
a scheme. -/
def isFine (t : Target) : Bool :=
  hostIsFine t.host && t.port.all Char.isDigit
    && !(t.isBare && (['/', '/'].isPrefixOf t.path || t.path.head? = some ':'))

/-- The parts of a path without those that stand for a place; `done` are those before, in reverse. The
place above the beginning is the beginning. -/
def settleParts (done : List (List Char)) : List (List Char) → List (List Char)
  | [] => done.reverse
  | p :: rest =>
    if p = ['.'] then settleParts done rest
    else if p = ['.', '.'] then settleParts (if done = [[]] then done else done.tail) rest
    else settleParts (p :: done) rest

/-- A path without the parts that stand for a place. -/
def settled (path : List Char) : List Char :=
  ['/'].intercalate (settleParts [] (pieces '/' path))

/-- The path that is sent: one without a host is taken from the root. -/
def sentPath (t : Target) : List Char :=
  let path := if t.isBare then t.path else settled t.path
  let path := if t.isWhole then path else settled ('/' :: path.dropWhile (· == '/'))
  if path.isEmpty then ['/'] else path

example : (ofChars "//a/./b/../c".toList).sentPath = "/c".toList
    ∧ (ofChars "/a/%2e/b/..".toList).sentPath = "/a/%2e".toList
    ∧ (ofChars "/..".toList).sentPath = "/".toList
    ∧ (ofChars "http://host?x#y".toList).sentPath = "/".toList := by
  decide +kernel

end Target

namespace ClientRequest

/-- Whether a character can be in a target. -/
def isTargetChar (c : Char) : Bool :=
  0x20 ≤ c.toNat && c.toNat != 0x7F

def isAscii (s : String) : Bool :=
  s.toList.all (·.toNat < 128)

def send (r : ClientRequest) : Except Failure Call :=
  let cs := r.target.toList
  let target := Target.ofChars cs
  -- Neither a target nor a header that cannot be written is sent at all.
  if Target.greatestLength < cs.length || !cs.all isTargetChar || !target.isFine then
    .error .invalidTarget
  else if !r.headers.all fun (name, value) => isAscii name && isAscii value then
    .error .unencodableHeader
  else .ok {
    method := upper r.method
    path := percentDecode target.sentPath
    query := queryPairs target.query
    headers := r.headers }

end ClientRequest

end ChainWallet.Api
