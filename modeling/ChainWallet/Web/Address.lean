import ChainWallet.Text.Digit
import ChainWallet.Web.Host

/-!
# Web addresses

An address is read leniently and written down in one way: `Address.read` cuts it into scheme, user, host,
port, path, query and fragment, and `Address.toText` puts them together again. Blanks around an address
and line breaks in it do not count, a backslash is as good as a slash, the default port is left out, and
every character that may not stand where it does is percent-encoded.

Only addresses of the schemes with a host are taken apart. Others are told from texts that are no address
at all, but not looked into any further.
-/

namespace ChainWallet.Web

open Text

/-- The default port of a scheme with a host. -/
def defaultPort? (scheme : List Char) : Option Nat :=
  [("http", 80), ("https", 443), ("ws", 80), ("wss", 443), ("ftp", 21)].lookup (String.ofList scheme)

def isAlwaysEncoded (c : Char) : Bool :=
  c.toNat < 0x20 || 0x7E < c.toNat

def encodedInFragment (c : Char) : Bool :=
  isAlwaysEncoded c || " \"<>\x60".toList.contains c

def encodedInQuery (c : Char) : Bool :=
  isAlwaysEncoded c || " \"#<>'".toList.contains c

def encodedInPath (c : Char) : Bool :=
  encodedInFragment c || "#?\x7b\x7d".toList.contains c

/-- Characters that are encoded in the name and password of a user. -/
def encodedInUser (c : Char) : Bool :=
  encodedInPath c || "/:;=@[\\]^|".toList.contains c

/-- Why a text is not an address. -/
inductive AddressFault where
  | unreadable
  /-- An address, but of a scheme that is not asked for. -/
  | otherScheme
  deriving DecidableEq, Repr

/-- An address with every part as it is written down. -/
structure Address where
  scheme : List Char
  /-- The user with the sign behind it, if there is one. -/
  user : List Char
  host : List Char
  port : Option Nat
  path : List Char
  query : Option (List Char)
  fragment : Option (List Char)
  deriving DecidableEq, Repr

namespace Address

def isSchemeChar (c : Char) : Bool :=
  c.isAlphanum || c == '+' || c == '-' || c == '.'

/-- The scheme of an address, in lower case, and what follows the colon behind it. -/
def splitScheme? (cs : List Char) : Option (List Char × List Char) :=
  let (scheme, rest) := cs.span isSchemeChar
  match scheme, rest with
  | c :: _, ':' :: rest => if c.isAlpha then some (scheme.map Char.toLower, rest) else none
  | _, _ => none

/-- Whether a character ends the authority of an address; a backslash may. -/
def endsAuthority (backslash : Bool) (c : Char) : Bool :=
  c == '/' || c == '?' || c == '#' || (backslash && c == '\\')

/-- An authority in two: what stands before its last at sign, and the rest. -/
def splitUser (authority : List Char) : List Char × List Char :=
  let behind := (authority.reverse.takeWhile (· != '@')).reverse
  ((authority.take (authority.length - behind.length)).dropLast, behind)

/-- A user written down: the name, the password behind a colon if there is one, and an at sign. -/
def userText (user : List Char) : List Char :=
  let (name, rest) := user.span (· != ':')
  let name := percentEncode encodedInUser name
  let password := percentEncode encodedInUser (rest.drop 1)
  let both := if password.isEmpty then name else name ++ ':' :: password
  if both.isEmpty then [] else both ++ ['@']

/-- The host of an authority without a user, and what follows it: a colon in brackets does not end it. -/
def splitHost (inBrackets : Bool) : List Char → List Char × List Char
  | [] => ([], [])
  | c :: rest =>
    if c = ':' ∧ !inBrackets then ([], c :: rest)
    else
      let (host, port) := splitHost (if c = '[' then true else if c = ']' then false else inBrackets) rest
      (c :: host, port)

/-- The number of a port, behind a colon. No digits stand for no port. -/
def readPort? : List Char → Option (Option Nat)
  | [] | [':'] => some none
  | ':' :: ds => ((natOfDigits? ds).filter (· < 65536)).map some
  | _ => none

/-- Whether a segment of a path stands for the place where it is. -/
def isHere (segment : List Char) : Bool :=
  [".", "%2e"].contains (String.ofList (segment.map Char.toLower))

/-- Whether a segment of a path stands for the place above. -/
def isAbove (segment : List Char) : Bool :=
  ["..", ".%2e", "%2e.", "%2e%2e"].contains (String.ofList (segment.map Char.toLower))

/-- The segments of a path without those that stand for places; `done` are those before, in reverse. -/
def settleSegments (done : List (List Char)) : List (List Char) → List (List Char)
  | [] => done.reverse
  | s :: rest =>
    let done := if isAbove s then done.tail else done
    -- At the end of a path such a segment leaves a slash behind.
    if isAbove s || isHere s then
      settleSegments (if rest.isEmpty then [] :: done else done) rest
    else settleSegments (s :: done) rest

def pathText (cs : List Char) : List Char :=
  let cs := cs.map fun c => if c = '\\' then '/' else c
  let segments := pieces '/' (if cs.head? = some '/' then cs.tail else cs)
  '/' :: ['/'].intercalate (settleSegments [] (segments.map (percentEncode encodedInPath)))

/-- What follows a mark, encoded for its place, if the mark is there. -/
def behindMark (encoded : Char → Bool) (cs : List Char) : Option (List Char) :=
  match cs with
  | [] => none
  | _ :: rest => some (percentEncode encoded rest)

/-- An address of a scheme with a host, from what follows the colon. -/
def readHosted? (scheme rest : List Char) : Option Address := do
  -- Slashes before the authority do not count, however many there are, and backslashes are slashes.
  let rest := rest.dropWhile fun c => c == '/' || c == '\\'
  let (authority, rest) := rest.span (!endsAuthority true ·)
  let (user, hostAndPort) := splitUser authority
  let (host, port) := splitHost false hostAndPort
  let host ← if host.isEmpty then none else readHost? host
  let port ← readPort? port
  let (path, rest) := rest.span fun c => c != '?' && c != '#'
  let (query, fragment) := rest.span (· != '#')
  some {
    scheme
    user := userText user
    host
    port := port.filter fun p => defaultPort? scheme != some p
    path := pathText path
    query := behindMark encodedInQuery query
    fragment := behindMark encodedInFragment fragment }

/-- Whether what follows the colon of some other scheme can be read. -/
def isReadable (scheme rest : List Char) : Bool :=
  match rest with
  | '/' :: '/' :: rest =>
    let (_, hostAndPort) := splitUser (rest.takeWhile (!endsAuthority false ·))
    let (host, port) := splitHost false hostAndPort
    let hostIsFine := if host.head? = some '[' then (readHost? host).isSome else !host.any isForbidden
    -- A file has no host that matters.
    scheme == "file".toList || (hostIsFine && (readPort? port).isSome)
  | _ => true

/-- The text of an address without the characters that do not count. -/
def meaningful (s : String) : List Char :=
  (trim (·.toNat ≤ 0x20) s.toList).filter fun c => c != '\t' && c != '\n' && c != '\r'

/-- The address that a text writes, if it is one of the given schemes, each of which has a host. -/
def read (schemes : List String) (s : String) : Except AddressFault Address :=
  match splitScheme? (meaningful s) with
  | none => .error .unreadable
  | some (scheme, rest) =>
    -- A scheme with a default port has a host, and its address is read in full.
    if (defaultPort? scheme).isSome then
      match readHosted? scheme rest with
      | none => .error .unreadable
      | some a => if schemes.contains (String.ofList scheme) then .ok a else .error .otherScheme
    else .error (if isReadable scheme rest then .otherScheme else .unreadable)

def toText (a : Address) : String :=
  let behind (mark : Char) (cs : Option (List Char)) : List Char := (cs.map (mark :: ·)).getD []
  String.ofList (a.scheme ++ "://".toList ++ a.user ++ a.host
    ++ (a.port.map fun p => (":" ++ toString p).toList).getD []
    ++ a.path ++ behind '?' a.query ++ behind '#' a.fragment)

example :
    let rewritten (s : String) : Option String := (read ["http", "https"] s).toOption.map toText
    rewritten " HTTPS://User:@B.test:0443\\a/../c d?x='1'#y z\n"
        = some "https://User@b.test/c%20d?x=%271%27#y%20z"
      ∧ rewritten "http:e.test:80/./x/.." = some "http://e.test/"
      ∧ rewritten "http://:80" = none ∧ rewritten "ftp://f.test" = none := by
  decide +kernel

end Address

end ChainWallet.Web
