import ChainWallet.Json.Basic
import ChainWallet.Text.Quoted
import ChainWallet.Text.Surrogate

/-!
# Writing JSON

`Json.render` writes a value on one line, with a blank behind each comma and colon, and in ASCII: all
other characters are written as `\u` escapes of their UTF-16 units, among them the halves of pairs whose other
half is missing.
-/

namespace ChainWallet

open Text

namespace Json

def unitEscape (unit : Nat) : List Char :=
  '\\' :: 'u' :: hexDigits unit 4

def escapeChar (c : Char) : List Char :=
  let n := c.toNat
  if c = '"' then ['\\', '"']
  else if c = '\\' then ['\\', '\\']
  else if c = '\n' then ['\\', 'n']
  else if c = '\r' then ['\\', 'r']
  else if c = '\t' then ['\\', 't']
  else if c = '\x08' then ['\\', 'b']
  else if c = '\x0c' then ['\\', 'f']
  else if 0x20 ≤ n && n < 0x7F then [c]
  else if n < 0x10000 then unitEscape n
  else match loneHalf? c with
    | some unit => unitEscape unit
    | none =>
      let m := n - 0x10000
      unitEscape (0xD800 + m / 0x400) ++ unitEscape (0xDC00 + m % 0x400)

def renderText (s : String) : String :=
  String.ofList ('"' :: s.toList.flatMap escapeChar ++ ['"'])

def renderFloat (x : Binary64) : String :=
  if x.isNaN then "NaN"
  else if x.isFinite then x.toText
  else if x.negative then "-Infinity" else "Infinity"

mutual

def render : Json → String
  | null => "null"
  | bool true => "true"
  | bool false => "false"
  | int n => toString n
  | float x => renderFloat x
  | str s => renderText s
  | arr items => "[" ++ String.intercalate ", " (renderItems items) ++ "]"
  | obj members => "\x7b" ++ String.intercalate ", " (renderMembers members) ++ "\x7d"

/-- The texts of the items of a list. -/
def renderItems : List Json → List String
  | [] => []
  | j :: rest => render j :: renderItems rest

/-- The texts of the members of an object. -/
def renderMembers : List (String × Json) → List String
  | [] => []
  | (n, j) :: rest => (renderText n ++ ": " ++ render j) :: renderMembers rest

end

end Json

end ChainWallet
