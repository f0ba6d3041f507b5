import ChainWallet.Text.Percent
import ChainWallet.Text.Punycode
import ChainWallet.Text.UpperCase

/-!
# Hosts

A host is named in one of three ways, and each has one way in which it is written down.

* `ipv6?` — an IPv6 address in brackets: eight groups, the longest run of zero groups left out.
* `ipv4?` — an IPv4 address: four bytes, which may be given in decimal, octal or hexadecimal digits and in
  fewer parts. Every name that ends in a number is one.
* `domain?` — a name: in lower case and in ASCII, with the labels that are not ASCII in punycode.

`readHost?` tells which one it is.
-/

namespace ChainWallet.Web

open Text

/-! ### Numbers -/

/-- The number that digits of a base write. -/
def ofDigits? (base : Nat) (cs : List Char) : Option Nat := do
  let values ← cs.mapM hexDigitValue?
  if values.all (· < base) then some (values.foldl (fun n d => base * n + d) 0) else none

def part? : List Char → Option Nat
  | [] => none
  | '0' :: 'x' :: ds | '0' :: 'X' :: ds => ofDigits? 16 ds
  | '0' :: ds => ofDigits? 8 ds
  | ds => ofDigits? 10 ds

/-- The lower-case hexadecimal digits of a number, without leading zeros. -/
def hexText (n : Nat) : List Char :=
  Nat.toDigits 16 n

/-! ### IPv4 addresses -/

/-- The parts of a name, without an empty one at its end. -/
def partsOf (name : List Char) : List (List Char) :=
  let parts := pieces '.' name
  if parts.length ≠ 1 ∧ parts.getLast? = some [] then parts.dropLast else parts

/-- Whether a name ends in a number, so that it must be an address. -/
def endsInNumber (name : List Char) : Bool :=
  match (partsOf name).getLast? with
  | none | some [] => false
  | some last => last.all Char.isDigit || match last with
    | '0' :: 'x' :: ds | '0' :: 'X' :: ds => (ofDigits? 16 ds).isSome
    | _ => false

/-- The number of an address: all parts but the last one are bytes, the last one fills the rest. -/
def joinParts? : (bytesLeft : Nat) → List Nat → Option Nat
  | _, [] => none
  | bytesLeft, [last] => if last < Nat.pow 256 bytesLeft then some last else none
  | 0, _ :: _ => none
  | bytesLeft + 1, b :: rest =>
    if b < 256 then (joinParts? bytesLeft rest).map (b * Nat.pow 256 bytesLeft + ·) else none

/-- An IPv4 address, written with its bytes in decimal. -/
def ipv4? (name : List Char) : Option (List Char) := do
  let n ← joinParts? 4 (← (partsOf name).mapM part?)
  let byte (i : Nat) : String := toString (n / Nat.pow 256 i % 256)
  some (String.intercalate "." [byte 3, byte 2, byte 1, byte 0]).toList

/-! ### IPv6 addresses -/

def group? (cs : List Char) : Option Nat :=
  if cs.isEmpty ∨ 4 < cs.length then none else ofDigits? 16 cs

/-- A byte in decimal digits without leading zeros. -/
def byte? (cs : List Char) : Option Nat :=
  if cs.isEmpty ∨ (cs.head? = some '0' ∧ cs.length ≠ 1) then none
  else (ofDigits? 10 cs).filter (· < 256)

/-- The two groups that four bytes between dots make. -/
def byteGroups? (cs : List Char) : Option (List Nat) := do
  match ← (pieces '.' cs).mapM byte? with
  | [a, b, c, d] => some [256 * a + b, 256 * c + d]
  | _ => none

/-- The groups between colons; the last two may be written as four bytes. -/
def groups? : List (List Char) → Option (List Nat)
  | [] => some []
  | [last] => if last.contains '.' then byteGroups? last else (group? last).map ([·])
  | g :: rest => do some ((← group? g) :: (← groups? rest))

/-- The texts around the first two colons in a row. -/
def aroundGap? : List Char → Option (List Char × List Char)
  | ':' :: ':' :: rest => some ([], rest)
  | c :: rest => (aroundGap? rest).map fun (before, behind) => (c :: before, behind)
  | [] => none

/-- The groups of one side of a gap; there may be none. -/
def side? (cs : List Char) : Option (List Nat) :=
  if cs.isEmpty then some [] else groups? (pieces ':' cs)

/-- The eight groups of an address; two colons in a row stand for one or more zero groups. -/
def allGroups? (cs : List Char) : Option (List Nat) :=
  match aroundGap? cs with
  | none => (groups? (pieces ':' cs)).filter (·.length = 8)
  | some (before, behind) => do
    -- Four bytes can stand for the last two groups only, and these are behind the gap.
    if before.contains '.' then none
    let before ← side? before
    let behind ← side? behind
    if before.length + behind.length < 8 then
      some (before ++ List.replicate (8 - before.length - behind.length) 0 ++ behind)
    else none

/-- How many zero groups stand at each place and behind it. -/
def zeroRuns : List Nat → List Nat
  | [] => []
  | g :: rest =>
    let runs := zeroRuns rest
    (if g = 0 then runs.headD 0 + 1 else 0) :: runs

def groupsText (gs : List Nat) : List Char :=
  [':'].intercalate (gs.map hexText)

/-- An IPv6 address written down, without its first longest run of at least two zeros. -/
def addressText (gs : List Nat) : List Char :=
  let runs := zeroRuns gs
  let longest := runs.foldl max 0
  if longest < 2 then groupsText gs
  else
    let start := runs.idxOf longest
    groupsText (gs.take start) ++ [':', ':'] ++ groupsText (gs.drop (start + longest))

def ipv6? (cs : List Char) : Option (List Char) :=
  (allGroups? cs).map fun gs => '[' :: addressText gs ++ [']']

/-! ### Names -/

/-- The characters that are left out of names. -/
def isIgnorable (c : Char) : Bool :=
  let n := c.toNat
  n == 0xAD || n == 0x34F || (0x180B ≤ n && n ≤ 0x180D) || n == 0x200B || n == 0x2060
    || (0xFE00 ≤ n && n ≤ 0xFE0F) || n == 0xFEFF

/-- How a character of a name is written down: in lower case, wide characters as ASCII ones, and every
full stop as the ASCII one. -/
def nameChar (c : Char) : List Char :=
  let n := c.toNat
  if isIgnorable c then []
  else if c = '\u3002' ∨ c = '\uff61' then ['.']
  else if 0xFF01 ≤ n ∧ n ≤ 0xFF5E then [lowerChar (Char.ofNat (n - 0xFEE0))]
  else match c with
    | '\u0130' => ['i', '\u0307']
    | '\u1e9e' => ['ß']
    | '\u2126' => ['ω']
    | '\u212a' => ['k']
    | '\u212b' => ['å']
    | _ => [lowerChar c]

/-- The characters that no host has in its name. -/
def isForbidden (c : Char) : Bool :=
  c.toNat ≤ 0x20 || c.toNat == 0x7F || "#/:<>?@[\\]^|".toList.contains c

/-- The characters that no name has once it is written down. -/
def isForbiddenInName (c : Char) : Bool :=
  isForbidden c || c == '%' || !isPrintable c || c == replacementChar

def asciiLabel (label : List Char) : List Char :=
  if label.all (·.toNat < 128) then label else "xn--".toList ++ punycode label

def domain? (cs : List Char) : Option (List Char) :=
  -- Escapes are resolved before characters are replaced, so an escaped capital becomes a small letter too.
  let name := (percentDecode cs).flatMap nameChar
  if name.isEmpty ∨ name.any isForbiddenInName then none
  else
    let name := ['.'].intercalate ((pieces '.' name).map asciiLabel)
    -- A name whose last label is a number is an address, and no host if it is a wrong one.
    if endsInNumber name then ipv4? name else some name

/-- A host written down, if it is one. -/
def readHost? (cs : List Char) : Option (List Char) :=
  match cs with
  | '[' :: rest => if rest.getLast? = some ']' then ipv6? rest.dropLast else none
  | _ => domain? cs

example : readHost? "MÜNCHEN.Test".toList = some "xn--mnchen-3ya.test".toList
    ∧ readHost? "[0:0:0:0:0:0:0:1]".toList = some "[::1]".toList
    ∧ readHost? "0x7f.1".toList = some "127.0.0.1".toList
    ∧ readHost? "a b".toList = none ∧ readHost? "1.2.3.256".toList = none := by
  decide +kernel

end ChainWallet.Web
