import ChainWallet.Text.Blank
import ChainWallet.Text.Quoted

/-!
# Percent-encoded text

In an address a byte may be written as a percent sign and two hexadecimal digits. `percentDecode` puts
the bytes back and reads them as UTF-8; what is no UTF-8 becomes the replacement character. Characters
that are not ASCII stand for themselves and end a stretch of bytes.

`queryPairs` reads the names and values behind a question mark, where a plus sign stands for a blank.
`percentEncode` writes the bytes of some characters in this way.
-/

namespace ChainWallet.Text

def hexDigitValue? (c : Char) : Option Nat :=
  let n := c.toNat
  if 48 ≤ n ∧ n ≤ 57 then some (n - 48)
  else if 65 ≤ n ∧ n ≤ 70 then some (n - 55)
  else if 97 ≤ n ∧ n ≤ 102 then some (n - 87)
  else none

def byteOfDigits? (high low : Char) : Option Nat := do
  some (16 * (← hexDigitValue? high) + (← hexDigitValue? low))

/-- The character that stands for bytes that are no UTF-8. -/
def replacementChar : Char := '\ufffd'

/-- Whether a byte can be the second one of a character that needs `pending` more bytes, `value` being
what its first byte writes. The limits keep out forms that are longer than needed, surrogates, and
numbers above the last character. -/
def continues (value pending byte : Nat) : Bool :=
  0x80 ≤ byte && byte < 0xC0 && match pending with
    | 2 => (value != 0 || 0xA0 ≤ byte) && (value != 13 || byte < 0xA0)
    | 3 => (value != 0 || 0x90 ≤ byte) && (value != 4 || byte < 0x90)
    | _ => true

/-- Reading UTF-8: the characters so far in reverse, and a character whose last bytes are missing. -/
structure ByteReader where
  chars : List Char
  value : Nat
  pending : Nat
  /-- How many bytes the unfinished character has had. -/
  seen : Nat

namespace ByteReader

def start : ByteReader := ⟨[], 0, 0, 0⟩

/-- The reader after an unfinished character was given up. -/
def settle (r : ByteReader) : ByteReader :=
  if r.pending = 0 then r else ⟨replacementChar :: r.chars, 0, 0, 0⟩

/-- The reader after a character that stands for itself. -/
def char (r : ByteReader) (c : Char) : ByteReader :=
  { r.settle with chars := c :: r.settle.chars }

/-- The reader after the first byte of a character. -/
def lead (r : ByteReader) (byte : Nat) : ByteReader :=
  -- 0xC0 and 0xC1 would begin forms that are longer than needed.
  if byte < 0x80 then r.char (Char.ofNat byte)
  else if 0xC2 ≤ byte ∧ byte < 0xE0 then { r.settle with value := byte - 0xC0, pending := 1, seen := 1 }
  else if 0xE0 ≤ byte ∧ byte < 0xF0 then { r.settle with value := byte - 0xE0, pending := 2, seen := 1 }
  else if 0xF0 ≤ byte ∧ byte < 0xF5 then { r.settle with value := byte - 0xF0, pending := 3, seen := 1 }
  else r.char replacementChar

/-- Whether a byte carries on the unfinished character. -/
def accepts (r : ByteReader) (byte : Nat) : Bool :=
  r.pending != 0 && if r.seen = 1 then continues r.value r.pending byte else 0x80 ≤ byte && byte < 0xC0

def byte (r : ByteReader) (b : Nat) : ByteReader :=
  if r.accepts b then
    let value := 64 * r.value + (b - 0x80)
    if r.pending = 1 then ⟨Char.ofNat value :: r.chars, 0, 0, 0⟩
    else ⟨r.chars, value, r.pending - 1, r.seen + 1⟩
  else r.lead b

def text (r : ByteReader) : List Char :=
  r.settle.chars.reverse

end ByteReader

/-- A text with its percent-encoded bytes put back, from what was read before it. -/
def decodeFrom (r : ByteReader) : List Char → ByteReader
  | '%' :: high :: low :: rest =>
    match byteOfDigits? high low with
    | some b => decodeFrom (r.byte b) rest
    | none => decodeFrom (r.char '%') (high :: low :: rest)
  | c :: rest => decodeFrom (r.char c) rest
  | [] => r
termination_by cs => cs.length

/-- A text with its percent-encoded bytes put back. -/
def percentDecode (cs : List Char) : List Char :=
  (decodeFrom .start cs).text

def queryText (cs : List Char) : String :=
  String.ofList (percentDecode (cs.map fun c => if c = '+' then ' ' else c))

/-- The names and values of a query, in order; a name without a value has the empty one. -/
def queryPairs (cs : List Char) : List (String × String) :=
  ((pieces '&' cs).filter (!·.isEmpty)).map fun piece =>
    let (name, value) := piece.span (· != '=')
    (queryText name, queryText (value.drop 1))

/-- A byte as a percent sign and two digits. -/
def encodedByte (b : UInt8) : List Char :=
  '%' :: (hexDigits b.toNat 2).map Char.toUpper

/-- A text with the bytes of the characters of a class percent-encoded. -/
def percentEncode (encoded : Char → Bool) (cs : List Char) : List Char :=
  cs.flatMap fun c => if encoded c then (String.utf8EncodeChar c).flatMap encodedByte else [c]

example : percentEncode (fun c => !c.isAlpha) "aé b".toList = "a%C3%A9%20b".toList := by decide +kernel

example : percentDecode "a%20b%2Fc%C3%A9".toList = "a b/cé".toList := by decide +kernel

/-- A byte that begins no character, and a percent sign without two digits. -/
example : percentDecode "%FFa%".toList = "\ufffda%".toList := by decide +kernel

example : queryPairs "currency=EUR&x&y=a+b".toList = [("currency", "EUR"), ("x", ""), ("y", "a b")] := by
  decide +kernel

end ChainWallet.Text
