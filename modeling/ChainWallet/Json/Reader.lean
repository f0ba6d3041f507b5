import ChainWallet.Json.Basic

/-!
# Reading JSON

A text is read in two passes, each a fold over its input, so that each stops with the input.

* `Token.ofChars` cuts the characters into tokens. Words — numbers and names — are collected up to
  the next blank or punctuation and then classified as a whole by `word`. Where the text cannot be cut
  any further, the tokens end with the fault.
* `Json.ofTokens` assembles the tokens, with the open lists and objects on a stack. A fault among the
  tokens counts where a value could stand; anywhere else the text is malformed by then.

Beyond the standard the words `NaN`, `Infinity` and `-Infinity` are numbers. A text is refused as a
whole, for the first fault in the order of reading.
-/

namespace ChainWallet

open Text

/-- What the characters of a JSON text are cut into. -/
inductive Token where
  | openList
  | closeList
  | openObject
  | closeObject
  | comma
  | colon
  | text (s : String)
  | scalar (j : Json)
  | fault (f : ReadFault)
  deriving Inhabited

namespace Token

/-- An integer of digits without a superfluous zero. -/
def wholeDigits (ds : List Char) : Bool :=
  match ds with
  | [] => false
  | ['0'] => true
  | d :: _ => d != '0'

/-- The exponent behind `e` or `E`. -/
def exponentDigits? (cs : List Char) : Option Int :=
  let (negative, ds) := Numeral.splitSign cs
  (natOfDigits? ds).map fun n => if negative then -(n : Int) else n

/-- A number: digits, and for a binary64 a fraction, an exponent, or both. -/
def number? (negative : Bool) (cs : List Char) : Option Json := do
  let (whole, rest) := cs.span isAsciiDigit
  -- A whole number has no superfluous zero in front, and a fraction may have any behind.
  if !wholeDigits whole then none
  let signed (n : Nat) : Int := if negative then -(n : Int) else n
  match rest with
  | [] => (natOfDigits? whole).map (.int ∘ signed)
  | _ =>
    let (fraction, rest) ← match rest with
      | '.' :: more =>
        let (fraction, rest) := more.span isAsciiDigit
        if fraction.isEmpty then none else some (fraction, rest)
      | _ => some ([], rest)
    let exponent ← match rest with
      | [] => some 0
      | c :: more => if c = 'e' ∨ c = 'E' then exponentDigits? more else none
    let coefficient ← natOfDigits? (whole ++ fraction)
    some (.float (.ofDecimal ⟨negative, coefficient, exponent - fraction.length⟩))

/-- The digits of the integer that a word begins with, if it has more of them than are read. A binary64
number may have any number of digits. -/
def oversized? (cs : List Char) : Option Nat :=
  let (whole, rest) := (Numeral.splitMinus cs).2.span isAsciiDigit
  let isFloat := match rest with
    | '.' :: c :: _ => isAsciiDigit c
    | c :: more => (c = 'e' || c = 'E') && ((Numeral.splitSign more).2.head?.any isAsciiDigit)
    | [] => false
  if wholeDigits whole && integerDigitLimit < whole.length && !isFloat then some whole.length else none

def word (cs : List Char) : Token :=
  match oversized? cs with
  | some count => fault (.tooManyDigits count)
  | none => match String.ofList cs with
    | "null" => scalar .null
    | "true" => scalar (.bool true)
    | "false" => scalar (.bool false)
    | "NaN" => scalar (.float .nan)
    | "Infinity" => scalar (.float (.infinity false))
    | "-Infinity" => scalar (.float (.infinity true))
    | _ =>
      let (negative, ds) := Numeral.splitMinus cs
      match number? negative ds with
      | some j => scalar j
      | none => fault .malformed

/-- Where the lexer stands. Collected characters are in reverse; `high` is the first half of a
surrogate pair whose second half is still to come. -/
inductive Place where
  | between
  | word (collected : List Char)
  | text (collected : List Char) (high : Option Nat)
  | escape (collected : List Char) (high : Option Nat)
  | code (collected : List Char) (high : Option Nat) (left value : Nat)
  /-- Behind a fault, where nothing is read any more. -/
  | lost

/-- A character that may belong to a word. -/
def isWordChar (c : Char) : Bool :=
  c.isAlphanum || c == '+' || c == '-' || c == '.'

def punctuation? : Char → Option Token
  | '[' => some openList
  | ']' => some closeList
  | '{' => some openObject
  | '}' => some closeObject
  | ',' => some comma
  | ':' => some colon
  | _ => none

/-- A text with the first half of a pair that is left alone. -/
def settle (collected : List Char) : Option Nat → List Char
  | none => collected
  | some high => loneHalf high :: collected

def escaped? : Char → Option Char
  | '"' => some '"'
  | '\\' => some '\\'
  | '/' => some '/'
  | 'b' => some '\x08'
  | 'f' => some '\x0c'
  | 'n' => some '\n'
  | 'r' => some '\r'
  | 't' => some '\t'
  | _ => none

def hexValue? (c : Char) : Option Nat :=
  if c.isDigit then some (c.toNat - 48)
  else if 'a' ≤ c ∧ c ≤ 'f' then some (c.toNat - 87)
  else if 'A' ≤ c ∧ c ≤ 'F' then some (c.toNat - 55)
  else none

/-- A text with the UTF-16 unit of a `\u` escape; two halves of a pair join to one character. -/
def addUnit (collected : List Char) (high : Option Nat) (unit : Nat) : Place :=
  match high with
  | some h =>
    if isLowHalf unit then .text (joinHalves h unit :: collected) none
    -- Another first half leaves the one before alone.
    else if isHighHalf unit then .text (loneHalf h :: collected) (some unit)
    else .text (Char.ofNat unit :: loneHalf h :: collected) none
  | none =>
    if isHighHalf unit then .text collected (some unit)
    else if isLowHalf unit then .text (loneHalf unit :: collected) none
    else .text (Char.ofNat unit :: collected) none

/-- The lexer at a text that is malformed here. -/
def lose (done : List Token) : List Token × Place :=
  (fault .malformed :: done, .lost)

/-- The lexer outside texts and words. Finished tokens are in reverse. -/
def start (done : List Token) (c : Char) : List Token × Place :=
  if c = ' ' ∨ c = '\t' ∨ c = '\n' ∨ c = '\r' then (done, .between)
  else if c = '"' then (done, .text [] none)
  else if isWordChar c then (done, .word [c])
  else match punctuation? c with
    | some t => (t :: done, .between)
    | none => lose done

def advance (s : List Token × Place) (c : Char) : List Token × Place :=
  let (done, place) := s
  match place with
  | .between => start done c
  -- A word has no end of its own: the character that does not belong to it begins what follows.
  | .word cs =>
    if isWordChar c then (done, .word (c :: cs)) else start (word cs.reverse :: done) c
  | .text cs high =>
    if c = '"' then (text (String.ofList (settle cs high).reverse) :: done, .between)
    else if c = '\\' then (done, .escape cs high)
    else if c.toNat < 0x20 then lose done
    else (done, .text (c :: settle cs high) none)
  | .escape cs high =>
    if c = 'u' then (done, .code cs high 4 0)
    else match escaped? c with
      | some e => (done, .text (e :: settle cs high) none)
      | none => lose done
  | .code cs high left value =>
    match hexValue? c with
    | none => lose done
    | some v =>
      let value := 16 * value + v
      if left ≤ 1 then (done, addUnit cs high value)
      else (done, .code cs high (left - 1) value)
  | .lost => s

def ofChars (cs : List Char) : List Token :=
  let (done, place) := cs.foldl advance ([], .between)
  match place with
  | .between | .lost => done.reverse
  | .word w => (word w.reverse :: done).reverse
  | .text .. | .escape .. | .code .. => (fault .malformed :: done).reverse

end Token

namespace Json

/-- A list or object that is still open, with what it holds so far in reverse. -/
inductive Open where
  | list (items : List Json)
  | object (members : List (String × Json)) (name : String)

/-- What the assembler expects next. -/
inductive Assembly where
  | value (outer : List Open)
  | item (outer : List Open)
  | firstName (outer : List Open)
  | name (members : List (String × Json)) (outer : List Open)
  | colon (members : List (String × Json)) (name : String) (outer : List Open)
  | separator (inner : Open) (value : Json) (outer : List Open)
  | complete (value : Json)

/-- The members of an object from their list in reverse; of equal names the last value counts. -/
def ofReversed (members : List (String × Json)) : Json :=
  obj (members.foldr (fun m done => put m.1 m.2 done) [])

/-- A finished value goes into the innermost open list or object. -/
def finish (value : Json) : List Open → Assembly
  | [] => .complete value
  | inner :: outer => .separator inner value outer

/-- A token where a value is expected; no more than `deepest` lists and objects are open at a time. -/
def beginValue (deepest : Nat) (outer : List Open) : Token → Except ReadFault Assembly
  | .openList => if outer.length < deepest then .ok (.item outer) else .error .tooDeep
  | .openObject => if outer.length < deepest then .ok (.firstName outer) else .error .tooDeep
  | .text s => .ok (finish (str s) outer)
  | .scalar j => .ok (finish j outer)
  | .fault f => .error f
  | .closeList | .closeObject | .comma | .colon => .error .malformed

def assemble (deepest : Nat) : Assembly → Token → Except ReadFault Assembly
  | .value outer, t => beginValue deepest outer t
  | .item outer, .closeList => .ok (finish (arr []) outer)
  -- Anything but the end of the list begins its first item.
  | .item outer, t => beginValue deepest (.list [] :: outer) t
  | .firstName outer, .closeObject => .ok (finish (obj []) outer)
  | .firstName outer, .text s => .ok (.colon [] s outer)
  | .name ms outer, .text s => .ok (.colon ms s outer)
  | .colon ms n outer, .colon => .ok (.value (.object ms n :: outer))
  | .separator (.list items) v outer, .comma => .ok (.value (.list (v :: items) :: outer))
  | .separator (.list items) v outer, .closeList => .ok (finish (arr (v :: items).reverse) outer)
  | .separator (.object ms n) v outer, .comma => .ok (.name ((n, v) :: ms) outer)
  | .separator (.object ms n) v outer, .closeObject => .ok (finish (ofReversed ((n, v) :: ms)) outer)
  | _, _ => .error .malformed

/-- The value that a list of tokens writes. -/
def ofTokens (deepest : Nat) (ts : List Token) : Except ReadFault Json := do
  match ← ts.foldlM (assemble deepest) (.value []) with
  | .complete j => .ok j
  | _ => .error .malformed

/-- The value that a text writes, if it is nested at most `deepest` times. -/
def read (deepest : Nat) (s : String) : Except ReadFault Json :=
  ofTokens deepest (Token.ofChars s.toList)

end Json

end ChainWallet
