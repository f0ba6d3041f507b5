import ChainWallet.Json.Basic

/-!
# Reading records from JSON

What a user or a price feed hands in is checked field by field, and a refusal names every fault with
the place where it lies, in the order of the fields.

* `Checked α` — a value, or the list of its faults; as an applicative functor it collects the faults
  of all parts, first to last (`faults_seq`).
* `Reader α` — a check of a JSON value. The readers of scalars are lenient: an integer may be written
  as a text or as a whole binary64, a truth value as one of a dozen words, a decimal as a text.
* `Model α` — a named reader of a record.
-/

namespace ChainWallet.Schema

open Text

/-- One step on the way from a value to a part of it. -/
inductive Step where
  | field (name : String)
  | index (i : Nat)
  deriving DecidableEq, Repr

/-- The ways in which a value can be refused. -/
inductive FaultKind where
  | notARecord
  | missing
  | notAText
  | unpairedHalf
  | notAnInteger
  | unreadableInteger
  | fractionalInteger
  | oversizedInteger
  | notABoolean
  | unreadableBoolean
  | notADecimal
  | unreadableDecimal
  | notANumber
  | unreadableNumber
  | notFinite
  | notAMember
  | notAList
  | notATable
  | notAnAddress
  | unreadableAddress
  | otherScheme
  deriving DecidableEq, Repr

/-- The identifier of a fault in an answer. -/
def FaultKind.name : FaultKind → String
  | notARecord => "model_type"
  | missing => "missing"
  | notAText => "string_type"
  | unpairedHalf => "string_unicode"
  | notAnInteger => "int_type"
  | unreadableInteger => "int_parsing"
  | fractionalInteger => "int_from_float"
  | oversizedInteger => "int_parsing_size"
  | notABoolean => "bool_type"
  | unreadableBoolean => "bool_parsing"
  | notADecimal => "decimal_type"
  | unreadableDecimal => "decimal_parsing"
  | notANumber => "float_type"
  | unreadableNumber => "float_parsing"
  | notFinite => "finite_number"
  | notAMember => "enum"
  | notAList => "list_type"
  | notATable => "dict_type"
  | notAnAddress => "url_type"
  | unreadableAddress => "url_parsing"
  | otherScheme => "url_scheme"

/-- A fault and the place where it lies. -/
structure Fault where
  kind : FaultKind
  location : List Step
  deriving DecidableEq, Repr

/-- A value, or all its faults. -/
inductive Checked (α : Type) where
  | valid (value : α)
  | faulty (faults : List Fault)

namespace Checked

variable {α β : Type}

/-- The faults of a checked value; a valid one has none. -/
def faults : Checked α → List Fault
  | valid _ => []
  | faulty fs => fs

def toOption : Checked α → Option α
  | valid a => some a
  | faulty _ => none

instance : Applicative Checked where
  pure := valid
  seq f x := match f, x () with
    | valid f, valid a => valid (f a)
    -- The faults of all parts are told, not only the first one.
    | f, x => faulty (f.faults ++ x.faults)

/-- The faults of a part, seen from the whole. -/
def inside (s : Step) : Checked α → Checked α
  | valid a => valid a
  | faulty fs => faulty (fs.map fun f => { f with location := s :: f.location })

/-- A value with one fault at its root. -/
def refuse (kind : FaultKind) : Checked α := faulty [⟨kind, []⟩]

/-- The value of an optional reading, or one fault. -/
def ofOption (kind : FaultKind) : Option α → Checked α
  | some a => valid a
  | none => refuse kind

@[simp] theorem faults_valid (a : α) : (valid a).faults = [] := rfl

@[simp] theorem faults_faulty (fs : List Fault) : (faulty fs : Checked α).faults = fs := rfl

theorem faults_seq (f : Checked (α → β)) (x : Checked α) :
    (f <*> x).faults = f.faults ++ x.faults := by
  cases f <;> cases x <;> simp [Seq.seq, faults]

end Checked

abbrev Reader (α : Type) := Json → Checked α

/-! ### Scalars -/

def text : Reader String
  | .str s => pure s
  | _ => .refuse .notAText

/-- A check of the text that writes a scalar. Only texts of whole characters are looked at. -/
def ofText {α : Type} (check : String → Checked α) (s : String) : Checked α :=
  if hasLoneHalf s then .refuse .unpairedHalf else check s

/-- A text without its underscores, if it has some: they stand alone and neither begin nor end it. -/
def withoutUnderscores? (cs : List Char) : Option (List Char) :=
  let groups := pieces '_' cs
  if groups.length = 1 || groups.any (·.isEmpty) then none else some groups.flatten

/-- A text behind its leading zeros and the underscores among them; `previous` is the last of these. A
zero before a point or at the end of the text stays. -/
def afterZeros? (previous : Char) : List Char → Option (List Char)
  | [] => some [previous]
  | c :: rest =>
    if c = '0' ∨ c = '_' then afterZeros? c rest
    else if c = '.' then some (previous :: c :: rest)
    else if isAsciiDigit c ∨ c = '-' then some (c :: rest)
    else none

/-- A text that begins like an integer, without its leading zeros. -/
def withoutLeadingZeros? : List Char → Option (List Char)
  | [] => none
  | c :: rest =>
    if c = '0' then afterZeros? c rest
    else if isAsciiDigit c ∨ c = '-' then some (c :: rest)
    else none

/-- Drops a point with nothing but zeros behind it. -/
def withoutZeroFraction (cs : List Char) : List Char :=
  let (whole, fraction) := cs.span (· != '.')
  if (fraction.drop 1).all (· == '0') then whole else cs

/-- The plain form of an integer in a text: without blanks around it, a plus sign, leading zeros, a
fraction of zeros, and single underscores. -/
def plainInteger? (cs : List Char) : Option (List Char) := do
  let unsigned ← match trim isWhiteSpace cs with
    | '+' :: '-' :: _ => none
    | '+' :: rest => some rest
    | cs => some cs
  let whole := withoutZeroFraction (← withoutLeadingZeros? unsigned)
  some ((withoutUnderscores? whole).getD whole)

/-- Whether a text begins with an integer that has too many digits, leading zeros aside. -/
def beginsOversized (cs : List Char) : Bool :=
  let (_, digits) := Numeral.splitMinus cs
  digits.head? != some '0' && integerDigitLimit < (digits.takeWhile isAsciiDigit).length

def integerOfText (s : String) : Checked Int :=
  -- The length is checked before and after the text is put into its plain form.
  if beginsOversized s.toList then .refuse .oversizedInteger
  else match plainInteger? s.toList with
    | none => .refuse .unreadableInteger
    | some cs =>
      if beginsOversized cs then .refuse .oversizedInteger
      else
        let (negative, digits) := Numeral.splitMinus cs
        .ofOption .unreadableInteger
          ((natOfDigits? digits).map fun n => if negative then -(n : Int) else n)

/-- A whole binary64 of less than 64 bits as an integer. -/
def integerOfFloat (x : Binary64) : Checked Int :=
  if x.isFinite then
    match x.toInt? with
    | none => .refuse .fractionalInteger
    | some n => if n.natAbs < 0x8000000000000000 then pure n else .refuse .oversizedInteger
  else .refuse .notFinite

def integer : Reader Int
  | .int n => pure n
  | .bool b => pure b.toNat
  | .float x => integerOfFloat x
  | .str s => ofText integerOfText s
  | _ => .refuse .notAnInteger

/-- The truth value of a word, in any letter case. -/
def truthOfWord? (s : String) : Option Bool :=
  let w := s.map Char.toLower
  if ["0", "off", "f", "false", "n", "no"].contains w then some false
  else if ["1", "on", "t", "true", "y", "yes"].contains w then some true
  else none

/-- The truth value of a number: zero is false and one is true. -/
def truthOfInt? (n : Int) : Option Bool :=
  if n = 0 then some false else if n = 1 then some true else none

/-- The truth value of a number of less than 64 bits; other numbers are not even looked at. -/
def truthOfNumber (inRange : Bool) (n : Int) : Checked Bool :=
  if inRange then .ofOption .unreadableBoolean (truthOfInt? n) else .refuse .notABoolean

def boolean : Reader Bool
  | .bool b => pure b
  | .int n => truthOfNumber (-0x8000000000000000 ≤ n && n < 0x8000000000000000) n
  | .float x => match integerOfFloat x with
    | .valid n => truthOfNumber true n
    | .faulty _ => .refuse .notABoolean
  | .str s => ofText (.ofOption .unreadableBoolean <| truthOfWord? ·) s
  | _ => .refuse .notABoolean

def finiteOnly : Numeral → Checked Decimal
  | .finite d => pure d
  | _ => .refuse .notFinite

/-- A finite decimal. A binary64 counts as the decimal of its shortest text. -/
def decimal : Reader Decimal
  | .int n => pure (.ofInt n)
  | .float x => finiteOnly x.toNumeral
  | .str s => match Numeral.read? s with
    | some n => finiteOnly n
    | none => .refuse .unreadableDecimal
  | _ => .refuse .notADecimal

/-- The binary64 that a bare text writes: a number, or a word for infinity or NaN. Only ASCII digits
count. -/
def bareNumber? (cs : List Char) : Option Binary64 :=
  let (negative, rest) := Numeral.splitSign cs
  if Numeral.afterWord? ['n', 'a', 'n'] rest == some [] then some .nan
  else if Numeral.afterWord? ['i', 'n', 'f'] rest == some []
      || Numeral.afterWord? ['i', 'n', 'f', 'i', 'n', 'i', 't', 'y'] rest == some [] then
    some (.infinity negative)
  else (Numeral.mantissa? negative rest).map .ofDecimal

/-- The binary64 that a text writes, with blanks around it or with underscores in it, but not both. -/
def numberOfText? (s : String) : Option Binary64 :=
  match bareNumber? (trim isWhiteSpace s.toList) with
  | some x => some x
  | none => (withoutUnderscores? s.toList).bind bareNumber?

/-- A binary64. An integer too large for one is refused. -/
def number : Reader Binary64
  | .int n =>
    let x := Binary64.ofInt n
    if x.isFinite then pure x else .refuse .notANumber
  | .bool b => pure (.ofInt b.toNat)
  | .float x => pure x
  | .str s => ofText (.ofOption .unreadableNumber <| numberOfText? ·) s
  | _ => .refuse .notANumber

/-! ### Composite values -/

def member {α : Type} (ofName? : String → Option α) : Reader α
  | .str s => .ofOption .notAMember (ofName? s)
  | _ => .refuse .notAMember

/-- The items of a list, checked in order and numbered from `i` on. -/
def itemsFrom {α : Type} (item : Reader α) : Nat → List Json → Checked (List α)
  | _, [] => pure []
  | i, j :: rest => List.cons <$> (item j).inside (.index i) <*> itemsFrom item (i + 1) rest

def list {α : Type} (item : Reader α) : Reader (List α)
  | .arr items => itemsFrom item 0 items
  | _ => .refuse .notAList

/-- The entries of a table, checked in order. -/
def entries {α : Type} (value : Reader α) : List (String × Json) → Checked (List (String × α))
  | [] => pure []
  | (n, j) :: rest =>
    (fun v vs => (n, v) :: vs) <$> (value j).inside (.field n) <*> entries value rest

def table {α : Type} (value : Reader α) : Reader (List (String × α))
  | .obj members => entries value members
  | _ => .refuse .notATable

def nullable {α : Type} (r : Reader α) : Reader (Option α)
  | .null => pure none
  | j => some <$> r j

abbrev Members := List (String × Json)

def Members.required {α : Type} (ms : Members) (name : String) (r : Reader α) : Checked α :=
  match Json.find? name ms with
  | some j => (r j).inside (.field name)
  | none => (Checked.refuse .missing).inside (.field name)

/-- A field with a value of its own for records without it. -/
def Members.optional {α : Type} (ms : Members) (name : String) (default : α) (r : Reader α) :
    Checked α :=
  match Json.find? name ms with
  | some j => (r j).inside (.field name)
  | none => pure default

def record {α : Type} (build : Members → Checked α) : Reader α
  | .obj members => build members
  | _ => .refuse .notARecord

/-- A kind of record: its name and its reader. -/
structure Model (α : Type) where
  name : String
  read : Reader α

end ChainWallet.Schema
