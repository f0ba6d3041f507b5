import ChainWallet.Failure
import ChainWallet.Settings
import ChainWallet.Text.Digit

/-!
# Schedules

When prices are refreshed is said in five words — minute, hour, day of the month, month, day of the
week — each of which is a list of expressions between commas.

* `Field` — the five fields with their ranges.
* `Expression` — everything, a range of numbers, a range of names, or the last day of a month; the
  first two may have a step.
* `Schedule.read` — the schedule that a text describes, or the first fault in it. Fields are read in
  the order in which a schedule is written down, from the month to the minute.
* `Schedule.toText` — a schedule written down.
-/

namespace ChainWallet

open Text

namespace Schedule

/-- The fields of a schedule, in the order in which it is written down. -/
inductive Field where
  | month
  | day
  | weekday
  | hour
  | minute
  deriving DecidableEq, Repr

namespace Field

def name : Field → String
  | month => "month"
  | day => "day"
  | weekday => "day_of_week"
  | hour => "hour"
  | minute => "minute"

def least : Field → Nat
  | month | day => 1
  | weekday | hour | minute => 0

def greatest : Field → Nat
  | month => 12
  | day => 31
  | weekday => 6
  | hour => 23
  | minute => 59

/-- The names of the values of a field, from the least one on, for fields whose values have names. -/
def valueNames : Field → List String
  | month => ["jan", "feb", "mar", "apr", "may", "jun", "jul", "aug", "sep", "oct", "nov", "dec"]
  | weekday => ["mon", "tue", "wed", "thu", "fri", "sat", "sun"]
  | day | hour | minute => []

end Field

/-- An expression of a field. Without an end a range goes to the end of the field. -/
inductive Expression where
  | every (step : Option Nat)
  | range (first : Nat) (last : Option Nat) (step : Option Nat)
  /-- A range of named values, from the name at `first` to the one at `last`. -/
  | names (first last : String)
  | lastDay
  deriving DecidableEq, Repr

/-! ### Reading -/

/-- The digits at the beginning of a text, of any script, by their values, and the rest. -/
def digits? (cs : List Char) : Option (List Nat × List Char) :=
  let (ds, rest) := cs.span fun c => (digitValue? c).isSome
  if ds.isEmpty then none else some (ds.filterMap digitValue?, rest)

/-- The digits of a step at the end of an expression; there may be none. -/
def step? : List Char → Option (Option (List Nat))
  | [] => some none
  | '/' :: cs => match digits? cs with
    | some (ds, []) => some (some ds)
    | _ => none
  | _ => none

/-- The number that a list of digits writes. -/
def numberOf (ds : List Nat) : Except ScheduleFault Nat :=
  if integerDigitLimit < ds.length then .error (.tooManyDigits ds.length)
  else .ok (ofDigitValues ds)

/-- The step that a list of digits writes. -/
def stepOf : Option (List Nat) → Except ScheduleFault (Option Nat)
  | none => .ok none
  | some ds => do
    let n ← numberOf ds
    if n = 0 then .error .zeroStep else pure (some n)

/-- The range of given digits; its step is looked at first. -/
def rangeOf (first : List Nat) (last step : Option (List Nat)) : Except ScheduleFault Expression := do
  let step ← stepOf step
  let first ← numberOf first
  match last, step with
  | some ds, _ =>
    let last ← numberOf ds
    if last < first then .error .reversedRange else pure (.range first (some last) step)
  | none, none => pure (.range first (some first) none)
  | none, some _ => pure (.range first none step)

/-- An expression of numbers: everything, or a range. A text may have the shape of one and yet a fault. -/
def numeric? (cs : List Char) : Option (Except ScheduleFault Expression) :=
  match cs with
  | '*' :: rest => (step? rest).map fun step => (stepOf step).map .every
  | _ => do
    let (first, rest) ← digits? cs
    match rest with
    | '-' :: more =>
      let (last, rest) ← digits? more
      (step? rest).map (rangeOf first (some last))
    | _ => (step? rest).map (rangeOf first none)

/-- A letter of a name: an ASCII letter, or one of the four characters that differ from one in letter
case only. -/
def isNameLetter (c : Char) : Bool :=
  c.isAlpha || ['\u0130', '\u0131', '\u017f', '\u212a'].contains c

/-- A name at the beginning of a text, and the rest. -/
def nameAtHead? (cs : List Char) : Option (String × List Char) :=
  let (letters, rest) := cs.span isNameLetter
  if letters.isEmpty then none else some (String.ofList letters, rest)

/-- The place of a name among the names of a field's values. -/
def placeOf (f : Field) (name : String) : Except ScheduleFault Nat :=
  match f.valueNames.findIdx? (· == name.map Char.toLower) with
  | some i => .ok i
  | none => .error (if f = .month then .unknownMonth name else .unknownWeekday name)

/-- A range of named values at the beginning of a text; what follows it does not count. -/
def named? (f : Field) (cs : List Char) : Option (Except ScheduleFault Expression) := do
  let (first, rest) ← nameAtHead? cs
  let last := match rest with
    | '-' :: more => ((nameAtHead? more).map Prod.fst).getD first
    | _ => first
  some do
    let i ← placeOf f first
    let j ← placeOf f last
    if j < i then .error .reversedRange
    else pure (.names (f.valueNames.getD i "") (f.valueNames.getD j ""))

/-- Whether a text begins with the word for the last day, in any letter case. -/
def beginsWithLast (cs : List Char) : Bool :=
  (Numeral.afterWord? ['l', 'a', 's', 't'] (cs.map fun c => if c = '\u017f' then 's' else c)).isSome

/-- A step must not be larger than the range that it divides. -/
def stepFits (expression : String) (step : Option Nat) (range : Int) : Except ScheduleFault Unit :=
  match step with
  | some n => if range < n then .error (.stepTooLarge expression n range) else .ok ()
  | none => .ok ()

/-- The faults of an expression of numbers in a field. A range that ends at zero counts as one without
an end where its step is concerned. -/
def fits (f : Field) (expression : String) : Expression → Except ScheduleFault Unit
  | .every step => stepFits expression step (f.greatest - f.least : Nat)
  | .range first last step => do
    stepFits expression step (f.greatest - f.least : Nat)
    if first < f.least then .error (.belowRange expression first f.least)
    if let some n := last then
      if f.greatest < n then .error (.aboveRange expression n f.greatest)
    let stop := match last with
      | none | some 0 => f.greatest
      | some n => n
    stepFits expression step ((stop : Int) - first)
  | _ => .ok ()

def readExpression (f : Field) (cs : List Char) : Except ScheduleFault Expression :=
  let text := String.ofList cs
  match numeric? cs with
  | some numeric => do
    let e ← numeric
    fits f text e
    pure e
  | none =>
    -- No expression of numbers: only three fields know words.
    let unrecognized := .error (.unrecognized text f.name)
    match f with
    | .month | .weekday => (named? f cs).getD unrecognized
    | .day => if beginsWithLast cs then .ok .lastDay else unrecognized
    | .hour | .minute => unrecognized

def readField (f : Field) (cs : List Char) : Except ScheduleFault (List Expression) :=
  (pieces ',' cs).mapM (readExpression f)

/-! ### Writing -/

def stepText : Option Nat → String
  | some n => "/" ++ toString n
  | none => ""

def Expression.toText : Expression → String
  | every step => "*" ++ stepText step
  | range first last step =>
    let whole := match last with
      | some n => if n = first then toString first else toString first ++ "-" ++ toString n
      | none => toString first
    whole ++ stepText step
  | names first last => if first = last then first else first ++ "-" ++ last
  | lastDay => "last"

end Schedule

/-- A schedule: the expressions of its fields. -/
structure Schedule where
  month : List Schedule.Expression
  day : List Schedule.Expression
  weekday : List Schedule.Expression
  hour : List Schedule.Expression
  minute : List Schedule.Expression
  deriving DecidableEq, Repr

namespace Schedule

def read (s : String) : Except ScheduleFault Schedule :=
  match words s.toList with
  | [minute, hour, day, month, weekday] => do
    -- The first fault counts in this order, which is not that of the text.
    let month ← readField .month month
    let day ← readField .day day
    let weekday ← readField .weekday weekday
    let hour ← readField .hour hour
    let minute ← readField .minute minute
    pure { month, day, weekday, hour, minute }
  | found => .error (.fieldCount found.length)

def fieldText (f : Field) (es : List Expression) : String :=
  f.name ++ "='" ++ String.intercalate "," (es.map Expression.toText) ++ "'"

def toText (s : Schedule) : String :=
  "cron[" ++ String.intercalate ", "
    [fieldText .month s.month, fieldText .day s.day, fieldText .weekday s.weekday,
      fieldText .hour s.hour, fieldText .minute s.minute] ++ "]"

example : (read "*/5 * * * *").toOption.map toText
    = some "cron[month='*', day='*', day_of_week='*', hour='*', minute='*/5']" := by decide +kernel

example : (read "0 8-18/2 1,last jan-mar mon").toOption.map toText
    = some "cron[month='jan-mar', day='1,last', day_of_week='mon', hour='8-18/2', minute='0']" := by
  decide +kernel

example : read "* * * *" = .error (.fieldCount 4) ∧ read "60 * * * *" = .error (.aboveRange "60" 60 59)
    ∧ read "*/0 * * * *" = .error .zeroStep := by
  cbv

end Schedule

/-- The job that refreshes stored prices: when it runs, and in which currency. -/
structure RefreshJob where
  schedule : Schedule
  currency : String
  deriving DecidableEq, Repr

/-- The job that the settings of a deployment describe. -/
def RefreshJob.ofSettings (s : Settings) : Except Failure RefreshJob :=
  match Schedule.read s.priceRefreshCron with
  | .ok schedule => .ok ⟨schedule, s.defaultCurrency⟩
  | .error fault => .error (.schedule fault)

end ChainWallet
