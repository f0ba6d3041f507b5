import ChainWallet.Binary64
import ChainWallet.Text.Surrogate

/-!
# JSON values

The wallet reads price feeds and settings in JSON. Numbers come in two kinds: written without point
and exponent they are integers of any size, written with one of them they are binary64 numbers. The
members of an object keep the order in which their names first occurred, and a name occurs once.
-/

namespace ChainWallet

/-- A JSON value. -/
inductive Json where
  | null
  | bool (b : Bool)
  | int (n : Int)
  | float (x : Binary64)
  | str (s : String)
  | arr (items : List Json)
  | obj (members : List (String × Json))
  deriving Inhabited

/-- Why a text is not read as a JSON value. -/
inductive ReadFault where
  | malformed
  /-- An integer has more digits than are read. -/
  | tooManyDigits (count : Nat)
  /-- Lists and objects are nested more deeply than is read. -/
  | tooDeep
  deriving DecidableEq, Repr

namespace Json

/-- The members of an object with one more; the value of a name that is already there is replaced. -/
def put (name : String) (value : Json) : List (String × Json) → List (String × Json)
  | [] => [(name, value)]
  | (n, v) :: rest => if n = name then (n, value) :: rest else (n, v) :: put name value rest

/-- The member of an object with a given name. -/
def find? (name : String) (members : List (String × Json)) : Option Json :=
  members.lookup name

/-- A value that a feed gives for "nothing": null, false, zero, or an empty text, list or object. -/
def isVoid : Json → Bool
  | null => true
  | bool b => !b
  | int n => n == 0
  | float x => x.isZero
  | str s => s.isEmpty
  | arr items => items.isEmpty
  | obj members => members.isEmpty

mutual

/-- A value with null in the place of every number that has no JSON text: the infinities and NaN. -/
def withoutNonFinite : Json → Json
  | float x => if x.isFinite then float x else null
  | arr items => arr (itemsWithoutNonFinite items)
  | obj members => obj (membersWithoutNonFinite members)
  | j => j

/-- The items of a list with null for numbers that have no JSON text. -/
def itemsWithoutNonFinite : List Json → List Json
  | [] => []
  | j :: rest => j.withoutNonFinite :: itemsWithoutNonFinite rest

/-- The members of an object with null for numbers that have no JSON text. -/
def membersWithoutNonFinite : List (String × Json) → List (String × Json)
  | [] => []
  | (n, j) :: rest => (n, j.withoutNonFinite) :: membersWithoutNonFinite rest

end

mutual

/-- Whether every text in a value is made of whole characters. -/
def isEncodable : Json → Bool
  | str s => !Text.hasLoneHalf s
  | arr items => areEncodable items
  | obj members => membersEncodable members
  | _ => true

/-- Whether every text in a list is made of whole characters. -/
def areEncodable : List Json → Bool
  | [] => true
  | j :: rest => j.isEncodable && areEncodable rest

/-- Whether every text in an object, names included, is made of whole characters. -/
def membersEncodable : List (String × Json) → Bool
  | [] => true
  | (n, j) :: rest => !Text.hasLoneHalf n && j.isEncodable && membersEncodable rest

end

end Json

end ChainWallet
