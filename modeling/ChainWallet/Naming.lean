/-!
# Named alternatives

Asset types, chains, derivation standards and wallet kinds are closed sets whose members go by a name
in records, in the store and in messages. `Named` gives such a type its members and their names;
`ofName?` finds a member by its exact name and undoes `name` wherever the names differ
(`ofName?_name`).
-/

namespace ChainWallet

/-- A type with finitely many members, each with a name. -/
class Named (α : Type) where
  /-- What one of the members is called in a message. -/
  category : String
  members : List α
  name : α → String

namespace Named

variable {α : Type} [Named α]

def ofName? (s : String) : Option α :=
  (members : List α).find? (name · == s)

/-! ### Characterization -/

theorem name_of_ofName? {s : String} {a : α} (h : ofName? s = some a) : name a = s := by
  simpa using List.find?_some h

/-- A member is found by its name, when all members are listed and no two share a name. -/
theorem ofName?_name (complete : ∀ a : α, a ∈ (members : List α))
    (distinct : ∀ a b : α, name a = name b → a = b) (a : α) : ofName? (name a) = some a := by
  unfold ofName?
  cases h : (members : List α).find? (name · == name a) with
  | none =>
    have := List.find?_eq_none.mp h a (complete a)
    simp at this
  | some b =>
    have hb : name b = name a := by simpa using List.find?_some h
    rw [distinct b a hb]

end Named

end ChainWallet
