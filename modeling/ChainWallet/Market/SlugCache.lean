import ChainWallet.Keyed

/-!
# Known token names

A `SlugCache` remembers under the identifier of an asset by which name the price feed knows it. The
empty name stands for "not known" and is never kept (`get?_put_empty`).
-/

namespace ChainWallet

/-- The names found so far, by asset identifier. -/
structure SlugCache where
  entries : List (String × String)
  deriving DecidableEq, Repr, Inhabited

namespace SlugCache

def empty : SlugCache := ⟨[]⟩

/-- The name of an asset, if it is known. -/
def get? (c : SlugCache) (identifier : String) : Option String :=
  ((Keyed.find? Prod.fst identifier c.entries).map Prod.snd).filter (!·.isEmpty)

/-- The cache with the name of an asset. -/
def put (c : SlugCache) (identifier slug : String) : SlugCache :=
  if slug.isEmpty then c else ⟨Keyed.upsert Prod.fst (identifier, slug) c.entries⟩

/-- Whether the name of an asset is known. -/
def contains (c : SlugCache) (identifier : String) : Bool :=
  (c.get? identifier).isSome

def size (c : SlugCache) : Nat :=
  c.entries.length

/-! ### Characterization -/

@[simp] theorem get?_empty (identifier : String) : empty.get? identifier = none := rfl

/-- The empty name is not remembered. -/
theorem get?_put_empty (c : SlugCache) (identifier : String) : c.put identifier "" = c := by
  simp [put]

/-- Any other name is. -/
theorem get?_put_self (c : SlugCache) (identifier : String) {slug : String}
    (h : slug.isEmpty = false) : (c.put identifier slug).get? identifier = some slug := by
  have := Keyed.find?_upsert_self Prod.fst (identifier, slug) c.entries
  simp only at this
  simp [put, get?, h, this]

/-- The names of other assets stay. -/
theorem get?_put_of_ne (c : SlugCache) {identifier other : String} (h : other ≠ identifier)
    (slug : String) : (c.put identifier slug).get? other = c.get? other := by
  by_cases hs : slug.isEmpty
  · simp [put, hs]
  · have hne : other ≠ Prod.fst (identifier, slug) := h
    simp [put, get?, hs, Keyed.find?_upsert_of_ne Prod.fst hne c.entries]

end SlugCache

end ChainWallet
