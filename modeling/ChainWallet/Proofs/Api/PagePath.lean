import ChainWallet.Api.Prices
import ChainWallet.Proofs.Text.Pieces

/-!
# Pages and their paths

A path is decoded first and taken apart at its slashes afterwards. So what it names are its parts, and no name
with a slash in it can be one of them.

* **`Page.IsPart`** — the texts that can be one part of a path.
* **`Page.StandsAt`** — what stands behind `/prices/` in the path of a page.
* **`ofPath?_eq_some_iff`** — the page at a path is the one that stands there.
-/

namespace ChainWallet.Api.Page

/-- A part of a path has a character and no slash. -/
structure IsPart (name : String) : Prop where
  nonempty : name ≠ ""
  whole : '/' ∉ name.toList

/-- The texts behind `/prices/` that lead to a page. -/
inductive StandsAt : Page → (rest : String) → Prop where
  | storedPrice {assetType symbol : String} (type : IsPart assetType) (token : IsPart symbol) :
      StandsAt (.storedPrice assetType symbol) ("stored/" ++ assetType ++ "/" ++ symbol)
  | price {identifier : String} (asset : IsPart identifier) : StandsAt (.price identifier) identifier
  | history {identifier last : String} (asset : IsPart identifier) (ending : isHistory last = true) :
      StandsAt (.history identifier) (identifier ++ "/" ++ last)

variable {base rest last : String} {page : Page} {path : List Char}

/-- The words that end the path of a history are parts of a path. -/
theorem isPart_of_isHistory (h : isHistory last = true) : IsPart last := by
  unfold isHistory at h
  simp only [Bool.or_eq_true, beq_iff_eq] at h
  obtain rfl | rfl := h
  · exact ⟨by decide, by decide⟩
  · exact ⟨by decide, by decide⟩

/-- A text is taken apart into names exactly if it is made up of them, with slashes between them. -/
theorem map_ofList_pieces_eq_iff {cs : List Char} {names : List String} :
    (Text.pieces '/' cs).map String.ofList = names
      ↔ names ≠ [] ∧ (∀ name ∈ names, '/' ∉ name.toList) ∧ cs = ("/".intercalate names).toList := by
  have hparts : (Text.pieces '/' cs).map String.ofList = names
      ↔ Text.pieces '/' cs = names.map String.toList := by
    constructor
    · rintro rfl
      simp [Function.comp_def]
    · intro h
      simp [h, Function.comp_def]
  have hslash : "/".toList = ['/'] := rfl
  rw [hparts, Text.pieces_eq_iff, String.toList_intercalate, hslash]
  simp

/-- A path is taken apart at its slashes, and every part has a character. -/
theorem ofPath?_eq_some_iff_parts : ofPath? base path = some page
    ↔ ∃ names, ofParts? names = some page ∧ (∀ name ∈ names, IsPart name)
      ∧ path = (base ++ "/prices/" ++ "/".intercalate names).toList := by
  simp only [String.toList_append (s := base ++ "/prices/")]
  by_cases hprefix : (base ++ "/prices/").toList <+: path
  · obtain ⟨cs, rfl⟩ := hprefix
    have hpath : ofPath? base ((base ++ "/prices/").toList ++ cs)
        = if (Text.pieces '/' cs).any (·.isEmpty) then none
          else ofParts? ((Text.pieces '/' cs).map String.ofList) := by
      simp [ofPath?]
    rw [hpath]
    constructor
    · intro h
      obtain ⟨-, hwhole, hcs⟩ := map_ofList_pieces_eq_iff.mp (rfl : (Text.pieces '/' cs).map String.ofList = _)
      split at h
      · cases h
      · next hall =>
        refine ⟨_, h, fun name hname => ⟨?_, hwhole name hname⟩, by rw [← hcs]⟩
        rintro rfl
        obtain ⟨part, hpart, hempty⟩ := List.mem_map.mp hname
        exact hall (List.any_eq_true.mpr ⟨part, hpart, by simpa using hempty⟩)
    · rintro ⟨names, hnames, hparts, hcs⟩
      have hne : names ≠ [] := by
        rintro rfl
        cases hnames
      have hpieces : (Text.pieces '/' cs).map String.ofList = names :=
        map_ofList_pieces_eq_iff.mpr
          ⟨hne, fun name hname => (hparts name hname).whole, List.append_cancel_left hcs⟩
      -- None of the parts is empty, because none of the names is.
      rw [hpieces, if_neg, hnames]
      intro hany
      obtain ⟨part, hpart, hempty⟩ := List.any_eq_true.mp hany
      have hname : String.ofList part ∈ names := hpieces ▸ List.mem_map_of_mem hpart
      exact (hparts _ hname).nonempty (by simpa using hempty)
  · have hpath : ofPath? base path = none := by
      unfold ofPath?
      exact if_neg (mt List.isPrefixOf_iff_prefix.mp hprefix)
    rw [hpath]
    constructor
    · rintro ⟨⟩
    · rintro ⟨names, -, -, rfl⟩
      exact absurd (List.prefix_append _ _) hprefix

/-- The page at a path is the one that stands there. -/
theorem ofPath?_eq_some_iff :
    ofPath? base (base ++ "/prices/" ++ rest).toList = some page ↔ page.StandsAt rest := by
  have hstored : ∀ t u, "/".intercalate ["stored", t, u] = "stored/" ++ t ++ "/" ++ u := by
    intro t u
    have hword : "stored/" = "stored" ++ "/" := rfl
    simp [hword, String.append_assoc]
  rw [ofPath?_eq_some_iff_parts]
  constructor
  · rintro ⟨names, hnames, hparts, hpath⟩
    have hrest : rest = "/".intercalate names := by simpa using String.toList_injective hpath
    rw [hrest]
    -- There is one page for each way of naming parts, and none for any other number of them.
    unfold ofParts? at hnames
    split at hnames
    · next t u =>
      cases hnames
      rw [hstored]
      exact .storedPrice (hparts t (by simp)) (hparts u (by simp))
    · next identifier =>
      cases hnames
      rw [String.intercalate_singleton]
      exact .price (hparts identifier (by simp))
    · next identifier last =>
      split at hnames
      · next ending =>
        cases hnames
        rw [String.intercalate_cons_cons, String.intercalate_singleton]
        exact .history (hparts identifier (by simp)) ending
      · cases hnames
    · cases hnames
  · intro h
    cases h with
    | @storedPrice t u type token =>
      refine ⟨["stored", t, u], rfl, ?_, by rw [hstored]⟩
      simpa using ⟨⟨by decide, by decide⟩, type, token⟩
    | price asset =>
      exact ⟨[rest], by simp [ofParts?], by simpa using asset, by rw [String.intercalate_singleton]⟩
    | @history identifier last asset ending =>
      refine ⟨[identifier, last], by simp [ofParts?, ending], ?_, ?_⟩
      · simpa using ⟨asset, isPart_of_isHistory ending⟩
      · rw [String.intercalate_cons_cons, String.intercalate_singleton]

end ChainWallet.Api.Page
