/-!
# Lists of keyed rows

Tables of the store, the cache of token names and the tables of prices are lists of rows in the order
in which their keys first came. `upsert` replaces the row of a key or adds one at the end, so no key
gets a second row (`nodup_upsert`), the new row is the one that is found (`find?_upsert_self`), and the
rows of other keys stay what they are (`find?_upsert_of_ne`).
-/

namespace ChainWallet.Keyed

variable {κ ρ : Type} [DecidableEq κ]

def find? (key : ρ → κ) (k : κ) (rows : List ρ) : Option ρ :=
  rows.find? (key · == k)

/-- The rows with a new row in the place of the one with its key, or at the end if there is none. -/
def upsert (key : ρ → κ) (row : ρ) : List ρ → List ρ
  | [] => [row]
  | r :: rest => if key r = key row then row :: rest else r :: upsert key row rest

/-! ### Characterization -/

/-- A row that is put in is found. -/
theorem find?_upsert_self (key : ρ → κ) (row : ρ) (rows : List ρ) :
    find? key (key row) (upsert key row rows) = some row := by
  induction rows with
  | nil => simp [find?, upsert]
  | cons r rest ih =>
    by_cases h : key r = key row
    · simp [find?, upsert, h]
    · simp only [upsert, if_neg h]
      simpa [find?, h] using ih

/-- What is found under other keys stays. -/
theorem find?_upsert_of_ne (key : ρ → κ) {row : ρ} {k : κ} (h : k ≠ key row) (rows : List ρ) :
    find? key k (upsert key row rows) = find? key k rows := by
  induction rows with
  | nil => simp [find?, upsert, Ne.symm h]
  | cons r rest ih =>
    by_cases hr : key r = key row
    · simp [find?, upsert, hr, Ne.symm h]
    · simp only [upsert, if_neg hr]
      by_cases hk : key r = k
      · simp [find?, hk]
      · simpa [find?, hk] using ih

/-- What is found after a row is put in. -/
theorem find?_upsert (key : ρ → κ) (row : ρ) (rows : List ρ) (k : κ) :
    find? key k (upsert key row rows) = if key row = k then some row else find? key k rows := by
  by_cases h : key row = k
  · subst h
    rw [if_pos rfl, find?_upsert_self]
  · rw [if_neg h, find?_upsert_of_ne key (Ne.symm h)]

/-- A row changes nothing exactly if it is there already. -/
theorem upsert_eq_self_iff (key : ρ → κ) (row : ρ) (rows : List ρ) :
    upsert key row rows = rows ↔ find? key (key row) rows = some row := by
  constructor
  · intro h
    rw [← h]
    exact find?_upsert_self key row rows
  · intro h
    induction rows with
    | nil => cases h
    | cons r rest ih =>
      by_cases hr : key r = key row
      · simp only [find?, List.find?_cons, hr, beq_self_eq_true, Option.some.injEq] at h
        rw [upsert, if_pos hr, h]
      · have hrest : find? key (key row) rest = some row := by simpa [find?, hr] using h
        rw [upsert, if_neg hr, ih hrest]

theorem find?_isSome_iff {key : ρ → κ} {k : κ} {rows : List ρ} :
    (find? key k rows).isSome ↔ k ∈ rows.map key := by
  simp [find?, List.find?_isSome]

theorem find?_eq_some_iff {key : ρ → κ} {rows : List ρ} (h : (rows.map key).Nodup) {k : κ} {row : ρ} :
    find? key k rows = some row ↔ row ∈ rows ∧ key row = k := by
  constructor
  · intro hfind
    exact ⟨List.mem_of_find?_eq_some hfind, by simpa using List.find?_some hfind⟩
  · rintro ⟨hmem, rfl⟩
    induction rows with
    | nil => cases hmem
    | cons r rest ih =>
      simp only [List.map_cons, List.nodup_cons] at h
      rcases List.mem_cons.mp hmem with rfl | hmem
      · simp [find?]
      · -- The row is further on, so the first one has another key.
        have hne : key r ≠ key row := fun e => h.1 (e ▸ List.mem_map_of_mem hmem)
        simpa [find?, hne] using ih h.2 hmem

/-- A row is the one that was put in, or was there. -/
theorem mem_upsert {key : ρ → κ} {row r : ρ} {rows : List ρ} (h : r ∈ upsert key row rows) :
    r = row ∨ r ∈ rows := by
  induction rows with
  | nil => simpa [upsert] using h
  | cons b rest ih =>
    by_cases hb : key b = key row
    · rw [upsert, if_pos hb] at h
      exact (List.mem_cons.mp h).imp_right (List.mem_cons_of_mem b)
    · rw [upsert, if_neg hb] at h
      rcases List.mem_cons.mp h with rfl | h
      · exact .inr List.mem_cons_self
      · exact (ih h).imp_right (List.mem_cons_of_mem b)

/-- A row whose key is not there comes last. -/
theorem upsert_of_not_mem (key : ρ → κ) {row : ρ} {rows : List ρ} (h : key row ∉ rows.map key) :
    upsert key row rows = rows ++ [row] := by
  induction rows with
  | nil => rfl
  | cons r rest ih =>
    simp only [List.map_cons, List.mem_cons, not_or] at h
    rw [upsert, if_neg (Ne.symm h.1), ih h.2, List.cons_append]

/-- A row whose key is there stands in the place of the one with its key. -/
theorem upsert_eq_map (key : ρ → κ) {row : ρ} {rows : List ρ} (distinct : (rows.map key).Nodup)
    (known : key row ∈ rows.map key) :
    upsert key row rows = rows.map fun r => if key r = key row then row else r := by
  induction rows with
  | nil => cases known
  | cons r rest ih =>
    obtain ⟨hr, hrest⟩ := List.nodup_cons.mp distinct
    rw [upsert, List.map_cons]
    by_cases h : key r = key row
    · -- The keys are distinct, so no row behind has the key.
      have hothers : rest.map (fun r => if key r = key row then row else r) = rest := by
        refine (List.map_congr_left fun b hb => if_neg fun hsame => hr ?_).trans (List.map_id rest)
        rw [h, ← hsame]
        exact List.mem_map_of_mem hb
      rw [if_pos h, if_pos h, hothers]
    · have hknown : key row ∈ rest.map key := (List.mem_cons.mp known).resolve_left (Ne.symm h)
      rw [if_neg h, if_neg h, ih hrest hknown]

/-- A row outside a filter, whose key only rows outside it have, makes no difference to the filter. -/
theorem filter_upsert (key : ρ → κ) {row : ρ} {rows : List ρ} {p : ρ → Bool} (hrow : p row = false)
    (hkey : ∀ r ∈ rows, key r = key row → p r = false) : (upsert key row rows).filter p = rows.filter p := by
  induction rows with
  | nil => simp [upsert, hrow]
  | cons r rest ih =>
    by_cases h : key r = key row
    · have hr := hkey r List.mem_cons_self h
      rw [upsert, if_pos h, List.filter_cons_of_neg (by simp [hrow]), List.filter_cons_of_neg (by simp [hr])]
    · have hrest := ih fun b hb => hkey b (List.mem_cons_of_mem r hb)
      rw [upsert, if_neg h, List.filter_cons, List.filter_cons, hrest]

/-- A key is that of the row that was put in, or was there. -/
theorem mem_keys_upsert (key : ρ → κ) (row : ρ) (rows : List ρ) (k : κ) :
    k ∈ (upsert key row rows).map key ↔ k = key row ∨ k ∈ rows.map key := by
  induction rows with
  | nil => simp [upsert]
  | cons r rest ih =>
    by_cases h : key r = key row
    · simp [upsert, h]
    · simp only [upsert, if_neg h, List.map_cons, List.mem_cons, ih, or_left_comm]

/-- Keys that are distinct stay distinct. -/
theorem nodup_upsert (key : ρ → κ) (row : ρ) {rows : List ρ} (h : (rows.map key).Nodup) :
    ((upsert key row rows).map key).Nodup := by
  induction rows with
  | nil => simp [upsert]
  | cons r rest ih =>
    simp only [List.map_cons, List.nodup_cons] at h
    by_cases hr : key r = key row
    · simp only [upsert, if_pos hr, List.map_cons, List.nodup_cons]
      exact ⟨hr ▸ h.1, h.2⟩
    · simp only [upsert, if_neg hr, List.map_cons, List.nodup_cons]
      -- The key of the first row is not the one that is put in, and is not further on.
      refine ⟨fun m => ?_, ih h.2⟩
      rcases (mem_keys_upsert key row rest (key r)).mp m with e | m
      · exact hr e
      · exact h.1 m

end ChainWallet.Keyed
