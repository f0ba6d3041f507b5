/-!
# Lists of results

Rows, entries and assets are read one after the other, and the first that cannot be read decides. These lemmas
say what is known of a list that was read as a whole (`mapM_cons_eq_ok`, `mem_of_mapM`, `exists_of_mem_mapM`,
`map_of_mapM`), and what of one that was not (`exists_of_mapM_eq_error`).
-/

namespace ChainWallet

variable {ε α β : Type} {f : α → Except ε β} {l : List α} {ys : List β}

/-- A list is read if its first entry and the rest are. -/
theorem mapM_cons_eq_ok {x : α} :
    (x :: l).mapM f = .ok ys ↔ ∃ y rest, f x = .ok y ∧ l.mapM f = .ok rest ∧ ys = y :: rest := by
  rw [List.mapM_cons]
  cases hx : f x with
  | error e => simp [bind, Except.bind]
  | ok y => cases hl : l.mapM f <;> simp [bind, Except.bind, pure, Except.pure, eq_comm]

/-- A list is read if each of its entries can be. -/
theorem exists_mapM_ok (h : ∀ x ∈ l, ∃ y, f x = .ok y) : ∃ ys, l.mapM f = .ok ys := by
  induction l with
  | nil => exact ⟨[], rfl⟩
  | cons x rest ih =>
    obtain ⟨y, hy⟩ := h x List.mem_cons_self
    obtain ⟨ys, hys⟩ := ih fun b hb => h b (List.mem_cons_of_mem x hb)
    exact ⟨y :: ys, mapM_cons_eq_ok.mpr ⟨y, ys, hy, hys, rfl⟩⟩

/-- What an entry is read as is among what the list is read as. -/
theorem mem_of_mapM {x : α} {y : β} (h : l.mapM f = .ok ys) (hx : x ∈ l) (hy : f x = .ok y) : y ∈ ys := by
  induction l generalizing ys with
  | nil => cases hx
  | cons b rest ih =>
    obtain ⟨z, zs, hz, hzs, rfl⟩ := mapM_cons_eq_ok.mp h
    rcases List.mem_cons.mp hx with rfl | hx
    · rw [hy] at hz
      cases hz
      exact List.mem_cons_self
    · exact List.mem_cons_of_mem z (ih hzs hx)

/-- What is read comes of an entry. -/
theorem exists_of_mem_mapM {y : β} (h : l.mapM f = .ok ys) (hy : y ∈ ys) : ∃ x ∈ l, f x = .ok y := by
  induction l generalizing ys with
  | nil =>
    cases h
    cases hy
  | cons x rest ih =>
    obtain ⟨z, zs, hz, hzs, rfl⟩ := mapM_cons_eq_ok.mp h
    rcases List.mem_cons.mp hy with rfl | hy
    · exact ⟨x, List.mem_cons_self, hz⟩
    · obtain ⟨b, hb, hfb⟩ := ih hzs hy
      exact ⟨b, List.mem_cons_of_mem x hb, hfb⟩

/-- A list that is not read has an entry that cannot be. -/
theorem exists_of_mapM_eq_error {e : ε} (h : l.mapM f = .error e) : ∃ x ∈ l, f x = .error e := by
  induction l with
  | nil => cases h
  | cons x rest ih =>
    rw [List.mapM_cons] at h
    cases hx : f x with
    | error e' =>
      rw [hx] at h
      cases h
      exact ⟨x, List.mem_cons_self, hx⟩
    | ok y =>
      rw [hx] at h
      cases hrest : rest.mapM f with
      | error e' =>
        rw [hrest] at h
        cases h
        obtain ⟨b, hb, hfb⟩ := ih hrest
        exact ⟨b, List.mem_cons_of_mem x hb, hfb⟩
      | ok ys =>
        rw [hrest] at h
        cases h

/-- Filtering before is filtering after, by tests that agree on what is read. -/
theorem mapM_filter {p : α → Bool} {q : β → Bool} (agree : ∀ x y, f x = .ok y → q y = p x)
    (h : l.mapM f = .ok ys) : (l.filter p).mapM f = .ok (ys.filter q) := by
  induction l generalizing ys with
  | nil =>
    cases h
    rfl
  | cons x rest ih =>
    obtain ⟨y, zs, hy, hzs, rfl⟩ := mapM_cons_eq_ok.mp h
    have hq := agree x y hy
    cases hp : p x with
    | false =>
      rw [List.filter_cons_of_neg (by simp [hp]), List.filter_cons_of_neg (by simp [hq, hp])]
      exact ih hzs
    | true =>
      rw [List.filter_cons_of_pos hp, List.filter_cons_of_pos (hq.trans hp)]
      exact mapM_cons_eq_ok.mpr ⟨y, _, hy, ih hzs, rfl⟩

/-- Keys that reading leaves are the same before and after. -/
theorem map_of_mapM {κ : Type} {key : α → κ} {key' : β → κ} (agree : ∀ x y, f x = .ok y → key' y = key x)
    (h : l.mapM f = .ok ys) : ys.map key' = l.map key := by
  induction l generalizing ys with
  | nil =>
    cases h
    rfl
  | cons x rest ih =>
    obtain ⟨y, zs, hy, hzs, rfl⟩ := mapM_cons_eq_ok.mp h
    rw [List.map_cons, List.map_cons, agree x y hy, ih hzs]

end ChainWallet
