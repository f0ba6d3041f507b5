import ChainWallet.Text.Blank
import Mathlib.Data.List.TakeWhile

/-!
# The pieces of a text

A text that lists things has a separator between them and blanks around them. What stands in such a list is told
by the text around it, without reading the list from its beginning.

* **`IsPiece`**, **`mem_pieces_iff`** — a piece reaches from a separator, or the beginning, to the next one;
  the first one ends at the first separator (`eq_of_append_sep`), the last one begins at the last
  (`eq_of_sep_append`).
* **`pieces_eq_iff`** — all pieces together are the text with a separator between any two of them.
* **`IsCore`**, **`trim_eq_iff`** — the core of a text begins and ends with no blank, and only blanks are
  around it.
-/

namespace ChainWallet.Text

/-! ### Pieces -/

/-- A stretch of a text without separators that reaches to a separator or to the end of the text on both
sides. -/
def IsPiece (sep : Char) (cs p : List Char) : Prop :=
  sep ∉ p ∧ ∃ before after, cs = before ++ p ++ after ∧ (∀ c ∈ before.getLast?, c = sep)
    ∧ ∀ c ∈ after.head?, c = sep

variable {sep : Char} {cs p : List Char}

/-- A text without separators is one piece. -/
theorem pieces_of_not_mem (h : sep ∉ p) : pieces sep p = [p] := by
  induction p with
  | nil => rfl
  | cons c rest ih =>
    obtain ⟨hc, hrest⟩ := not_or.mp (mt List.mem_cons.mpr h)
    rw [pieces, if_neg (Ne.symm hc), ih hrest]

/-- The first piece ends at the first separator. -/
theorem pieces_append_cons (h : sep ∉ p) (rest : List Char) :
    pieces sep (p ++ sep :: rest) = p :: pieces sep rest := by
  induction p with
  | nil => rw [List.nil_append, pieces, if_pos rfl]
  | cons c others ih =>
    obtain ⟨hc, hothers⟩ := not_or.mp (mt List.mem_cons.mpr h)
    rw [List.cons_append, pieces, if_neg (Ne.symm hc), ih hothers]

/-- Texts are equal only if what stands before the first separator is, and what stands behind it. -/
theorem eq_of_append_sep {xs ys us vs : List Char} (hxs : sep ∉ xs) (hys : sep ∉ ys)
    (h : xs ++ sep :: us = ys ++ sep :: vs) : xs = ys ∧ us = vs := by
  have hpieces := congrArg (pieces sep) h
  rw [pieces_append_cons hxs, pieces_append_cons hys] at hpieces
  obtain rfl := (List.cons.inj hpieces).1
  exact ⟨rfl, (List.cons.inj (List.append_cancel_left h)).2⟩

/-- Texts are equal only if what stands behind the last separator is, and what stands before it. -/
theorem eq_of_sep_append {xs ys us vs : List Char} (hus : sep ∉ us) (hvs : sep ∉ vs)
    (h : xs ++ sep :: us = ys ++ sep :: vs) : xs = ys ∧ us = vs := by
  have hreverse := congrArg List.reverse h
  simp only [List.reverse_append, List.reverse_cons, List.append_assoc, List.singleton_append] at hreverse
  obtain ⟨hbehind, hbefore⟩ := eq_of_append_sep (by simpa using hus) (by simpa using hvs) hreverse
  exact ⟨List.reverse_inj.mp hbefore, List.reverse_inj.mp hbehind⟩

/-- The pieces up to a separator and those after it are told apart. -/
theorem pieces_append_sep (before rest : List Char) :
    pieces sep (before ++ sep :: rest) = pieces sep before ++ pieces sep rest := by
  induction before with
  | nil => simp [pieces]
  | cons c others ih =>
    rw [List.cons_append, pieces, pieces, ih]
    split
    · rw [List.cons_append]
    · cases hpieces : pieces sep others with
      | nil => exact absurd hpieces (pieces_ne_nil sep others)
      | cons q qs => rfl

/-- A stretch between separators is one of the pieces, wherever it stands. -/
theorem mem_pieces_of_isPiece (h : IsPiece sep cs p) : p ∈ pieces sep cs := by
  obtain ⟨hp, before, after, rfl, hbefore, hafter⟩ := h
  have hends : p ∈ pieces sep (p ++ after) := by
    cases after with
    | nil => rw [List.append_nil, pieces_of_not_mem hp]; exact List.mem_singleton_self p
    | cons c rest =>
      obtain rfl := hafter c rfl
      rw [pieces_append_cons hp]
      exact List.mem_cons_self
  -- The stretch begins the text, or a separator stands before it.
  rcases List.eq_nil_or_concat before with rfl | ⟨front, c, rfl⟩
  · exact hends
  · obtain rfl := hbefore c (by simp)
    rw [List.append_assoc, List.concat_eq_append, List.append_assoc, List.singleton_append, pieces_append_sep]
    exact List.mem_append_right _ hends

/-- A piece is the first one, or one of the text behind the first separator. -/
theorem isPiece_of_mem_pieces {sep : Char} {cs p : List Char} (h : p ∈ pieces sep cs) : IsPiece sep cs p := by
  by_cases hsep : sep ∈ cs
  · obtain ⟨first, rest, rfl, hfirst⟩ := List.eq_append_cons_of_mem hsep
    rw [pieces_append_cons hfirst, List.mem_cons] at h
    rcases h with rfl | h
    · exact ⟨hfirst, [], sep :: rest, rfl, nofun, fun c hc => by simpa using hc.symm⟩
    · -- The piece is one of the rest, where it may be the first one.
      obtain ⟨hp, before, after, hrest, hbefore, hafter⟩ := isPiece_of_mem_pieces h
      refine ⟨hp, first ++ sep :: before, after, by rw [hrest]; simp, fun c hc => ?_, hafter⟩
      cases before with
      | nil => simpa using hc.symm
      | cons d others => exact hbefore c (by simpa using hc)
  · -- Without a separator the whole text is the one piece.
    rw [pieces_of_not_mem hsep, List.mem_singleton] at h
    subst h
    exact ⟨hsep, [], [], by simp, nofun, nofun⟩
termination_by cs.length

/-- The pieces are the stretches between separators. -/
theorem mem_pieces_iff : p ∈ pieces sep cs ↔ IsPiece sep cs p :=
  ⟨isPiece_of_mem_pieces, mem_pieces_of_isPiece⟩

/-- A text is taken apart as lists are at a member. -/
theorem pieces_eq_splitOn (sep : Char) (cs : List Char) : pieces sep cs = cs.splitOn sep := by
  induction cs with
  | nil => rfl
  | cons c rest ih =>
    rw [pieces, List.splitOn_cons_eq_if_modifyHead, ih]
    by_cases hc : c = sep
    · simp [hc]
    · cases hsplit : rest.splitOn sep with
      | nil => exact absurd hsplit (List.splitOn_ne_nil sep rest)
      | cons q qs => simp [hc, List.modifyHead]

/-- The pieces of a text are the texts without separators that make it up with separators between them. -/
theorem pieces_eq_iff {ps : List (List Char)} :
    pieces sep cs = ps ↔ ps ≠ [] ∧ (∀ p ∈ ps, sep ∉ p) ∧ cs = [sep].intercalate ps := by
  constructor
  · rintro rfl
    refine ⟨pieces_ne_nil sep cs, fun p hp => (isPiece_of_mem_pieces hp).1, ?_⟩
    rw [pieces_eq_splitOn, List.intercalate_splitOn]
  · -- No list of pieces is empty, so the empty list has to be left out.
    rintro ⟨hne, hps, rfl⟩
    rw [pieces_eq_splitOn, List.splitOn_intercalate sep hps hne]

/-- Texts are equal only if what stands before the first slash is, and what stands behind it. -/
theorem eq_of_append_slash {s t u v : String} (hs : '/' ∉ s.toList) (ht : '/' ∉ t.toList)
    (h : s ++ "/" ++ u = t ++ "/" ++ v) : s = t ∧ u = v := by
  have hchars := congrArg String.toList h
  simp only [String.toList_append, List.append_assoc] at hchars
  obtain ⟨hbefore, hbehind⟩ := eq_of_append_sep hs ht hchars
  exact ⟨String.toList_injective hbefore, String.toList_injective hbehind⟩

/-- Texts are equal only if what stands behind the last slash is, and what stands before it. -/
theorem eq_of_slash_append {s t u v : String} (hu : '/' ∉ u.toList) (hv : '/' ∉ v.toList)
    (h : s ++ "/" ++ u = t ++ "/" ++ v) : s = t ∧ u = v := by
  have hchars := congrArg String.toList h
  simp only [String.toList_append, List.append_assoc] at hchars
  obtain ⟨hbefore, hbehind⟩ := eq_of_sep_append hu hv hchars
  exact ⟨String.toList_injective hbefore, String.toList_injective hbehind⟩

/-! ### Cores -/

/-- What remains of a text once the characters of a class are taken from both of its ends. -/
def IsCore (blank : Char → Bool) (cs core : List Char) : Prop :=
  ∃ left right, cs = left ++ core ++ right ∧ (∀ c ∈ left, blank c = true) ∧ (∀ c ∈ right, blank c = true)
    ∧ (∀ c ∈ core.head?, blank c = false) ∧ ∀ c ∈ core.getLast?, blank c = false

variable {blank : Char → Bool} {core : List Char}

/-- Dropping stops at the first character that is not of the class. -/
theorem dropWhile_append_of_head {left rest : List Char} (hleft : ∀ c ∈ left, blank c = true)
    (hrest : ∀ c ∈ rest.head?, blank c = false) : (left ++ rest).dropWhile blank = rest := by
  rw [List.dropWhile_append_of_pos hleft]
  cases rest with
  | nil => rfl
  | cons c others => exact List.dropWhile_cons_of_neg (by simp [hrest c rfl])

/-- What is trimmed away is what is around the core. -/
theorem trim_eq_of_isCore (h : IsCore blank cs core) : trim blank cs = core := by
  obtain ⟨left, right, rfl, hleft, hright, hhead, hlast⟩ := h
  have hright' : ∀ c ∈ right.reverse, blank c = true := fun c hc => hright c (List.mem_reverse.mp hc)
  have hlast' : ∀ c ∈ core.reverse.head?, blank c = false := by rwa [List.head?_reverse]
  -- An empty core is a text of blanks, all of which are dropped from the left.
  cases core with
  | nil =>
    have hall : ∀ c ∈ left ++ [] ++ right, blank c = true := by
      simpa [or_imp, forall_and] using ⟨hleft, hright⟩
    rw [trim, List.dropWhile_eq_nil_iff.mpr hall]
    rfl
  | cons c others =>
    have hfirst : ∀ d ∈ (c :: others ++ right).head?, blank d = false := fun d hd => hhead d (by simpa using hd)
    rw [trim, List.append_assoc, dropWhile_append_of_head hleft hfirst, List.reverse_append,
      dropWhile_append_of_head hright' hlast', List.reverse_reverse]

/-- What trimming leaves has none of the class at its ends. -/
theorem isCore_trim (blank : Char → Bool) (cs : List Char) : IsCore blank cs (trim blank cs) := by
  have hfront : cs.takeWhile blank ++ cs.dropWhile blank = cs := List.takeWhile_append_dropWhile
  have hback : trim blank cs ++ ((cs.dropWhile blank).reverse.takeWhile blank).reverse = cs.dropWhile blank := by
    rw [trim, ← List.reverse_append, List.takeWhile_append_dropWhile, List.reverse_reverse]
  refine ⟨cs.takeWhile blank, ((cs.dropWhile blank).reverse.takeWhile blank).reverse, ?_, ?_, ?_, ?_, ?_⟩
  · rw [List.append_assoc, hback, hfront]
  · exact fun c hc => List.mem_takeWhile_imp hc
  · exact fun c hc => List.mem_takeWhile_imp (List.mem_reverse.mp hc)
  · -- The core begins where the blanks at the front end, and ends where those at the back begin.
    intro c hc
    obtain ⟨rest, hcore⟩ := List.head?_eq_some_iff.mp hc
    rw [hcore] at hback
    exact head_dropWhile hback.symm
  · intro c hc
    rw [trim, List.getLast?_reverse] at hc
    obtain ⟨rest, hcore⟩ := List.head?_eq_some_iff.mp hc
    exact head_dropWhile hcore

/-- A text has one core, and trimming finds it. -/
theorem trim_eq_iff : trim blank cs = core ↔ IsCore blank cs core := by
  constructor
  · rintro rfl
    exact isCore_trim blank cs
  · exact trim_eq_of_isCore

/-- A text without blanks is its own core. -/
theorem trim_eq_self (h : ∀ c ∈ cs, blank c = false) : trim blank cs = cs :=
  trim_eq_of_isCore ⟨[], [], by simp, nofun, nofun, fun c hc => h c (List.mem_of_mem_head? hc),
    fun c hc => h c (List.mem_of_getLast? hc)⟩

end ChainWallet.Text
