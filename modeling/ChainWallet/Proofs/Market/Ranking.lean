import ChainWallet.Market.Portfolio
import ChainWallet.Proofs.Decimal.NumericOrder
import ChainWallet.Proofs.Results

/-!
# The order of a portfolio

A portfolio lists its assets with their values, the most valuable first. Values are compared as numbers, and
many assets have none, so equal values are the rule; there the assets stand as they were given.

* **`values_eq_ok_iff`** — the values of assets are told exactly if each of them is.
* **`descending`**, **`mergeSort_atLeast`** — without a NaN the order of values is a linear one.
* **`Before`**, **`Ranked`** — the order by value and, among equal values, by position.
* **`ranked_by_value`** — sorting gives every position once in this order, and sorting again changes nothing.
-/

namespace ChainWallet.Portfolio

open Decimal (Signal)

section

variable {prices : Prices} {currency : String} {assets : List Asset} {vs : List Valued}

/-! ### Values -/

/-- A valued asset is the asset with its value in the table. -/
theorem valued_eq_ok_iff {a : Asset} {x : Valued} : (marketValue prices currency a).map (Valued.mk a) = .ok x
    ↔ x.asset = a ∧ marketValue prices currency x.asset = .ok x.value := by
  obtain ⟨b, v⟩ := x
  cases h : marketValue prices currency a with
  | error e =>
    refine iff_of_false nofun ?_
    rintro ⟨rfl, hvalue⟩
    rw [h] at hvalue
    cases hvalue
  | ok w =>
    constructor
    · rintro ⟨⟩
      exact ⟨rfl, h⟩
    · rintro ⟨rfl, hvalue⟩
      rw [h] at hvalue
      cases hvalue
      rfl

/-- The values of a portfolio are there if each asset has its own, in the order of the assets. -/
theorem values_eq_ok_iff : values prices currency assets = .ok vs ↔ vs.map (·.asset) = assets
    ∧ ∀ x ∈ vs, marketValue prices currency x.asset = .ok x.value := by
  induction assets generalizing vs with
  | nil =>
    rw [values, List.mapM_nil, List.map_eq_nil_iff]
    constructor
    · intro h
      cases h
      exact ⟨rfl, List.forall_mem_nil _⟩
    · rintro ⟨rfl, -⟩
      rfl
  | cons a rest ih =>
    rw [values, mapM_cons_eq_ok]
    constructor
    · -- One value is that of the first asset, the others those of the rest.
      rintro ⟨x, others, hx, hothers, rfl⟩
      obtain ⟨hasset, hvalue⟩ := valued_eq_ok_iff.mp hx
      obtain ⟨hassets, hvalues⟩ := ih.mp hothers
      exact ⟨by rw [List.map_cons, hasset, hassets], List.forall_mem_cons.mpr ⟨hvalue, hvalues⟩⟩
    · rintro ⟨hassets, hvalues⟩
      obtain ⟨x, others, rfl, hasset, hothers⟩ := List.map_eq_cons_iff.mp hassets
      obtain ⟨hvalue, hrest⟩ := List.forall_mem_cons.mp hvalues
      exact ⟨x, others, valued_eq_ok_iff.mpr ⟨hasset, hvalue⟩, ih.mpr ⟨hothers, hrest⟩, rfl⟩

/-! ### Comparing -/

/-- Whether a value is at least another one, by their places. A NaN, which has none, counts as the lowest. -/
def descending (x y : Valued) : Bool :=
  decide (y.value.level?.getD ⊥ ≤ x.value.level?.getD ⊥)

theorem descending_trans (x y z : Valued) (hxy : descending x y = true) (hyz : descending y z = true) :
    descending x z = true := by
  rw [descending, decide_eq_true_iff] at *
  exact hyz.trans hxy

theorem descending_total (x y : Valued) : (descending x y || descending y x) = true := by
  rw [descending, descending, Bool.or_eq_true, decide_eq_true_iff, decide_eq_true_iff]
  exact le_total _ _

theorem exists_level {x : Valued} (h : x.value.isNaN = false) : ∃ l, x.value.level? = some l := by
  refine Option.ne_none_iff_exists'.mp fun hnone => ?_
  rw [Numeral.level?_eq_none_iff, h] at hnone
  cases hnone

theorem atLeast_eq_descending {x y : Valued} (hx : x.value.isNaN = false) (hy : y.value.isNaN = false) :
    atLeast x y = descending x y := by
  obtain ⟨l, hl⟩ := exists_level hx
  obtain ⟨m, hm⟩ := exists_level hy
  rw [atLeast, Numeral.lt?_eq, hl, hm, descending, hl, hm]
  -- Values with places are compared by them, one way or the other.
  by_cases hlt : l < m
  · simp [hlt]
  · simp [hlt, not_lt.mp hlt]

/-- Without a NaN values are sorted by their places. -/
theorem mergeSort_atLeast (comparable : ∀ x ∈ vs, x.value.isNaN = false) :
    vs.mergeSort atLeast = vs.mergeSort descending := by
  have hsorted := List.map_mergeSort (f := id) (r := atLeast) (s := descending) (l := vs) fun x hx y hy =>
    atLeast_eq_descending (comparable x hx) (comparable y hy)
  simpa using hsorted

/-- Sorting assets is sorting their values, if all of them are there and none is a NaN. -/
theorem sortByValue_of_values (h : values prices currency assets = .ok vs)
    (comparable : ∀ x ∈ vs, x.value.isNaN = false) :
    sortByValue prices currency assets = .ok (vs.mergeSort descending) := by
  have hany : vs.any (·.value.isNaN) = false := by
    rw [List.any_eq_false]
    exact fun x hx => by simp [comparable x hx]
  simp only [sortByValue, h, Except.bind, hany, Bool.and_false, Bool.false_eq_true, if_false,
    mergeSort_atLeast comparable]

/-! ### Ranks -/

/-- One value with its position comes before another one: it is larger, or equal and given earlier. -/
def Before (x y : Valued × Nat) : Prop :=
  ∃ l m, x.1.value.level? = some l ∧ y.1.value.level? = some m ∧ (m < l ∨ m = l ∧ x.2 < y.2)

/-- Each position of a list of assets once, with the asset there and its value, in descending order. -/
structure Ranked (prices : Prices) (currency : String) (assets : List Asset) (ranks : List (Valued × Nat)) :
    Prop where
  positions : (ranks.map Prod.snd).Perm (List.range assets.length)
  own : ∀ x ∈ ranks, assets[x.2]? = some x.1.asset ∧ marketValue prices currency x.1.asset = .ok x.1.value
  order : ranks.Pairwise Before

/-- Two different positions that are in order are so for one of two reasons. -/
theorem before_of_zipIdxLE {x y : Valued × Nat} (hx : x.1.value.isNaN = false) (hy : y.1.value.isNaN = false)
    (hle : List.zipIdxLE descending x y = true) (hne : x.2 ≠ y.2) : Before x y := by
  obtain ⟨l, hl⟩ := exists_level hx
  obtain ⟨m, hm⟩ := exists_level hy
  refine ⟨l, m, hl, hm, ?_⟩
  simp only [List.zipIdxLE, descending, hl, hm, Option.getD_some, decide_eq_true_eq] at hle
  -- The sort compares the values first, and the positions if each is at least the other.
  split at hle
  · next hml =>
    split at hle
    · next hlm =>
      rw [decide_eq_true_iff] at hle
      exact .inr ⟨le_antisymm hml hlm, by omega⟩
    · next hlm => exact .inl (not_le.mp hlm)
  · cases hle

/-- The values of a portfolio, sorted with their positions, are its ranks. -/
theorem ranked_of_values (h : values prices currency assets = .ok vs)
    (comparable : ∀ x ∈ vs, x.value.isNaN = false) :
    Ranked prices currency assets (vs.zipIdx.mergeSort (List.zipIdxLE descending)) := by
  obtain ⟨hassets, hvalues⟩ := values_eq_ok_iff.mp h
  have hperm := List.mergeSort_perm vs.zipIdx (List.zipIdxLE descending)
  have hpositions : (vs.zipIdx.map Prod.snd) = List.range assets.length := by
    rw [List.zipIdx_map_snd, ← hassets, List.length_map, List.range_eq_range']
  have hmem : ∀ x ∈ vs.zipIdx.mergeSort (List.zipIdxLE descending), vs[x.2]? = some x.1 := fun x hx =>
    List.mem_zipIdx_iff_getElem?.mp (hperm.mem_iff.mp hx)
  have hsorted := List.pairwise_mergeSort (List.zipIdxLE_trans descending_trans)
    (List.zipIdxLE_total descending_total) vs.zipIdx
  -- No position is there twice, so no two of them are tied in both.
  have hdistinct : (vs.zipIdx.mergeSort (List.zipIdxLE descending)).Pairwise (·.2 ≠ ·.2) := by
    rw [← List.pairwise_map, ← List.Nodup, (hperm.map Prod.snd).nodup_iff, hpositions]
    exact List.nodup_range
  refine ⟨hpositions ▸ hperm.map Prod.snd, fun x hx => ⟨?_, ?_⟩, ?_⟩
  · rw [← hassets, List.getElem?_map, hmem x hx, Option.map_some]
  · exact hvalues x.1 (List.mem_of_getElem? (hmem x hx))
  · refine (hsorted.and hdistinct).imp_of_mem fun {x y} hx hy ⟨hle, hne⟩ => ?_
    exact before_of_zipIdxLE (comparable _ (List.mem_of_getElem? (hmem x hx)))
      (comparable _ (List.mem_of_getElem? (hmem y hy))) hle hne

/-- A portfolio whose values are all there and comparable is sorted into ranks, and what is sorted stays as it
is. -/
theorem ranked_by_value
    (valued : ∀ a ∈ assets, ∃ v, marketValue prices currency a = .ok v ∧ v.isNaN = false) :
    ∃ ranks, sortByValue prices currency assets = .ok (ranks.map Prod.fst)
      ∧ Ranked prices currency assets ranks
      ∧ sortByValue prices currency (ranks.map (·.1.asset)) = .ok (ranks.map Prod.fst) := by
  obtain ⟨vs, hvs⟩ : ∃ vs, values prices currency assets = .ok vs := by
    refine exists_mapM_ok fun a ha => ?_
    obtain ⟨v, hv, -⟩ := valued a ha
    exact ⟨⟨a, v⟩, valued_eq_ok_iff.mpr ⟨rfl, hv⟩⟩
  obtain ⟨hassets, hvalues⟩ := values_eq_ok_iff.mp hvs
  have hcomparable : ∀ x ∈ vs, x.value.isNaN = false := by
    intro x hx
    obtain ⟨v, hv, hnumber⟩ := valued x.asset (hassets ▸ List.mem_map_of_mem hx)
    rw [hvalues x hx, Except.ok.injEq] at hv
    rwa [hv]
  -- Sorting with positions and forgetting them is sorting, since the sort keeps ties in order.
  have hranks : (vs.zipIdx.mergeSort (List.zipIdxLE descending)).map Prod.fst = vs.mergeSort descending :=
    List.mergeSort_zipIdx
  refine ⟨_, by rw [hranks, sortByValue_of_values hvs hcomparable], ranked_of_values hvs hcomparable, ?_⟩
  -- The sorted assets have the values that they are sorted by.
  have hmem : ∀ x ∈ vs.mergeSort descending, x ∈ vs := fun x hx => List.mem_mergeSort.mp hx
  have hagain : values prices currency ((vs.mergeSort descending).map (·.asset))
      = .ok (vs.mergeSort descending) := values_eq_ok_iff.mpr ⟨rfl, fun x hx => hvalues x (hmem x hx)⟩
  have hsorted := List.pairwise_mergeSort descending_trans descending_total vs
  have hranked : (vs.zipIdx.mergeSort (List.zipIdxLE descending)).map (·.1.asset)
      = (vs.mergeSort descending).map (·.asset) := by
    rw [← hranks, List.map_map]
    rfl
  rw [hranked, sortByValue_of_values hagain fun x hx => hcomparable x (hmem x hx),
    List.mergeSort_of_pairwise hsorted, hranks]

end

/-! Holdings of one coin, two of which are worth the same in different writings, and two of which nothing. -/

namespace TiedValues

def prices : Prices := [("TENDERMINT-CRO-USD", ⟨"CRO", "USD", "2", "", .tendermint⟩)]

def holding (symbol : String) (balance : Decimal) : Asset where
  identifier := "coin"
  walletId := "wallet-1"
  assetType := .tendermint
  mainnetSymbol := symbol
  symbol := symbol
  name := ""
  decimals := 8
  balance := balance
  address := ""
  config := none

def assets : List Asset :=
  [holding "CRO" ⟨true, 0, 0⟩, holding "CRO" ⟨false, 5, -1⟩, holding "ATOM" ⟨false, 3, 0⟩,
    holding "CRO" ⟨false, 50, -2⟩, holding "CRO" ⟨false, 5, -1⟩]

/-- `1.0` and `1.00` stay as they are given, and so do `-0` and `0`. -/
theorem tied_values_keep_order :
    (∀ a ∈ assets, ∃ v, marketValue prices "USD" a = .ok v ∧ v.isNaN = false)
    ∧ (∃ ranks, sortByValue prices "USD" assets = .ok (ranks.map Prod.fst)
      ∧ Ranked prices "USD" assets ranks
      ∧ sortByValue prices "USD" (ranks.map (·.1.asset)) = .ok (ranks.map Prod.fst)) := by
  have valued : ∀ a ∈ assets, ∃ v, marketValue prices "USD" a = .ok v ∧ v.isNaN = false := by
    simp only [assets, List.forall_mem_cons, List.not_mem_nil, false_implies, implies_true, and_true]
    exact ⟨⟨.finite ⟨true, 0, 0⟩, by decide +kernel, rfl⟩, ⟨.finite ⟨false, 10, -1⟩, by decide +kernel, rfl⟩,
      ⟨.finite ⟨false, 0, 0⟩, by decide +kernel, rfl⟩, ⟨.finite ⟨false, 100, -2⟩, by decide +kernel, rfl⟩,
      ⟨.finite ⟨false, 10, -1⟩, by decide +kernel, rfl⟩⟩
  exact ⟨valued, ranked_by_value valued⟩

end TiedValues

end ChainWallet.Portfolio
