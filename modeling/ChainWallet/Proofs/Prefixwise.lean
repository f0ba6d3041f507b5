import Mathlib.Data.List.Basic

/-!
# Lists that grow at their end

What happens is often listed in order, and whether an entry is in order depends on those before it. Such a
list is in order entry by entry: it stays so when one more is noted that is in order (`prefixwise_concat`).
-/

namespace ChainWallet

variable {α : Type} {P : List α → α → Prop} {l : List α}

/-- Every entry of a list stands as `P` demands to the entries before it. -/
def Prefixwise (P : List α → α → Prop) (l : List α) : Prop :=
  ∀ k x, l[k]? = some x → P (l.take k) x

theorem prefixwise_nil : Prefixwise P [] := by
  intro k x h
  simp at h

/-- A list stays in order when one more is noted that is in order, and in no other way. -/
theorem prefixwise_concat {x : α} : Prefixwise P (l ++ [x]) ↔ Prefixwise P l ∧ P l x := by
  constructor
  · intro h
    constructor
    · intro k y hk
      have hlt : k < l.length := (List.getElem?_eq_some_iff.mp hk).1
      have := h k y (by rw [List.getElem?_append_left hlt, hk])
      rwa [List.take_append_of_le_length (Nat.le_of_lt hlt)] at this
    · have := h l.length x (by simp)
      rwa [List.take_left] at this
  · rintro ⟨h, hlast⟩ k y hk
    -- A place is one of the earlier entries, or that of the last one.
    rcases Nat.lt_or_ge k l.length with hlt | hge
    · rw [List.getElem?_append_left hlt] at hk
      rw [List.take_append_of_le_length (Nat.le_of_lt hlt)]
      exact h k y hk
    · -- The last entry comes after all the others.
      obtain rfl : k = l.length := by
        have := (List.getElem?_eq_some_iff.mp hk).1
        simp at this
        omega
      simp only [List.getElem?_concat_length, Option.some.injEq] at hk
      subst hk
      rwa [List.take_left]

/-! ### Places of a list -/

variable {x : α} {i m j : Nat}

/-- A place of a first part is a place of the whole, before its end. -/
theorem getElem?_of_take (h : (l.take j)[i]? = some x) : i < j ∧ l[i]? = some x := by
  rw [List.getElem?_take] at h
  split at h
  · exact ⟨‹_›, h⟩
  · cases h

/-- What stands between two places is among what comes before the one and after the other. -/
theorem mem_between (hm : l[m]? = some x) (hi : i < m) (hj : m < j) : x ∈ (l.take j).drop (i + 1) := by
  refine List.mem_of_getElem? (i := m - (i + 1)) ?_
  rw [List.getElem?_drop, Nat.add_sub_cancel' hi, List.getElem?_take_of_lt hj, hm]

end ChainWallet
