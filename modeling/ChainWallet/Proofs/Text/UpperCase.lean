import ChainWallet.Text.UpperCase
import Mathlib.Data.List.Basic

/-!
# Upper case is final

A text in upper case is its own upper case, in all of Unicode. A character becomes one letter or several by
finitely many rules, and no rule leads to a character that some rule applies to.

* **`upperRules`**, **`Capital`** — the code points that have another upper case, and those that have none.
* **`CaseRun.misses`** — a run whose upper case lies outside another run: beside it, or always between two of
  its code points.
* **`upperChar_of_mem_upperChar`** — what a character becomes stays as it is.
* **`upper_upper`** — so upper-casing twice is upper-casing once.
-/

namespace ChainWallet.Text

/-! ### Rules -/

/-- The code points that have another upper case, in runs. -/
def upperRules : List CaseRun :=
  upperRuns ++ upperExpansions.map fun e => ⟨e.1, e.1, 1, 0⟩

/-- A code point that no rule applies to. -/
def Capital (n : Nat) : Prop :=
  ∀ r ∈ upperRules, r.holds n = false

/-- Within ASCII the rules are those for the letters. -/
theorem toUpper_of_ascii : ∀ n < 128,
    (Char.ofNat n).toUpper = Char.ofNat n ∨ upperRules.any (·.holds n) = true := by
  decide +kernel

/-- A character that no rule applies to stays as it is. -/
theorem upperChar_of_capital {c : Char} (h : Capital c.toNat) : upperChar c = [c] := by
  obtain ⟨hruns, hexpansions⟩ := List.forall_mem_append.mp h
  have hrun : upperRuns.find? (·.holds c.toNat) = none :=
    List.find?_eq_none.mpr fun r hr => by simp [hruns r hr]
  have hexpansion : upperExpansions.find? (·.1 == c.toNat) = none := by
    refine List.find?_eq_none.mpr fun e he heq => ?_
    have hnone := hexpansions _ (List.mem_map_of_mem he)
    simp_all [CaseRun.holds]
  -- Below 128 another definition is used, which has to agree with the runs.
  by_cases hascii : c.toNat < 128
  · rcases toUpper_of_ascii c.toNat hascii with hself | hany
    · rw [Char.ofNat_toNat] at hself
      simp only [upperChar, hascii, if_true, hself]
    · obtain ⟨r, hr, hholds⟩ := List.any_eq_true.mp hany
      rw [h r hr] at hholds
      cases hholds
  · simp only [upperChar, hascii, if_false, hexpansion, hrun]

/-- So does the character of a code point that no rule applies to. -/
theorem upperChar_ofNat_of_capital {n : Nat} (h : Capital n) : upperChar (Char.ofNat n) = [Char.ofNat n] := by
  by_cases hvalid : n.isValidChar
  · refine upperChar_of_capital ?_
    rwa [Char.ofNat, dif_pos hvalid]
  · -- What is no code point of a character becomes U+0000.
    rw [Char.ofNat, dif_neg hvalid]
    decide +kernel

/-! ### The upper case of a run -/

/-- The upper case of a code point of a run. -/
def CaseRun.image (r : CaseRun) (n : Nat) : Nat :=
  (n + r.offset).toNat

/-- Whether the upper case of `r` lies outside `s`: before it, after it, or one off its every second code point.
The bounds are compared by `Nat.blt`, which is quick to evaluate. -/
def CaseRun.misses (s r : CaseRun) : Bool :=
  (r.image r.last).blt s.first || s.last.blt (r.image r.first)
    || ((r.stride == 2 || r.first == r.last) && s.stride == 2 && (r.image r.first + s.first) % 2 == 1)

/-- If the upper case of a run misses another run, none of its code points is in there. -/
theorem CaseRun.holds_image_of_misses {r s : CaseRun} {n : Nat} (natural : 0 ≤ r.first + r.offset)
    (h : s.misses r = true) (hn : r.holds n = true) : s.holds (r.image n) = false := by
  simp only [misses, Bool.or_eq_true, Bool.and_eq_true, beq_iff_eq, Nat.blt_eq] at h
  simp only [holds, Bool.and_eq_true, decide_eq_true_eq, beq_iff_eq] at hn
  obtain ⟨⟨hfirst, hlast⟩, hstride⟩ := hn
  simp only [holds, Bool.and_eq_false_iff, decide_eq_false_iff_not, beq_eq_false_iff_ne]
  unfold image at *
  rcases h with (hbefore | hafter) | ⟨⟨hstep, htwo⟩, hodd⟩
  · exact .inl (.inl (by omega))
  · exact .inl (.inr (by omega))
  · rw [htwo]
    rcases hstep with htwo' | hone
    · rw [htwo'] at hstride
      omega
    · omega

/-- No upper case is a negative number. -/
theorem natural_of_mem_upperRuns : ∀ r ∈ upperRuns, 0 ≤ r.first + r.offset := by
  decide +kernel

/-- No rule applies to what a run becomes. There are finitely many runs, and their bounds decide. -/
theorem upperRules_miss_upperRuns : (upperRuns.all fun r => upperRules.all (·.misses r)) = true := by
  decide +kernel

/-- What a code point of a run becomes is capital. -/
theorem capital_image {r : CaseRun} {n : Nat} (hr : r ∈ upperRuns) (hn : r.holds n = true) :
    Capital (r.image n) := by
  intro s hs
  have hmisses := List.all_eq_true.mp (List.all_eq_true.mp upperRules_miss_upperRuns r hr) s hs
  exact CaseRun.holds_image_of_misses (natural_of_mem_upperRuns r hr) hmisses hn

/-! ### Characters and texts -/

/-- The upper case of an ASCII letter stays as it is. -/
theorem upperChar_of_ascii : ∀ n < 128, upperChar (Char.ofNat n).toUpper = [(Char.ofNat n).toUpper] := by
  decide +kernel

/-- So do the letters that one character becomes. -/
theorem upperChar_of_expansion :
    ∀ e ∈ upperExpansions, ∀ n ∈ e.2, upperChar (Char.ofNat n) = [Char.ofNat n] := by
  decide +kernel

/-- What a character becomes stays as it is. -/
theorem upperChar_of_mem_upperChar {c d : Char} (h : d ∈ upperChar c) : upperChar d = [d] := by
  unfold upperChar at h
  dsimp only at h
  split at h
  · -- Within ASCII there are only the letters.
    next hascii =>
    obtain rfl := List.mem_singleton.mp h
    simpa only [Char.ofNat_toNat] using upperChar_of_ascii c.toNat hascii
  · split at h
    · next _ ns hexpansion =>
      obtain ⟨n, hn, rfl⟩ := List.mem_map.mp h
      exact upperChar_of_expansion _ (List.mem_of_find?_eq_some hexpansion) n hn
    · next hexpansion =>
      split at h
      · -- A run leads to a code point that no rule applies to.
        next r hrun =>
        obtain rfl := List.mem_singleton.mp h
        have hholds : r.holds c.toNat = true := by simpa using List.find?_some hrun
        exact upperChar_ofNat_of_capital (capital_image (List.mem_of_find?_eq_some hrun) hholds)
      · next hrun =>
        obtain rfl := List.mem_singleton.mp h
        -- Neither a run nor an expansion applies, so the character is capital already.
        refine upperChar_of_capital (List.forall_mem_append.mpr ⟨?_, ?_⟩)
        · simpa using List.find?_eq_none.mp hrun
        · refine List.forall_mem_map.mpr fun e he => ?_
          have hne := List.find?_eq_none.mp hexpansion e he
          simp only [beq_iff_eq] at hne
          simp only [CaseRun.holds, Bool.and_eq_false_iff, decide_eq_false_iff_not]
          exact .inl (by omega)

/-- Upper-casing twice is upper-casing once. -/
@[simp] theorem upper_upper (s : String) : upper (upper s) = upper s := by
  have hself : ∀ d ∈ s.toList.flatMap upperChar, upperChar d = [d] := by
    intro d hd
    obtain ⟨c, -, hc⟩ := List.mem_flatMap.mp hd
    exact upperChar_of_mem_upperChar hc
  rw [upper, upper, String.toList_ofList, List.flatMap_congr hself, List.flatMap_singleton']

end ChainWallet.Text
