import ChainWallet.Keyed
import ChainWallet.Ledger.Sequencer

/-!
# The last answer wins

After some steps have been completed, what a draft holds can be told without going through them one by
one: an asset has the answer of the last step that covers it, the wallet that of the last primary step,
and a chain that of the last step on it; what no step concerns is as it was.

* **`lastAnswer`** — the answer of the last completed step that a test picks.
* **`WalletDraft.after`** — a draft after completed steps, told in this way.
* **`Step.Refused`** — an asset of the draft, as it then is, holds another address than the answer of a
  step.
* **`record_after`** and **`record_after_of_refused`** — writing one more answer, asset by asset and
  with every asset asked first, leads from one such draft to the next one, or leaves it alone.
-/

namespace ChainWallet

open Ledger

namespace Ledger

/-- The answer of the last completed step that a test picks. -/
def lastAnswer (picks : Step → Bool) (done : List (Step × String)) : Option String :=
  (done.reverse.find? fun d => picks d.1).map (·.2)

@[simp] theorem lastAnswer_nil (picks : Step → Bool) : lastAnswer picks [] = none := rfl

/-- A step more is asked first, since the last one counts. -/
@[simp] theorem lastAnswer_concat (picks : Step → Bool) (done : List (Step × String)) (step : Step)
    (address : String) :
    lastAnswer picks (done ++ [(step, address)])
      = if picks step then some address else lastAnswer picks done := by
  cases h : picks step <;> simp [lastAnswer, h]

theorem lastAnswer_eq_none_iff {picks : Step → Bool} {done : List (Step × String)} :
    lastAnswer picks done = none ↔ ∀ d ∈ done, picks d.1 = false := by
  simp [lastAnswer]

/-- The last answer is one of the answers that the test picks. -/
theorem exists_mem_of_lastAnswer {picks : Step → Bool} {done : List (Step × String)} {address : String}
    (h : lastAnswer picks done = some address) : ∃ d ∈ done, picks d.1 = true ∧ d.2 = address := by
  obtain ⟨d, hfind, rfl⟩ := Option.map_eq_some_iff.mp h
  -- The search goes from the end, which is no matter to membership.
  have picked : picks d.1 = true := List.find?_some (p := fun e : Step × String => picks e.1) hfind
  exact ⟨d, List.mem_reverse.mp (List.mem_of_find?_eq_some hfind), picked, rfl⟩

/-- Where all answers that a test picks are the same, the last one is that. -/
theorem lastAnswer_eq_some {picks : Step → Bool} {done : List (Step × String)} {d : Step × String}
    (hd : d ∈ done) (picked : picks d.1 = true)
    (same : ∀ d' ∈ done, picks d'.1 = true → d'.2 = d.2) : lastAnswer picks done = some d.2 := by
  cases h : lastAnswer picks done with
  | none =>
    have := lastAnswer_eq_none_iff.mp h d hd
    rw [picked] at this
    cases this
  | some address =>
    obtain ⟨d', hd', picked', rfl⟩ := exists_mem_of_lastAnswer h
    rw [same d' hd' picked']

end Ledger

/-! ### Drafts after completed steps -/

/-- The address of an asset after some steps have been completed. -/
def Asset.addressAfter (a : Asset) (done : List (Step × String)) : String :=
  (lastAnswer (·.covers a) done).getD a.address

/-- An asset that no step covers keeps its address. -/
theorem Asset.addressAfter_of_uncovered {a : Asset} {done : List (Step × String)}
    (h : ∀ d ∈ done, d.1.covers a = false) : a.addressAfter done = a.address := by
  rw [addressAfter, lastAnswer_eq_none_iff.mpr h, Option.getD_none]

theorem Asset.addressAfter_of_covered {a : Asset} {done : List (Step × String)} {d : Step × String}
    (hd : d ∈ done) (covered : d.1.covers a = true)
    (same : ∀ d' ∈ done, d'.1.covers a = true → d'.2 = d.2) : a.addressAfter done = d.2 := by
  rw [addressAfter, lastAnswer_eq_some hd covered same, Option.getD_some]

/-- A draft after some steps have been completed. -/
def WalletDraft.after (w : WalletDraft) (done : List (Step × String)) : WalletDraft :=
  { w with
    assets := w.assets.map fun a => { a with address := a.addressAfter done }
    address := (lastAnswer (·.isPrimary) done).getD w.address }

@[simp] theorem WalletDraft.after_nil (w : WalletDraft) : w.after [] = w := by
  simp [WalletDraft.after, Asset.addressAfter]

namespace Ledger.Step

/-- The address of an asset does not decide whether a step covers it. -/
@[simp] theorem covers_address (step : Step) (a : Asset) (address : String) :
    step.covers { a with address } = step.covers a := rfl

/-- What a step asks the device for does not hang on the addresses derived so far. -/
@[simp] theorem call_after (step : Step) (w : WalletDraft) (done : List (Step × String)) :
    step.call (w.after done) = step.call w := rfl

/-- An asset that a step covers holds another address than the step's answer, and none may be
replaced. -/
def Refused (step : Step) (migrate : Bool) (w : WalletDraft) (done : List (Step × String))
    (address : String) : Prop :=
  migrate = false ∧ ∃ a ∈ w.assets, step.covers a = true ∧ a.addressAfter done ≠ ""
    ∧ a.addressAfter done ≠ address

/-- Writing one more answer goes on from the addresses after the steps before. -/
theorem writeAddress_after (step : Step) (address : String) (a : Asset) (done : List (Step × String)) :
    step.writeAddress address { a with address := a.addressAfter done }
      = { a with address := a.addressAfter (done ++ [(step, address)]) } := by
  cases h : step.covers a <;> simp [writeAddress, Asset.addressAfter, h]

/-- Unless it is refused, an answer leads to the draft after one more completed step. -/
theorem record_after {migrate : Bool} {w : WalletDraft} {done : List (Step × String)} {step : Step}
    {address : String} (h : ¬ step.Refused migrate w done address) :
    step.record address migrate (w.after done) = .ok (w.after (done ++ [(step, address)])) := by
  refine record_eq_ok_iff.mpr ⟨fun b hb hc => ?_, ?_⟩
  · -- Every covered asset is asked, as it stands after the completed steps.
    obtain ⟨a, ha, rfl⟩ := List.mem_map.mp hb
    cases migrate with
    | true => exact Asset.accepts_override _ address
    | false =>
      refine (Asset.accepts_iff _ address).mpr ?_
      by_cases he : a.addressAfter done = ""
      · exact .inl he
      · exact .inr (Decidable.not_not.mp fun hd => h ⟨rfl, a, ha, hc, he, hd⟩)
  · -- What is written is the draft in which the new answer is the last one.
    simp only [WalletDraft.after, List.map_map, lastAnswer_concat, WalletDraft.mk.injEq, true_and]
    constructor
    · cases step.isPrimary <;> simp
    · exact (List.map_congr_left fun a _ => writeAddress_after step address a done).symm

/-- An answer that is refused is written nowhere. -/
theorem record_after_of_refused {migrate : Bool} {w : WalletDraft} {done : List (Step × String)}
    {step : Step} {address : String} (h : step.Refused migrate w done address) :
    step.record address migrate (w.after done) = .error (.addressMismatch address step.chain) := by
  obtain ⟨rfl, a, ha, hc, hne, hd⟩ := h
  refine record_of_refusing (List.mem_map.mpr ⟨a, ha, rfl⟩) hc (Bool.eq_false_iff.mpr fun haccepts => ?_)
  exact ((Asset.accepts_iff _ address).mp haccepts).elim hne hd

end Ledger.Step

/-! ### The addresses of the chains -/

namespace Ledger.DerivationResult

/-- Looking up a chain after an address has been put under one. -/
theorem lookup_putAddress (chain c : Chain) (address : String) (book : List (Chain × String)) :
    (putAddress chain address book).lookup c = if chain = c then some address else book.lookup c := by
  induction book with
  | nil =>
    by_cases h : chain = c
    · simp [putAddress, h]
    · simp [putAddress, h, List.lookup_cons, beq_eq_false_iff_ne.mpr (Ne.symm h)]
  | cons entry rest ih =>
    obtain ⟨d, a⟩ := entry
    -- Either the chain stands here and is overwritten, or it is further on.
    by_cases hd : d = chain
    · subst hd
      by_cases h : d = c
      · simp [putAddress, h]
      · simp [putAddress, h, List.lookup_cons, beq_eq_false_iff_ne.mpr (Ne.symm h)]
    · by_cases h : d = c
      · subst h
        simp [putAddress, hd, Ne.symm hd]
      · simp [putAddress, hd, List.lookup_cons, beq_eq_false_iff_ne.mpr (Ne.symm h), ih]

/-- An address book with the answers of completed steps put in, in order. -/
def putAll (done : List (Step × String)) (book : List (Chain × String)) : List (Chain × String) :=
  done.foldl (fun b d => putAddress d.1.chain d.2 b) book

/-- Putting an address under a chain is an upsert, so no chain gets a second one. -/
theorem putAddress_eq_upsert (chain : Chain) (address : String) (book : List (Chain × String)) :
    putAddress chain address book = Keyed.upsert Prod.fst (chain, address) book := by
  induction book with
  | nil => rfl
  | cons entry rest ih =>
    by_cases h : entry.1 = chain
    · simp [putAddress, Keyed.upsert, h]
    · simp [putAddress, Keyed.upsert, h, ih]

end Ledger.DerivationResult

end ChainWallet
