import ChainWallet.Proofs.Ledger.RunOutcome
import ChainWallet.Proofs.Prefixwise

/-!
# When a run succeeds

A run succeeds exactly if the device answers every step and no asset refuses an answer. What it then
leaves is known from the answers alone, and whoever calls it need not go through its steps again.

* **`granted`** — the replies of a device that answers every step.
* **`Unrefused`** — none of the answers is refused, each by the draft that those before it lead to. A run
  meets no fault exactly if the replies are granted and unrefused (`forall_not_faultAt_iff`).
* **`run_of_success`** — what a successful run leaves, whatever its listener does.
* **`run_success_iff`** — a run whose listener never fails succeeds exactly on such replies.
-/

namespace ChainWallet.Ledger

/-- The replies of a device that answers every step. -/
def granted (done : List (Step × String)) : List (Step × Except Failure String) :=
  done.map fun d => (d.1, .ok d.2)

@[simp] theorem answers_granted (done : List (Step × String)) : answers (granted done) = done := by
  simp [answers, granted, List.filterMap_map, Except.toOption]

@[simp] theorem map_fst_granted (done : List (Step × String)) :
    (granted done).map (·.1) = done.map (·.1) := by
  simp [granted, Function.comp_def]

theorem mem_granted {done : List (Step × String)} {step : Step} {address : String} :
    (step, .ok address) ∈ granted done ↔ (step, address) ∈ done := by
  simp [granted]

theorem granted_take (done : List (Step × String)) (k : Nat) :
    (granted done).take k = granted (done.take k) :=
  List.map_take.symm

/-- Replies without a failure are answers. -/
theorem exists_granted {rs : List (Step × Except Failure String)}
    (h : ∀ r ∈ rs, ∀ cause, r.2 ≠ .error cause) : ∃ done, rs = granted done := by
  induction rs with
  | nil => exact ⟨[], rfl⟩
  | cons r rest ih =>
    obtain ⟨done, rfl⟩ := ih fun r' hr' => h r' (List.mem_cons_of_mem r hr')
    obtain ⟨step, reply⟩ := r
    cases reply with
    | error cause => exact absurd rfl (h (step, .error cause) List.mem_cons_self cause)
    | ok address => exact ⟨(step, address) :: done, rfl⟩

/-- None of the answers is refused, each by the draft that those before it lead to. -/
def Unrefused (migrate : Bool) (w : WalletDraft) (done : List (Step × String)) : Prop :=
  Prefixwise (fun before d => ¬ d.1.Refused migrate w before d.2) done

variable {env : Surroundings} {migrate : Bool} {w : WalletDraft}

/-! ### Runs without a fault -/

/-- Where all replies are answers, a step fails only if its answer is refused. -/
theorem faultAt_granted {done : List (Step × String)} {k : Nat} {cause : Failure} :
    FaultAt migrate w [] (granted done) k cause
      ↔ ∃ step address, done[k]? = some (step, address)
        ∧ step.Refused migrate w (done.take k) address ∧ cause = .addressMismatch address step.chain := by
  have hget : (granted done)[k]? = done[k]?.map fun d => (d.1, .ok d.2) := List.getElem?_map
  constructor
  · rintro ⟨step, reply, hk, hfault⟩
    rw [hget] at hk
    obtain ⟨⟨s, address⟩, hd, heq⟩ := Option.map_eq_some_iff.mp hk
    cases heq
    rw [granted_take, answers_granted, List.nil_append] at hfault
    cases hfault with
    | refusal refused => exact ⟨s, address, hd, refused, rfl⟩
  · rintro ⟨step, address, hd, refused, rfl⟩
    refine ⟨step, .ok address, by rw [hget, hd]; rfl, .refusal ?_⟩
    rwa [granted_take, answers_granted]

/-- No step fails exactly if all have answers and none is refused. -/
theorem forall_not_faultAt_iff {rs : List (Step × Except Failure String)} :
    (∀ k cause, ¬ FaultAt migrate w [] rs k cause)
      ↔ ∃ done, rs = granted done ∧ Unrefused migrate w done := by
  constructor
  · intro h
    -- A reply that is no address would be a fault at its place.
    obtain ⟨done, rfl⟩ : ∃ done, rs = granted done := by
      refine exists_granted fun r hr cause he => ?_
      obtain ⟨k, hk⟩ := List.mem_iff_getElem?.mp hr
      obtain ⟨step, reply⟩ := r
      cases he
      exact h k cause ⟨step, _, hk, .device cause⟩
    refine ⟨done, rfl, fun k ⟨step, address⟩ hd refused => ?_⟩
    exact h k _ (faultAt_granted.mpr ⟨step, address, hd, refused, rfl⟩)
  · rintro ⟨done, rfl, unrefused⟩ k cause hfault
    obtain ⟨step, address, hd, refused, -⟩ := faultAt_granted.mp hfault
    exact unrefused k (step, address) hd refused

/-- What a run returns that has completed steps with given answers and met no fault. -/
def DerivationResult.ofAnswers (done : List (Step × String)) : DerivationResult :=
  ⟨done.map (·.1), putAll done [], none⟩

/-- There is a reply to each step, in their order. -/
theorem map_fst_replies (device : Device) (w : WalletDraft) (earlier : List DeviceCall)
    (steps : List Step) : (replies device w earlier steps).map (·.1) = steps := by
  induction steps generalizing earlier with
  | nil => rfl
  | cons step rest ih => simp [replies, ih]

/-! ### Successful runs -/

namespace Sequencer

variable {q : Sequencer} {s t : Scene} {result : DerivationResult}

/-- Only a ledger wallet is run over. -/
theorem run_eq_ok_iff : q.run env migrate s = (.ok result, t)
    ↔ s.draft.kind = .ledger
      ∧ q.runSteps env migrate (q.steps s.draft) .empty s = (.ok result, t) := by
  by_cases ledger : s.draft.kind = .ledger <;> simp [run, ledger]

/-- A successful run had an answer to every step, and no asset refused one. Its draft and its result
follow from the answers, whatever the listener did. -/
theorem run_of_success (h : q.run env migrate s = (.ok result, t)) (success : result.isSuccess = true) :
    ∃ done, q.replies env s = granted done ∧ Unrefused migrate s.draft done
      ∧ done.map (·.1) = q.steps s.draft ∧ result = .ofAnswers done ∧ t.draft = s.draft.after done := by
  obtain ⟨-, hruns⟩ := run_eq_ok_iff.mp h
  obtain ⟨n, hthrough⟩ :=
    runSteps_getsThrough q env migrate (q.steps s.draft) (.empty s.draft) rfl
  rw [hruns] at hthrough
  have hends := hthrough.returned result rfl
  rw [DerivationResult.isSuccess, Option.isNone_iff_eq_none] at success
  -- A run that has not failed has come to the end of its steps.
  obtain rfl : n = (q.steps s.draft).length := by
    rcases hends.ending with ⟨hn, -⟩ | ⟨_, _, _, _, hfailed⟩
    · exact hn
    · rw [success] at hfailed
      cases hfailed
  have nofault : ∀ k cause, ¬ FaultAt migrate s.draft [] (q.replies env s) k cause := by
    intro k cause hfault
    obtain ⟨step, reply, hk, -⟩ := id hfault
    have hlt := (List.getElem?_eq_some_iff.mp hk).1
    rw [replies, length_replies] at hlt
    exact hthrough.sound k hlt cause hfault
  obtain ⟨done, hreplies, unrefused⟩ := forall_not_faultAt_iff.mp nofault
  have hsteps : done.map (·.1) = q.steps s.draft := by
    rw [← map_fst_granted, ← hreplies, replies, map_fst_replies]
  -- All replies are answers, so the answers of all steps are these.
  have hanswers : answers ((q.replies env s).take (q.steps s.draft).length) = done := by
    rw [hreplies, granted_take, answers_granted, ← hsteps, List.length_map, List.take_length]
  refine ⟨done, hreplies, unrefused, hsteps, ?_, ?_⟩
  · have hcompleted := hends.completed
    have haddresses := hthrough.addresses result rfl
    rw [← replies, hanswers] at haddresses
    rw [DerivationResult.empty, List.nil_append, List.take_length] at hcompleted
    obtain ⟨completed, addresses, failure⟩ := result
    simp only [DerivationResult.ofAnswers, DerivationResult.mk.injEq]
    exact ⟨hcompleted.trans hsteps.symm, haddresses, success⟩
  · have hleaves := hthrough.leaves
    rwa [← replies, hanswers, List.nil_append] at hleaves

/-- A run whose listener never fails returns, and succeeds exactly on such replies. -/
theorem run_success_iff (ledger : s.draft.kind = .ledger) (quiet : env.Quiet) :
    ∃ result t, q.run env migrate s = (.ok result, t)
      ∧ (result.isSuccess = true
        ↔ ∃ done, q.replies env s = granted done ∧ Unrefused migrate s.draft done) := by
  obtain ⟨n, final, t, hruns, hends⟩ :=
    runSteps_outcome q migrate quiet (q.steps s.draft) (.empty s.draft) rfl
  have hrun : q.run env migrate s = (.ok final, t) := run_eq_ok_iff.mpr ⟨ledger, hruns⟩
  refine ⟨final, t, hrun, fun success => ?_, fun hdone => ?_⟩
  · obtain ⟨done, hreplies, unrefused, -⟩ := run_of_success hrun success
    exact ⟨done, hreplies, unrefused⟩
  · rcases hends.ending with ⟨-, hfailure⟩ | ⟨step, cause, -, hfault, -⟩
    · rw [DerivationResult.isSuccess, hfailure]
      rfl
    · exact absurd hfault (forall_not_faultAt_iff.mpr hdone n cause)

end Sequencer

end ChainWallet.Ledger
