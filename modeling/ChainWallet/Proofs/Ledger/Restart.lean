import ChainWallet.Proofs.Ledger.AddressesKept
import ChainWallet.Proofs.Ledger.RunSuccess
import Mathlib.Data.List.Induction

/-!
# Starting over

A run that ends early leaves the addresses of its completed steps in the draft, and the owner may start
over from there. On the same device this comes to the same as one run from the beginning: the addresses
that were left are the answers that the device will give again, so they neither stand in the way of a step
nor show in the end.

* **`Device.Answers`** — whenever a device answers, it does so by the call alone. It may fail as it likes.
* **`WalletDraft.Agrees`** — for every asset there is one address that all its steps derive, and that it has
  if it has any. Without the right to replace addresses, this is when no answer is refused
  (`unrefused_iff_agrees`); unlike the latter it does not go by the order of the steps.
* **`agrees_after_iff`, `after_after`** — an interrupted run changes neither whether a draft agrees with the
  answers nor what they make of it.
* **`restart_as_one_run`** — the two runs.
-/

namespace ChainWallet

open Ledger

/-- Whenever a device answers, it does so by the call alone. -/
def Device.Answers (device : Device) (answer : DeviceCall → String) : Prop :=
  ∀ earlier call address, device earlier call = .ok address → address = answer call

/-- For every asset there is one address that all the steps which cover it have derived, and that it has if
it has any. -/
def WalletDraft.Agrees (w : WalletDraft) (done : List (Step × String)) : Prop :=
  ∀ a ∈ w.assets, ∃ address, (a.address = "" ∨ a.address = address)
    ∧ ∀ d ∈ done, d.1.covers a = true → d.2 = address

namespace Ledger

variable {migrate : Bool} {w : WalletDraft} {done earlier : List (Step × String)}

/-! ### When no answer is refused -/

/-- After steps that agree on one address an asset has that one or its own. -/
theorem addressAfter_of_agreed {a : Asset} {address : String}
    (h : ∀ d ∈ done, d.1.covers a = true → d.2 = address) :
    a.addressAfter done = a.address ∨ a.addressAfter done = address := by
  cases hlast : lastAnswer (·.covers a) done with
  | none => exact .inl (Asset.addressAfter_of_uncovered (lastAnswer_eq_none_iff.mp hlast))
  | some x =>
    obtain ⟨d, hd, covered, rfl⟩ := exists_mem_of_lastAnswer hlast
    exact .inr (by rw [Asset.addressAfter, hlast, Option.getD_some, h d hd covered])

/-- By induction on the answers from the last one on: an answer that is not refused is the address on which
those before it agree. -/
theorem agrees_of_unrefused (present : ∀ d ∈ done, d.2 ≠ "") (h : Unrefused false w done) :
    w.Agrees done := by
  induction done using List.reverseRecOn with
  | nil => exact fun a _ => ⟨a.address, .inr rfl, by simp⟩
  | append_singleton done d ih =>
    obtain ⟨step, address⟩ := d
    obtain ⟨hbefore, hlast⟩ := prefixwise_concat.mp h
    have presentBefore : ∀ d ∈ done, d.2 ≠ "" := fun d hd => present d (List.mem_append_left _ hd)
    intro a ha
    obtain ⟨x, hx, hagreed⟩ := ih presentBefore hbefore a ha
    cases hc : step.covers a with
    | false =>
      refine ⟨x, hx, fun d hd covered => ?_⟩
      rcases List.mem_append.mp hd with hd | hd
      · exact hagreed d hd covered
      · rw [List.mem_singleton.mp hd, hc] at covered
        cases covered
    | true =>
      have haccepts : a.addressAfter done = "" ∨ a.addressAfter done = address := by
        by_contra hne
        exact hlast ⟨rfl, a, ha, hc, not_or.mp hne⟩
      -- If the asset holds an earlier answer, that is not empty and was not another one.
      have hsame : ∀ d ∈ done, d.1.covers a = true → d.2 = address := by
        intro d hd covered
        have hafter : a.addressAfter done = d.2 := Asset.addressAfter_of_covered hd covered
          fun d' hd' covered' => (hagreed d' hd' covered').trans (hagreed d hd covered).symm
        rw [hafter] at haccepts
        exact haccepts.resolve_left (presentBefore d hd)
      refine ⟨address, ?_, fun d hd covered => ?_⟩
      · by_cases hany : ∃ d ∈ done, d.1.covers a = true
        · obtain ⟨d, hd, covered⟩ := hany
          rwa [← hsame d hd covered, hagreed d hd covered]
        · have uncovered : ∀ d ∈ done, d.1.covers a = false := by simpa using hany
          rwa [Asset.addressAfter_of_uncovered uncovered] at haccepts
      · rcases List.mem_append.mp hd with hd | hd
        · exact hsame d hd covered
        · rw [List.mem_singleton.mp hd]

/-- Answers that agree are not refused. -/
theorem unrefused_of_agrees (h : w.Agrees done) : Unrefused false w done := by
  rintro k ⟨step, address⟩ hk ⟨-, a, ha, covered, hne, hd⟩
  obtain ⟨x, hx, hagreed⟩ := h a ha
  have haddress : address = x := hagreed _ (List.mem_of_getElem? hk) covered
  have hbefore : ∀ d ∈ done.take k, d.1.covers a = true → d.2 = x :=
    fun d hd => hagreed d (List.mem_of_mem_take hd)
  -- What the asset holds by then is its own address or the one on which the steps agree.
  rcases addressAfter_of_agreed hbefore with hafter | hafter
  · rw [hafter] at hne hd
    exact hd ((hx.resolve_left hne).trans haddress.symm)
  · exact hd (hafter.trans haddress.symm)

/-- Without the right to replace addresses, answers of which none is empty are accepted exactly if they agree
with each other and with what is there. -/
theorem unrefused_iff_agrees (present : ∀ d ∈ done, d.2 ≠ "") :
    Unrefused false w done ↔ w.Agrees done :=
  ⟨agrees_of_unrefused present, unrefused_of_agrees⟩

/-! ### What an interrupted run leaves -/

section Interrupted

variable (hsub : earlier ⊆ done)

include hsub

/-- The last answer of a later run goes before that of an earlier one. -/
theorem lastAnswer_getD_of_subset (picks : Step → Bool) (address : String) :
    (lastAnswer picks done).getD ((lastAnswer picks earlier).getD address)
      = (lastAnswer picks done).getD address := by
  -- If the later run has no such answer, the earlier one had none either.
  cases hdone : lastAnswer picks done with
  | some x => rfl
  | none =>
    have hnone : lastAnswer picks earlier = none :=
      lastAnswer_eq_none_iff.mpr fun d hd => lastAnswer_eq_none_iff.mp hdone d (hsub hd)
    rw [hnone]
    rfl

/-- Answers that come again leave nothing of what they did the first time. -/
theorem after_after : (w.after earlier).after done = w.after done := by
  have haddress := lastAnswer_getD_of_subset hsub (·.isPrimary) w.address
  have hassets : ∀ a ∈ w.assets,
      (lastAnswer (·.covers a) done).getD (a.addressAfter earlier) = a.addressAfter done :=
    fun a _ => lastAnswer_getD_of_subset hsub (·.covers a) a.address
  simp only [WalletDraft.after, List.map_map, WalletDraft.mk.injEq, true_and]
  refine ⟨haddress, List.map_congr_left fun a ha => ?_⟩
  simpa [Asset.addressAfter] using hassets a ha

/-- Whether a draft agrees with answers does not change when some of them are in it already, if no address
was replaced by them. -/
theorem agrees_after_iff (keeps : w.Keeps (w.after earlier)) :
    (w.after earlier).Agrees done ↔ w.Agrees done := by
  have hkeeps : ∀ a ∈ w.assets, a.address ≠ "" → a.addressAfter earlier = a.address := by
    have hassets := List.forall₂_same.mp (List.forall₂_map_right_iff.mp keeps)
    exact fun a ha => (hassets a ha).2
  constructor
  · intro h a ha
    obtain ⟨x, hx, hagreed⟩ := h { a with address := a.addressAfter earlier } (List.mem_map_of_mem ha)
    refine ⟨x, ?_, hagreed⟩
    -- An asset that had an address has it still, and so has to agree with it.
    by_cases hne : a.address = ""
    · exact .inl hne
    · rwa [hkeeps a ha hne] at hx
  · intro h b hb
    obtain ⟨a, ha, rfl⟩ := List.mem_map.mp hb
    obtain ⟨x, hx, hagreed⟩ := h a ha
    refine ⟨x, ?_, hagreed⟩
    -- What was written to the asset is one of the answers that agree.
    rcases addressAfter_of_agreed fun d hd => hagreed d (hsub hd) with hafter | hafter
    · exact hafter ▸ hx
    · exact .inr hafter

theorem unrefused_after_iff (present : ∀ d ∈ done, d.2 ≠ "")
    (keeps : migrate = false → w.Keeps (w.after earlier)) :
    Unrefused migrate (w.after earlier) done ↔ Unrefused migrate w done := by
  cases migrate with
  | false =>
    rw [unrefused_iff_agrees present, unrefused_iff_agrees present, agrees_after_iff hsub (keeps rfl)]
  | true =>
    -- A run that may replace addresses has no answer refused.
    have hnever : ∀ v : WalletDraft, Unrefused true v done :=
      fun v k d _ refused => by cases refused.1
    exact iff_of_true (hnever _) (hnever _)

end Interrupted

/-! ### Replies that hang on the calls alone -/

section Replies

variable {device device' : Device} {calls calls' : List DeviceCall} {steps : List Step}

/-- A draft with addresses in it gets the same replies, since calls do not hang on addresses. -/
theorem replies_after : replies device (w.after earlier) calls steps = replies device w calls steps := by
  induction steps generalizing calls with
  | nil => rfl
  | cons step rest ih => simp only [replies, Step.call_after, ih]

/-- Devices that go on alike reply alike. -/
theorem replies_congr
    (alike : ∀ made call, device (calls ++ made) call = device' (calls' ++ made) call) :
    replies device w calls steps = replies device' w calls' steps := by
  induction steps generalizing calls calls' with
  | nil => rfl
  | cons step rest ih =>
    have hnow : device calls (step.call w) = device' calls' (step.call w) := by
      simpa using alike [] (step.call w)
    have hlater : replies device w (calls ++ [step.call w]) rest
        = replies device' w (calls' ++ [step.call w]) rest :=
      ih fun made call => by simpa using alike (step.call w :: made) call
    rw [replies, replies, hnow, hlater]

/-- Each reply is one to a step, whatever was asked before it. -/
theorem mem_replies {step : Step} {reply : Except Failure String}
    (h : (step, reply) ∈ replies device w calls steps) :
    step ∈ steps ∧ ∃ made, reply = device made (step.call w) := by
  induction steps generalizing calls with
  | nil => cases h
  | cons next rest ih =>
    rcases List.mem_cons.mp h with h | h
    · cases h
      exact ⟨List.mem_cons_self, calls, rfl⟩
    · obtain ⟨hmem, hreply⟩ := ih h
      exact ⟨List.mem_cons_of_mem next hmem, hreply⟩

/-- The answers are the replies that are addresses. -/
theorem mem_answers {rs : List (Step × Except Failure String)} {d : Step × String} :
    d ∈ answers rs ↔ (d.1, .ok d.2) ∈ rs := by
  obtain ⟨step, address⟩ := d
  simp only [answers, List.mem_filterMap, Option.map_eq_some_iff, Prod.mk.injEq]
  constructor
  · rintro ⟨⟨step', f | address'⟩, hr, x, hx, rfl, rfl⟩
    · cases hx
    · cases hx
      exact hr
  · exact fun h => ⟨_, h, address, rfl, rfl, rfl⟩

/-- With a device that answers by the call alone, an answer is that of its call. -/
theorem eq_answer_of_mem {answer : DeviceCall → String} (hanswers : device.Answers answer)
    {d : Step × String} (h : (d.1, .ok d.2) ∈ replies device w calls steps) :
    d.1 ∈ steps ∧ d.2 = answer (d.1.call w) := by
  obtain ⟨hmem, made, hreply⟩ := mem_replies h
  exact ⟨hmem, hanswers made _ _ hreply.symm⟩

/-- The answers of a run that was cut off come again in a run that is not. -/
theorem answers_subset_of_granted {answer : DeviceCall → String} (hanswers : device.Answers answer)
    (hanswers' : device'.Answers answer) {n : Nat} (hdone : replies device' w calls' steps = granted done) :
    answers ((replies device w calls steps).take n) ⊆ done := by
  intro d hd
  obtain ⟨hstep, hd2⟩ := eq_answer_of_mem hanswers (List.mem_of_mem_take (mem_answers.mp hd))
  obtain ⟨d', hd', hd1⟩ : ∃ d' ∈ done, d'.1 = d.1 := by
    rw [← map_fst_replies device' w calls' steps, hdone, map_fst_granted] at hstep
    exact List.mem_map.mp hstep
  obtain ⟨-, hd2'⟩ := eq_answer_of_mem hanswers' (hdone ▸ mem_granted.mpr hd')
  -- The step was asked for again, and it has the answer of its call both times.
  have heq : d' = d := Prod.ext hd1 (by rw [hd2', hd2, hd1])
  exact heq ▸ hd'

end Replies

/-! ### The two runs -/

/-- However a run ends, it leaves the draft with the answers of some first part of its steps. -/
theorem Sequencer.run_leaves (q : Sequencer) (env : Surroundings) (migrate : Bool) (s : Scene)
    (ledger : s.draft.kind = .ledger) :
    ∃ n, (q.run env migrate s).2.draft = s.draft.after (answers ((q.replies env s).take n)) := by
  obtain ⟨n, hthrough⟩ := runSteps_getsThrough q env migrate (q.steps s.draft) (.empty s.draft) rfl
  have hleaves := hthrough.leaves
  rw [List.nil_append] at hleaves
  refine ⟨n, ?_⟩
  rw [run, if_pos ledger, hleaves, replies]

/-- A run over the draft that an interrupted run left comes to the same as one run over the draft as it was,
if the two meet the same failures of the device: one of them succeeds if the other does, and then with the
same result and the same draft. -/
theorem restart_as_one_run (q : Sequencer) (first second single : Surroundings) (migrate : Bool)
    (answer : DeviceCall → String) (s again fresh : Scene) (ledger : s.draft.kind = .ledger)
    (firstAnswers : first.device.Answers answer) (secondAnswers : second.device.Answers answer)
    (nonempty : ∀ call, answer call ≠ "") (secondQuiet : second.Quiet) (singleQuiet : single.Quiet)
    (left : again.draft = (q.run first migrate s).2.draft) (same : fresh.draft = s.draft)
    (alike : ∀ made call,
      single.device (fresh.deviceCalls ++ made) call = second.device (again.deviceCalls ++ made) call) :
    ∃ result result' t t', q.run second migrate again = (.ok result, t)
      ∧ q.run single migrate fresh = (.ok result', t')
      ∧ (result.isSuccess = true ↔ result'.isSuccess = true)
      ∧ (result.isSuccess = true → result = result' ∧ t.draft = t'.draft) := by
  obtain ⟨n, hleaves⟩ := Sequencer.run_leaves q first migrate s ledger
  generalize hearlier : answers ((q.replies first s).take n) = earlier at hleaves
  have hkeeps : migrate = false → s.draft.Keeps (s.draft.after earlier) := by
    rintro rfl
    exact hleaves ▸ Sequencer.run_keeps q first s
  rw [hleaves] at left
  -- Both runs meet the same replies: they ask for the same account, of devices that go on alike.
  have hreplies : q.replies second again = q.replies single fresh := by
    have hsteps : q.steps (s.draft.after earlier) = q.steps s.draft := rfl
    rw [Sequencer.replies, Sequencer.replies, left, same, hsteps, replies_after]
    exact (replies_congr alike).symm
  -- Where the second run has all its answers, those of the first one are among them.
  have hsub : ∀ done, q.replies second again = granted done → earlier ⊆ done := by
    intro done hdone
    rw [Sequencer.replies, left, replies_after] at hdone
    exact hearlier ▸ answers_subset_of_granted firstAnswers secondAnswers hdone
  have hunrefused : ∀ done, q.replies second again = granted done →
      (Unrefused migrate again.draft done ↔ Unrefused migrate fresh.draft done) := by
    intro done hdone
    rw [left, same]
    refine unrefused_after_iff (hsub done hdone) (fun d hd => ?_) hkeeps
    have hreply : (d.1, .ok d.2) ∈ q.replies second again := hdone ▸ mem_granted.mpr hd
    rw [(eq_answer_of_mem secondAnswers hreply).2]
    exact nonempty _
  have hagain : again.draft.kind = .ledger := by
    rw [left]
    exact ledger
  have hfresh : fresh.draft.kind = .ledger := by rwa [same]
  obtain ⟨result, t, hrun, hsuccess⟩ : ∃ result t, q.run second migrate again = (.ok result, t)
      ∧ (result.isSuccess = true ↔ _) := Sequencer.run_success_iff hagain secondQuiet
  obtain ⟨result', t', hrun', hsuccess'⟩ : ∃ result t, q.run single migrate fresh = (.ok result, t)
      ∧ (result.isSuccess = true ↔ _) := Sequencer.run_success_iff hfresh singleQuiet
  -- Success is a matter of replies and refusals, and both are the same.
  have hiff : result.isSuccess = true ↔ result'.isSuccess = true := by
    rw [hsuccess, hsuccess', ← hreplies]
    exact exists_congr fun done => and_congr_right fun hdone => hunrefused done hdone
  refine ⟨result, result', t, t', hrun, hrun', hiff, fun success => ?_⟩
  obtain ⟨done, hdone, -, -, hresult, hdraft⟩ := Sequencer.run_of_success hrun success
  obtain ⟨done', hdone', -, -, hresult', hdraft'⟩ := Sequencer.run_of_success hrun' (hiff.mp success)
  -- The replies tell the answers, so both runs have the same ones.
  obtain rfl : done = done' := by
    rw [← answers_granted done, ← answers_granted done', ← hdone, ← hdone', hreplies]
  have hdrafts : t.draft = t'.draft := by
    rw [hdraft, hdraft', left, same, after_after (hsub done hdone)]
  exact ⟨hresult.trans hresult'.symm, hdrafts⟩

/-- The Ethereum app is missing in a first run and there in a second one, which need not replace the address
that the coin has by then. -/
theorem restart_with_ethereum_app :
    ∃ result t, Sequencer.run ⟨.whole 60, []⟩ withEveryApp false
        ⟨(Sequencer.run ⟨.whole 60, []⟩ withoutEthereumApp false ⟨newCoinAndToken, .unset, [], []⟩).2.draft,
          .unset, [], []⟩ = (.ok result, t)
      ∧ result.isSuccess = true ∧ t.draft.assets.map (·.address) = ["cro1x", "0xnew"] := by
  let q : Sequencer := ⟨.whole 60, []⟩
  let fresh : Scene := ⟨newCoinAndToken, .unset, [], []⟩
  let again : Scene := ⟨(q.run withoutEthereumApp false fresh).2.draft, .unset, [], []⟩
  let answer (call : DeviceCall) : String := (withEveryApp.device [] call).toOption.getD ""
  have hfirst : withoutEthereumApp.device.Answers answer := by
    rintro _ (_ | _) address h <;> cases h
    rfl
  have hsecond : withEveryApp.device.Answers answer := by
    rintro _ (_ | _) address h <;> cases h <;> rfl
  have hnonempty : ∀ call, answer call ≠ "" := by
    rintro (_ | _) <;> simp [answer, withEveryApp, Device.steady, Except.toOption]
  have hquiet : withEveryApp.Quiet := by rintro _ ⟨⟩
  obtain ⟨result, result', t, t', hrun, hrun', hiff, hsame⟩ :=
    restart_as_one_run q withoutEthereumApp withEveryApp withEveryApp false answer fresh again fresh rfl
      hfirst hsecond hnonempty hquiet hquiet rfl rfl fun _ _ => rfl
  -- The one run is short enough to be looked at.
  obtain ⟨r, u, hone, success, haddresses⟩ : ∃ r u, q.run withEveryApp false fresh = (.ok r, u)
      ∧ r.isSuccess = true ∧ u.draft.assets.map (·.address) = ["cro1x", "0xnew"] :=
    ⟨_, _, rfl, rfl, rfl⟩
  rw [hone] at hrun'
  obtain ⟨hr, rfl⟩ := Prod.mk.inj hrun'
  obtain rfl := Except.ok.inj hr
  have hdraft := (hsame (hiff.mpr success)).2
  exact ⟨result, t, hrun, hiff.mpr success, hdraft ▸ haddresses⟩

end Ledger

end ChainWallet
