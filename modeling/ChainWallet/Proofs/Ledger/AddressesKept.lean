import ChainWallet.Proofs.Ledger.RunOutcome
import Mathlib.Data.List.Forall2

/-!
# Addresses are kept over any number of runs

A draft may be run over again and again: with other steps, other devices, after failures, after a
listener ended a run. Unless a run has the right to replace addresses, an address that an asset once has
stays with it.

* **`WalletDraft.Keeps`** — the relation between an earlier and a later draft. A step keeps
  (`StepOutcome.keeps`), so a run does, and so do all of them.
* **`Passage`** — a step as it went, with the scenes before and after it. `Sequencer.passages` lists those
  of a run, and `getLast_drafts_passages` says that they lead up to the draft that it leaves.
* **`Attempt`** — a run on whatever draft is at hand, with a sequencer, a device and a listener of its
  own. `history` and `points` are the passages and the drafts of a sequence of them, in order.
* **`addresses_kept_over_runs`** — every draft on the way keeps what every earlier one held, and a step
  that fails leaves the draft as it found it.
-/

namespace ChainWallet

/-! ### Earlier and later drafts -/

/-- An asset is the same up to its address, and an address that was there is there still. -/
def Asset.Keeps (a a' : Asset) : Prop :=
  a' = { a with address := a'.address } ∧ (a.address ≠ "" → a'.address = a.address)

theorem Asset.Keeps.trans {a b c : Asset} (h : a.Keeps b) (h' : b.Keeps c) : a.Keeps c := by
  refine ⟨?_, fun hne => ?_⟩
  · rw [h'.1, h.1]
  · have hb : b.address = a.address := h.2 hne
    rw [h'.2 (hb ▸ hne), hb]

/-- Asset by asset, a later draft keeps what an earlier one held. -/
def WalletDraft.Keeps (w w' : WalletDraft) : Prop :=
  List.Forall₂ Asset.Keeps w.assets w'.assets

theorem WalletDraft.Keeps.refl (w : WalletDraft) : w.Keeps w :=
  List.forall₂_same.mpr fun _ _ => ⟨rfl, fun _ => rfl⟩

theorem WalletDraft.Keeps.trans {u v w : WalletDraft} (h : u.Keeps v) (h' : v.Keeps w) : u.Keeps w := by
  unfold Keeps at *
  generalize u.assets = as, v.assets = bs, w.assets = cs at *
  induction h generalizing cs with
  | nil => exact h'
  | cons hab _ ih =>
    cases h' with
    | cons hbc rest => exact .cons (hab.trans hbc) (ih _ rest)

/-- Every asset of a later draft was there before. -/
theorem WalletDraft.Keeps.exists_mem {w w' : WalletDraft} (h : w.Keeps w') {b : Asset}
    (hb : b ∈ w'.assets) : ∃ a ∈ w.assets, a.Keeps b := by
  unfold Keeps at h
  generalize w.assets = as, w'.assets = bs at *
  induction h with
  | nil => cases hb
  | cons hkeeps _ ih =>
    rcases List.mem_cons.mp hb with rfl | hb
    · exact ⟨_, List.mem_cons_self, hkeeps⟩
    · obtain ⟨a, ha, hab⟩ := ih hb
      exact ⟨a, List.mem_cons_of_mem _ ha, hab⟩

/-- Behind a draft that keeps what the one before it held, a list of drafts may begin with the latter. -/
theorem pairwise_keeps_cons {u v : WalletDraft} {ws : List WalletDraft} (h : u.Keeps v)
    (hp : (v :: ws).Pairwise WalletDraft.Keeps) : (u :: v :: ws).Pairwise WalletDraft.Keeps := by
  refine List.pairwise_cons.mpr ⟨fun w hw => ?_, hp⟩
  rcases List.mem_cons.mp hw with rfl | hw
  · exact h
  · exact h.trans (List.rel_of_pairwise_cons hp hw)

/-- Lists of drafts are joined where one ends and the other begins. -/
theorem pairwise_keeps_append {us vs : List WalletDraft} {e : WalletDraft}
    (h : (us ++ [e]).Pairwise WalletDraft.Keeps) (h' : (e :: vs).Pairwise WalletDraft.Keeps) :
    (us ++ e :: vs).Pairwise WalletDraft.Keeps := by
  obtain ⟨hu, -, hue⟩ := List.pairwise_append.mp h
  refine List.pairwise_append.mpr ⟨hu, h', fun u hmem w hw => ?_⟩
  have hk : u.Keeps e := hue u hmem e (List.mem_singleton_self e)
  rcases List.mem_cons.mp hw with rfl | hw
  · exact hk
  · exact hk.trans (List.rel_of_pairwise_cons h' hw)

namespace Ledger

/-! ### Steps -/

/-- Without the right to replace addresses, writing an answer keeps those that are there. -/
theorem Step.record_keeps {step : Step} {address : String} {w w' : WalletDraft}
    (h : step.record address false w = .ok w') : w.Keeps w' := by
  obtain ⟨haccepts, rfl⟩ := Step.record_eq_ok_iff.mp h
  refine List.forall₂_map_right_iff.mpr (List.forall₂_same.mpr fun a ha => ?_)
  cases hc : step.covers a with
  | false =>
    rw [writeAddress, hc]
    exact ⟨rfl, fun _ => rfl⟩
  | true =>
    have haccept := (Asset.accepts_iff a address).mp (haccepts a ha hc)
    rw [writeAddress, hc]
    -- An asset that has an address accepts no other one than that.
    exact ⟨rfl, fun hne => (haccept.resolve_left hne).symm⟩

/-- A step keeps the addresses that are there, however it goes. -/
theorem StepOutcome.keeps {env : Surroundings} {step : Step} {result : DerivationResult}
    {w w' : WalletDraft} {earlier made : List DeviceCall} {r : Except Ending DerivationResult}
    (h : StepOutcome env false step result w earlier r w' made) : w.Keeps w' := by
  cases h with
  | cut => exact .refl w
  | failed => exact .refl w
  | recorded attempt => exact Step.record_keeps (Step.attempt_eq_ok_iff.mp attempt).2

/-! ### Runs -/

/-- A step as it went: what the device replies to its call, and the scenes before and after it. -/
structure Passage where
  step : Step
  reply : Except Failure String
  before : Scene
  after : Scene

/-- The step fails: the device does, or a covered asset holds another address than its answer. -/
def Passage.Fails (p : Passage) : Prop :=
  match p.reply with
  | .error _ => True
  | .ok address => ∃ a ∈ p.before.draft.assets, p.step.covers a = true ∧ a.address ≠ ""
    ∧ a.address ≠ address

/-- The steps that a run goes through, from a result on. -/
def Sequencer.passages (q : Sequencer) (env : Surroundings) (migrate : Bool) :
    List Step → DerivationResult → Scene → List Passage
  | [], _, _ => []
  | step :: rest, result, s =>
    ⟨step, env.device s.deviceCalls (step.call s.draft), s, (q.runStep env migrate step result s).2⟩ ::
      match q.runStep env migrate step result s with
      | (.ok result, t) => q.passages env migrate rest result t
      | (.error _, _) => []

/-- The drafts before and after the steps of a run. -/
def drafts (ps : List Passage) : List WalletDraft :=
  ps.flatMap fun p => [p.before.draft, p.after.draft]

/-- The last passage of a run ends with the draft that the run leaves. -/
theorem getLast_drafts_passages (q : Sequencer) (env : Surroundings) (migrate : Bool)
    (steps : List Step) (result : DerivationResult) (s : Scene) :
    (s.draft :: drafts (q.passages env migrate steps result s)).getLast?
      = some (q.runSteps env migrate steps result s).2.draft := by
  induction steps generalizing result s with
  | nil => rfl
  | cons step rest ih =>
    rcases hrun : q.runStep env migrate step result s with ⟨r, t⟩
    cases r with
    | ok next =>
      have hrest := ih next t
      simpa [Sequencer.passages, Sequencer.runSteps, drafts, hrun, List.getLast?_cons_cons] using hrest
    -- A run ends with the step that fails, whether or not it has a result.
    | error e => cases e <;> simp [Sequencer.passages, Sequencer.runSteps, drafts, hrun]

/-- From its beginning over its steps to its end, a run keeps the addresses that are there.

By induction on the steps: the draft after a step is the one that the rest of the run begins with. -/
theorem runSteps_keeps (q : Sequencer) (env : Surroundings) (steps : List Step)
    (result : DerivationResult) (s : Scene) :
    (s.draft :: drafts (q.passages env false steps result s)
      ++ [(q.runSteps env false steps result s).2.draft]).Pairwise WalletDraft.Keeps := by
  induction steps generalizing result s with
  | nil =>
    exact pairwise_keeps_cons (.refl _) (List.pairwise_singleton _ _)
  | cons step rest ih =>
    rcases hrun : q.runStep env false step result s with ⟨r, t⟩
    have hstep : s.draft.Keeps t.draft := (Sequencer.runStep_outcome hrun).keeps
    -- What follows begins with the draft that the step left.
    have hrest : (t.draft :: (match r with
        | .ok result => drafts (q.passages env false rest result t)
        | .error _ => []) ++ [(q.runSteps env false (step :: rest) result s).2.draft]).Pairwise
          WalletDraft.Keeps := by
      cases r with
      | ok next => simpa only [Sequencer.runSteps, hrun] using ih next t
      | error e =>
        cases e <;> simp only [Sequencer.runSteps, hrun] <;>
          exact pairwise_keeps_cons (.refl _) (List.pairwise_singleton _ _)
    have hall := pairwise_keeps_cons (.refl _) (pairwise_keeps_cons hstep hrest)
    cases r <;> simpa [Sequencer.passages, drafts, hrun] using hall

/-- A run without the right to replace addresses keeps those that are there, however it ends. -/
theorem Sequencer.run_keeps (q : Sequencer) (env : Surroundings) (s : Scene) :
    s.draft.Keeps (q.run env false s).2.draft := by
  by_cases ledger : s.draft.kind = .ledger
  · have hsteps := runSteps_keeps q env (q.steps s.draft) .empty s
    rw [run, if_pos ledger]
    exact List.rel_of_pairwise_cons hsteps (by simp)
  · rw [run, if_neg ledger]
    exact .refl s.draft

/-- A step that fails writes nothing, whatever becomes of its report. -/
theorem StepOutcome.eq_of_fails {env : Surroundings} {step : Step} {result : DerivationResult}
    {s t : Scene} {made : List DeviceCall} {r : Except Ending DerivationResult}
    (h : StepOutcome env false step result s.draft s.deviceCalls r t.draft made)
    (hf : Passage.Fails ⟨step, env.device s.deviceCalls (step.call s.draft), s, t⟩) :
    t.draft = s.draft := by
  generalize t.draft = w' at h
  cases h with
  | cut => rfl
  | failed => rfl
  | @recorded address _ _ attempt =>
    obtain ⟨hreply, hrecord⟩ := Step.attempt_eq_ok_iff.mp attempt
    simp only [Passage.Fails, hreply] at hf
    -- An answer that was recorded is one that every covered asset accepts.
    obtain ⟨a, ha, hc, hne, hd⟩ := hf
    have haccepts := (Step.record_eq_ok_iff.mp hrecord).1 a ha hc
    exact absurd ((Asset.accepts_iff a address).mp haccepts) (not_or.mpr ⟨hne, hd⟩)

/-- A passage that fails leaves the draft as it was. -/
theorem passage_of_fails {q : Sequencer} {env : Surroundings} {steps : List Step}
    {result : DerivationResult} {s : Scene} {p : Passage}
    (hp : p ∈ q.passages env false steps result s) (hf : p.Fails) : p.after.draft = p.before.draft := by
  induction steps generalizing result s with
  | nil => cases hp
  | cons step rest ih =>
    rcases hrun : q.runStep env false step result s with ⟨r, t⟩
    simp only [Sequencer.passages, hrun, List.mem_cons] at hp
    -- The passage is that of the first step or one of the rest.
    rcases hp with rfl | hp
    · exact (Sequencer.runStep_outcome hrun).eq_of_fails hf
    · cases r with
      | ok next => exact ih hp
      | error e => cases hp

/-! ### Any number of runs -/

/-- A run on whatever draft is at hand, with a sequencer, a device and a listener of its own, and with
the app switch and the device as they stand when it begins. -/
structure Attempt where
  sequencer : Sequencer
  surroundings : Surroundings
  appSwitch : AppSwitch
  deviceCalls : List DeviceCall

namespace Attempt

def scene (a : Attempt) (w : WalletDraft) : Scene := ⟨w, a.appSwitch, a.deviceCalls, []⟩

/-- The draft that the run leaves. -/
def leaves (a : Attempt) (w : WalletDraft) : WalletDraft :=
  (a.sequencer.run a.surroundings false (a.scene w)).2.draft

/-- The steps that the run goes through; only a ledger wallet has any. -/
def passages (a : Attempt) (w : WalletDraft) : List Passage :=
  if w.kind = .ledger then
    a.sequencer.passages a.surroundings false (a.sequencer.steps w) .empty (a.scene w)
  else []

/-- A run on a draft keeps the addresses, passage by passage. -/
theorem keeps (a : Attempt) (w : WalletDraft) :
    (w :: drafts (a.passages w) ++ [a.leaves w]).Pairwise WalletDraft.Keeps := by
  by_cases hk : w.kind = .ledger
  · have h := runSteps_keeps a.sequencer a.surroundings (a.sequencer.steps w) .empty (a.scene w)
    simpa only [passages, leaves, Sequencer.run, scene, hk, if_true] using h
  · -- A run refuses any other wallet before its first step.
    have hleaves : a.leaves w = w := by
      simp only [leaves, Sequencer.run, scene, hk, if_false]
    rw [passages, if_neg hk, hleaves]
    exact pairwise_keeps_cons (.refl w) (List.pairwise_singleton _ _)

/-- The steps of a run lead from the draft that it finds to the one that it leaves. -/
theorem getLast_drafts (a : Attempt) (w : WalletDraft) :
    (w :: drafts (a.passages w)).getLast? = some (a.leaves w) := by
  by_cases hk : w.kind = .ledger
  · have h := getLast_drafts_passages a.sequencer a.surroundings false (a.sequencer.steps w) .empty (a.scene w)
    simpa only [passages, leaves, Sequencer.run, scene, hk, if_true] using h
  · have hleaves : a.leaves w = w := by
      simp only [leaves, Sequencer.run, scene, hk, if_false]
    rw [passages, if_neg hk, hleaves]
    rfl

end Attempt

/-- The steps that runs after each other go through. -/
def history : List Attempt → WalletDraft → List Passage
  | [], _ => []
  | a :: rest, w => a.passages w ++ history rest (a.leaves w)

/-- The drafts at the beginning and the end of runs after each other, and before and after each of their
steps, in order. -/
def points : List Attempt → WalletDraft → List WalletDraft
  | [], w => [w]
  | a :: rest, w => w :: drafts (a.passages w) ++ points rest (a.leaves w)

theorem points_eq_cons (as : List Attempt) (w : WalletDraft) : ∃ ws, points as w = w :: ws := by
  cases as with
  | nil => exact ⟨[], rfl⟩
  | cons a rest => exact ⟨_, rfl⟩

/-- Over any number of runs without the right to replace addresses, whatever their steps, devices,
listeners and outcomes, every draft keeps the addresses that any earlier one held, and a step that the
device or a single asset lets fail leaves the draft exactly as it was. The steps of each run end with the
draft that the run leaves. -/
theorem addresses_kept_over_runs (as : List Attempt) (w : WalletDraft) :
    (points as w).Pairwise WalletDraft.Keeps
      ∧ (∀ p ∈ history as w, p.Fails → p.after.draft = p.before.draft)
      ∧ ∀ a ∈ as, ∀ v, (v :: drafts (a.passages v)).getLast? = some (a.leaves v) := by
  induction as generalizing w with
  | nil => exact ⟨List.pairwise_singleton _ _, (by rintro p ⟨⟩), by rintro a ⟨⟩⟩
  | cons a rest ih =>
    obtain ⟨hpoints, hfails, -⟩ := ih (a.leaves w)
    refine ⟨?_, ?_, fun a _ => a.getLast_drafts⟩
    · -- The next runs begin with the draft that this one leaves, so the lists meet there.
      obtain ⟨ws, hws⟩ := points_eq_cons rest (a.leaves w)
      rw [hws] at hpoints
      rw [points, hws]
      exact pairwise_keeps_append (a.keeps w) hpoints
    · intro p hp hf
      rcases List.mem_append.mp hp with hp | hp
      · rw [Attempt.passages] at hp
        split at hp
        · exact passage_of_fails hp hf
        · cases hp
      · exact hfails p hp hf

/-- A device that has every app. -/
def withEveryApp : Surroundings where
  device := .steady fun
    | .address _ addressPrefix .. => .ok (addressPrefix ++ "1x")
    | .evmAddress .. => .ok "0xnew"
  listener := none
  duringCall _ := []
  duringWait _ := []

/-- A ledger wallet whose coin and token have no address yet. -/
def newCoinAndToken : WalletDraft :=
  { coinAndToken with assets := coinAndToken.assets.map fun a => { a with address := "" } }

/-- The coin gets its address in a first run, which ends at the second step. In a second run, on another
device, the token refuses the answer of its step, and the draft stays what the first run left. -/
theorem addresses_kept_by_refusing_token :
    ∃ p ∈ history [⟨overlappingSteps, withoutEthereumApp, .unset, []⟩,
        ⟨⟨.whole 60, []⟩, withEveryApp, .unset, []⟩] coinAndToken,
      p.step = evmStep ∧ p.Fails ∧ p.after.draft = p.before.draft
        ∧ p.after.draft.assets.map (·.address) = ["cro1x", "0xold"] := by
  -- The fourth passage is the second one of the second run.
  have hp : ∃ p, (history [⟨overlappingSteps, withoutEthereumApp, .unset, []⟩,
      ⟨⟨.whole 60, []⟩, withEveryApp, .unset, []⟩] coinAndToken)[3]? = some p
        ∧ p.step = evmStep ∧ p.Fails
        ∧ p.before.draft.assets.map (·.address) = ["cro1x", "0xold"] := by
    refine ⟨_, rfl, rfl, ⟨_, .tail _ (.head _), ?_, ?_, ?_⟩, ?_⟩
    all_goals decide +kernel
  obtain ⟨p, hget, hstep, hfails, haddresses⟩ := hp
  have hmem := List.mem_of_getElem? hget
  have hkept := (addresses_kept_over_runs _ coinAndToken).2.1 p hmem hfails
  exact ⟨p, hmem, hstep, hfails, hkept, hkept ▸ haddresses⟩

end Ledger

end ChainWallet
