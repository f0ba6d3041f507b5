import ChainWallet.Proofs.Market.Turns
import Mathlib.Data.Nat.Pairing
import Mathlib.Logic.Hydra

/-!
# Every caller gets its answer

Callers that keep to the rules never wait for each other in a circle, because locks are taken in one order.
So as long as every caller gets a turn now and then, and every request is answered at some time, all of them
come to an end.

* **`Caller.Next`** — one step of a caller; a caller takes only so many (`wellFounded_next`).
* **`Crowd.Less`** — a turn that changes something lets a caller take a step, or brings an answer.
* **`Orderly.exists_free`** — while somebody has not ended, some turn changes something.
* **`Fair`**, **`Orderly.all_end`** — under every fair order of turns all callers end. `fair_everyTurn` is one.
* **`Orderly.returns`** — so whoever is in a part of its enquiry gets to its end, and finds there what the part
  is to bring about.
-/

namespace ChainWallet

variable {α β : Type} {r : Resolver}

/-! ### How long a caller can go on -/

namespace Caller

def Ended (s : Caller α) : Prop := ∃ result, s = .ended result

/-- A caller can stand there after its next step. -/
def Next (s' s : Caller α) : Prop :=
  ∃ feed memory sent heard d, s.step? feed memory sent heard = some (d, s')

/-- A caller that has ended takes no step. -/
theorem acc_ended (result : Except Failure α) : Acc Next (ended result) := by
  refine ⟨_, fun _ hnext => ?_⟩
  obtain ⟨feed, memory, sent, heard, d, hstep⟩ := hnext
  cases hstep

/-- Whatever a waiting caller hears, it goes on as its enquiry does with that. -/
theorem acc_waiting {errand : Errand} {letter : Nat} {rest : List (Except Failure Json) → Enquiry α}
    (h : ∀ answers, Acc Next (going (rest answers))) : Acc Next (waiting errand letter rest) := by
  refine ⟨_, fun _ hnext => ?_⟩
  obtain ⟨feed, memory, sent, heard, d, hstep⟩ := hnext
  obtain ⟨answers, -, hgoing⟩ := Option.map_eq_some_iff.mp hstep
  cases hgoing
  exact h answers

/-- By induction on the enquiry: a caller takes at most two steps at each of its nodes. -/
theorem acc_going (x : Enquiry α) : Acc Next (going x) := by
  induction x with
  | answer | fail =>
    refine ⟨_, fun _ hnext => ?_⟩
    obtain ⟨feed, memory, sent, heard, d, hstep⟩ := hnext
    cases hstep
    exact acc_ended _
  | consult next ih =>
    refine ⟨_, fun _ hnext => ?_⟩
    obtain ⟨feed, memory, sent, heard, d, hstep⟩ := hnext
    cases hstep
    exact ih memory
  | keepSlug _ _ _ ih | keepDirectory _ _ ih | enter _ _ ih | leave _ _ ih =>
    refine ⟨_, fun _ hnext => ?_⟩
    obtain ⟨feed, memory, sent, heard, d, hstep⟩ := hnext
    cases hstep
    exact ih
  | request _ _ _ ih =>
    refine ⟨_, fun _ hnext => ?_⟩
    obtain ⟨feed, memory, sent, heard, d, hstep⟩ := hnext
    cases hstep
    exact acc_waiting fun _ => ih _
  | requestAll _ _ _ ih =>
    refine ⟨_, fun _ hnext => ?_⟩
    obtain ⟨feed, memory, sent, heard, d, hstep⟩ := hnext
    cases hstep
    exact acc_waiting ih

/-- No caller goes on forever: every step leaves less to do. -/
theorem wellFounded_next : WellFounded (Next : Caller α → Caller α → Prop) := by
  refine ⟨fun s => ?_⟩
  cases s with
  | going x => exact acc_going x
  | waiting errand letter rest => exact acc_waiting fun answers => acc_going (rest answers)
  | ended result => exact acc_ended result

end Caller

/-! ### How long a crowd can go on -/

namespace Crowd

variable {c c' : Crowd α} {feed : Feed}

/-- There is less to do: a caller has taken a step, or a request is answered. -/
def Less (c' c : Crowd α) : Prop :=
  Prod.Lex (Relation.CutExpand Caller.Next) (· < ·) ((c'.callers : Multiset (Caller α)), c'.inFlight.length)
    ((c.callers : Multiset (Caller α)), c.inFlight.length)

/-- There cannot be less to do forever. -/
theorem wellFounded_less : WellFounded (Less : Crowd α → Crowd α → Prop) :=
  InvImage.wf (fun c : Crowd α => ((c.callers : Multiset (Caller α)), c.inFlight.length))
    (Caller.wellFounded_next.cutExpand.prod_lex Nat.lt_wfRel.wf)

/-- A turn that changes something: the caller can take its next step and need not wait for a lock, or the
request is in flight. -/
def Free (feed : Feed) (c : Crowd α) : Turn → Prop
  | .caller i => ∃ d s, c.next? feed i = some (d, s) ∧ c.blocks d = false
  | .answer letter request => (letter, request) ∈ c.inFlight

/-- After a step of a caller, one caller has less to do and the others as much. -/
theorem cutExpand_of_free {i : Nat} (h : c.Free feed (.caller i)) : Relation.CutExpand Caller.Next
    ((c.advance feed (.caller i)).callers : Multiset (Caller α)) c.callers := by
  obtain ⟨d, s', hnext, hfree⟩ := h
  obtain ⟨s, hs, hstep⟩ := next?_eq_some_iff.mp hnext
  obtain ⟨hlt, rfl⟩ := List.getElem?_eq_some_iff.mp hs
  have hcallers : (c.advance feed (.caller i)).callers = c.callers.set i s' := by
    simp [advance, hnext, hfree, move, after]
  -- One caller is replaced by itself with less to do, which is one step in the order on multisets.
  have hbefore : (c.callers : Multiset (Caller α)) = (c.callers.eraseIdx i : Multiset _) + {c.callers[i]} := by
    rw [add_comm, Multiset.singleton_add, Multiset.cons_coe, Multiset.coe_eq_coe]
    exact (List.getElem_cons_eraseIdx_perm hlt).symm
  rw [hcallers, hbefore, Multiset.coe_eq_coe.mpr (List.set_perm_cons_eraseIdx hlt _), ← Multiset.cons_coe,
    ← Multiset.singleton_add, add_comm]
  exact Relation.cutExpand_add_single _ ⟨feed, c.memory, c.sent, c.heard, d, hstep⟩

/-- An answer takes one request out of those in flight. -/
theorem inFlight_receive (letter request : Nat) :
    (c.receive letter request).inFlight = c.inFlight.filter (· ≠ (letter, request)) := by
  rw [inFlight, inFlight, List.filter_filter]
  refine List.filter_congr fun p _ => ?_
  simp [receive, Bool.and_comm]

/-- A turn that changes something leaves less to do. -/
theorem less_of_free {t : Turn} (h : c.Free feed t) : (c.advance feed t).Less c := by
  cases t with
  | caller i => exact .left _ _ (cutExpand_of_free h)
  | answer letter request =>
    have hanswered : c.advance feed (.answer letter request) = c.receive letter request := if_pos h
    rw [hanswered]
    -- No caller has moved, and one request fewer is in flight.
    refine .right _ ?_
    show (c.receive letter request).inFlight.length < c.inFlight.length
    rw [inFlight_receive]
    exact List.length_filter_lt_length_iff_exists.mpr ⟨_, h, by simp⟩

/-- A free turn changes something, because there is less to do afterwards. -/
theorem advance_ne_of_free {t : Turn} (h : c.Free feed t) : c.advance feed t ≠ c := by
  intro hsame
  have hless := less_of_free h
  rw [hsame] at hless
  exact wellFounded_less.irrefl.irrefl _ hless

/-- Only a free turn changes something. -/
theorem free_of_advance_ne {t : Turn} (h : c.advance feed t ≠ c) : c.Free feed t := by
  obtain hsame | ⟨letter, request, rfl, hflight, -⟩ | ⟨i, d, s, rfl, hnext, hfree, -⟩ := c.advance_cases feed t
  · exact absurd hsame h
  · exact hflight
  · exact ⟨d, s, hnext, hfree⟩

/-! ### Nobody waits forever -/

namespace Orderly

variable (ho : c.Orderly r)
include ho

/-- While a caller has not ended, some turn changes something, or the caller waits for a lock that is taken. -/
theorem free_or_blocked {i : Nat} {s : Caller α} (hplace : c.callers[i]? = some s) (hgoing : ¬ s.Ended)
    (feed : Feed) : (∃ t, c.Free feed t) ∨
      ∃ gate s' j, s.step? feed c.memory c.sent c.heard = some (.enter gate, s') ∧ (gate, j) ∈ c.held := by
  cases hstep : s.step? feed c.memory c.sent c.heard with
  | some next =>
    obtain ⟨d, s'⟩ := next
    cases hblocks : c.blocks d with
    | false => exact .inl ⟨.caller i, d, s', next?_eq_some_iff.mpr ⟨s, hplace, hstep⟩, hblocks⟩
    | true =>
      obtain ⟨gate, j, rfl, hheld⟩ := blocks_iff.mp hblocks
      exact .inr ⟨gate, s', j, rfl, hheld⟩
  | none =>
    -- A caller without a next step has not heard enough, so one of its requests is in flight.
    cases s with
    | going x => cases hstep
    | ended result => exact absurd ⟨result, rfl⟩ hgoing
    | waiting errand letter rest =>
      obtain ⟨l, hl, -⟩ := ho.posted i errand letter rest hplace
      have hnone : ¬ (c.heard letter).isSome := by
        rw [Option.map_eq_none_iff.mp hstep]
        simp
      have hopen : ∃ request, (letter, request) ∈ c.inFlight := by
        by_contra hdone
        push Not at hdone
        exact hnone (heard_isSome_iff.mpr ⟨_, hl, .inr hdone⟩)
      obtain ⟨request, hflight⟩ := hopen
      exact .inl ⟨.answer letter request, hflight⟩

/-- While somebody holds a lock, some turn changes something, or the holder waits for the directory. -/
theorem free_or_waits {gate : Gate} {j : Nat} (hheld : (gate, j) ∈ c.held) (feed : Feed) :
    (∃ t, c.Free feed t) ∨ (.directory, j) ∉ c.held ∧ ∃ k, (.directory, k) ∈ c.held := by
  have hlt : j < c.callers.length := ho.present gate j hheld
  have hplace : c.callers[j]? = some c.callers[j] := List.getElem?_eq_getElem hlt
  have hconduct := ho.conduct j _ hplace
  -- At its end a caller holds no lock, so the holder has not ended.
  have hgoing : ¬ c.callers[j].Ended := by
    rintro ⟨result, hended⟩
    rw [hended] at hconduct
    have hnone : gate ∉ (c.view j).gates := by rw [hconduct]; simp
    exact hnone (mem_gates.mpr hheld)
  refine (ho.free_or_blocked hplace hgoing feed).imp_right fun ⟨other, s', k, hstep, hk⟩ => ?_
  -- Whoever holds a lock takes no other one than that of the directory.
  obtain ⟨⟨hfree, hidle | rfl⟩, -⟩ := hconduct.step (ho.meets_memory j) hstep
  · have hnone : gate ∉ (c.view j).gates := by rw [hidle]; simp
    exact absurd (mem_gates.mpr hheld) hnone
  · exact ⟨fun h => hfree (mem_gates.mpr h), k, hk⟩

/-- While somebody has not ended, some turn changes something. -/
theorem exists_free {i : Nat} {s : Caller α} (hplace : c.callers[i]? = some s) (hgoing : ¬ s.Ended)
    (feed : Feed) : ∃ t, c.Free feed t := by
  refine (ho.free_or_blocked hplace hgoing feed).elim id fun ⟨_, _, _, _, hj⟩ => ?_
  refine (ho.free_or_waits hj feed).elim id fun ⟨_, k, hk⟩ => ?_
  -- The one with the directory waits for nobody.
  exact (ho.free_or_waits hk feed).resolve_right fun ⟨hnot, _⟩ => hnot hk

end Orderly

/-! ### Fair orders of turns -/

/-- The crowd after the first turns of a schedule. -/
def follow (feed : Feed) (c : Crowd α) (schedule : Nat → Turn) (n : Nat) : Crowd α :=
  c.play feed ((List.range n).map schedule)

/-- Every caller gets a turn after any time, and every request in flight is answered after a while. -/
structure Fair (feed : Feed) (c : Crowd α) (schedule : Nat → Turn) : Prop where
  callers : ∀ i < c.callers.length, ∀ t, ∃ u, t ≤ u ∧ schedule u = .caller i
  answers : ∀ t letter request, (letter, request) ∈ (c.follow feed schedule t).inFlight →
    ∃ u, t ≤ u ∧ schedule u = .answer letter request

variable {schedule : Nat → Turn}

/-- The turn that a number stands for. -/
def turnOf (code : Nat) : Turn :=
  match code.unpair with
  | (0, i) => .caller i
  | (letter + 1, request) => .answer letter request

/-- A schedule in which every turn comes again and again. -/
def everyTurn (u : Nat) : Turn := turnOf u.unpair.2

/-- Every turn comes up after any time. -/
theorem exists_everyTurn (turn : Turn) (t : Nat) : ∃ u, t ≤ u ∧ everyTurn u = turn := by
  have hcode : ∃ code, turnOf code = turn := by
    cases turn with
    | caller i => exact ⟨Nat.pair 0 i, by simp [turnOf]⟩
    | answer letter request => exact ⟨Nat.pair (letter + 1) request, by simp [turnOf]⟩
  obtain ⟨code, hcode⟩ := hcode
  refine ⟨Nat.pair t code, Nat.left_le_pair t code, ?_⟩
  rw [everyTurn, Nat.unpair_pair, hcode]

/-- A schedule in which every turn comes again and again is fair to any crowd. -/
theorem fair_everyTurn (feed : Feed) (c : Crowd α) : c.Fair feed everyTurn where
  callers i _ t := exists_everyTurn (.caller i) t
  answers t letter request _ := exists_everyTurn (.answer letter request) t

/-- After some turns a schedule goes on with those behind them. -/
theorem follow_add (m n : Nat) :
    c.follow feed schedule (m + n) = (c.follow feed schedule m).follow feed (fun u => schedule (m + u)) n := by
  simp only [follow, List.range_add, List.map_append, play_append, List.map_map]
  rfl

/-- The last of some turns is taken after the others. -/
theorem follow_succ (n : Nat) :
    c.follow feed schedule (n + 1) = (c.follow feed schedule n).advance feed (schedule n) := by
  rw [follow_add]
  rfl

/-- Nobody comes or goes in any order of turns. -/
theorem length_callers_follow (n : Nat) : (c.follow feed schedule n).callers.length = c.callers.length := by
  induction n with
  | zero => rfl
  | succ n ih => rw [follow_succ, length_callers_advance, ih]

/-- A schedule that is fair from the beginning is fair from any time on. -/
theorem Fair.shift (h : c.Fair feed schedule) (t : Nat) :
    (c.follow feed schedule t).Fair feed fun u => schedule (t + u) where
  callers i hi u := by
    rw [length_callers_follow] at hi
    obtain ⟨w, hw, hturn⟩ := h.callers i hi (t + u)
    exact ⟨w - t, by omega, (congrArg schedule (show t + (w - t) = w by omega)).trans hturn⟩
  answers u letter request hflight := by
    rw [← follow_add] at hflight
    obtain ⟨w, hw, hturn⟩ := h.answers (t + u) letter request hflight
    exact ⟨w - t, by omega, (congrArg schedule (show t + (w - t) = w by omega)).trans hturn⟩

/-- Turns that change nothing are as if they had not been. -/
theorem follow_eq_self {n : Nat} (h : ∀ t < n, c.advance feed (schedule t) = c) :
    c.follow feed schedule n = c := by
  induction n with
  | zero => rfl
  | succ n ih =>
    rw [follow_succ, ih fun t ht => h t (by omega)]
    exact h n (by omega)

/-- A turn that would change something comes up in a fair schedule. -/
theorem Fair.exists_advance_ne (fair : c.Fair feed schedule) {t : Turn} (h : c.Free feed t) :
    ∃ u, c.advance feed (schedule u) ≠ c := by
  have hturn : ∃ u, schedule u = t := by
    -- A turn of a caller comes up because the caller is there, and an answer because its request is in
    -- flight.
    cases t with
    | caller i =>
      obtain ⟨d, s, hnext, -⟩ := h
      obtain ⟨s, hs, -⟩ := next?_eq_some_iff.mp hnext
      obtain ⟨u, -, hu⟩ := fair.callers i (List.getElem?_eq_some_iff.mp hs).1 0
      exact ⟨u, hu⟩
    | answer letter request =>
      obtain ⟨u, -, hu⟩ := fair.answers 0 letter request h
      exact ⟨u, hu⟩
  obtain ⟨u, rfl⟩ := hturn
  exact ⟨u, advance_ne_of_free h⟩

/-- By induction on what there is to do: in a fair order some turn changes something, and until then nothing
changes. -/
theorem Orderly.all_end (ho : c.Orderly r) (feed : Feed) (fair : c.Fair feed schedule) :
    ∃ n, ∀ s ∈ (c.follow feed schedule n).callers, s.Ended := by
  induction c using wellFounded_less.induction generalizing schedule with
  | _ c ih =>
    -- If all have ended there is nothing left to wait for.
    by_cases hall : ∀ s ∈ c.callers, s.Ended
    · exact ⟨0, hall⟩
    · push Not at hall
      obtain ⟨s, hs, hgoing⟩ := hall
      obtain ⟨i, hi⟩ := List.getElem?_of_mem hs
      obtain ⟨turn, hfree⟩ := ho.exists_free hi hgoing feed
      have hchange := fair.exists_advance_ne hfree
      -- Up to the first turn that changes something the crowd is the same.
      classical
      obtain ⟨t, ht, hfirst⟩ : ∃ t, c.advance feed (schedule t) ≠ c ∧
          ∀ u < t, c.advance feed (schedule u) = c :=
        ⟨Nat.find hchange, Nat.find_spec hchange, fun u hu => not_not.mp (Nat.find_min hchange hu)⟩
      have hnext : c.follow feed schedule (t + 1) = c.advance feed (schedule t) := by
        rw [follow_succ, follow_eq_self hfirst]
      have fair : (c.advance feed (schedule t)).Fair feed fun u => schedule (t + 1 + u) :=
        hnext ▸ fair.shift (t + 1)
      obtain ⟨n, hn⟩ := ih _ (less_of_free (free_of_advance_ne ht)) (ho.advance feed _) fair
      exact ⟨t + 1 + n, by rwa [follow_add, hnext]⟩

/-- Whoever is in a part of its enquiry gets to its end, and then finds what was to hold there. -/
theorem Orderly.returns {c : Crowd β} (ho : c.Orderly r) (feed : Feed)
    (fair : c.Fair feed schedule) {i : Nat}
    {k : Except Failure α → Enquiry β} {Q : Except Failure α → View → Prop} {s : Caller α}
    (hplace : c.callers[i]? = some (s.within k)) (hs : s.Conducts r Q (c.view i)) :
    ∃ n result, (c.follow feed schedule n).Returned i k result ∧
      Q result ((c.follow feed schedule n).view i) := by
  obtain ⟨n, hn⟩ := ho.all_end feed fair
  obtain ⟨s', hgoing, hplace'⟩ | ⟨before, after, result, hturns, hreturned, hQ⟩ :=
    ho.part hplace hs feed ((List.range n).map schedule)
  · -- Everybody has ended, so nobody is in the part still.
    obtain ⟨result, hended⟩ := hn _ (List.mem_of_getElem? hplace')
    cases s' with
    | going | waiting => cases hended
    | ended => cases hgoing
  · -- The moment at which the part ends is one of the schedule.
    have hbefore : before = (List.range (min before.length n)).map schedule := by
      rw [← List.take_range, List.map_take, hturns, List.take_left']
      rfl
    rw [hbefore] at hreturned hQ
    exact ⟨_, result, hreturned, hQ⟩

end Crowd

end ChainWallet
