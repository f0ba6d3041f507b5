import ChainWallet.Proofs.Market.Conduct

/-!
# Callers that take turns

Callers that keep to the rules can be put together in any number, and whatever the order of their turns each
of them finds what it relies on.

* **`Crowd.view`** — what one caller of a crowd knows.
* **`Caller.Conducts`** — a caller will keep to the rules from where it stands. One step of its own
  (`Conducts.step`) and the deeds of others (`Conducts.seeing`) leave this so.
* **`Caller.step?_cases`** — a caller begins to wait when it sends a letter, and stops when it has heard enough.
* **`Crowd.Orderly`** — what is true of a crowd of such callers at any time: who holds which lock, where the
  directory is from, which letters were still sent and who waits for which. Every turn keeps it
  (`Orderly.advance`), hence every run (`Orderly.play`).
* **`Orderly.part`** — what holds where a part of an enquiry ends by the rules holds at that moment in the crowd.
* **`Crowd.Begins`**, **`Crowd.Returned`** — a caller stands where a part of its enquiry begins, or where it ends.
-/

namespace ChainWallet

open Enquiry

variable {α β : Type} {r : Resolver} {v : View}

/-! ### One caller -/

namespace Caller

/-- A caller that keeps to the rules from where it stands, until something holds. -/
def Conducts (r : Resolver) (Q : Except Failure α → View → Prop) (v : View) : Caller α → Prop
  | going rest => Abides r Q rest v
  | waiting errand _ rest => v.Minds errand ∧ ∀ heard m, v.Meets m → Abides r Q (rest heard) (v.seeing m)
  | ended result => Q result v

/-- The outcome of a caller that has nothing left to do. -/
def outcome : Caller α → Option (Except Failure α)
  | going (.answer a) => some (.ok a)
  | going (.fail f) => some (.error f)
  | going _ | waiting .. => none
  | ended result => some result

/-- The caller has sent a letter and has not gone on since. -/
def WaitsFor (s : Caller α) (letter : Nat) : Prop :=
  ∃ errand rest, s = .waiting errand letter rest

variable {Q : Except Failure α → View → Prop} {s s' : Caller α} {d : Deed} {feed : Feed} {memory : Memory}
  {sent : List (Nat × Letter)} {heard : Nat → Option (List (Except Failure Json))}

/-- All that a step has to do with letters: the caller sends one and waits for it from then on, or sends none
and waits for none from then on. Whoever has waited has heard enough. -/
theorem step?_cases (h : s.step? feed memory sent heard = some (d, s')) :
    (∃ l rest, d = .send l ∧ s' = .waiting l.errand sent.length rest ∧ ∀ letter, ¬ s.WaitsFor letter) ∨
    (d.letters = [] ∧ (∀ letter, ¬ s'.WaitsFor letter) ∧
      ∀ letter, s.WaitsFor letter → (heard letter).isSome) := by
  cases s with
  | ended result => cases h
  | waiting errand letter rest =>
    obtain ⟨answers, hheard, hnext⟩ := Option.map_eq_some_iff.mp h
    cases hnext
    refine .inr ⟨rfl, ?_, ?_⟩
    · rintro letter ⟨errand, rest, ⟨⟩⟩
    · rintro _ ⟨errand, rest, ⟨⟩⟩
      exact Option.isSome_of_eq_some hheard
  | going x =>
    have hidle : ∀ letter, ¬ (going x).WaitsFor letter := by
      rintro letter ⟨errand, rest, ⟨⟩⟩
    have hgoing : ∀ letter, (going x).WaitsFor letter → (heard letter).isSome :=
      fun letter hwaits => absurd hwaits (hidle letter)
    -- Only the two kinds of requests send a letter.
    cases x with
    | request errand q next =>
      cases h
      exact .inl ⟨_, _, rfl, rfl, hidle⟩
    | requestAll errand qs next =>
      cases h
      exact .inl ⟨_, _, rfl, rfl, hidle⟩
    | answer | fail | consult | keepSlug | keepDirectory | enter | leave =>
      cases h
      refine .inr ⟨rfl, ?_, hgoing⟩
      rintro letter ⟨errand, rest, ⟨⟩⟩

/-- A caller that only looks knows what it knew. -/
theorem Conducts.look (h : s.Conducts r Q v) : s.Conducts r Q (v.after .look) := by
  rwa [View.after_look]

/-- The next step of a caller is allowed, and the caller goes on keeping to the rules. -/
theorem Conducts.step (h : s.Conducts r Q v) (hv : v.Meets v.memory)
    (hstep : s.step? feed v.memory sent heard = some (d, s')) : v.Allows r d ∧ s'.Conducts r Q (v.after d) := by
  cases s with
  | ended result => cases hstep
  | waiting errand letter rest =>
    obtain ⟨answers, -, hnext⟩ := Option.map_eq_some_iff.mp hstep
    cases hnext
    exact ⟨trivial, Conducts.look (s := .going (rest answers)) (h.2 answers v.memory hv)⟩
  | going x =>
    cases x with
    | answer a =>
      cases hstep
      exact ⟨trivial, Conducts.look (s := .ended (.ok a)) h⟩
    | fail f =>
      cases hstep
      exact ⟨trivial, Conducts.look (s := .ended (.error f)) h⟩
    | consult next =>
      cases hstep
      exact ⟨trivial, Conducts.look (s := .going (next v.memory)) (h v.memory hv)⟩
    | keepSlug | keepDirectory | enter | leave =>
      cases hstep
      exact h v.memory hv
    -- The rules hold for every answer, so also for the one that the feed gives.
    | request errand q next =>
      cases hstep
      obtain ⟨hallows, hrest⟩ := h (feed.answer (requestsIn sent) q) v.memory hv
      exact ⟨hallows, hallows.1, fun _ => hrest⟩
    | requestAll errand qs next =>
      cases hstep
      obtain ⟨hallows, hrest⟩ := h (feed.answers (requestsIn sent) qs).1 v.memory hv
      exact ⟨hallows, hallows.1, hrest⟩

/-- Where a caller has nothing left to do, what was to hold holds. -/
theorem Conducts.of_outcome (h : s.Conducts r Q v) {result : Except Failure α}
    (hend : s.outcome = some result) : Q result v := by
  unfold outcome at hend
  split at hend <;> cases hend <;> exact h

/-- A caller that still has something to do does not mind what others do. -/
theorem Conducts.seeing {m : Memory} (h : s.Conducts r Q v) (hm : v.Meets m)
    (hend : ∀ result, s.outcome = some result → Q result v → Q result (v.seeing m)) :
    s.Conducts r Q (v.seeing m) := by
  -- Every place but the end has it in its rule that the memory may be another one; looking twice is looking
  -- once.
  cases s with
  | ended result => exact hend result rfl h
  | waiting errand letter rest => exact ⟨h.1, fun heard m' hm' => h.2 heard m' (hm.trans hm')⟩
  | going x =>
    cases x with
    | answer a => exact hend (.ok a) rfl h
    | fail f => exact hend (.error f) rfl h
    | consult next => exact fun m' hm' => h m' (hm.trans hm')
    | keepSlug | keepDirectory | enter | leave => exact fun m' hm' => h m' (hm.trans hm')
    | request | requestAll => exact fun content m' hm' => h content m' (hm.trans hm')

end Caller

/-! ### What a caller of a crowd knows -/

namespace Crowd

/-- The letters that caller `i` has sent. -/
def lettersOf (c : Crowd α) (i : Nat) : List Letter :=
  (c.sent.filter (·.1 == i)).map (·.2)

/-- What caller `i` knows. -/
def view (c : Crowd α) (i : Nat) : View where
  gates := (c.held.filter (·.2 == i)).map (·.1)
  memory := c.memory
  letters := c.lettersOf i

variable {c : Crowd α} {i j : Nat} {d : Deed}

@[simp] theorem mem_gates {gate : Gate} : gate ∈ (c.view i).gates ↔ (gate, i) ∈ c.held := by
  simp [view]

@[simp] theorem mem_letters {l : Letter} : l ∈ (c.view i).letters ↔ (i, l) ∈ c.sent := by
  simp [view, lettersOf]

/-- After a deed of its own a caller knows what the rules say it knows. -/
theorem view_after_self : (c.after i d).view i = (c.view i).after d := by
  -- Only releasing a lock takes something away from what a caller holds.
  cases d with
  | look | keepSlug | keepDirectory | enter => simp [view, lettersOf, after, View.after, Deed.letters]
  | send l => simp [view, lettersOf, after, View.after, Deed.letters]
  | leave gate =>
    simp only [view, lettersOf, after, View.after, Deed.letters, List.filter_filter, List.filter_map]
    simp [Bool.and_comm]

/-- What a caller knows changes with the deeds of others only in the memory, unless its locks are released. -/
theorem view_after_other (hne : j ≠ i) (hleave : ∀ gate, d = .leave gate → (gate, j) ∉ c.held) :
    (c.after i d).view j = (c.view j).seeing (d.remember c.memory) := by
  have hij : i ≠ j := fun h => hne h.symm
  cases d with
  | look | keepSlug | keepDirectory | enter | send =>
    simp [view, lettersOf, after, View.seeing, Deed.letters, hij]
  | leave gate =>
    have hgates : (c.held.filter (·.1 != gate)).filter (·.2 == j) = c.held.filter (·.2 == j) := by
      rw [List.filter_filter]
      refine List.filter_congr fun e he => ?_
      rcases e with ⟨other, k⟩
      have hother : k = j → other ≠ gate := by
        rintro rfl rfl
        exact hleave _ rfl he
      by_cases hk : k = j <;> simp [hk, hother]
    simp [view, lettersOf, after, View.seeing, Deed.letters, hgates, Deed.remember]

/-- A lock is held after a deed if it was held and is not released, or if it is the one that is taken. -/
theorem mem_held_after {gate : Gate} : (gate, j) ∈ (c.after i d).held ↔
    ((gate, j) ∈ c.held ∧ d ≠ .leave gate) ∨ (d = .enter gate ∧ j = i) := by
  cases d with
  | look | keepSlug | keepDirectory | send => simp [after]
  | enter other => simp [after, or_comm, @eq_comm _ other gate]
  | leave other => simp [after, @eq_comm _ other gate]

/-- Letters are never taken back, and only sending brings a new one. -/
theorem mem_sent_after {e : Nat × Letter} :
    e ∈ (c.after i d).sent ↔ e ∈ c.sent ∨ ∃ l, d = .send l ∧ e = (i, l) := by
  simp [after, Deed.mem_letters, eq_comm]

/-! What has been heard of a letter stays so. -/

/-- A letter keeps its number. -/
theorem getElem?_sent_after {letter : Nat} {e : Nat × Letter} (h : c.sent[letter]? = some e) :
    (c.after i d).sent[letter]? = some e := by
  have hlt : letter < c.sent.length := (List.getElem?_eq_some_iff.mp h).1
  exact (List.getElem?_append_left hlt).trans h

/-- A letter was there before, or is the one that is sent. -/
theorem sent_after_cases {letter : Nat} {e : Nat × Letter} (h : (c.after i d).sent[letter]? = some e) :
    c.sent[letter]? = some e ∨ letter = c.sent.length ∧ e.1 = i ∧ d = .send e.2 := by
  by_cases hlt : letter < c.sent.length
  · exact .inl ((List.getElem?_append_left hlt).symm.trans h)
  · cases d with
    | look | keepSlug | keepDirectory | enter | leave =>
      simp only [after, Deed.letters, List.map_nil, List.append_nil] at h
      exact .inl h
    | send l =>
      have hlast : letter = c.sent.length := by
        have hlt' : letter < (c.after i (.send l)).sent.length := (List.getElem?_eq_some_iff.mp h).1
        simp [after, Deed.letters] at hlt'
        omega
      subst hlast
      simp [after, Deed.letters] at h
      subst h
      exact .inr ⟨rfl, rfl, rfl⟩

/-- A deed brings no answer. -/
theorem heard_after {letter : Nat} {e : Nat × Letter} (h : c.sent[letter]? = some e) :
    (c.after i d).heard letter = c.heard letter := by
  rw [heard, heard, getElem?_sent_after h, h]
  rfl

/-- With one more answer no less has been heard. -/
theorem isSome_heard_receive {letter request n : Nat} (h : (c.heard n).isSome) :
    ((c.receive letter request).heard n).isSome := by
  obtain ⟨e, he, hheard⟩ := heard_isSome_iff.mp h
  refine heard_isSome_iff.mpr ⟨e, he, hheard.imp ?_ ?_⟩
  · -- A letter that was spoiled stays spoiled, and one that was answered in full has nothing left to answer.
    rintro ⟨k, hk, answer, hanswer, hspoils⟩
    exact ⟨k, by simpa [receive] using .inl (by simpa using hk), answer, hanswer, hspoils⟩
  · intro hnone k hflight
    obtain ⟨hsent, hopen⟩ := mem_inFlight.mp hflight
    exact hnone k (mem_inFlight.mpr ⟨hsent, fun hdone => hopen (List.mem_append_left _ hdone)⟩)

/-! ### Deeds in a crowd -/

/-- A deed that a caller is allowed and need not wait for. -/
structure Permits (r : Resolver) (c : Crowd α) (i : Nat) (d : Deed) : Prop where
  present : i < c.callers.length
  allowed : (c.view i).Allows r d
  free : c.blocks d = false

/-- What is true of callers that keep to the rules, at any time. -/
structure Orderly (r : Resolver) (c : Crowd α) : Prop where
  present : ∀ gate i, (gate, i) ∈ c.held → i < c.callers.length
  alone : ∀ gate i j, (gate, i) ∈ c.held → (gate, j) ∈ c.held → i = j
  conduct : ∀ i (s : Caller α), c.callers[i]? = some s → s.Conducts r (fun _ w => w.gates = []) (c.view i)
  /-- The directory that is remembered is from a letter. -/
  source : c.memory.directory ≠ [] → ∃ e ∈ c.sent, e.2.Gives c.memory.directory
  /-- A directory that a letter has brought is remembered, or will be before the lock is released. -/
  kept : ∀ e ∈ c.sent, ∀ directory, e.2.Gives directory →
    c.memory.directory = directory ∨ (.directory, e.1) ∈ c.held
  /-- Once a letter has brought the directory, no other one asks for it. -/
  last : c.sent.Pairwise fun e f => ∀ directory, e.2.Gives directory → f.2.errand ≠ .directory
  asked : ∀ e ∈ c.sent, e.2.errand = .directory → e.2.requests = [r.directoryRequest]
  /-- Whoever waits has sent what it waits for. -/
  posted : ∀ (i : Nat) (errand : Errand) (letter : Nat) (rest : List (Except Failure Json) → Enquiry α),
    c.callers[i]? = some (.waiting errand letter rest) →
      ∃ l, c.sent[letter]? = some (i, l) ∧ l.errand = errand
  /-- The sender of a letter waits for it, until it has heard enough. -/
  settled : ∀ (letter i : Nat) (l : Letter), c.sent[letter]? = some (i, l) →
    (∃ rest, c.callers[i]? = some (.waiting l.errand letter rest)) ∨ (c.heard letter).isSome
  /-- A letter that is sent under a lock is sent when the senders of those before it have heard enough. -/
  apart : ∀ (m n : Nat) (e f : Nat × Letter), m < n → c.sent[m]? = some e → c.sent[n]? = some f →
    e.2.errand = f.2.errand → e.2.errand ≠ .prices → (c.heard m).isSome

/-- A deed loses nothing, and changes nothing that is guarded by locks which the caller does not hold. -/
theorem Permits.later (hd : c.Permits r i d) {gates : List Gate}
    (hgates : ∀ gate ∈ gates, (gate, i) ∉ c.held) : c.memory.Later gates (d.remember c.memory) := by
  have hallowed := hd.allowed
  cases d with
  | look | enter | leave | send => exact .refl _ _
  | keepSlug identifier slug =>
    obtain ⟨hheld, hmissing⟩ := hallowed
    exact Memory.later_put hmissing fun hmem => hgates _ hmem (mem_gates.mp hheld)
  | keepDirectory directory =>
    obtain ⟨hheld, hmissing, -⟩ := hallowed
    exact Memory.later_directory hmissing fun hmem => hgates _ hmem (mem_gates.mp hheld)

namespace Orderly

variable (ho : c.Orderly r)
include ho

/-- What a caller knows is in keeping with the memory that it is about to see. -/
theorem meets_memory (i : Nat) : (c.view i).Meets c.memory where
  later := .refl _ _
  kept hfree l hl directory hgives := by
    -- The one exception is for a holder of the lock, and this caller holds none.
    refine (ho.kept (i, l) (mem_letters.mp hl) directory hgives).resolve_right fun hheld => ?_
    exact hfree (mem_gates.mpr hheld)

/-- What is asked for under a lock is asked for by one caller. -/
theorem eq_of_minds {errand : Errand} (hguarded : errand ≠ .prices) {j : Nat}
    (hi : (c.view i).Minds errand) (hj : (c.view j).Minds errand) : i = j := by
  cases errand with
  | directory => exact ho.alone _ _ _ (mem_gates.mp hi) (mem_gates.mp hj)
  | candidates identifier => exact ho.alone _ _ _ (mem_gates.mp hi) (mem_gates.mp hj)
  | prices => exact absurd rfl hguarded

/-- No letter has brought a directory yet when a caller asks for it. -/
theorem not_gives_of_send {l : Letter} (hallowed : (c.view i).Allows r (.send l))
    (herrand : l.errand = .directory) {e : Nat × Letter} (he : e ∈ c.sent) (directory : List TokenSlug) :
    ¬ e.2.Gives directory := by
  intro hgives
  simp only [View.Allows, View.Minds, herrand] at hallowed
  obtain ⟨hheld, hmissing, hnone, -⟩ := hallowed
  -- Had a letter brought one, the caller would see it in the memory, or would hold the lock that the sender
  -- of that letter still holds.
  rcases ho.kept e he directory hgives with hkept | hholds
  · exact hgives.ne_nil (hkept.symm.trans hmissing)
  · have hself : e.1 = i := ho.alone _ _ _ hholds (mem_gates.mp hheld)
    exact hnone e.2 (mem_letters.mpr (hself ▸ he)) directory hgives

section Deed

variable (hd : c.Permits r i d)
include hd

/-- A lock has one holder still. -/
theorem alone_after (gate : Gate) (j k : Nat) (hj : (gate, j) ∈ (c.after i d).held)
    (hk : (gate, k) ∈ (c.after i d).held) : j = k := by
  -- A lock that is taken was nobody's before.
  have hfree : d = .enter gate → ∀ j, (gate, j) ∉ c.held := by
    rintro rfl j hheld
    have htaken : c.blocks (.enter gate) = true := blocks_iff.mpr ⟨gate, j, rfl, hheld⟩
    rw [hd.free] at htaken
    cases htaken
  -- Two holders now were two before, or one of them takes a lock that was taken.
  rcases mem_held_after.mp hj with ⟨hj', -⟩ | ⟨henter, hji⟩ <;>
    rcases mem_held_after.mp hk with ⟨hk', -⟩ | ⟨henter', hki⟩
  · exact ho.alone gate j k hj' hk'
  · exact absurd hj' (hfree henter' j)
  · exact absurd hk' (hfree henter k)
  · exact hji.trans hki.symm

/-- Locks are held by callers of the crowd. -/
theorem present_after (gate : Gate) (j : Nat) (hj : (gate, j) ∈ (c.after i d).held) :
    j < c.callers.length := by
  rcases mem_held_after.mp hj with ⟨hj, -⟩ | ⟨-, rfl⟩
  · exact ho.present gate j hj
  · exact hd.present

/-- A directory that is kept was brought by a letter of the caller that keeps it. -/
theorem source_after (hne : (c.after i d).memory.directory ≠ []) :
    ∃ e ∈ (c.after i d).sent, e.2.Gives (c.after i d).memory.directory := by
  have hallowed := hd.allowed
  cases d with
  | keepDirectory directory =>
    obtain ⟨-, -, l, hl, hgives⟩ := hallowed
    exact ⟨(i, l), mem_sent_after.mpr (.inl (mem_letters.mp hl)), hgives⟩
  | look | keepSlug | enter | leave | send =>
    obtain ⟨e, he, hgives⟩ := ho.source hne
    exact ⟨e, mem_sent_after.mpr (.inl he), hgives⟩

/-- What a letter brings is remembered before its sender releases the lock. -/
theorem kept_after (e : Nat × Letter) (he : e ∈ (c.after i d).sent) (directory : List TokenSlug)
    (hgives : e.2.Gives directory) :
    (c.after i d).memory.directory = directory ∨ (.directory, e.1) ∈ (c.after i d).held := by
  have hallowed := hd.allowed
  rcases mem_sent_after.mp he with he' | ⟨l, rfl, rfl⟩
  · rcases ho.kept e he' directory hgives with hkept | hholds
    · have hlater : c.memory.Later [] (d.remember c.memory) := hd.later (by simp)
      exact .inl ((hlater.directory (hkept ▸ hgives.ne_nil)).trans hkept)
    · by_cases hleave : d = .leave .directory
      · -- Whoever releases the lock has remembered what its letters brought.
        subst hleave
        have hself : e.1 = i := ho.alone _ _ _ hholds (mem_gates.mp hallowed.1)
        exact .inl (hallowed.2 rfl e.2 (mem_letters.mpr (hself ▸ he')) directory hgives)
      · exact .inr (mem_held_after.mpr (.inl ⟨hholds, hleave⟩))
  · -- A letter that is just sent is sent under the lock.
    have hheld : (c.view i).Minds l.errand := hallowed.1
    rw [hgives.1] at hheld
    exact .inr (mem_held_after.mpr (.inl ⟨mem_gates.mp hheld, by simp⟩))

/-- After a letter that brings the directory none is sent for it. -/
theorem last_after : (c.after i d).sent.Pairwise fun e f =>
    ∀ directory, e.2.Gives directory → f.2.errand ≠ .directory := by
  have hallowed := hd.allowed
  refine List.pairwise_append.mpr ⟨ho.last, ?_, fun e he f hf directory hgives herrand => ?_⟩
  · cases d <;> simp [Deed.letters]
  · cases d with
    | look | keepSlug | keepDirectory | enter | leave => cases hf
    | send l =>
      cases List.mem_singleton.mp hf
      exact ho.not_gives_of_send hallowed herrand he directory hgives

/-- The directory is asked for at its one place. -/
theorem asked_after (e : Nat × Letter) (he : e ∈ (c.after i d).sent) (herrand : e.2.errand = .directory) :
    e.2.requests = [r.directoryRequest] := by
  have hallowed := hd.allowed
  rcases mem_sent_after.mp he with he | ⟨l, rfl, rfl⟩
  · exact ho.asked e he herrand
  · have herrand : l.errand = .directory := herrand
    simp only [View.Allows, herrand] at hallowed
    exact hallowed.2.2.2

/-- A deed of one caller is, for each of the others, one that others may do. -/
theorem meets_after {j : Nat} (hne : j ≠ i) : (c.view j).Meets (c.after i d).memory where
  later := hd.later fun gate hgate hheld => hne (ho.alone gate j i (mem_gates.mp hgate) hheld)
  kept hfree l hl directory hgives := by
    have he : (j, l) ∈ (c.after i d).sent := mem_sent_after.mpr (.inl (mem_letters.mp hl))
    -- The exception for a lock that is still held would be about this caller's own one.
    refine (ho.kept_after hd (j, l) he directory hgives).resolve_right fun hheld => ?_
    rcases mem_held_after.mp hheld with ⟨hheld, -⟩ | ⟨-, hself⟩
    · exact hfree (mem_gates.mpr hheld)
    · exact hne hself

/-- A deed of one caller changes what another one knows only in the memory. -/
theorem view_after {j : Nat} (hne : j ≠ i) : (c.after i d).view j = (c.view j).seeing (c.after i d).memory := by
  refine view_after_other hne ?_
  rintro gate rfl hheld
  exact hne (ho.alone gate j i hheld (mem_gates.mp hd.allowed.1))

end Deed

/-! What becomes of the letters with the step of a caller. -/

section Step

variable {s s' : Caller α} (hs : c.callers[i]? = some s)
  (hstep : s.step? feed c.memory c.sent c.heard = some (d, s'))
include hs hstep

/-- Who waits after a step has sent its letter with that step or before. -/
theorem posted_after (j : Nat) (errand : Errand) (letter : Nat) (rest : List (Except Failure Json) → Enquiry α)
    (hj : ((c.after i d).move i s').callers[j]? = some (.waiting errand letter rest)) :
    ∃ l, (c.after i d).sent[letter]? = some (j, l) ∧ l.errand = errand := by
  have hlt : i < c.callers.length := (List.getElem?_eq_some_iff.mp hs).1
  by_cases hself : j = i
  · subst hself
    cases (List.getElem?_set_self hlt).symm.trans hj
    -- Whoever waits after its step has just sent the letter.
    obtain ⟨l, rest, rfl, hwaiting, -⟩ | ⟨-, hidle, -⟩ := Caller.step?_cases hstep
    · cases hwaiting
      exact ⟨l, by simp [after, Deed.letters], rfl⟩
    · exact absurd ⟨errand, rest, rfl⟩ (hidle letter)
  · have hplace : c.callers[j]? = some (.waiting errand letter rest) :=
      (List.getElem?_set_ne fun h => hself h.symm).symm.trans hj
    obtain ⟨l, hl, herrand⟩ := ho.posted j errand letter rest hplace
    exact ⟨l, getElem?_sent_after hl, herrand⟩

/-- Only a sender that has heard enough stops waiting. -/
theorem settled_after (letter j : Nat) (l : Letter) (hl : (c.after i d).sent[letter]? = some (j, l)) :
    (∃ rest, ((c.after i d).move i s').callers[j]? = some (.waiting l.errand letter rest))
      ∨ ((c.after i d).heard letter).isSome := by
  have hlt : i < c.callers.length := (List.getElem?_eq_some_iff.mp hs).1
  rcases sent_after_cases hl with hold | ⟨rfl, rfl, hsend⟩
  · refine (ho.settled letter j l hold).symm.elim (fun hheard => ?_) (fun ⟨rest, hj⟩ => ?_)
    · exact .inr (heard_after hold ▸ hheard)
    · by_cases hself : j = i
      · -- A sender that goes on has heard enough.
        subst hself
        cases hs.symm.trans hj
        obtain ⟨-, -, -, -, hidle⟩ | ⟨-, -, hheard⟩ := Caller.step?_cases hstep
        · exact absurd ⟨_, _, rfl⟩ (hidle letter)
        · exact .inr (heard_after hold ▸ hheard letter ⟨_, _, rfl⟩)
      · exact .inl ⟨rest, (List.getElem?_set_ne fun h => hself h.symm).trans hj⟩
  · obtain ⟨l', rest, hd, hwaiting, -⟩ | ⟨hnone, -, -⟩ := Caller.step?_cases hstep
    · cases hsend.symm.trans hd
      exact .inl ⟨rest, hwaiting ▸ List.getElem?_set_self hlt⟩
    · rw [hsend] at hnone
      cases hnone

/-- A letter under a lock is sent only when the earlier ones under that lock have been heard of. -/
theorem apart_after (hd : c.Permits r i d) (m n : Nat) (e f : Nat × Letter) (hmn : m < n)
    (he : (c.after i d).sent[m]? = some e) (hf : (c.after i d).sent[n]? = some f)
    (herrand : e.2.errand = f.2.errand) (hguarded : e.2.errand ≠ .prices) :
    ((c.after i d).heard m).isSome := by
  have hlt : n < (c.after i d).sent.length := (List.getElem?_eq_some_iff.mp hf).1
  rcases sent_after_cases he with hold | ⟨rfl, -, hsend⟩
  · rw [heard_after hold]
    rcases sent_after_cases hf with hold' | ⟨rfl, hsender, hsend⟩
    · exact ho.apart m n e f hmn hold hold' herrand hguarded
    · -- The sender of the earlier letter would wait with the lock that this caller holds.
      refine (ho.settled m e.1 e.2 hold).resolve_left fun ⟨rest, hwaiting⟩ => ?_
      obtain ⟨hminds, -⟩ := ho.conduct e.1 _ hwaiting
      have hallowed := hd.allowed
      rw [hsend] at hallowed
      have hminds' : (c.view i).Minds e.2.errand := herrand ▸ hallowed.1
      have hself : e.1 = i := ho.eq_of_minds hguarded hminds hminds'
      cases (hself ▸ hwaiting).symm.trans hs
      obtain ⟨-, -, -, -, hidle⟩ | ⟨hnone, -, -⟩ := Caller.step?_cases hstep
      · exact hidle m ⟨_, _, rfl⟩
      · rw [hsend] at hnone
        cases hnone
  · -- The letter sent last has none after it.
    rw [hsend] at hlt
    simp [after, Deed.letters] at hlt
    omega

/-- The step of a caller leaves the crowd orderly. -/
theorem move_after (hd : c.Permits r i d) : ((c.after i d).move i s').Orderly r where
  present gate j hj := by
    rw [move, List.length_set]
    exact ho.present_after hd gate j hj
  alone := ho.alone_after hd
  conduct j t ht := by
    show t.Conducts r _ ((c.after i d).view j)
    -- The caller itself goes on by the rules, and the others find what they rely on.
    by_cases hself : j = i
    · subst hself
      have hplace : ((c.after j d).callers.set j s')[j]? = some s' := List.getElem?_set_self hd.present
      cases hplace.symm.trans ht
      rw [view_after_self]
      exact ((ho.conduct j s hs).step (ho.meets_memory j) hstep).2
    · have hplace : ((c.after i d).callers.set i s')[j]? = c.callers[j]? :=
        List.getElem?_set_ne (fun h => hself h.symm)
      rw [ho.view_after hd hself]
      exact (ho.conduct j t (hplace.symm.trans ht)).seeing (ho.meets_after hd hself) fun _ _ h => h
  source := ho.source_after hd
  kept := ho.kept_after hd
  last := ho.last_after hd
  asked := ho.asked_after hd
  posted := ho.posted_after hs hstep
  settled := ho.settled_after hs hstep
  apart := ho.apart_after hs hstep hd

end Step

/-- An answer that arrives leaves the crowd orderly: only more has been heard. -/
theorem receive (letter request : Nat) : (c.receive letter request).Orderly r where
  present := ho.present
  alone := ho.alone
  conduct := ho.conduct
  source := ho.source
  kept := ho.kept
  last := ho.last
  asked := ho.asked
  posted := ho.posted
  settled n i l hl := (ho.settled n i l hl).imp_right isSome_heard_receive
  apart m n e f hmn he hf herrand hguarded :=
    isSome_heard_receive (ho.apart m n e f hmn he hf herrand hguarded)

/-- All that a turn can do in an orderly crowd. -/
theorem advance_cases (feed : Feed) (t : Turn) : c.advance feed t = c ∨
    (∃ letter request, t = .answer letter request ∧ (letter, request) ∈ c.inFlight ∧
      c.advance feed t = c.receive letter request) ∨
    ∃ i s d s', t = .caller i ∧ c.callers[i]? = some s ∧
      s.step? feed c.memory c.sent c.heard = some (d, s') ∧ c.Permits r i d ∧
      c.advance feed t = (c.after i d).move i s' := by
  obtain hsame | hanswer | ⟨i, d, s', rfl, hnext, hfree, hafter⟩ := c.advance_cases feed t
  · exact .inl hsame
  · exact .inr (.inl hanswer)
  · obtain ⟨s, hs, hstep⟩ := next?_eq_some_iff.mp hnext
    have hallowed := ((ho.conduct i s hs).step (ho.meets_memory i) hstep).1
    exact .inr (.inr ⟨i, s, d, s', rfl, hs, hstep, ⟨(List.getElem?_eq_some_iff.mp hs).1, hallowed, hfree⟩,
      hafter⟩)

/-- Every turn leaves the crowd orderly. -/
theorem advance (feed : Feed) (t : Turn) : (c.advance feed t).Orderly r := by
  obtain hsame | ⟨letter, request, -, -, hanswer⟩ | ⟨i, s, d, s', -, hs, hstep, hpermits, hnext⟩ :=
    ho.advance_cases feed t
  · rw [hsame]
    exact ho
  · rw [hanswer]
    exact ho.receive letter request
  · rw [hnext]
    exact ho.move_after hs hstep hpermits

/-- Whatever turns there are, the crowd stays orderly. -/
theorem play (feed : Feed) (turns : List Turn) : (c.play feed turns).Orderly r := by
  induction turns generalizing c with
  | nil => exact ho
  | cons t rest ih => exact ih (ho.advance feed t)

/-! What a run leaves as it was. -/

/-- No turn loses a name or the directory. -/
theorem later_advance (feed : Feed) (t : Turn) : c.memory.Later [] (c.advance feed t).memory := by
  obtain hsame | ⟨letter, request, -, -, hanswer⟩ | ⟨i, s, d, s', -, -, -, hpermits, hnext⟩ :=
    ho.advance_cases feed t
  · rw [hsame]
    exact .refl _ _
  · rw [hanswer]
    exact .refl _ _
  · rw [hnext]
    exact hpermits.later (by simp)

/-- What was remembered stays so through any turns. -/
theorem later_play (feed : Feed) (turns : List Turn) : c.memory.Later [] (c.play feed turns).memory := by
  induction turns generalizing c with
  | nil => exact .refl _ _
  | cons t rest ih => exact (ho.later_advance feed t).trans (ih (ho.advance feed t))

/-- Nobody asks for the candidates of an asset whose name is known. -/
theorem sent_advance (feed : Feed) (t : Turn) : ∃ more, (c.advance feed t).sent = c.sent ++ more ∧
    ∀ e ∈ more, ∀ identifier slug, c.memory.slugs.get? identifier = some slug →
      e.2.errand ≠ .candidates identifier := by
  obtain hsame | ⟨letter, request, -, -, hanswer⟩ | ⟨i, s, d, s', -, -, -, hpermits, hnext⟩ :=
    ho.advance_cases feed t
  · exact ⟨[], by rw [hsame, List.append_nil], by simp⟩
  · exact ⟨[], by rw [hanswer, List.append_nil]; rfl, by simp⟩
  · refine ⟨_, by rw [hnext]; rfl, fun e he identifier slug hslug herrand => ?_⟩
    -- The rules let a letter for candidates be sent only by somebody who sees no name.
    obtain ⟨l, hl, rfl⟩ := List.mem_map.mp he
    have hallowed := hpermits.allowed
    have herrand : l.errand = .candidates identifier := herrand
    simp only [Deed.mem_letters.mp hl, View.Allows, herrand] at hallowed
    have hmissing : c.memory.slugs.get? identifier = none := hallowed.2
    rw [hmissing] at hslug
    cases hslug

/-- However many turns there are, nobody asks for the candidates of an asset whose name is known. -/
theorem sent_play (feed : Feed) (turns : List Turn) : ∃ more, (c.play feed turns).sent = c.sent ++ more ∧
    ∀ e ∈ more, ∀ identifier slug, c.memory.slugs.get? identifier = some slug →
      e.2.errand ≠ .candidates identifier := by
  induction turns generalizing c with
  | nil => exact ⟨[], (List.append_nil _).symm, by simp⟩
  | cons t rest ih =>
    obtain ⟨first, hfirst, hnone⟩ := ho.sent_advance feed t
    obtain ⟨more, hmore, hnone'⟩ := ih (ho.advance feed t)
    refine ⟨first ++ more, by rw [← List.append_assoc, ← hfirst]; exact hmore, fun e he => ?_⟩
    intro identifier slug hslug
    -- A name that is known before the first turn is known before the others too.
    rcases List.mem_append.mp he with he | he
    · exact hnone e he identifier slug hslug
    · exact hnone' e he identifier slug ((ho.later_advance feed t).names identifier slug hslug)

/-! While others have turns and answers arrive, a caller stays where it is and finds what it relies on. -/

/-- The turn of another caller, or an answer, leaves a caller where it is. -/
theorem advance_other (feed : Feed) {t : Turn} (hne : t ≠ .caller i) :
    (c.advance feed t).callers[i]? = c.callers[i]? ∧ (c.view i).Meets (c.advance feed t).memory ∧
      (c.advance feed t).view i = (c.view i).seeing (c.advance feed t).memory := by
  obtain hsame | ⟨letter, request, -, -, hanswer⟩ | ⟨j, s, d, s', rfl, -, -, hpermits, hnext⟩ :=
    ho.advance_cases feed t
  · rw [hsame]
    exact ⟨rfl, ho.meets_memory i, rfl⟩
  · rw [hanswer]
    exact ⟨rfl, ho.meets_memory i, rfl⟩
  · have hother : i ≠ j := by
      rintro rfl
      exact hne rfl
    rw [hnext]
    exact ⟨List.getElem?_set_ne fun h => hother h.symm, ho.meets_after hpermits hother,
      ho.view_after hpermits hother⟩

/-- As long as it has no turn, a caller stays where it is, whatever the others do. -/
theorem play_others (feed : Feed) {others : List Turn} (hothers : .caller i ∉ others) :
    (c.play feed others).callers[i]? = c.callers[i]? ∧ (c.view i).Meets (c.play feed others).memory ∧
      (c.play feed others).view i = (c.view i).seeing (c.play feed others).memory := by
  induction others generalizing c with
  | nil => exact ⟨rfl, ho.meets_memory i, rfl⟩
  | cons t rest ih =>
    have hne : t ≠ .caller i := by
      rintro rfl
      exact hothers List.mem_cons_self
    obtain ⟨hplace, hmeets, hview⟩ := ho.advance_other feed hne
    obtain ⟨hplace', hmeets', hview'⟩ := ih (ho.advance feed t) fun h => hothers (List.mem_cons_of_mem t h)
    rw [hview] at hmeets' hview'
    exact ⟨hplace'.trans hplace, hmeets.trans hmeets', hview'⟩

end Orderly

/-- Callers that have not begun are orderly, if they keep to the rules and no directory is remembered. -/
theorem orderly_start {enquiries : List (Enquiry α)} (htidy : ∀ x ∈ enquiries, Tidy r x) (slugs : SlugCache) :
    (start ⟨slugs, []⟩ enquiries).Orderly r where
  present _ _ h := by cases h
  alone _ _ _ h := by cases h
  conduct i s hs := by
    obtain ⟨x, hx, rfl⟩ := List.mem_map.mp (List.mem_of_getElem? hs)
    exact htidy x hx _ rfl
  source h := absurd rfl h
  kept _ h := by cases h
  last := .nil
  asked _ h := by cases h
  -- Nobody waits and nothing is sent, so the clauses about letters hold of no letter.
  posted i errand letter rest h := by
    obtain ⟨x, -, hx⟩ := List.mem_map.mp (List.mem_of_getElem? h)
    cases hx
  settled letter _ _ h := by
    rw [show (start ⟨slugs, []⟩ enquiries).sent = [] from rfl, List.getElem?_nil] at h
    cases h
  apart m _ _ _ _ h := by
    rw [show (start ⟨slugs, []⟩ enquiries).sent = [] from rfl, List.getElem?_nil] at h
    cases h

/-- Callers that want something of a resolver keep to the rules from the start. -/
theorem orderly_of_wishes (r : Resolver) (slugs : SlugCache) (wishes : List Wish) :
    (start ⟨slugs, []⟩ (wishes.map (·.enquiry r))).Orderly r := by
  refine orderly_start (fun x hx => ?_) slugs
  obtain ⟨w, -, rfl⟩ := List.mem_map.mp hx
  exact w.tidy_enquiry

end Crowd

/-! ### Parts of enquiries -/

namespace Caller

variable {k : Except Failure α → Enquiry β} {s : Caller α}

/-- Where somebody stands in an enquiry that has the one of a caller as a part, and goes on with `k` from its
outcome. -/
def within (k : Except Failure α → Enquiry β) : Caller α → Caller β
  | going rest => .going (rest.attempt.bind k)
  | waiting errand letter rest => .waiting errand letter fun heard => (rest heard).attempt.bind k
  | ended result => .going (k result)

/-- Where the part ends, the whole goes on. -/
theorem within_of_outcome {result : Except Failure α} (h : s.outcome = some result) :
    s.within k = .going (k result) := by
  unfold outcome at h
  split at h <;> cases h <;> rfl

/-- The steps of the whole are those of the part, until the part ends. -/
theorem step?_within (h : s.outcome = none) (feed : Feed) (m : Memory) (sent : List (Nat × Letter))
    (heard : Nat → Option (List (Except Failure Json))) :
    (s.within k).step? feed m sent heard
      = (s.step? feed m sent heard).map fun next => (next.1, next.2.within k) := by
  cases s with
  | ended => cases h
  | waiting errand letter rest =>
    simp only [within, step?, Option.map_map]
    rfl
  | going x => cases x <;> first | cases h; done | rfl

end Caller

namespace Crowd

variable {c : Crowd β} {i : Nat} {k : Except Failure α → Enquiry β} {Q : Except Failure α → View → Prop}

/-- Caller `i` has a part of its enquiry behind it, and goes on with `k` from the outcome. -/
def Returned (c : Crowd β) (i : Nat) (k : Except Failure α → Enquiry β) (result : Except Failure α) : Prop :=
  c.callers[i]? = some (.going (k result))

namespace Orderly

/-- A turn takes a part one step on, or leaves it where it is, and keeps it to the rules. -/
theorem part_advance (ho : c.Orderly r) {s : Caller α} (hplace : c.callers[i]? = some (s.within k))
    (hs : s.Conducts r Q (c.view i)) (hgoing : s.outcome = none) (feed : Feed) (t : Turn) :
    ∃ s' : Caller α, (c.advance feed t).callers[i]? = some (s'.within k) ∧
      s'.Conducts r Q ((c.advance feed t).view i) := by
  by_cases hself : t = .caller i
  · obtain hsame | ⟨letter, request, hanswer, -, -⟩ | ⟨j, w, d, w', hturn, hw, hstep, hpermits, hnext⟩ :=
      ho.advance_cases feed t
    · rw [hsame]
      exact ⟨s, hplace, hs⟩
    · cases hself.symm.trans hanswer
    · cases hself.symm.trans hturn
      cases hplace.symm.trans hw
      -- The step of the whole is one of the part.
      rw [s.step?_within hgoing] at hstep
      obtain ⟨⟨d', s'⟩, hpart, hwhole⟩ := Option.map_eq_some_iff.mp hstep
      cases hwhole
      rw [hnext]
      refine ⟨s', List.getElem?_set_self hpermits.present, ?_⟩
      show Caller.Conducts r Q ((c.after i d').view i) _
      rw [view_after_self]
      exact (hs.step (ho.meets_memory i) hpart).2
  · obtain ⟨hsame, hmeets, hview⟩ := ho.advance_other feed hself
    rw [hsame, hview]
    refine ⟨s, hplace, hs.seeing hmeets fun result hresult => ?_⟩
    rw [hgoing] at hresult
    cases hresult

/-- Whoever is in a part of its enquiry stays in it, until it is behind it: then what was to hold where the
part ends holds at that moment. -/
theorem part (ho : c.Orderly r) {s : Caller α} (hplace : c.callers[i]? = some (s.within k))
    (hs : s.Conducts r Q (c.view i)) (feed : Feed) (turns : List Turn) :
    (∃ s' : Caller α, s'.outcome = none ∧ (c.play feed turns).callers[i]? = some (s'.within k)) ∨
    ∃ before after result, turns = before ++ after ∧
      (c.play feed before).Returned i k result ∧ Q result ((c.play feed before).view i) := by
  -- The induction is on the turns. A part that has ended counts from the first moment on, so nothing has to
  -- be known of later turns.
  induction turns generalizing c s with
  | nil =>
    cases hend : s.outcome with
    | none => exact .inl ⟨s, hend, hplace⟩
    | some result =>
      exact .inr ⟨[], [], result, rfl, hplace.trans (by rw [Caller.within_of_outcome hend]), hs.of_outcome hend⟩
  | cons t rest ih =>
    -- A part that is over was over before this turn.
    cases hend : s.outcome with
    | none =>
      obtain ⟨s', hplace', hs'⟩ := ho.part_advance hplace hs hend feed t
      obtain hstill | ⟨before, after, result, rfl, hreturned⟩ := ih (ho.advance feed t) hplace' hs'
      · exact .inl hstill
      · exact .inr ⟨t :: before, after, result, rfl, hreturned⟩
    | some result =>
      exact .inr ⟨[], t :: rest, result, rfl, hplace.trans (by rw [Caller.within_of_outcome hend]),
        hs.of_outcome hend⟩

end Orderly

/-! Where a part begins. -/

/-- Caller `i` is about to begin a part of its enquiry, and will go on with `k` from the outcome. -/
def Begins (c : Crowd β) (i : Nat) (x : Enquiry α) (k : Except Failure α → Enquiry β) : Prop :=
  c.callers[i]? = some (.going (x.attempt.bind k))

/-- Caller `i` has sent requests for an errand, and will go on with what it hears in answer. -/
def Awaits (c : Crowd β) (i : Nat) (errand : Errand) : Prop :=
  ∃ letter rest, c.callers[i]? = some (.waiting errand letter rest)

/-- Requests of a letter for an errand are in flight. -/
def Asks (c : Crowd β) (letter : Nat) (errand : Errand) : Prop :=
  (∃ e, c.sent[letter]? = some e ∧ e.2.errand = errand) ∧ ∃ request, (letter, request) ∈ c.inFlight

/-- The turn of a caller that need not wait is the next step of its enquiry. -/
theorem advance_of_step {x : Enquiry β} (hplace : c.callers[i]? = some (.going x)) (feed : Feed)
    (hfree : c.blocks (x.step feed c.memory c.sent).1 = false) :
    c.advance feed (.caller i) = (c.after i (x.step feed c.memory c.sent).1).move i
      (x.step feed c.memory c.sent).2 := by
  have hnext : c.next? feed i = some (x.step feed c.memory c.sent) :=
    next?_eq_some_iff.mpr ⟨_, hplace, rfl⟩
  simp [Crowd.advance, hnext, hfree]

section Begins

variable {x : Enquiry α}

/-- At first every caller is about to begin with what it wants. -/
theorem begins_of_wish {slugs : SlugCache} {wishes : List Wish} {w : Wish} (h : wishes[i]? = some w) :
    (start ⟨slugs, []⟩ (wishes.map (·.enquiry r))).Begins i (w.enquiry r) ofExcept := by
  rw [Begins, attempt_bind_ofExcept]
  simp [start, h]

/-- What is done first is where an enquiry begins. -/
theorem Begins.first {γ : Type} {f : α → Enquiry γ} {k : Except Failure γ → Enquiry β}
    (h : c.Begins i (x >>= f) k) :
    c.Begins i x fun result => (ofExcept result >>= f).attempt.bind k := by
  have htree : (x >>= f).attempt.bind k
      = x.attempt.bind fun result => (ofExcept result >>= f).attempt.bind k := by
    show (x.bind f).attempt.bind k = _
    rw [x.bind_eq_attempt_bind, attempt_attempt_bind, bind_assoc]
    rfl
  rw [Begins, ← htree]
  exact h

/-- An enquiry whose failure is caught begins where the enquiry itself begins. -/
theorem Begins.attempted {k : Except Failure (Except Failure α) → Enquiry β} (h : c.Begins i x.attempt k) :
    c.Begins i x fun result => k (.ok result) := by
  have htwice : x.attempt.attempt = x.attempt.bind fun result => (answer result).attempt := by
    rw [← attempt_attempt_bind, bind_answer]
  have htree : x.attempt.attempt.bind k = x.attempt.bind fun result => k (.ok result) := by
    rw [htwice, bind_assoc]
    rfl
  rw [Begins, ← htree]
  exact h

/-- A caller that finds a lock free begins what is done under it. -/
theorem Begins.enter {gate : Gate} (h : c.Begins i (guarded gate x) k) (hfree : ∀ j, (gate, j) ∉ c.held)
    (feed : Feed) : (c.advance feed (.caller i)).Begins i x (fun result => .leave gate (k result)) ∧
      (gate, i) ∈ (c.advance feed (.caller i)).held ∧ (c.advance feed (.caller i)).memory = c.memory := by
  have hplace : c.callers[i]? = some
      (.going (.enter gate (x.attempt.bind fun result => .leave gate (k result)))) := by
    rw [← guarded_attempt_bind]
    exact h
  have hlt : i < c.callers.length := (List.getElem?_eq_some_iff.mp hplace).1
  -- Nobody holds the lock, so the caller does not have to wait for it.
  have hblocks : c.blocks (.enter gate) = false := by
    refine Bool.eq_false_iff.mpr fun htaken => ?_
    obtain ⟨_, j, henter, hheld⟩ := blocks_iff.mp htaken
    cases henter
    exact hfree j hheld
  rw [advance_of_step hplace feed hblocks]
  exact ⟨List.getElem?_set_self hlt, List.mem_cons_self, rfl⟩

/-- A caller that looks into the memory goes on with what it sees, and changes nothing. -/
theorem Begins.memory {f : Memory → Enquiry α} (h : c.Begins i (Enquiry.memory >>= f) k) (feed : Feed) :
    (c.advance feed (.caller i)).Begins i (f c.memory) k ∧ (c.advance feed (.caller i)).held = c.held ∧
      (c.advance feed (.caller i)).memory = c.memory := by
  have hlt : i < c.callers.length := (List.getElem?_eq_some_iff.mp h).1
  rw [advance_of_step h feed rfl]
  exact ⟨List.getElem?_set_self hlt, rfl, rfl⟩

/-- A caller that sends a request waits for the answer. -/
theorem Begins.fetch {q : Request} {errand : Errand} {f : Json → Enquiry α}
    (h : c.Begins i (Enquiry.fetch q errand >>= f) k) (feed : Feed) :
    (c.advance feed (.caller i)).Awaits i errand := by
  have hlt : i < c.callers.length := (List.getElem?_eq_some_iff.mp h).1
  rw [advance_of_step h feed rfl]
  exact ⟨_, _, List.getElem?_set_self hlt⟩

end Begins

end Crowd

end ChainWallet
