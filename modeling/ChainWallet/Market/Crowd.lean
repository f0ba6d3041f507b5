import ChainWallet.Market.Enquiry

/-!
# Several callers at one resolver

A resolver is asked by several callers at once: by the clients of the HTTP interface and by the refresh
job. They share its memory, its locks and its feed, and take turns in any order, and the feed answers their
requests in any order.

* `Letter` — requests that are sent together. `Letter.outcome?` says when the sender has heard enough: when
  everything is answered, or with the first answer that spoils the errand.
* `Caller` — where one caller stands in its enquiry; between sending requests and going on with the
  answers it is `waiting`.
* `Deed` — what a step of a caller does to what all of them share; `Caller.step?` is the deed of the next
  step and where the caller then stands.
* `Crowd.inFlight` — the requests that are not answered yet. A sender that has heard enough goes on without
  the answers that are still to come, and its requests stay in flight behind it.
* `Crowd.advance` — one turn: of a caller, or of the feed with an answer to one request. A caller that finds
  a lock taken, or has not heard enough, stays where it is.
* `Crowd.play` — turns in a given order. A statement about every order is one about every list of
  turns.

What a feed answers is settled when a request is sent, and seen when the answer arrives.
-/

namespace ChainWallet

variable {α : Type}

/-! ### Letters -/

/-- Whether an answer makes the other answers useless: a search for a name is over with the first candidate
that has no record. -/
def Errand.isSpoiledBy : Errand → Except Failure Json → Bool
  | candidates _, answer => !(answer.bind TokenRecord.model.validate).isOk
  | directory, _ | prices, _ => false

/-- One request or several that are sent together, with what they are sent for and their answers. -/
structure Letter where
  errand : Errand
  requests : List Request
  answers : List (Except Failure Json)

namespace Letter

/-- The first answer that spoils the letter, of the requests that have been answered so far. -/
def spoiler? (l : Letter) (answered : List Nat) : Option (Except Failure Json) :=
  (answered.filterMap (l.answers[·]?)).find? l.errand.isSpoiledBy

/-- The answers with which the sender goes on, if it has heard enough: the one that spoils the letter, or all
of them. -/
def outcome? (l : Letter) (answered : List Nat) : Option (List (Except Failure Json)) :=
  match l.spoiler? answered with
  | some answer => some [answer]
  | none => if ∀ k < l.requests.length, k ∈ answered then some l.answers else none

/-- The letter is spoiled by one of the answers so far. -/
def Spoiled (l : Letter) (answered : List Nat) : Prop :=
  ∃ k ∈ answered, ∃ answer, l.answers[k]? = some answer ∧ l.errand.isSpoiledBy answer = true

/-- A sender has heard enough exactly if the letter is spoiled or everything is answered. -/
theorem outcome?_isSome_iff {l : Letter} {answered : List Nat} :
    (l.outcome? answered).isSome ↔ l.Spoiled answered ∨ ∀ k < l.requests.length, k ∈ answered := by
  have hspoiled : (l.spoiler? answered).isSome ↔ l.Spoiled answered := by
    simp only [spoiler?, Spoiled, List.find?_isSome, List.mem_filterMap]
    constructor
    · rintro ⟨answer, ⟨k, hk, hanswer⟩, hspoils⟩
      exact ⟨k, hk, answer, hanswer, hspoils⟩
    · rintro ⟨k, hk, answer, hanswer, hspoils⟩
      exact ⟨answer, ⟨k, hk, hanswer⟩, hspoils⟩
  rw [← hspoiled, outcome?]
  cases l.spoiler? answered with
  | some answer => simp
  | none => simp

end Letter

/-! ### Deeds -/

/-- What a step does to what all callers share. -/
inductive Deed where
  | look
  | keepSlug (identifier slug : String)
  | keepDirectory (directory : List TokenSlug)
  | enter (gate : Gate)
  | leave (gate : Gate)
  | send (letter : Letter)

namespace Deed

/-- The letters that are sent. -/
def letters : Deed → List Letter
  | send letter => [letter]
  | look | keepSlug .. | keepDirectory _ | enter _ | leave _ => []

/-- A memory after the deed. -/
def remember (m : Memory) : Deed → Memory
  | keepSlug identifier slug => { m with slugs := m.slugs.put identifier slug }
  | keepDirectory directory => { m with directory }
  | look | enter _ | leave _ | send _ => m

theorem mem_letters {d : Deed} {l : Letter} : l ∈ d.letters ↔ d = .send l := by
  cases d <;> simp [letters, eq_comm]

end Deed

/-! ### Callers -/

/-- Where a caller stands. -/
inductive Caller (α : Type) where
  | going (rest : Enquiry α)
  /-- A letter is sent; with what the caller hears in answer it will go on with `rest`. -/
  | waiting (errand : Errand) (letter : Nat) (rest : List (Except Failure Json) → Enquiry α)
  | ended (result : Except Failure α)

/-- The requests in letters, from first to last. -/
def requestsIn (sent : List (Nat × Letter)) : List Request :=
  sent.flatMap (·.2.requests)

/-- The next step of an enquiry: its deed and where the caller then stands. -/
def Enquiry.step (feed : Feed) (memory : Memory) (sent : List (Nat × Letter)) :
    Enquiry α → Deed × Caller α
  | answer a => (.look, .ended (.ok a))
  | fail f => (.look, .ended (.error f))
  | consult next => (.look, .going (next memory))
  | keepSlug identifier slug next => (.keepSlug identifier slug, .going next)
  | keepDirectory directory next => (.keepDirectory directory, .going next)
  | enter gate next => (.enter gate, .going next)
  | leave gate next => (.leave gate, .going next)
  | request errand r next =>
    -- What the feed answers is settled here, and heard when it arrives.
    let content := feed.answer (requestsIn sent) r
    (.send ⟨errand, [r], [content]⟩, .waiting errand sent.length fun _ => next content)
  | requestAll errand rs next =>
    let contents := (feed.answers (requestsIn sent) rs).1
    (.send ⟨errand, rs, contents⟩, .waiting errand sent.length next)

/-- The next step of a caller that can take one. `heard` tells what has been heard in answer to a letter. -/
def Caller.step? (feed : Feed) (memory : Memory) (sent : List (Nat × Letter))
    (heard : Nat → Option (List (Except Failure Json))) : Caller α → Option (Deed × Caller α)
  | going rest => some (rest.step feed memory sent)
  | waiting _ letter rest => (heard letter).map fun answers => (.look, .going (rest answers))
  | ended _ => none

/-! ### Turns -/

/-- Whose turn it is: that of a caller, or that of the feed, which answers a request of a letter. -/
inductive Turn where
  | caller (i : Nat)
  | answer (letter request : Nat)
  deriving DecidableEq, Repr

/-- Several callers with the memory and the locks they share. -/
structure Crowd (α : Type) where
  callers : List (Caller α)
  memory : Memory
  /-- The locks that are taken, each with the number of the caller that holds it. -/
  held : List (Gate × Nat)
  /-- The letters sent so far, each with the number of its sender. -/
  sent : List (Nat × Letter)
  /-- The requests answered so far, each by the number of its letter and its number in there. -/
  answered : List (Nat × Nat)

namespace Crowd

def start (memory : Memory) (enquiries : List (Enquiry α)) : Crowd α where
  callers := enquiries.map .going
  memory
  held := []
  sent := []
  answered := []

/-- The requests that are sent and not answered yet. -/
def inFlight (c : Crowd α) : List (Nat × Nat) :=
  (c.sent.zipIdx.flatMap fun (e, letter) => (List.range e.2.requests.length).map (letter, ·)).filter
    (· ∉ c.answered)

/-- The requests of a letter that are answered, from first to last. -/
def answeredOf (c : Crowd α) (letter : Nat) : List Nat :=
  (c.answered.filter (·.1 == letter)).map (·.2)

/-- What the sender of a letter has heard in answer, if it is enough to go on. -/
def heard (c : Crowd α) (letter : Nat) : Option (List (Except Failure Json)) :=
  c.sent[letter]?.bind fun e => e.2.outcome? (c.answeredOf letter)

/-- The next step of caller `i`, if there is such a caller and it can take one. -/
def next? (feed : Feed) (c : Crowd α) (i : Nat) : Option (Deed × Caller α) :=
  c.callers[i]?.bind (·.step? feed c.memory c.sent c.heard)

/-- The crowd with one caller at another place. -/
def move (c : Crowd α) (i : Nat) (s : Caller α) : Crowd α :=
  { c with callers := c.callers.set i s }

/-- The crowd after a deed of caller `i`. -/
def after (c : Crowd α) (i : Nat) (d : Deed) : Crowd α where
  callers := c.callers
  memory := d.remember c.memory
  held := match d with
    | .enter gate => (gate, i) :: c.held
    | .leave gate => c.held.filter (·.1 != gate)
    | _ => c.held
  sent := c.sent ++ d.letters.map (i, ·)
  answered := c.answered

/-- The crowd after an answer has arrived. -/
def receive (c : Crowd α) (letter request : Nat) : Crowd α :=
  { c with answered := c.answered ++ [(letter, request)] }

/-- Whether a deed has to wait: it would take a lock that is taken. -/
def blocks (c : Crowd α) : Deed → Bool
  | .enter gate => c.held.any (·.1 == gate)
  | _ => false

/-- One turn. -/
def advance (feed : Feed) (c : Crowd α) : Turn → Crowd α
  | .caller i =>
    match c.next? feed i with
    | some (d, s) => if c.blocks d then c else (c.after i d).move i s
    | none => c
  | .answer letter request =>
    if (letter, request) ∈ c.inFlight then c.receive letter request else c

def play (feed : Feed) (c : Crowd α) (turns : List Turn) : Crowd α :=
  turns.foldl (advance feed) c

/-! ### Characterization -/

@[simp] theorem play_nil (feed : Feed) (c : Crowd α) : c.play feed [] = c := rfl

theorem play_append (feed : Feed) (c : Crowd α) (turns more : List Turn) :
    c.play feed (turns ++ more) = (c.play feed turns).play feed more := by
  simp [play, List.foldl_append]

/-- Only a lock that somebody holds has to be waited for. -/
theorem blocks_iff {c : Crowd α} {d : Deed} :
    c.blocks d = true ↔ ∃ gate i, d = .enter gate ∧ (gate, i) ∈ c.held := by
  cases d <;> simp [blocks]

theorem next?_eq_some_iff {feed : Feed} {c : Crowd α} {i : Nat} {next : Deed × Caller α} :
    c.next? feed i = some next ↔
      ∃ s, c.callers[i]? = some s ∧ s.step? feed c.memory c.sent c.heard = some next :=
  Option.bind_eq_some_iff

@[simp] theorem mem_answeredOf {c : Crowd α} {letter request : Nat} :
    request ∈ c.answeredOf letter ↔ (letter, request) ∈ c.answered := by
  simp [answeredOf]

/-- The requests in flight are those of the letters sent, without the answered ones. -/
theorem mem_inFlight {c : Crowd α} {letter request : Nat} : (letter, request) ∈ c.inFlight ↔
    (∃ e, c.sent[letter]? = some e ∧ request < e.2.requests.length) ∧ (letter, request) ∉ c.answered := by
  -- Requests are counted off letter by letter.
  have hplace : (∃ e : Nat × Letter, ∃ n, (e, n) ∈ c.sent.zipIdx ∧ ∃ k < e.2.requests.length,
      n = letter ∧ k = request) ↔ ∃ e, c.sent[letter]? = some e ∧ request < e.2.requests.length := by
    constructor
    · rintro ⟨e, n, he, k, hk, rfl, rfl⟩
      exact ⟨e, List.mk_mem_zipIdx_iff_getElem?.mp he, hk⟩
    · rintro ⟨e, he, hk⟩
      exact ⟨e, letter, List.mk_mem_zipIdx_iff_getElem?.mpr he, request, hk, rfl, rfl⟩
  rw [← hplace]
  simp [inFlight]

/-- The sender of a letter has heard enough exactly if an answer has spoiled the letter or none of its requests
is in flight. -/
theorem heard_isSome_iff {c : Crowd α} {letter : Nat} : (c.heard letter).isSome ↔
    ∃ e, c.sent[letter]? = some e ∧
      (e.2.Spoiled (c.answeredOf letter) ∨ ∀ request, (letter, request) ∉ c.inFlight) := by
  cases he : c.sent[letter]? with
  | none => simp [heard, he]
  | some e =>
    -- A request of the letter is answered or in flight.
    have hdone : (∀ k < e.2.requests.length, k ∈ c.answeredOf letter)
        ↔ ∀ request, (letter, request) ∉ c.inFlight := by
      simp [mem_inFlight, he]
    rw [heard, he, Option.bind_some, Letter.outcome?_isSome_iff, hdone]
    simp

/-- All that a turn can do: nothing; bring an answer; or let a caller take its next step. -/
theorem advance_cases (feed : Feed) (c : Crowd α) (t : Turn) :
    c.advance feed t = c ∨
    (∃ letter request, t = .answer letter request ∧ (letter, request) ∈ c.inFlight ∧
      c.advance feed t = c.receive letter request) ∨
    ∃ i d s, t = .caller i ∧ c.next? feed i = some (d, s) ∧ c.blocks d = false ∧
      c.advance feed t = (c.after i d).move i s := by
  cases t with
  | caller i =>
    cases hnext : c.next? feed i with
    | none => exact .inl (by simp only [advance, hnext])
    | some next =>
      obtain ⟨d, s⟩ := next
      cases hblocks : c.blocks d with
      | true => exact .inl (by simp only [advance, hnext, hblocks, if_true])
      | false => exact .inr (.inr ⟨i, d, s, rfl, hnext, hblocks, by simp [advance, hnext, hblocks]⟩)
  | answer letter request =>
    by_cases hflight : (letter, request) ∈ c.inFlight
    · exact .inr (.inl ⟨letter, request, rfl, hflight, if_pos hflight⟩)
    · exact .inl (if_neg hflight)

/-- A turn brings nobody in and sends nobody away. -/
theorem length_callers_advance (feed : Feed) (c : Crowd α) (t : Turn) :
    (c.advance feed t).callers.length = c.callers.length := by
  obtain h | ⟨letter, request, -, -, h⟩ | ⟨i, d, s, -, -, -, h⟩ := c.advance_cases feed t
  · rw [h]
  · rw [h]
    rfl
  · rw [h]
    exact List.length_set

end Crowd

end ChainWallet
