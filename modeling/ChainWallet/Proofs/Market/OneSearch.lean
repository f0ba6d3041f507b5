import ChainWallet.Proofs.Market.Fairness
import ChainWallet.Proofs.Market.Transparency

/-!
# One search for a name at a time

Several callers may want the name of one asset at once. One of them searches for it under the lock of the
asset while the others wait; if it finds a name, the others have it from the memory, and otherwise the next
one searches. A search that fails with one of its answers leaves the other requests behind, and these may
still be in flight when the next caller searches.

* **`Orderly.awaits_unique`** — no two callers wait for the records of one asset's candidates.
* **`Orderly.spoiled_of_asks`** — requests of two searches are in flight together only if an answer has spoiled
  the earlier one.
* **`Orderly.search_again`** — who takes the lock and still finds no name begins a search of its own.
* **`begins_resolveSlug`** — so it is also for those who ask for prices, because they ask for a name first.
* **`ResolvesInTurn`**, **`names_resolved_in_turn`** — all of this for any callers, any order of turns and any
  answers of the feed.
* **`candidate_requests_overlap`** — requests of a failed search that are in flight beside those of the next one.
-/

namespace ChainWallet

open Resolver

variable {α β : Type} {r : Resolver} {feed : Feed}

namespace Crowd

variable {c : Crowd β} {i j : Nat}

/-- What is asked for under a lock is waited for by one caller. -/
theorem Orderly.awaits_unique (ho : c.Orderly r) {errand : Errand} (hguarded : errand ≠ .prices)
    (hi : c.Awaits i errand) (hj : c.Awaits j errand) : i = j := by
  obtain ⟨_, _, hi⟩ := hi
  obtain ⟨_, _, hj⟩ := hj
  obtain ⟨hminds, -⟩ := ho.conduct i _ hi
  obtain ⟨hminds', -⟩ := ho.conduct j _ hj
  exact ho.eq_of_minds hguarded hminds hminds'

/-- When requests of two letters that are sent under one lock are in flight, the sender of the earlier letter has
gone on without them, because an answer has spoiled that letter. -/
theorem Orderly.spoiled_of_asks (ho : c.Orderly r) {errand : Errand} (hguarded : errand ≠ .prices) {m n : Nat}
    (hlt : m < n) (hm : c.Asks m errand) (hn : c.Asks n errand) :
    ∃ e, c.sent[m]? = some e ∧ e.2.Spoiled (c.answeredOf m) := by
  obtain ⟨⟨e, he, herrand⟩, request, hflight⟩ := hm
  obtain ⟨⟨f, hf, herrand'⟩, -⟩ := hn
  -- The later letter was sent after the sender of the earlier one went on.
  have hheard : (c.heard m).isSome :=
    ho.apart m n e f hlt he hf (herrand.trans herrand'.symm) (herrand ▸ hguarded)
  obtain ⟨e', he', hspoiled | hnone⟩ := heard_isSome_iff.mp hheard
  · exact ⟨e', he', hspoiled⟩
  · exact absurd hflight (hnone request)

/-- A letter with a request in flight asks for what it is sent for. -/
theorem asks_of_inFlight {letter : Nat} (request : Nat) {errand : Errand}
    (herrand : c.sent[letter]?.map (·.2.errand) = some errand) (hflight : (letter, request) ∈ c.inFlight) :
    c.Asks letter errand :=
  ⟨Option.map_eq_some_iff.mp herrand, request, hflight⟩

/-- A caller that takes the lock of an asset and still finds no name begins a search, whatever others do
meanwhile. -/
theorem Orderly.search_again (ho : c.Orderly r) {a : Asset} {k : Except Failure (Option String) → Enquiry β}
    (hbegins : c.Begins i (r.searchInTurn a) k) (missing : c.memory.slugs.get? a.identifier = none)
    (hfree : ∀ j, (.slug a.identifier, j) ∉ c.held) {others : List Turn} (hothers : .caller i ∉ others) :
    (c.play feed (.caller i :: others ++ [.caller i])).Begins i (r.search a) fun result =>
      .leave (.slug a.identifier) (k result) := by
  obtain ⟨hbegins, hheld, hmemory⟩ := Begins.enter hbegins hfree feed
  have ho := ho.advance feed (.caller i)
  obtain ⟨hplace, hmeets, -⟩ := ho.play_others feed hothers
  -- While the lock is held, nobody else finds a name.
  have hmissing : ((c.advance feed (.caller i)).play feed others).memory.slugs.get? a.identifier = none := by
    rw [hmeets.later.ownNames _ (mem_gates.mpr hheld)]
    exact (congrArg (·.slugs.get? a.identifier) hmemory).trans missing
  obtain ⟨hlast, -⟩ := Begins.memory (hplace.trans hbegins) feed
  rw [hmissing] at hlast
  rw [List.cons_append]
  show (((c.advance feed (.caller i)).play feed (others ++ [.caller i]))).Begins i _ _
  rw [play_append]
  exact hlast

/-- A caller that finds no name in the memory waits for its turn to search. -/
theorem Begins.searchInTurn {a : Asset} {k : Except Failure (Option String) → Enquiry β}
    (h : c.Begins i (r.resolveSlug a) k) (missing : c.memory.slugs.get? a.identifier = none) (feed : Feed) :
    (c.advance feed (.caller i)).Begins i (r.searchInTurn a) k := by
  obtain ⟨hwaits, -⟩ := Begins.memory h feed
  rwa [missing] at hwaits

/-- A price or prices over time are looked up by the name of the asset. -/
theorem begins_resolveSlug_of_knownSlug {a : Asset} {shownSymbol : String}
    {k : Except Failure String → Enquiry β} (h : c.Begins i (r.knownSlug a shownSymbol) k) :
    ∃ k', c.Begins i (r.resolveSlug a) k' :=
  ⟨_, Begins.first h⟩

/-- So is the price that is told, whether the look-up fails or not. -/
theorem begins_resolveSlug_of_assetPrice {a : Asset} {currency : String}
    {k : Except Failure MarketPrice → Enquiry β} (h : c.Begins i (r.assetPrice a currency) k) :
    ∃ k', c.Begins i (r.resolveSlug a) k' :=
  begins_resolveSlug_of_knownSlug (Begins.first (Begins.attempted (Begins.first h)))

/-- Whatever a resolver is called for, the name of the first asset is asked for first. -/
theorem begins_resolveSlug {call : Call} {a : Asset} {rest : List Asset} (hassets : call.assets = a :: rest)
    {k : Except Failure Answer → Enquiry β} (h : c.Begins i (call.enquiry r) k) :
    ∃ k', c.Begins i (r.resolveSlug a) k' := by
  cases call with
  | slug b =>
    cases hassets
    exact ⟨_, Begins.first h⟩
  | assetPrice b currency =>
    cases hassets
    exact begins_resolveSlug_of_assetPrice (Begins.first h)
  | tokenPrice b currency | priceSeries b currency interval =>
    cases hassets
    exact begins_resolveSlug_of_knownSlug (Begins.first (Begins.first h))
  | assetPrices assets currency =>
    obtain rfl : assets = a :: rest := hassets
    exact begins_resolveSlug_of_assetPrice (Begins.first (Begins.first h))

end Crowd

/-- How callers of a resolver come by names, from any state on. -/
structure ResolvesInTurn (r : Resolver) (feed : Feed) (c : Crowd β) : Prop where
  /-- From sending requests for the candidates of an asset until it goes on with what it hears, a caller is
  alone. -/
  searching : ∀ identifier i j, c.Awaits i (.candidates identifier) → c.Awaits j (.candidates identifier) →
    i = j
  /-- Of two searches for one asset requests are in flight together only after an answer has spoiled the earlier
  one. -/
  alone : ∀ identifier m n, m < n → c.Asks m (.candidates identifier) → c.Asks n (.candidates identifier) →
    ∃ e, c.sent[m]? = some e ∧ e.2.Spoiled (c.answeredOf m)
  /-- A name that was found stays, and nobody asks for candidates any more. -/
  known : ∀ identifier slug, c.memory.slugs.get? identifier = some slug → ∀ turns,
    (c.play feed turns).memory.slugs.get? identifier = some slug ∧
    ∃ more, (c.play feed turns).sent = c.sent ++ more ∧ ∀ e ∈ more, e.2.errand ≠ .candidates identifier
  /-- Who asks for a name, or waits for its turn to search for it, gets to an end. At that moment the memory
  has the name that was found, and none if there was none. If the name was known before, it is the answer, and
  the caller has sent nothing. -/
  returns : ∀ a i (k : Except Failure (Option String) → Enquiry β),
    c.Begins i (r.resolveSlug a) k ∨ c.Begins i (r.searchInTurn a) k →
    ∀ schedule, c.Fair feed schedule → ∃ n result,
      let later := c.follow feed schedule n
      later.Returned i k result ∧ later.memory.slugs.get? a.identifier = nameOf result ∧
      ∀ slug, c.memory.slugs.get? a.identifier = some slug →
        result = .ok (some slug) ∧ later.lettersOf i = c.lettersOf i
  /-- Who waits for its turn searches if no name was found before. -/
  again : ∀ a i (k : Except Failure (Option String) → Enquiry β), c.Begins i (r.searchInTurn a) k →
    c.memory.slugs.get? a.identifier = none → (∀ j, (.slug a.identifier, j) ∉ c.held) →
    ∀ others, .caller i ∉ others →
    (c.play feed (.caller i :: others ++ [.caller i])).Begins i (r.search a) fun result =>
      .leave (.slug a.identifier) (k result)

theorem Crowd.Orderly.resolvesInTurn {c : Crowd β} (ho : c.Orderly r) : ResolvesInTurn r feed c where
  searching identifier i j hi hj := ho.awaits_unique (by simp) hi hj
  alone identifier m n hlt hm hn := ho.spoiled_of_asks (by simp) hlt hm hn
  known identifier slug hslug turns := by
    obtain ⟨more, hmore, hnone⟩ := ho.sent_play feed turns
    exact ⟨(ho.later_play feed turns).names identifier slug hslug, more, hmore,
      fun e he => hnone e he identifier slug hslug⟩
  returns a i k hbegins schedule hfair := by
    obtain ⟨y, hplace, hy⟩ : ∃ y : Enquiry (Option String), c.Begins i y k ∧
        Enquiry.Abides r (fun result w => w.gates = (c.view i).gates ∧ Resolved a (c.view i) result w) y
          (c.view i) := by
      -- Waiting for the lock or not yet, the caller holds none, and what comes of it is the same.
      rcases hbegins with hbegins | hbegins
      · have idle := idle_of_abides_resolveSlug (ho.conduct i _ hbegins) (ho.meets_memory i)
        exact ⟨_, hbegins, abides_resolveSlug a idle⟩
      · have idle := idle_of_abides_searchInTurn (ho.conduct i _ hbegins) (ho.meets_memory i)
        exact ⟨_, hbegins, (abides_searchInTurn a idle).imp fun _ _ hw => ⟨hw.1.trans idle.symm, hw.2⟩⟩
    obtain ⟨n, result, hreturned, -, hresolved⟩ := ho.returns feed hfair (s := .going y) hplace hy
    exact ⟨n, result, hreturned, hresolved.name, hresolved.known⟩
  again a i k hbegins missing hfree others hothers := ho.search_again hbegins missing hfree hothers

/-- Whatever callers there are, in whatever order they take their turns and answers arrive, and whatever the
feed answers: names are searched for by one caller at a time and found once. -/
theorem names_resolved_in_turn (r : Resolver) (feed : Feed) (slugs : SlugCache) (wishes : List Wish)
    (turns : List Turn) :
    ResolvesInTurn r feed ((Crowd.start ⟨slugs, []⟩ (wishes.map (·.enquiry r))).play feed turns) :=
  ((Crowd.orderly_of_wishes r slugs wishes).play feed turns).resolvesInTurn

/-! ### Three callers for one name -/

namespace ThreeCallers

/-- The feed with two tokens of one symbol, with an error in place of one of its answers. -/
def refusingFeed (refused : Nat) : Feed := fun earlier q =>
  if earlier.length = refused then .ok ⟨503, .ok .null⟩ else twoCoins.feed earlier q

def crowd (wishes : List Wish) : Crowd (Answer ⊕ List TokenSlug) :=
  .start ⟨.empty, []⟩ (wishes.map (·.enquiry twoCoinsResolver))

theorem orderly_crowd (wishes : List Wish) : (crowd wishes).Orderly twoCoinsResolver :=
  Crowd.orderly_of_wishes twoCoinsResolver .empty wishes

/-- A caller that has had no turn has not begun. -/
theorem begins_of_no_turn {wishes : List Wish} {w : Wish} (h : wishes[i]? = some w) (feed : Feed)
    (turns : List Turn) (hturns : .caller i ∉ turns) :
    ((crowd wishes).play feed turns).Begins i (w.enquiry twoCoinsResolver) Enquiry.ofExcept :=
  ((orderly_crowd wishes).play_others feed hturns).1.trans (Crowd.begins_of_wish h)

/-- Three callers that want the name of one asset. -/
def namers : Crowd (Answer ⊕ List TokenSlug) := crowd (List.replicate 3 (.call (.slug bridgedCoin)))

theorem orderly_namers : namers.Orderly twoCoinsResolver := orderly_crowd _

theorem namer_begins (hlt : i < 3) (feed : Feed) (turns : List Turn) (hturns : .caller i ∉ turns) :
    ∃ k, (namers.play feed turns).Begins i (twoCoinsResolver.resolveSlug bridgedCoin) k := by
  have hwish : (List.replicate 3 (Wish.call (.slug bridgedCoin)))[i]? = some (.call (.slug bridgedCoin)) :=
    List.getElem?_replicate_of_lt hlt
  exact Crowd.begins_resolveSlug rfl (Crowd.Begins.first (begins_of_no_turn hwish feed turns hturns))

/-- The first caller asks for the directory. -/
def asking : List Turn := List.replicate 6 (.caller 0)

/-- The second caller finds no name in the memory, and the first one hears the answer and ends. -/
def refused : List Turn := .caller 1 :: .answer 0 0 :: List.replicate 4 (.caller 0)

/-- The second caller searches. -/
def searching : List Turn :=
  List.replicate 5 (.caller 1) ++ .answer 1 0 :: List.replicate 4 (.caller 1) ++ .answer 2 1 :: .answer 2 0 ::
    List.replicate 3 (.caller 1)

/-- When the first caller has failed, the second one has looked into the memory and waits for the lock. -/
theorem second_namer_waits : ∃ k, (namers.play (refusingFeed 0) (asking ++ refused)).Begins 1
    (twoCoinsResolver.searchInTurn bridgedCoin) k := by
  obtain ⟨k, hbegins⟩ := namer_begins (i := 1) (by decide) (refusingFeed 0) asking (by decide)
  have hwaits := hbegins.searchInTurn (by decide +kernel) (refusingFeed 0)
  have ho := (orderly_namers.play (refusingFeed 0) asking).advance (refusingFeed 0) (.caller 1)
  rw [Crowd.play_append]
  exact ⟨k, (ho.play_others (refusingFeed 0) (by decide)).1.trans hwaits⟩

/-- The first caller fails for want of a directory, the second one searches and finds the name, and the third
one has it without a request of its own. -/
theorem third_caller_has_name :
    let failed := namers.play (refusingFeed 0) (asking ++ refused)
    let found := failed.play (refusingFeed 0) searching
    (failed.callers[0]?.bind (·.outcome)).map (·.isOk) = some false
    ∧ failed.memory.slugs.get? "coin" = none
    ∧ (∃ k, (failed.play (refusingFeed 0) [.caller 1, .caller 1]).Begins 1
        (twoCoinsResolver.search bridgedCoin) k)
    ∧ found.memory.slugs.get? "coin" = some "the-coin"
    ∧ ∃ k n, (found.follow (refusingFeed 0) Crowd.everyTurn n).Returned 2 k (.ok (some "the-coin"))
      ∧ (found.follow (refusingFeed 0) Crowd.everyTurn n).lettersOf 2 = [] := by
  intro failed found
  have hmissing : failed.memory.slugs.get? "coin" = none := by decide +kernel
  have hknown : found.memory.slugs.get? "coin" = some "the-coin" := by decide +kernel
  have hfailed : ResolvesInTurn twoCoinsResolver (refusingFeed 0) failed :=
    names_resolved_in_turn _ _ .empty _ (asking ++ refused)
  have hfound : ResolvesInTurn twoCoinsResolver (refusingFeed 0) found := by
    have h := names_resolved_in_turn twoCoinsResolver (refusingFeed 0) .empty
      (List.replicate 3 (.call (.slug bridgedCoin))) ((asking ++ refused) ++ searching)
    rwa [Crowd.play_append] at h
  obtain ⟨k, hwaits⟩ := second_namer_waits
  have hheld : failed.held = [] := by decide +kernel
  -- Nobody holds the lock, so two turns of the second caller bring it to its search.
  have hsearch := hfailed.again bridgedCoin 1 k hwaits hmissing (by simp [hheld]) [] (by simp)
  obtain ⟨k', hthird⟩ : ∃ k', found.Begins 2 (twoCoinsResolver.resolveSlug bridgedCoin) k' := by
    have h := namer_begins (i := 2) (by decide) (refusingFeed 0) ((asking ++ refused) ++ searching) (by decide)
    rwa [Crowd.play_append] at h
  -- The third caller has had no turn, and whatever turns there are from now on bring it to an end.
  obtain ⟨n, result, hreturned, -, hname⟩ := hfound.returns bridgedCoin 2 k' (.inl hthird) Crowd.everyTurn
    (Crowd.fair_everyTurn _ _)
  obtain ⟨rfl, hletters⟩ := hname "the-coin" hknown
  -- It has sent nothing before either.
  have hnone : found.sent.filter (·.1 == 2) = [] := List.filter_eq_nil_iff.mpr (by decide +kernel)
  refine ⟨by decide +kernel, hmissing, ⟨_, hsearch⟩, hknown, k', n, hreturned, hletters.trans ?_⟩
  rw [Crowd.lettersOf, hnone]
  rfl

/-- The first candidate's record is refused and the first caller ends, while the other record is still to come.
The second caller searches. -/
def overlapping : List Turn :=
  asking ++ .caller 1 :: .answer 0 0 :: List.replicate 4 (.caller 0) ++ .answer 1 0 ::
    List.replicate 3 (.caller 0) ++ List.replicate 6 (.caller 1)

/-- Requests for the candidates of one asset can be in flight for two searches at once. -/
theorem candidate_requests_overlap :
    ¬ ∀ (r : Resolver) (feed : Feed) (slugs : SlugCache) (wishes : List Wish) (turns : List Turn)
      (identifier : String) (m n : Nat),
      let c := (Crowd.start ⟨slugs, []⟩ (wishes.map (·.enquiry r))).play feed turns
      c.Asks m (.candidates identifier) → c.Asks n (.candidates identifier) → m = n := by
  intro hsingle
  -- The other record of the first search and the first one of the second search are in flight.
  have hfirst : (namers.play (refusingFeed 1) overlapping).Asks 1 (.candidates "coin") :=
    Crowd.asks_of_inFlight 1 (by decide +kernel) (by decide +kernel)
  have hsecond : (namers.play (refusingFeed 1) overlapping).Asks 2 (.candidates "coin") :=
    Crowd.asks_of_inFlight 0 (by decide +kernel) (by decide +kernel)
  have heq := hsingle twoCoinsResolver (refusingFeed 1) .empty _ overlapping "coin" 1 2 hfirst hsecond
  cases heq

end ThreeCallers

end ChainWallet
