import ChainWallet.Proofs.Market.OneSearch

/-!
# One directory for everybody

The directory is asked for until the feed has one to give, by one caller at a time. Whoever asks in vain is
told so; the next one asks again. After the first directory nobody asks, and everybody has that one.

* **`Orderly.eq_of_gives`** — no two letters bring a directory.
* **`Orderly.eq_of_asks`** — no two requests for the directory are in flight.
* **`Orderly.ask_again`** — who takes the lock and finds no directory asks for it.
* **`begins_directory`** — also a search for a name begins with the directory.
* **`FetchesOnce`**, **`directory_fetched_once`** — all of this for any callers, any order of turns and any
  answers of the feed.
-/

namespace ChainWallet

open Resolver

variable {α β : Type} {r : Resolver} {feed : Feed}

namespace Crowd

variable {c : Crowd β} {i : Nat}

/-- Of two letters that bring directories none was sent after the other. -/
theorem Orderly.eq_of_gives (ho : c.Orderly r) {e f : Nat × Letter} (he : e ∈ c.sent) (hf : f ∈ c.sent)
    {directory other : List TokenSlug} (hgives : e.2.Gives directory) (hgives' : f.2.Gives other) :
    directory = other := by
  obtain ⟨m, hm, rfl⟩ := List.getElem_of_mem he
  obtain ⟨n, hn, rfl⟩ := List.getElem_of_mem hf
  have hlast := List.pairwise_iff_getElem.mp ho.last
  -- Whichever was sent later would not have been sent.
  rcases Nat.lt_trichotomy m n with hlt | rfl | hlt
  · exact absurd hgives'.1 (hlast m n hm hn hlt directory hgives)
  · exact hgives.unique hgives'
  · exact absurd hgives.1 (hlast n m hn hm hlt other hgives')

/-- What a caller sends meanwhile stands behind what it has sent before. -/
theorem lettersOf_of_sent {c' : Crowd β} {more : List (Nat × Letter)} (h : c'.sent = c.sent ++ more) :
    c'.lettersOf i = c.lettersOf i ++ (more.filter (·.1 == i)).map (·.2) := by
  simp [lettersOf, h]

/-- Once a letter has brought a directory, nobody asks for it any more. -/
theorem Orderly.not_asked (ho : c.Orderly r) {e : Nat × Letter} (he : e ∈ c.sent)
    {directory : List TokenSlug} (hgives : e.2.Gives directory) {turns : List Turn} {l : Letter}
    (hletters : (c.play feed turns).lettersOf i = c.lettersOf i ++ [l]) : l.errand ≠ .directory := by
  obtain ⟨more, hmore, -⟩ := ho.sent_play feed turns
  have hmem : l ∈ (more.filter (·.1 == i)).map (·.2) := by
    rw [lettersOf_of_sent hmore] at hletters
    rw [List.append_cancel_left hletters]
    exact List.mem_cons_self
  obtain ⟨f, hf, rfl⟩ := List.mem_map.mp hmem
  have hlast := (ho.play feed turns).last
  rw [hmore] at hlast
  exact (List.pairwise_append.mp hlast).2.2 e he f (List.mem_of_mem_filter hf) directory hgives

/-- A caller that takes the lock of the directory and finds none asks for it, whatever others do meanwhile. -/
theorem Orderly.ask_again (ho : c.Orderly r) {k : Except Failure (List TokenSlug) → Enquiry β}
    (hbegins : c.Begins i r.directory k) (missing : c.memory.directory = [])
    (hfree : ∀ j, (.directory, j) ∉ c.held) {others more : List Turn} (hothers : .caller i ∉ others)
    (hmore : .caller i ∉ more) :
    (c.play feed (.caller i :: others ++ .caller i :: more ++ [.caller i])).Awaits i .directory := by
  obtain ⟨hbegins, hheld, hmemory⟩ := Begins.enter hbegins hfree feed
  have ho := ho.advance feed (.caller i)
  obtain ⟨hplace, hmeets, -⟩ := ho.play_others feed hothers
  -- While the lock is held, nobody else finds a directory.
  have hmissing : ((c.advance feed (.caller i)).play feed others).memory.directory = [] :=
    (hmeets.later.ownDirectory (mem_gates.mpr hheld)).trans ((congrArg (·.directory) hmemory).trans missing)
  obtain ⟨hask, -⟩ := Begins.memory (hplace.trans hbegins) feed
  rw [hmissing] at hask
  have ho := (ho.play feed others).advance feed (.caller i)
  obtain ⟨hplace, -⟩ := ho.play_others feed hmore
  -- With the third turn its letter is sent.
  have hlast := Begins.fetch (hplace.trans hask) feed
  have hturns : c.play feed (.caller i :: others ++ .caller i :: more ++ [.caller i])
      = ((((c.advance feed (.caller i)).play feed others).advance feed (.caller i)).play feed more).advance feed
        (.caller i) := by
    rw [List.append_assoc, play_append]
    exact play_append feed _ more [.caller i]
  rwa [hturns]

/-- No answer spoils a letter that asks for the directory, so its sender waits until it is answered. -/
theorem Orderly.eq_of_asks (ho : c.Orderly r) {m n : Nat} (hm : c.Asks m .directory)
    (hn : c.Asks n .directory) : m = n := by
  have hno : ∀ {m n : Nat}, c.Asks m .directory → c.Asks n .directory → ¬ m < n := by
    intro m n hm hn hlt
    obtain ⟨e, he, k, -, answer, -, hspoils⟩ := ho.spoiled_of_asks (by simp) hlt hm hn
    obtain ⟨⟨e', he', herrand⟩, -⟩ := hm
    cases he.symm.trans he'
    rw [herrand] at hspoils
    cases hspoils
  exact Nat.le_antisymm (Nat.le_of_not_lt (hno hn hm)) (Nat.le_of_not_lt (hno hm hn))

/-- A search for a name begins with the directory. -/
theorem begins_directory {a : Asset} {k : Except Failure (Option String) → Enquiry β}
    (h : c.Begins i (r.search a) k) : ∃ k', c.Begins i r.directory k' :=
  ⟨_, Begins.first (Begins.first h)⟩

end Crowd

/-- How callers of a resolver come by the directory, from any state on. -/
structure FetchesOnce (r : Resolver) (feed : Feed) (c : Crowd β) : Prop where
  /-- One caller at most has asked for the directory and has not heard of it yet. -/
  alone : ∀ i j, c.Awaits i .directory → c.Awaits j .directory → i = j
  /-- One letter at most that asks for the directory is in flight. -/
  inFlight : ∀ m n, c.Asks m .directory → c.Asks n .directory → m = n
  single : ∀ e ∈ c.sent, e.2.errand = .directory → e.2.requests = [r.directoryRequest]
  /-- What is remembered has all entries of one answer, in order. -/
  memo : c.memory.directory ≠ [] → ∃ e ∈ c.sent, e.2.errand = .directory ∧ ∃ entries,
    e.2.answers = [.ok (.arr entries)] ∧ entries.mapM TokenSlug.model.validate = .ok c.memory.directory
  /-- After an answer with a directory nobody asks for it. -/
  last : c.sent.Pairwise fun e f => (∃ directory, e.2.Gives directory) → f.2.errand ≠ .directory
  stays : c.memory.directory ≠ [] → ∀ turns, (c.play feed turns).memory.directory = c.memory.directory
  /-- Who asks for the directory gets to an end. A directory is remembered at that moment. A failure is that of
  the caller's own request, and leaves no directory. If an answer has brought a directory before, the caller
  has that one, and has sent nothing. -/
  returns : ∀ i (k : Except Failure (List TokenSlug) → Enquiry β), c.Begins i r.directory k →
    ∀ schedule, c.Fair feed schedule → ∃ n result,
      let later := c.follow feed schedule n
      later.Returned i k result ∧
      (∀ directory, result = .ok directory → directory ≠ [] ∧ later.memory.directory = directory) ∧
      (∀ f, result = .error f → later.memory.directory = [] ∧
        ∃ l, l.Settles (.error f) ∧ later.lettersOf i = c.lettersOf i ++ [l]) ∧
      ∀ e ∈ c.sent, ∀ directory, e.2.Gives directory →
        result = .ok directory ∧ later.lettersOf i = c.lettersOf i
  /-- Who finds no directory asks for it. -/
  again : ∀ i (k : Except Failure (List TokenSlug) → Enquiry β), c.Begins i r.directory k →
    c.memory.directory = [] → (∀ j, (.directory, j) ∉ c.held) → ∀ others more,
    .caller i ∉ others → .caller i ∉ more →
    (c.play feed (.caller i :: others ++ .caller i :: more ++ [.caller i])).Awaits i .directory

/-- In an orderly crowd the directory is asked for by one caller at a time. -/
theorem Crowd.Orderly.fetchesOnce {c : Crowd β} (ho : c.Orderly r) : FetchesOnce r feed c where
  alone i j hi hj := ho.awaits_unique (by simp) hi hj
  inFlight m n hm hn := ho.eq_of_asks hm hn
  single := ho.asked
  memo hne := by
    obtain ⟨e, he, hgives⟩ := ho.source hne
    obtain ⟨herrand, entries, hanswers, -, hentries⟩ := Letter.gives_iff.mp hgives
    exact ⟨e, he, herrand, entries, hanswers, hentries⟩
  last := ho.last.imp fun h ⟨directory, hgives⟩ => h directory hgives
  stays hne turns := (ho.later_play feed turns).directory hne
  returns i k hbegins schedule hfair := by
    have hfree := free_of_abides_directory (ho.conduct i _ hbegins) (ho.meets_memory i)
    obtain ⟨n, result, hreturned, -, hloading⟩ :=
      ho.returns feed hfair (s := .going r.directory) hbegins (abides_directory hfree)
    refine ⟨n, result, hreturned, ?_, ?_, fun e he directory hgives => ?_⟩
    · rintro directory rfl
      cases hloading with
      | remembered known kept => exact ⟨known, kept⟩
      | asked _ settles _ kept => exact ⟨Letter.Gives.ne_nil settles, kept⟩
    · rintro f rfl
      cases hloading with
      | asked _ settles letters kept => exact ⟨kept, _, settles, letters⟩
    · -- What is remembered later is from the letter that brought the directory, because no other letter did.
      cases hloading with
      | @remembered found known kept letters =>
        have hlater := ho.play feed ((List.range n).map schedule)
        obtain ⟨e', he', hgives'⟩ := hlater.source (kept ▸ known)
        obtain ⟨more, hmore, -⟩ := ho.sent_play feed ((List.range n).map schedule)
        have heq := hlater.eq_of_gives (hmore ▸ List.mem_append_left more he) he' hgives hgives'
        exact ⟨congrArg Except.ok (kept.symm.trans heq.symm), letters⟩
      | asked _ settles letters =>
        exact absurd settles.1 (ho.not_asked he hgives letters)
  again i k hbegins missing hfree others more hothers hmore :=
    ho.ask_again hbegins missing hfree hothers hmore

/-- Whatever callers there are, in whatever order they take their turns and answers arrive, and whatever the
feed answers: the directory is asked for by one caller at a time until it is there, and then it is the same for
everybody. -/
theorem directory_fetched_once (r : Resolver) (feed : Feed) (slugs : SlugCache) (wishes : List Wish)
    (turns : List Turn) :
    FetchesOnce r feed ((Crowd.start ⟨slugs, []⟩ (wishes.map (·.enquiry r))).play feed turns) :=
  ((Crowd.orderly_of_wishes r slugs wishes).play feed turns).fetchesOnce

/-! ### Three callers for one directory -/

namespace ThreeCallers

/-- Two callers want the directory, and the third one a name. -/
def readers : Crowd (Answer ⊕ List TokenSlug) := crowd [.directory, .directory, .call (.slug bridgedCoin)]

theorem orderly_readers : readers.Orderly twoCoinsResolver := orderly_crowd _

/-- The request of the first caller is refused, and it ends. -/
def readingInVain : List Turn := List.replicate 3 (.caller 0) ++ .answer 0 0 :: List.replicate 3 (.caller 0)

/-- The second caller asks, and goes on with the answer. -/
def reading : List Turn := List.replicate 3 (.caller 1) ++ .answer 1 0 :: List.replicate 4 (.caller 1)

/-- The third caller comes as far as the search for its name. -/
def naming : List Turn := List.replicate 3 (.caller 2)

/-- The second caller has had no turn when the first one has ended. -/
theorem second_reader_begins :
    ∃ k, (readers.play (refusingFeed 0) readingInVain).Begins 1 twoCoinsResolver.directory k :=
  ⟨_, Crowd.Begins.first (begins_of_no_turn (w := .directory) rfl (refusingFeed 0) readingInVain (by decide))⟩

/-- With three turns the search of the third caller comes to the directory. -/
theorem third_reader_begins : ∃ k, (readers.play (refusingFeed 0) ((readingInVain ++ reading) ++ naming)).Begins 2
    twoCoinsResolver.directory k := by
  have hcall : (readers.play (refusingFeed 0) (readingInVain ++ reading)).Begins 2
      (Wish.enquiry twoCoinsResolver (.call (.slug bridgedCoin))) Enquiry.ofExcept :=
    begins_of_no_turn rfl (refusingFeed 0) (readingInVain ++ reading) (by decide)
  obtain ⟨k, hname⟩ := Crowd.begins_resolveSlug rfl (Crowd.Begins.first hcall)
  -- The first turn finds no name in the memory, the second takes the lock, and the third finds no name again.
  have hwaits := hname.searchInTurn (by decide +kernel) (refusingFeed 0)
  have ho := (orderly_readers.play (refusingFeed 0) (readingInVain ++ reading)).advance (refusingFeed 0)
    (.caller 2)
  have hheld : ((readers.play (refusingFeed 0) (readingInVain ++ reading)).advance (refusingFeed 0)
      (.caller 2)).held = [] := by decide +kernel
  have hsearch : (((readers.play (refusingFeed 0) (readingInVain ++ reading)).advance (refusingFeed 0)
      (.caller 2)).play (refusingFeed 0) (.caller 2 :: [] ++ [.caller 2])).Begins 2
        (twoCoinsResolver.search bridgedCoin) _ :=
    ho.search_again hwaits (by decide +kernel) (by simp [hheld]) (by simp)
  rw [Crowd.play_append]
  exact Crowd.begins_directory hsearch

/-- The first caller is refused the directory, the second one asks again and gets it, and the search of the
third one has it without a request for it. -/
theorem third_caller_has_directory :
    let failed := readers.play (refusingFeed 0) readingInVain
    let found := failed.play (refusingFeed 0) reading
    let search := found.play (refusingFeed 0) naming
    let directory : List TokenSlug := [⟨"not-a-coin", "USDC", none⟩, ⟨"coin", "USDC", none⟩]
    (failed.callers[0]?.bind (·.outcome)).map (·.isOk) = some false
    ∧ failed.memory.directory = []
    ∧ (failed.play (refusingFeed 0) (List.replicate 3 (.caller 1))).Awaits 1 .directory
    ∧ found.memory.directory = directory
    ∧ ∃ k n, (search.follow (refusingFeed 0) Crowd.everyTurn n).Returned 2 k (.ok directory)
      ∧ (search.follow (refusingFeed 0) Crowd.everyTurn n).lettersOf 2 = [] := by
  intro failed found search directory
  have hmissing : failed.memory.directory = [] := by decide +kernel
  have hfailed : FetchesOnce twoCoinsResolver (refusingFeed 0) failed :=
    directory_fetched_once _ _ .empty _ readingInVain
  have hsearch : FetchesOnce twoCoinsResolver (refusingFeed 0) search := by
    have h := directory_fetched_once twoCoinsResolver (refusingFeed 0) .empty
      [.directory, .directory, .call (.slug bridgedCoin)] ((readingInVain ++ reading) ++ naming)
    rwa [Crowd.play_append, Crowd.play_append] at h
  obtain ⟨k, hsecond⟩ := second_reader_begins
  have hheld : failed.held = [] := by decide +kernel
  have hasks := hfailed.again 1 k hsecond hmissing (by simp [hheld]) [] [] (by simp) (by simp)
  obtain ⟨k', hthird⟩ : ∃ k', search.Begins 2 twoCoinsResolver.directory k' := by
    have h := third_reader_begins
    rwa [Crowd.play_append, Crowd.play_append] at h
  have hkept : search.memory.directory = directory := by decide +kernel
  -- What is remembered was brought by a letter, so the third caller has the directory of that letter.
  obtain ⟨e, he, herrand, entries, hanswers, hentries⟩ := hsearch.memo (by rw [hkept]; simp [directory])
  obtain ⟨n, result, hreturned, -, -, hgiven⟩ := hsearch.returns 2 k' hthird Crowd.everyTurn
    (Crowd.fair_everyTurn _ _)
  have hgives : e.2.Gives directory :=
    Letter.gives_iff.mpr ⟨herrand, entries, hanswers, by simp [directory], hkept ▸ hentries⟩
  obtain ⟨rfl, hletters⟩ := hgiven e he directory hgives
  have hnone : search.sent.filter (·.1 == 2) = [] := List.filter_eq_nil_iff.mpr (by decide +kernel)
  refine ⟨by decide +kernel, hmissing, hasks, by decide +kernel, k', n, hreturned, hletters.trans ?_⟩
  rw [Crowd.lettersOf, hnone]
  rfl

end ThreeCallers

end ChainWallet
