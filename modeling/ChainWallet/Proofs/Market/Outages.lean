import ChainWallet.Api.Prices
import ChainWallet.Market.Rehearsal
import ChainWallet.Proofs.Market.PriceTold

/-!
# What the page of a history makes of an outage

The prices of an asset over time come from a feed that can fail in many ways. The page that shows them has an
answer for some of these and none for the others, which end in a server error.

* **`Outage`** — the ways in which a feed fails, each with whether the page has an answer for it. A reply that
  is no success, an empty directory, a missing series and what the client of the network reports are answered;
  a body that cannot be read or is not what was asked for is not, nor is a request that takes too long.
* **`FailsOnly`** — an enquiry fails in certain ways only, whatever is remembered and answered. It is closed
  under all that enquiries are built from, and the resolver's functions are taken one by one
  (`failsOnly_directory`, `failsOnly_resolveSlug`).
* **`HistoryEnds`**, **`history_of_stored_asset`** — so the page of a stored asset ends in one of four ways.
* **`timeout_unanswered`** — one of them is a server error.
-/

namespace ChainWallet

/-! ### Replies -/

/-- An answer that the feed gives to some request. -/
def Feed.Tells (feed : Feed) (x : Except Failure Json) : Prop := ∃ earlier r, feed.answer earlier r = x

/-- The ways in which a feed fails, and whether the page of a history has an answer for them. -/
inductive Outage (feed : Feed) : (answered : Bool) → Failure → Prop where
  /-- A request ends without a reply. -/
  | raised {earlier : List Request} {r : Request} {f : Failure} (h : feed earlier r = .error f) :
      Outage feed (f.cls.isFeedFailure || f.cls = .client) f
  | status {earlier : List Request} {r : Request} {reply : Reply} (h : feed earlier r = .ok reply)
      (failed : reply.status ≠ 200) : Outage feed true (.httpStatus (some reply.status) r.url)
  | directoryEmpty {body : Json} (h : feed.Tells (.ok body)) (void : body.isVoid = true) :
      Outage feed true .directoryEmpty
  | seriesMissing {body : Json} {slug : String} (h : feed.Tells (.ok body)) :
      Outage feed true (.seriesMissing slug)
  /-- A body is no JSON. -/
  | unreadable {earlier : List Request} {r : Request} {reply : Reply} {fault : ReadFault}
      (h : feed earlier r = .ok reply) (bad : reply.body = .error fault) :
      Outage feed false (.unreadable fault)
  /-- The directory is a number or a truth value. -/
  | notIterable {body : Json} (h : feed.Tells (.ok body)) : Outage feed false .notIterable
  /-- A body is not what was asked for. -/
  | rejected {body : Json} {model : String} {faults : List Schema.Fault} (h : feed.Tells (.ok body))
      (asked : model ∈ [TokenSlug.model.name, TokenRecord.model.name, PriceSeries.model.name]) :
      Outage feed false (.rejected model faults)

def Outage.Any (feed : Feed) (f : Failure) : Prop := ∃ answered, Outage feed answered f

/-- A request that brings no content is an outage. -/
theorem Feed.Tells.outage {feed : Feed} {f : Failure} (told : feed.Tells (.error f)) : Outage.Any feed f := by
  obtain ⟨earlier, r, h⟩ := told
  unfold Feed.answer at h
  cases hreply : feed earlier r with
  | error g =>
    rw [hreply] at h
    cases h
    exact ⟨_, .raised hreply⟩
  | ok reply =>
    rw [hreply] at h
    change reply.content r.url = .error f at h
    -- A reply has no content if its status says so, or if its body is no JSON.
    unfold Reply.content at h
    split at h
    · cases hbody : reply.body with
      | ok j =>
        rw [hbody] at h
        cases h
      | error fault =>
        rw [hbody] at h
        cases h
        exact ⟨false, .unreadable hreply hbody⟩
    · next hstatus =>
      cases h
      exact ⟨true, .status hreply hstatus⟩

/-- Each answer to requests that are sent together is an answer of the feed. -/
theorem Feed.tells_of_mem_answers {feed : Feed} {earlier rs : List Request} {x : Except Failure Json}
    (h : x ∈ (feed.answers earlier rs).1) : feed.Tells x := by
  induction rs generalizing earlier with
  | nil => cases h
  | cons r rest ih =>
    rcases List.mem_cons.mp h with h | h
    · exact ⟨earlier, r, h.symm⟩
    · exact ih h

/-! ### Bodies -/

section Bodies

variable {feed : Feed} {f : Failure} {body : Json}

/-- A body is refused in the name of its model only. -/
theorem Schema.Model.rejected_of_validate {α : Type} {m : Schema.Model α} (h : m.validate body = .error f) :
    ∃ faults, f = .rejected m.name faults := by
  unfold validate at h
  split at h
  · cases h
  · cases h
    exact ⟨_, rfl⟩

namespace Resolver

/-- A body that is no directory is an outage: it is empty, or no list, or an entry is refused. -/
theorem outage_of_directoryOf (told : feed.Tells (.ok body)) (h : directoryOf body = .error f) :
    Outage.Any feed f := by
  unfold directoryOf at h
  split at h
  · next void =>
    cases h
    exact ⟨true, .directoryEmpty told void⟩
  · split at h
    · -- One of the entries is refused, by the model of entries.
      next entries =>
      obtain ⟨entry, -, hentry⟩ := exists_of_mapM_eq_error h
      obtain ⟨faults, rfl⟩ := Schema.Model.rejected_of_validate hentry
      exact ⟨false, .rejected told (by simp)⟩
    · cases h
      exact ⟨false, .rejected told (by simp)⟩
    · cases h
      exact ⟨false, .rejected told (by simp)⟩
    · cases h
      exact ⟨false, .notIterable told⟩

/-- A body that is no series is an outage: there are no prices in it, or it is refused. -/
theorem outage_of_seriesOf {slug : String} (told : feed.Tells (.ok body)) (h : seriesOf slug body = .error f) :
    Outage.Any feed f := by
  unfold seriesOf at h
  split at h
  · split at h
    · cases h
      exact ⟨true, .seriesMissing told⟩
    · obtain ⟨faults, rfl⟩ := Schema.Model.rejected_of_validate h
      exact ⟨false, .rejected told (by simp)⟩
  · cases h
    exact ⟨true, .seriesMissing told⟩

/-- A series that is shown is a valid body. -/
theorem validate_of_seriesOf {slug : String} {series : PriceSeries} (h : seriesOf slug body = .ok series) :
    PriceSeries.model.validate body = .ok series := by
  unfold seriesOf at h
  split at h
  · split at h
    · cases h
    · exact h
  · cases h

/-- A list of answers that does not bring all records has a failed request or a refused body in it. -/
theorem outage_of_recordsOf {answers : List (Except Failure Json)} (told : ∀ x ∈ answers, feed.Tells x)
    (h : recordsOf answers = .error f) : Outage.Any feed f := by
  obtain ⟨answer, hanswer, h⟩ := exists_of_mapM_eq_error h
  cases answer with
  | error g =>
    cases h
    exact (told _ hanswer).outage
  | ok body =>
    obtain ⟨faults, rfl⟩ := Schema.Model.rejected_of_validate h
    exact ⟨false, .rejected (told _ hanswer) (by simp)⟩

end Resolver

end Bodies

/-! ### Enquiries -/

namespace Enquiry

variable {α β : Type} {feed : Feed} {P : Failure → Prop}

/-- The enquiry fails in certain ways only, whatever is remembered and has been asked. -/
def FailsOnly (P : Failure → Prop) (feed : Feed) (x : Enquiry α) : Prop :=
  ∀ d f, (x.run feed d).1 = .error f → P f

theorem failsOnly_pure (a : α) : FailsOnly P feed (pure a) := by
  rintro d f ⟨⟩

/-- A result that is there already fails as it does. -/
theorem failsOnly_ofExcept {result : Except Failure α} (h : ∀ f, result = .error f → P f) :
    FailsOnly P feed (ofExcept result) := fun d f hf => h f (by simpa using hf)

theorem failsOnly_memory : FailsOnly P feed memory := by
  rintro d f ⟨⟩

theorem failsOnly_rememberSlug (identifier slug : String) :
    FailsOnly P feed (rememberSlug identifier slug) := by
  rintro d f ⟨⟩

theorem failsOnly_rememberDirectory (directory : List TokenSlug) :
    FailsOnly P feed (rememberDirectory directory) := by
  rintro d f ⟨⟩

/-- In sequence: a failure is that of the first part or that of the second. -/
theorem FailsOnly.bind {x : Enquiry α} {k : α → Enquiry β} (hx : FailsOnly P feed x)
    (hk : ∀ a, FailsOnly P feed (k a)) : FailsOnly P feed (x >>= k) := by
  intro d f hf
  rw [run_seq] at hf
  rcases hrun : x.run feed d with ⟨e | a, d'⟩
  · rw [hrun] at hf
    cases hf
    exact hx d f (by rw [hrun])
  · rw [hrun] at hf
    exact hk a d' f hf

/-- A lock fails nothing. -/
theorem FailsOnly.guarded {x : Enquiry α} (gate : Gate) (hx : FailsOnly P feed x) :
    FailsOnly P feed (guarded gate x) := by
  intro d f hf
  rw [run_guarded] at hf
  exact hx d f hf

/-- A request fails by an outage, or what follows goes on with a body that the feed gave. -/
theorem failsOnly_fetch_bind {q : Request} {errand : Errand} {k : Json → Enquiry β}
    (hk : ∀ body, feed.Tells (.ok body) → FailsOnly (Outage.Any feed) feed (k body)) :
    FailsOnly (Outage.Any feed) feed (fetch q errand >>= k) := by
  intro d f hf
  rw [run_seq, run_fetch] at hf
  -- The failure is the request's, or it is one of what follows.
  cases hanswer : feed.answer d.sent q with
  | error g =>
    rw [hanswer] at hf
    cases hf
    exact Feed.Tells.outage ⟨d.sent, q, hanswer⟩
  | ok body =>
    rw [hanswer] at hf
    exact hk body ⟨d.sent, q, hanswer⟩ _ f hf

/-- Requests that are sent at once do not fail together: what follows sees which of them did. -/
theorem failsOnly_fetchAll_bind {errand : Errand} {qs : List Request}
    {k : List (Except Failure Json) → Enquiry β}
    (hk : ∀ answers, (∀ x ∈ answers, feed.Tells x) → FailsOnly P feed (k answers)) :
    FailsOnly P feed (fetchAll errand qs >>= k) := by
  intro d f hf
  rw [run_seq, run_fetchAll] at hf
  exact hk _ (fun x hx => Feed.tells_of_mem_answers hx) _ f hf

end Enquiry

open Enquiry

namespace Resolver

variable {feed : Feed} (r : Resolver) (a : Asset)

/-- The directory is missing by an outage only. -/
theorem failsOnly_directory : FailsOnly (Outage.Any feed) feed r.directory := by
  refine FailsOnly.guarded _ (failsOnly_memory.bind fun memory => ?_)
  -- Only while there is no directory is the feed asked for it.
  split
  · refine failsOnly_fetch_bind fun body told => ?_
    refine (failsOnly_ofExcept fun f hf => outage_of_directoryOf told hf).bind fun directory => ?_
    exact (failsOnly_rememberDirectory directory).bind fun _ => failsOnly_pure directory
  · exact failsOnly_pure memory.directory

/-- Candidates are looked for in the directory, and their records are asked for, so both can fail and nothing
else. -/
theorem failsOnly_supportedSlug : FailsOnly (Outage.Any feed) feed (r.supportedSlug a) := by
  refine r.failsOnly_directory.bind fun directory => ?_
  split
  · exact failsOnly_pure none
  · refine failsOnly_fetchAll_bind fun answers told => ?_
    refine (failsOnly_ofExcept fun f hf => outage_of_recordsOf told hf).bind fun records => ?_
    exact failsOnly_pure _

/-- A search for a name that fails does so by an outage; that there is no name is no failure of it. -/
theorem failsOnly_resolveSlug : FailsOnly (Outage.Any feed) feed (r.resolveSlug a) := by
  refine failsOnly_memory.bind fun memory => ?_
  split
  · exact failsOnly_pure _
  · refine FailsOnly.guarded _ (failsOnly_memory.bind fun memory => ?_)
    split
    · exact failsOnly_pure _
    · refine (r.failsOnly_supportedSlug a).bind fun slug => ?_
      cases slug with
      | none => exact failsOnly_pure none
      | some name => exact (failsOnly_rememberSlug a.identifier name).bind fun _ => failsOnly_pure _

/-- A search has found no name; the empty name is none. -/
def Nameless (found : Except Failure (Option String)) : Prop :=
  found = .ok none ∨ found = .ok (some "")

end Resolver

/-! ### The page -/

namespace Api.Service

/-- The ways in which the page of a history ends, by what the search for a name and the lookup of the prices
came to. -/
inductive HistoryEnds (r : Resolver) (feed : Feed) (a : Asset) (currency interval : String)
    (found : Except Failure (Option String)) : Except Failure PriceSeries → Except Failure Answer → Prop where
  | shown {name : String} {earlier : List Request} {body : Json} {series : PriceSeries}
      (named : found = .ok (some name)) (nonempty : name ≠ "")
      (told : feed.answer earlier (r.seriesRequest name currency interval) = .ok body)
      (valid : PriceSeries.model.validate body = .ok series) :
      HistoryEnds r feed a currency interval found (.ok series) (.ok (.ok series.toJson.withoutNonFinite))
  | missing (nameless : Resolver.Nameless found) :
      HistoryEnds r feed a currency interval found (.error (.slugNotFound a.symbol))
        (.ok (.refusal 404 ("Couldn't find a valid slug name for " ++ a.symbol)))
  | unavailable {f : Failure} (named : ¬ Resolver.Nameless found) (outage : Outage feed true f) :
      HistoryEnds r feed a currency interval found (.error f) (.ok (.refusal 502 "Price feed unavailable"))
  /-- The page has no answer, which ends in a server error. -/
  | escapes {f : Failure} (named : ¬ Resolver.Nameless found) (outage : Outage feed false f) :
      HistoryEnds r feed a currency interval found (.error f) (.error f)

variable {r : Resolver} {feed : Feed} {a : Asset} {currency interval : String}
  {found : Except Failure (Option String)}

/-- A feed does not know of names that are not found. -/
def Honest (feed : Feed) : Prop := ∀ earlier r f, feed earlier r = .error f → f.cls ≠ .slugNotFound

/-- The page tells outages by their class, and by that it never takes them for a missing name. -/
theorem cls_of_outage {answered : Bool} {f : Failure} (honest : Honest feed) (outage : Outage feed answered f) :
    f.cls ≠ .slugNotFound ∧ (f.cls.isFeedFailure || f.cls = .client) = answered := by
  cases outage with
  | raised h => exact ⟨honest _ _ f h, rfl⟩
  -- A body that is no JSON is classed by how it is not.
  | @unreadable _ _ _ fault _ _ => cases fault <;> exact ⟨nofun, rfl⟩
  | status | directoryEmpty | seriesMissing | notIterable | rejected => exact ⟨nofun, rfl⟩

/-- Whether the page has an answer for an outage is told by the class of the failure. -/
theorem historyEnds_of_outage {f : Failure} (honest : Honest feed) (named : ¬ Resolver.Nameless found)
    (outage : Outage.Any feed f) :
    HistoryEnds r feed a currency interval found (.error f) (historyAnswer (.error f)) := by
  obtain ⟨answered, outage⟩ := outage
  obtain ⟨hcls, hanswered⟩ := cls_of_outage honest outage
  rw [historyAnswer, if_neg hcls, hanswered]
  cases answered with
  | true => exact .unavailable named outage
  | false => exact .escapes named outage

/-- A lookup of prices searches for a name first, so the page ends by what came of the search and then of the
request. -/
theorem historyEnds_of_lookup (honest : Honest feed) (d : Desk) :
    HistoryEnds r feed a currency interval ((r.resolveSlug a).run feed d).1
      ((r.priceSeries a currency interval).run feed d).1
      (historyAnswer ((r.priceSeries a currency interval).run feed d).1) := by
  simp only [Resolver.priceSeries, Resolver.knownSlug, run_seq]
  rcases hrun : (r.resolveSlug a).run feed d with ⟨f | _ | name, d'⟩
  · -- The search fails, and the page hears of its failure.
    have houtage : Outage.Any feed f := r.failsOnly_resolveSlug a d f (by rw [hrun])
    exact historyEnds_of_outage honest (not_or.mpr ⟨nofun, nofun⟩) houtage
  · exact .missing (.inl rfl)
  · by_cases hempty : name = ""
    · -- The empty name counts as none.
      subst hempty
      exact .missing (.inr rfl)
    · have hnamed : ¬ Resolver.Nameless (.ok (some name)) :=
        not_or.mpr ⟨nofun, fun h => hempty (Option.some.inj (Except.ok.inj h))⟩
      have hisEmpty : name.isEmpty = false := by simpa using hempty
      simp only [hisEmpty, Bool.false_eq_true, if_false, run_pure, run_fetch]
      cases hanswer : feed.answer d'.sent (r.seriesRequest name currency interval) with
      | error f => exact historyEnds_of_outage honest hnamed (Feed.Tells.outage ⟨_, _, hanswer⟩)
      | ok body =>
        simp only [run_ofExcept]
        cases hseries : Resolver.seriesOf name body with
        | error f =>
          exact historyEnds_of_outage honest hnamed (Resolver.outage_of_seriesOf ⟨_, _, hanswer⟩ hseries)
        | ok series => exact .shown rfl hempty hanswer (Resolver.validate_of_seriesOf hseries)

/-- The page of a stored asset answers what the lookup of its prices came to. -/
theorem run_history_of_found {v : Service} {s : Store} {c : Call} {identifier : String}
    (h : s.findAsset identifier = .ok (some a)) (d : Desk) :
    ((v.history s c identifier).run feed d).1
      = historyAnswer ((v.resolver.priceSeries a (v.currency c)
          ((c.param? "interval").getD standardInterval)).run feed d).1 := by
  simp only [history, run_seq, run_ofExcept, h, run_attempt]

end Api.Service

/-- The page of the history of a stored asset shows the series that the feed tells, says that the asset has no
name there, says that the feed is unavailable, or fails. It fails on the outages that it has no answer for,
and on these only. -/
theorem history_of_stored_asset (v : Api.Service) (s : Store) (c : Api.Call) (feed : Feed) (d : Desk)
    (identifier : String) (kept : s.WellKept) (stored : identifier ∈ s.assets.map AssetRow.identifier)
    (honest : Api.Service.Honest feed) :
    ∃ a, s.findAsset identifier = .ok (some a)
      ∧ Api.Service.HistoryEnds v.resolver feed a (v.currency c)
          ((c.param? "interval").getD Api.Service.standardInterval)
          ((v.resolver.resolveSlug a).run feed d).1
          ((v.resolver.priceSeries a (v.currency c)
            ((c.param? "interval").getD Api.Service.standardInterval)).run feed d).1
          ((v.history s c identifier).run feed d).1 := by
  obtain ⟨a, ha⟩ := Store.exists_findAsset kept stored
  refine ⟨a, ha, ?_⟩
  rw [Api.Service.run_history_of_found ha]
  exact Api.Service.historyEnds_of_lookup honest d

namespace UnpricedCoin

theorem findAsset_coin : store.findAsset "coin" = .ok (some coin) := by decide +kernel

/-- Nothing exists at the feed's addresses, and the page says that it is unavailable. -/
theorem history_unavailable : store.WellKept ∧ "coin" ∈ store.assets.map AssetRow.identifier
    ∧ Api.Service.Honest FeedRehearsal.silent.feed
    ∧ ((service.history store call "coin").run FeedRehearsal.silent.feed .empty).1
      = .ok (.refusal 502 "Price feed unavailable") := by
  have hstored : "coin" ∈ store.assets.map AssetRow.identifier := by decide
  have honest : Api.Service.Honest FeedRehearsal.silent.feed := by rintro _ _ _ ⟨⟩
  refine ⟨wellKept_store, hstored, honest, ?_⟩
  obtain ⟨a, hfind, hends⟩ := history_of_stored_asset service store call FeedRehearsal.silent.feed .empty
    "coin" wellKept_store hstored honest
  obtain rfl : a = coin := by simpa using hfind.symm.trans findAsset_coin
  have hlookup : ((service.resolver.priceSeries coin (service.currency call)
      ((call.param? "interval").getD Api.Service.standardInterval)).run FeedRehearsal.silent.feed .empty).1
        = .error (.httpStatus (some 404) "v2/all-tokens") := by rfl
  rw [hlookup] at hends
  generalize ((service.history store call "coin").run FeedRehearsal.silent.feed .empty).1 = page at hends ⊢
  cases hends with
  | unavailable => rfl
  | escapes _ outage =>
    -- An address that does not exist is an outage with an answer.
    cases (Api.Service.cls_of_outage honest outage).2

/-- A feed that takes too long to answer anything. -/
def slowFeed : Feed := .steady fun _ => .error (.foreign .timeout "")

/-- The page has no answer for a directory that takes too long, though that is no fault of the wallet. -/
theorem timeout_unanswered : store.WellKept ∧ "coin" ∈ store.assets.map AssetRow.identifier
    ∧ Api.Service.Honest slowFeed
    ∧ ¬ ∃ answer, ((service.history store call "coin").run slowFeed .empty).1 = .ok answer := by
  have honest : Api.Service.Honest slowFeed := by
    rintro earlier r f ⟨⟩
    nofun
  refine ⟨wellKept_store, by decide, honest, ?_⟩
  rintro ⟨answer, hanswer⟩
  rw [Api.Service.run_history_of_found findAsset_coin] at hanswer
  cases hanswer

end UnpricedCoin

end ChainWallet
