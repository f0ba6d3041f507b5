import ChainWallet.Market.Rehearsal
import ChainWallet.Market.Resolver
import Mathlib.Control.Monad.Basic

/-!
# A resolver's memory changes no answer

A resolver keeps the directory and the names it has found, so what it asks for depends on what it was asked
before. While its feed answers each request in one way, its answers do not: they are those of a resolver
that has been asked nothing yet.

* **`Enquiry.Settled`** — an enquiry has one result over all memories with a property, and keeps the
  property. It is closed under all that enquiries are built from (`Settled.bind`, `Settled.attempt`, …).
* **`Memory.Faithful`** — what is remembered is what a fresh resolver would find out. A fresh memory is
  faithful, and every enquiry leaves a faithful memory faithful.
* **`transparent_resolveSlug`** — the name of an asset, remembered or not. Here a name found for one asset is used
  for all others of its identifier, which must therefore agree on what names are found by.
* **`answers_as_if_fresh`** — so it is for every list of calls, each of which may fail.
-/

namespace ChainWallet

/-! ### Enquiries with one result -/

namespace Enquiry

variable {α β : Type} {ok : Memory → Prop} {feed : Feed}

/-- From every memory with a property the enquiry has the same result, and leaves a memory with it. -/
def Settled (ok : Memory → Prop) (feed : Feed) (x : Enquiry α) : Prop :=
  ∃ result, ∀ d, ok d.memory → (x.run feed d).1 = result ∧ ok (x.run feed d).2.memory

/-- If a fresh memory has the property, the one result is that of a fresh resolver. -/
theorem Settled.eq_fresh {x : Enquiry α} (h : Settled ok feed x) (fresh : ok .empty) {d : Desk}
    (hd : ok d.memory) : (x.run feed d).1 = (x.run feed .empty).1 := by
  obtain ⟨result, hrun⟩ := h
  rw [(hrun d hd).1, (hrun .empty fresh).1]

theorem settled_pure (a : α) : Settled ok feed (pure a) :=
  ⟨.ok a, fun _ hd => ⟨rfl, hd⟩⟩

theorem settled_fail (f : Failure) : Settled ok feed (.fail f : Enquiry α) :=
  ⟨.error f, fun _ hd => ⟨rfl, hd⟩⟩

/-- A result that is there already hangs on no memory. -/
theorem settled_ofExcept (result : Except Failure α) : Settled ok feed (ofExcept result) := by
  cases result with
  | ok a => exact settled_pure a
  | error f => exact settled_fail f

/-- In sequence: the first part has one result, so the second one is the same from every memory. -/
theorem Settled.bind {x : Enquiry α} {f : α → Enquiry β} (hx : Settled ok feed x)
    (hf : ∀ a, Settled ok feed (f a)) : Settled ok feed (x >>= f) := by
  obtain ⟨result, hrun⟩ := hx
  have hfirst : ∀ d, ok d.memory → ∃ d', x.run feed d = (result, d') ∧ ok d'.memory := fun d hd =>
    ⟨(x.run feed d).2, Prod.ext (hrun d hd).1 rfl, (hrun d hd).2⟩
  cases result with
  | error e =>
    refine ⟨.error e, fun d hd => ?_⟩
    obtain ⟨d', hx, hd'⟩ := hfirst d hd
    rw [run_seq, hx]
    exact ⟨rfl, hd'⟩
  | ok a =>
    -- The first part always answers `a`, so the second one is the same from every memory.
    obtain ⟨result, hrest⟩ := hf a
    refine ⟨result, fun d hd => ?_⟩
    obtain ⟨d', hx, hd'⟩ := hfirst d hd
    rw [run_seq, hx]
    exact hrest d' hd'

/-- An enquiry whose failure is caught has one result as well: the one of the enquiry. -/
theorem Settled.attempt {x : Enquiry α} (hx : Settled ok feed x) : Settled ok feed x.attempt := by
  obtain ⟨result, hrun⟩ := hx
  refine ⟨.ok result, fun d hd => ?_⟩
  rw [run_attempt]
  exact ⟨congrArg Except.ok (hrun d hd).1, (hrun d hd).2⟩

/-- A lock that nobody else takes changes nothing. -/
theorem Settled.guarded {x : Enquiry α} (gate : Gate) (hx : Settled ok feed x) :
    Settled ok feed (guarded gate x) := by
  obtain ⟨result, hrun⟩ := hx
  refine ⟨result, fun d hd => ?_⟩
  rw [run_guarded]
  exact hrun d hd

/-! ### Requests to a steady feed -/

/-- A steady feed answers requests that are sent together as it answers each of them alone. -/
theorem answers_steady (reply : Request → Except Failure Reply) (earlier rs : List Request) :
    ((Feed.steady reply).answers earlier rs).1 = rs.map fun r => (reply r).bind (·.content r.url) := by
  induction rs generalizing earlier with
  | nil => rfl
  | cons r rest ih => exact congrArg (_ :: ·) (ih (earlier ++ [r]))

/-- A steady feed answers a request in its one way, and nothing is remembered. -/
theorem settled_fetch (reply : Request → Except Failure Reply) (r : Request) {errand : Errand} :
    Settled ok (.steady reply) (fetch r errand) := by
  refine ⟨(reply r).bind (·.content r.url), fun d hd => ?_⟩
  rw [run_fetch]
  exact ⟨rfl, hd⟩

/-- So it answers requests that are sent together. -/
theorem settled_fetchAll (reply : Request → Except Failure Reply) (rs : List Request) {errand : Errand} :
    Settled ok (.steady reply) (fetchAll errand rs) := by
  refine ⟨.ok (rs.map fun r => (reply r).bind (·.content r.url)), fun d hd => ?_⟩
  rw [run_fetchAll, answers_steady]
  exact ⟨rfl, hd⟩

end Enquiry

/-! ### What is remembered -/

open Enquiry

/-- What is remembered is what a fresh resolver would find out: its directory, and for some assets the
names of their identifiers. -/
structure Memory.Faithful (r : Resolver) (feed : Feed) (known : List Asset) (m : Memory) : Prop where
  directory : m.directory.isEmpty = false → (r.directory.run feed .empty).1 = .ok m.directory
  slugs : ∀ a ∈ known, ∀ slug, m.slugs.get? a.identifier = some slug →
    ((r.supportedSlug a).run feed .empty).1 = .ok (some slug)

/-- Nothing is remembered that could be wrong. -/
theorem Memory.faithful_empty (r : Resolver) (feed : Feed) (known : List Asset) :
    Memory.empty.Faithful r feed known where
  directory h := by cases h
  slugs _ _ _ h := by cases h

/-- Assets of one identifier agree on what their name in the price feed is found by. -/
def Coherent (known : List Asset) : Prop :=
  ∀ a ∈ known, ∀ b ∈ known, a.identifier = b.identifier →
    a.assetType = b.assetType ∧ a.mainnetSymbol = b.mainnetSymbol

instance (known : List Asset) : Decidable (Coherent known) :=
  inferInstanceAs (Decidable (∀ a ∈ known, ∀ b ∈ known, _ → _ ∧ _))

/-- What is remembered makes no difference to an enquiry, as long as it is faithful. -/
abbrev Transparent (r : Resolver) (reply : Request → Except Failure Reply) (known : List Asset)
    {α : Type} (x : Enquiry α) : Prop :=
  Settled (Memory.Faithful r (.steady reply) known) (.steady reply) x

namespace Resolver

variable (r : Resolver) (reply : Request → Except Failure Reply) {known : List Asset}

/-! ### The directory -/

/-- The directory that a steady feed has, or the failure to get it. -/
def directoryFrom : Except Failure (List TokenSlug) :=
  ((reply r.directoryRequest).bind (·.content r.directoryRequest.url)).bind directoryOf

/-- A resolver without a directory asks for it, and keeps it if it gets one. -/
theorem run_directory_of_missing {d : Desk} (missing : d.memory.directory.isEmpty = true) :
    (r.directory.run (.steady reply) d).1 = r.directoryFrom reply
      ∧ ((r.directory.run (.steady reply) d).2.memory = d.memory
        ∨ ∃ directory, r.directoryFrom reply = .ok directory
          ∧ (r.directory.run (.steady reply) d).2.memory = { d.memory with directory }) := by
  have hanswer : (Feed.steady reply).answer d.sent r.directoryRequest
      = (reply r.directoryRequest).bind (·.content r.directoryRequest.url) := rfl
  simp only [Resolver.directory, run_guarded, run_seq, run_memory, missing, if_true, run_fetch, hanswer,
    directoryFrom]
  cases (reply r.directoryRequest).bind (·.content r.directoryRequest.url) with
  | error f => exact ⟨rfl, .inl rfl⟩
  | ok body => cases h : directoryOf body <;> simp [Except.bind, h]

/-- A resolver with a directory asks for none. -/
theorem run_directory_of_present {feed : Feed} {d : Desk} (present : d.memory.directory.isEmpty = false) :
    r.directory.run feed d = (.ok d.memory.directory, d) := by
  simp only [Resolver.directory, run_guarded, run_seq, run_memory, present, Bool.false_eq_true, if_false,
    run_pure]

/-- The directory is the one that the feed has, remembered or not. -/
theorem transparent_directory : Transparent r reply known r.directory := by
  have hfresh : (r.directory.run (.steady reply) .empty).1 = r.directoryFrom reply :=
    (r.run_directory_of_missing reply rfl).1
  refine ⟨r.directoryFrom reply, fun d hd => ?_⟩
  -- A directory that is remembered is the feed's by the property of the memory.
  cases hmissing : d.memory.directory.isEmpty with
  | false =>
    rw [r.run_directory_of_present hmissing]
    exact ⟨(hd.directory hmissing).symm.trans hfresh, hd⟩
  | true =>
    obtain ⟨hresult, hsame | ⟨directory, hfound, hkept⟩⟩ := r.run_directory_of_missing reply hmissing
    · exact ⟨hresult, hsame ▸ hd⟩
    · refine ⟨hresult, ?_⟩
      rw [hkept]
      exact { directory := fun _ => hfresh.trans hfound, slugs := hd.slugs }

/-! ### Names -/

/-- The search for a name uses the memory only for the directory. -/
theorem transparent_supportedSlug (a : Asset) : Transparent r reply known (r.supportedSlug a) := by
  refine (r.transparent_directory reply).bind fun directory => ?_
  cases candidates directory a with
  | nil => exact settled_pure _
  | cons c rest =>
    refine (settled_fetchAll reply _).bind fun answers => (settled_ofExcept _).bind fun records => ?_
    exact settled_pure _

/-- The name of an asset is looked for by its type and its symbol on the main network, on behalf of its
identifier. -/
theorem supportedSlug_congr {a b : Asset} (identifier : a.identifier = b.identifier)
    (type : a.assetType = b.assetType) (symbol : a.mainnetSymbol = b.mainnetSymbol) :
    r.supportedSlug a = r.supportedSlug b := by
  simp only [supportedSlug, candidates, identifier, type, symbol]

variable {r reply} (coherent : Coherent known) {a : Asset} (ha : a ∈ known)

include coherent ha

/-- A name that a fresh resolver would find may be remembered, also for the other assets of the identifier. -/
theorem faithful_put {m : Memory} (hm : m.Faithful r (.steady reply) known) {slug : String}
    (found : ((r.supportedSlug a).run (.steady reply) .empty).1 = .ok (some slug)) :
    Memory.Faithful r (.steady reply) known { m with slugs := m.slugs.put a.identifier slug } where
  directory := hm.directory
  slugs b hb name hget := by
    by_cases hempty : slug.isEmpty = true
    · -- An empty name is not kept.
      rw [SlugCache.put, if_pos hempty] at hget
      exact hm.slugs b hb name hget
    · by_cases hid : b.identifier = a.identifier
      · -- An asset of the same identifier is one of the same token, so a fresh resolver would find the same.
        rw [hid, SlugCache.get?_put_self m.slugs a.identifier (by simpa using hempty)] at hget
        obtain ⟨htype, hsymbol⟩ := coherent b hb a ha hid
        rw [r.supportedSlug_congr hid htype hsymbol, found, ← Option.some.inj hget]
      · rw [SlugCache.get?_put_of_ne m.slugs hid] at hget
        exact hm.slugs b hb name hget

/-- The name of an asset is the one that a fresh resolver would find, remembered or not. -/
theorem transparent_resolveSlug : Transparent r reply known (r.resolveSlug a) := by
  have hfresh := Memory.faithful_empty r (.steady reply) known
  have hsearch : Transparent r reply known (r.supportedSlug a) := r.transparent_supportedSlug reply a
  obtain ⟨found, hsearch⟩ := hsearch
  have hfound := (hsearch .empty hfresh).1
  refine ⟨found, fun d hd => ?_⟩
  simp only [resolveSlug, run_seq, run_memory]
  -- Only a name that is not remembered is searched for, and there the memory is looked into a second time.
  cases hget : d.memory.slugs.get? a.identifier with
  | some slug => exact ⟨(hd.slugs a ha slug hget).symm.trans hfound, hd⟩
  | none =>
    simp only [run_guarded, run_seq, run_memory, hget]
    obtain ⟨hresult, hkept⟩ := hsearch d hd
    rcases hrun : (r.supportedSlug a).run (.steady reply) d with ⟨result, d'⟩
    rw [hrun] at hresult hkept
    subst hresult
    -- A search that fails, or finds nothing, keeps no name.
    rcases result with f | _ | slug
    · exact ⟨rfl, hkept⟩
    · exact ⟨rfl, hkept⟩
    · exact ⟨rfl, faithful_put coherent ha hkept hfound⟩

/-! ### Prices -/

/-- An asset without a name fails in the same way whatever is remembered. -/
theorem transparent_knownSlug (shownSymbol : String) :
    Transparent r reply known (r.knownSlug a shownSymbol) := by
  refine (transparent_resolveSlug coherent ha).bind fun slug => ?_
  cases slug with
  | none => exact settled_fail _
  | some name =>
    dsimp only
    split
    · exact settled_fail _
    · exact settled_pure name

/-- Records and rates are requested anew each time. -/
theorem transparent_tokenPrice (currency : String) :
    Transparent r reply known (r.tokenPrice a currency) := by
  refine (transparent_knownSlug coherent ha _).bind fun slug => ?_
  refine (settled_fetch reply _).bind fun body => (settled_ofExcept _).bind fun token => ?_
  by_cases hfeed : currency = feedCurrency
  · simpa only [hfeed, if_true] using (settled_pure _).bind fun _ => settled_ofExcept _
  · have hrate : Transparent r reply known (r.fiatRate feedCurrency currency) :=
      (settled_fetch reply _).bind fun _ => settled_ofExcept _
    simpa only [hfeed, if_false] using hrate.bind fun _ => settled_ofExcept _

theorem transparent_assetPrice (currency : String) :
    Transparent r reply known (r.assetPrice a currency) :=
  (transparent_tokenPrice coherent ha currency).attempt.bind fun _ => settled_pure _

theorem transparent_priceSeries (currency interval : String) :
    Transparent r reply known (r.priceSeries a currency interval) :=
  (transparent_knownSlug coherent ha _).bind fun _ =>
    (settled_fetch reply _).bind fun _ => settled_ofExcept _

omit ha in
/-- By induction on the assets, for any prices so far: which prices are there decides which assets are asked
for, and the prices so far are the same from every memory. -/
theorem transparent_addPrices (currency : String) {assets : List Asset}
    (hassets : ∀ a ∈ assets, a ∈ known) (prices : Portfolio.Prices) :
    Transparent r reply known (r.addPrices currency assets prices) := by
  induction assets generalizing prices with
  | nil => exact settled_pure prices
  | cons a rest ih =>
    have hrest := ih fun b hb => hassets b (List.mem_cons_of_mem a hb)
    simp only [addPrices]
    split
    · exact hrest prices
    · exact (transparent_assetPrice coherent (hassets a List.mem_cons_self) currency).bind fun _ => hrest _

end Resolver

/-! ### Calls -/

/-- What a resolver is called for. -/
inductive Call where
  | slug (a : Asset)
  | assetPrice (a : Asset) (currency : String)
  | tokenPrice (a : Asset) (currency : String)
  | priceSeries (a : Asset) (currency interval : String)
  | assetPrices (assets : List Asset) (currency : String)

/-- What a resolver answers to a call. -/
inductive Answer where
  | slug (found : Option String)
  | assetPrice (price : MarketPrice)
  | tokenPrice (price : FiatPrice)
  | priceSeries (series : PriceSeries)
  | assetPrices (prices : Portfolio.Prices)

namespace Call

/-- The assets that a call is about. -/
def assets : Call → List Asset
  | slug a | assetPrice a _ | tokenPrice a _ | priceSeries a _ _ => [a]
  | assetPrices as _ => as

def enquiry (r : Resolver) : Call → Enquiry Answer
  | slug a => do return .slug (← r.resolveSlug a)
  | assetPrice a currency => do return .assetPrice (← r.assetPrice a currency)
  | tokenPrice a currency => do return .tokenPrice (← r.tokenPrice a currency)
  | priceSeries a currency interval => do return .priceSeries (← r.priceSeries a currency interval)
  | assetPrices as currency => do return .assetPrices (← r.assetPrices as currency)

end Call

namespace Resolver

/-- The answers to calls, one after the other. A call that fails leaves what it has found out. -/
def answers (r : Resolver) (feed : Feed) : List Call → Desk → List (Except Failure Answer)
  | [], _ => []
  | c :: rest, d =>
    let (result, d) := (c.enquiry r).run feed d
    result :: r.answers feed rest d

/-- The answer to a call of a resolver that has been asked nothing yet. -/
def freshAnswer (r : Resolver) (feed : Feed) (c : Call) : Except Failure Answer :=
  ((c.enquiry r).run feed .empty).1

variable {r : Resolver} {reply : Request → Except Failure Reply} {known : List Asset}

/-- So it is for whatever a resolver is called for. -/
theorem transparent_call (coherent : Coherent known) {c : Call} (hc : ∀ a ∈ c.assets, a ∈ known) :
    Transparent r reply known (c.enquiry r) := by
  cases c with
  | slug a =>
    have ha := hc a List.mem_cons_self
    exact (transparent_resolveSlug coherent ha).bind fun _ => settled_pure _
  | assetPrice a currency =>
    have ha := hc a List.mem_cons_self
    exact (transparent_assetPrice coherent ha currency).bind fun _ => settled_pure _
  | tokenPrice a currency =>
    have ha := hc a List.mem_cons_self
    exact (transparent_tokenPrice coherent ha currency).bind fun _ => settled_pure _
  | priceSeries a currency interval =>
    have ha := hc a List.mem_cons_self
    exact (transparent_priceSeries coherent ha currency interval).bind fun _ => settled_pure _
  | assetPrices as currency =>
    exact (transparent_addPrices coherent currency hc []).bind fun _ => settled_pure _

/-- By induction on the calls, each of which leaves the memory faithful for the next one. -/
theorem answers_of_faithful (coherent : Coherent known) {calls : List Call}
    (hcalls : ∀ c ∈ calls, ∀ a ∈ c.assets, a ∈ known) {d : Desk}
    (hd : d.memory.Faithful r (.steady reply) known) :
    r.answers (.steady reply) calls d = calls.map (r.freshAnswer (.steady reply)) := by
  induction calls generalizing d with
  | nil => rfl
  | cons c rest ih =>
    have hcall : Transparent r reply known (c.enquiry r) :=
      transparent_call coherent (hcalls c List.mem_cons_self)
    -- The memory is faithful before the call, so the call is answered as if it were fresh, and faithful after
    -- it.
    have hhead := hcall.eq_fresh (Memory.faithful_empty r (.steady reply) known) hd
    obtain ⟨_, hrun⟩ := hcall
    have hrest := ih (fun b hb => hcalls b (List.mem_cons_of_mem c hb)) (hrun d hd).2
    rw [answers, List.map_cons, freshAnswer, ← hhead, ← hrest]

/-- What a resolver answers to each call of a list is what a fresh one would answer to that call alone,
if its feed is steady and the assets of the calls are coherent. -/
theorem answers_as_if_fresh (r : Resolver) (reply : Request → Except Failure Reply) (calls : List Call)
    (coherent : Coherent (calls.flatMap Call.assets)) :
    r.answers (.steady reply) calls .empty = calls.map (r.freshAnswer (.steady reply)) := by
  refine answers_of_faithful coherent (fun c hc a ha => ?_) (Memory.faithful_empty r (.steady reply) _)
  exact List.mem_flatMap.mpr ⟨c, hc, ha⟩

/-- A feed with two tokens of one symbol; the record of the second one gives it another name. -/
def twoCoins : FeedRehearsal where
  outcomes :=
    let token (slug symbol : String) : Except Failure Reply :=
      .ok ⟨200, .ok (.obj [("slug", .str slug), ("symbol", .str symbol), ("usd_price", .str "0.9990")])⟩
    [("v2/all-tokens", .ok ⟨200, .ok (.arr [
        .obj [("slug", .str "not-a-coin"), ("symbol", .str "USDC")],
        .obj [("slug", .str "coin"), ("symbol", .str "USDC")]])⟩),
      ("v1/tokens/not-a-coin", token "not-a-coin" "NOT"), ("v1/tokens/coin", token "the-coin" "USDC"),
      ("v1/tokens/the-coin", token "the-coin" "USDC")]

def twoCoinsResolver : Resolver := ⟨"v1", "v2", "fiat", ⟨["USDC"], []⟩⟩

def bridgedCoin : Asset where
  identifier := "coin"
  walletId := ""
  assetType := .crc20
  mainnetSymbol := "USDC"
  symbol := "USDC"
  name := ""
  decimals := 6
  balance := .zero
  address := ""
  config := none

/-- A call that fails for want of a rate has found the name already; the next ones use it, also for another
asset of the identifier. -/
theorem name_remembered_after_failure :
    twoCoinsResolver.answers twoCoins.feed [.tokenPrice bridgedCoin "EUR", .slug bridgedCoin,
        .tokenPrice { bridgedCoin with symbol := "USDC.e" } "USD"] .empty
      = [.error (.httpStatus (some 404) "fiat/exchange-rates"), .ok (.slug (some "the-coin")),
        .ok (.tokenPrice ⟨"0.999", ""⟩)] := by
  have hrate : ((twoCoinsResolver.tokenPrice bridgedCoin "EUR").run twoCoins.feed .empty).1
      = .error (.httpStatus (some 404) "fiat/exchange-rates") := by decide +kernel
  have hslug : ((twoCoinsResolver.resolveSlug bridgedCoin).run twoCoins.feed .empty).1
      = .ok (some "the-coin") := by decide +kernel
  have hprice : ((twoCoinsResolver.tokenPrice { bridgedCoin with symbol := "USDC.e" } "USD").run
      twoCoins.feed .empty).1 = .ok ⟨"0.999", ""⟩ := by decide +kernel
  have hanswers := answers_as_if_fresh twoCoinsResolver
    (fun q => (twoCoins.outcomes.lookup q.url).getD (.ok FeedRehearsal.notFound))
    [.tokenPrice bridgedCoin "EUR", .slug bridgedCoin,
      .tokenPrice { bridgedCoin with symbol := "USDC.e" } "USD"] (by decide +kernel)
  -- The answers are those of three fresh resolvers.
  refine hanswers.trans ?_
  simp only [List.map_cons, List.map_nil, freshAnswer, Call.enquiry, Enquiry.fst_run_return]
  rw [FeedRehearsal.feed] at hrate hslug hprice
  rw [hrate, hslug, hprice]
  rfl

end Resolver

end ChainWallet
