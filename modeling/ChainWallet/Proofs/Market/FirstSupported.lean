import ChainWallet.Proofs.Market.Conduct
import ChainWallet.Proofs.Market.Transparency

/-!
# The first candidate that is trusted

Several tokens share a symbol. The name of an asset is that of the first one in the directory whose record can
be trusted, and it is looked for in the records of all that have the symbol, or in none.

* **`Trusts`**, **`Picks`** — what makes a record trusted for a type of assets, and the name that a list of
  records gives: that of the first one that is trusted.
* **`DirectoryEnds`**, **`recordReplies`** — how a resolver comes by its directory, and what it is told of the
  candidates there.
* **`SearchEnds`** — the four ways in which a search ends: without a directory, without a record, with a name,
  and without one. Each says what has been sent and what is remembered.
* **`first_supported`** — so a name is remembered exactly if it was found and is not empty.
-/

namespace ChainWallet

open Enquiry

namespace Resolver

/-! ### Records -/

/-- A record that can be trusted to be the one of an asset of some type. -/
inductive Trusts (r : Resolver) : AssetType → TokenRecord → Prop where
  | native {t : AssetType} {token : TokenRecord} (slug : token.slug ∈ nativeSlugs) : Trusts r t token
  | listedCrc20 {token : TokenRecord} (symbol : token.symbol ∈ r.whitelists.crc20) : Trusts r .crc20 token
  | taggedCrc20 {token : TokenRecord} {tags : List String} (present : token.tags = some tags)
      (tag : cronosTag ∈ tags) : Trusts r .crc20 token
  /-- The symbol counts in capital letters. -/
  | listedErc20 {token : TokenRecord} (symbol : Text.upper token.symbol ∈ r.whitelists.erc20) :
      Trusts r .erc20 token

variable {r : Resolver} {t : AssetType} {token : TokenRecord}

/-- The resolver accepts the records that can be trusted, and no others. -/
theorem supports_iff : r.supports t token = true ↔ r.Trusts t token := by
  constructor
  · intro h
    unfold supports at h
    rw [Bool.or_eq_true, List.contains_iff_mem] at h
    rcases h with hnative | hown
    · exact .native hnative
    · cases t with
      | crc20 =>
        rw [Bool.or_eq_true, List.contains_iff_mem, List.contains_iff_mem] at hown
        rcases hown with hlisted | htagged
        · exact .listedCrc20 hlisted
        · -- A record may have no tags at all, which is no Cronos tag either.
          cases htags : token.tags with
          | none => simp [htags] at htagged
          | some tags =>
            rw [htags] at htagged
            exact .taggedCrc20 htags htagged
      | erc20 => exact .listedErc20 (List.contains_iff_mem.mp hown)
      | tendermint | evm | ibc => cases hown
  · intro h
    unfold supports
    rw [Bool.or_eq_true, List.contains_iff_mem]
    cases h with
    | native slug => exact .inl slug
    | listedCrc20 symbol => exact .inr (by simp [symbol])
    | taggedCrc20 present tag => exact .inr (by simp [present, tag])
    | listedErc20 symbol => exact .inr (List.contains_iff_mem.mpr symbol)

/-- The name that a list of records gives to an asset of some type. -/
inductive Picks (r : Resolver) (t : AssetType) : List TokenRecord → Option String → Prop where
  | first {before rest : List TokenRecord} {token : TokenRecord} (skipped : ∀ x ∈ before, ¬ r.Trusts t x)
      (trusted : r.Trusts t token) : Picks r t (before ++ token :: rest) (some token.slug)
  | nobody {records : List TokenRecord} (skipped : ∀ x ∈ records, ¬ r.Trusts t x) : Picks r t records none

/-- Looking for a supported record picks the name that the list gives. -/
theorem picks_find? (r : Resolver) (t : AssetType) (records : List TokenRecord) :
    r.Picks t records ((records.find? (r.supports t)).map (·.slug)) := by
  cases hfound : records.find? (r.supports t) with
  | none =>
    refine .nobody fun x hx htrusted => ?_
    exact List.find?_eq_none.mp hfound x hx (supports_iff.mpr htrusted)
  | some token =>
    -- The first supported one, with unsupported ones before it.
    obtain ⟨hsupported, before, rest, rfl, hskipped⟩ := List.find?_eq_some_iff_append.mp hfound
    refine .first (fun x hx htrusted => ?_) (supports_iff.mp hsupported)
    have hunsupported := hskipped x hx
    rw [supports_iff.mpr htrusted] at hunsupported
    cases hunsupported

/-- Only two types of assets trust anything but the native tokens. -/
theorem mem_nativeSlugs_of_picks {records : List TokenRecord} {slug : String} (crc20 : t ≠ .crc20)
    (erc20 : t ≠ .erc20) (picks : r.Picks t records (some slug)) : slug ∈ nativeSlugs := by
  cases picks with
  | first _ trusted =>
    cases trusted with
    | native h => exact h
    | listedCrc20 | taggedCrc20 => exact absurd rfl crc20
    | listedErc20 => exact absurd rfl erc20

/-! ### The directory -/

/-- The ways in which a resolver comes by its directory, with what is remembered and sent then. -/
inductive DirectoryEnds (r : Resolver) (feed : Feed) (d : Desk) :
    Except Failure (List TokenSlug) → Desk → Prop where
  | kept (present : d.memory.directory ≠ []) : DirectoryEnds r feed d (.ok d.memory.directory) d
  | fetched {entries : List Json} {directory : List TokenSlug} (missing : d.memory.directory = [])
      (told : feed.answer d.sent r.directoryRequest = .ok (.arr entries))
      (valid : entries.mapM TokenSlug.model.validate = .ok directory) (nonempty : directory ≠ []) :
      DirectoryEnds r feed d (.ok directory) ⟨{ d.memory with directory }, d.sent ++ [r.directoryRequest]⟩
  | unavailable {f : Failure} (missing : d.memory.directory = [])
      (fails : (feed.answer d.sent r.directoryRequest).bind directoryOf = .error f) :
      DirectoryEnds r feed d (.error f) ⟨d.memory, d.sent ++ [r.directoryRequest]⟩

/-- A resolver comes by its directory in no other way. -/
theorem directoryEnds_directory (r : Resolver) (feed : Feed) (d : Desk) :
    r.DirectoryEnds feed d (r.directory.run feed d).1 (r.directory.run feed d).2 := by
  -- An empty directory counts as none, so it is asked for again.
  cases hmissing : d.memory.directory.isEmpty with
  | false =>
    rw [run_directory_of_present r hmissing]
    exact .kept (by simpa using hmissing)
  | true =>
    have hnil : d.memory.directory = [] := by simpa using hmissing
    simp only [directory, run_guarded, run_seq, run_memory, hmissing, if_true, run_fetch]
    cases hanswer : feed.answer d.sent r.directoryRequest with
    | error f => exact .unavailable hnil (by rw [hanswer]; rfl)
    | ok body =>
      simp only [run_ofExcept]
      -- Not every body is a directory: it may be no list, an empty one, or have an entry that is none.
      cases hdirectory : directoryOf body with
      | error f => exact .unavailable hnil (by rw [hanswer]; exact hdirectory)
      | ok directory =>
        obtain ⟨entries, rfl, hne, hvalid⟩ := directoryOf_eq_ok.mp hdirectory
        exact .fetched hnil hanswer hvalid hne

/-- The names that are remembered have nothing to do with the directory. -/
theorem DirectoryEnds.slugs {feed : Feed} {d loaded : Desk} {outcome : Except Failure (List TokenSlug)}
    (h : r.DirectoryEnds feed d outcome loaded) : loaded.memory.slugs = d.memory.slugs := by
  cases h <;> rfl

/-! ### The candidates -/

def recordRequests (r : Resolver) (candidates : List TokenSlug) : List Request :=
  candidates.map fun c => r.tokenRequest c.slug

/-- What the feed tells of candidates, in their order. -/
def recordReplies (r : Resolver) (feed : Feed) (earlier : List Request) (candidates : List TokenSlug) :
    List (Except Failure TokenRecord) :=
  (feed.answers earlier (r.recordRequests candidates)).1.map fun x => x.bind TokenRecord.model.validate

/-- Either all answers are records, or the first one that is none tells the failure. -/
theorem recordsOf_cases (answers : List (Except Failure Json)) :
    (∃ records, answers.map (fun x => x.bind TokenRecord.model.validate) = records.map .ok
        ∧ recordsOf answers = .ok records)
      ∨ ∃ (before : List TokenRecord) (f : Failure) (rest : List (Except Failure TokenRecord)),
        answers.map (fun x => x.bind TokenRecord.model.validate) = before.map .ok ++ .error f :: rest
          ∧ recordsOf answers = .error f := by
  induction answers with
  | nil => exact .inl ⟨[], rfl, rfl⟩
  | cons x rest ih =>
    simp only [recordsOf, List.mapM_cons, List.map_cons] at ih ⊢
    -- What the first one is decides where it goes: a failure ends the list, a record is put before what the
    -- rest tells.
    cases hx : x.bind TokenRecord.model.validate with
    | error f => exact .inr ⟨[], f, _, rfl, rfl⟩
    | ok record =>
      rcases ih with ⟨records, hreplies, hrecords⟩ | ⟨before, f, more, hreplies, hrecords⟩
      · exact .inl ⟨record :: records, by rw [hreplies, List.map_cons], by rw [hrecords]; rfl⟩
      · refine .inr ⟨record :: before, f, more, ?_, by rw [hrecords]; rfl⟩
        rw [hreplies, List.map_cons, List.cons_append]

/-! ### Searches -/

/-- The ways in which a search for the name of an asset ends, with what is remembered and sent then. -/
inductive SearchEnds (r : Resolver) (feed : Feed) (a : Asset) (d : Desk) :
    Except Failure (Option String) → Desk → Prop where
  | withoutDirectory {f : Failure} {loaded : Desk} (fails : r.DirectoryEnds feed d (.error f) loaded) :
      SearchEnds r feed a d (.error f) loaded
  | withoutRecord {directory candidates : List TokenSlug} {loaded : Desk} {before : List TokenRecord}
      {f : Failure} {rest : List (Except Failure TokenRecord)}
      (loads : r.DirectoryEnds feed d (.ok directory) loaded)
      (sharing : candidates = directory.filter (·.symbol = a.mainnetSymbol))
      (replies : r.recordReplies feed loaded.sent candidates = before.map .ok ++ .error f :: rest) :
      SearchEnds r feed a d (.error f) ⟨loaded.memory, loaded.sent ++ r.recordRequests candidates⟩
  | named {directory candidates : List TokenSlug} {loaded : Desk} {records : List TokenRecord} {slug : String}
      (loads : r.DirectoryEnds feed d (.ok directory) loaded)
      (sharing : candidates = directory.filter (·.symbol = a.mainnetSymbol))
      (replies : r.recordReplies feed loaded.sent candidates = records.map .ok)
      (picks : r.Picks a.assetType records (some slug)) :
      SearchEnds r feed a d (.ok (some slug))
        ⟨{ loaded.memory with slugs := loaded.memory.slugs.put a.identifier slug },
          loaded.sent ++ r.recordRequests candidates⟩
  | nameless {directory candidates : List TokenSlug} {loaded : Desk} {records : List TokenRecord}
      (loads : r.DirectoryEnds feed d (.ok directory) loaded)
      (sharing : candidates = directory.filter (·.symbol = a.mainnetSymbol))
      (replies : r.recordReplies feed loaded.sent candidates = records.map .ok)
      (picks : r.Picks a.assetType records none) :
      SearchEnds r feed a d (.ok none) ⟨loaded.memory, loaded.sent ++ r.recordRequests candidates⟩

/-- Without a remembered name the resolver searches, and remembers what it finds. -/
theorem run_resolveSlug_of_unknown {a : Asset} {feed : Feed} {d : Desk}
    (unknown : d.memory.slugs.get? a.identifier = none) :
    (r.resolveSlug a).run feed d = match (r.supportedSlug a).run feed d with
      | (.ok (some slug), d) =>
        (.ok (some slug), ⟨{ d.memory with slugs := d.memory.slugs.put a.identifier slug }, d.sent⟩)
      | (.ok none, d) => (.ok none, d)
      | (.error f, d) => (.error f, d) := by
  simp only [resolveSlug, run_seq, run_memory, unknown, run_guarded]
  rcases (r.supportedSlug a).run feed d with ⟨f | _ | slug, d'⟩ <;> rfl

theorem run_supportedSlug (r : Resolver) (a : Asset) (feed : Feed) (d : Desk) :
    (r.supportedSlug a).run feed d = match r.directory.run feed d with
      | (.ok directory, d) =>
        let found := candidates directory a
        ((recordsOf (feed.answers d.sent (r.recordRequests found)).1).map fun records =>
            (records.find? (r.supports a.assetType)).map (·.slug),
          ⟨d.memory, d.sent ++ r.recordRequests found⟩)
      | (.error f, d) => (.error f, d) := by
  rw [supportedSlug, run_seq]
  rcases r.directory.run feed d with ⟨f | directory, loaded⟩
  · rfl
  · cases hfound : candidates directory a with
    | nil =>
      -- Without candidates no request is sent, which is the same as sending none.
      simp only [hfound, run_pure, recordRequests, List.map_nil, List.append_nil]
      rfl
    | cons c rest =>
      simp only [hfound, run_seq, run_fetchAll, run_ofExcept, Feed.sent_answers, recordRequests]
      cases recordsOf (feed.answers loaded.sent ((c :: rest).map fun c => r.tokenRequest c.slug)).1 <;> rfl

/-- A search for a name that is not remembered ends in no other way. -/
theorem searchEnds_resolveSlug {a : Asset} {d : Desk} (feed : Feed)
    (unknown : d.memory.slugs.get? a.identifier = none) :
    r.SearchEnds feed a d ((r.resolveSlug a).run feed d).1 ((r.resolveSlug a).run feed d).2 := by
  rw [run_resolveSlug_of_unknown unknown, run_supportedSlug]
  have hdirectory := r.directoryEnds_directory feed d
  -- With no directory the failure is that of the directory, and nothing else is asked for.
  rcases hload : r.directory.run feed d with ⟨f | directory, loaded⟩ <;> rw [hload] at hdirectory
  · exact .withoutDirectory hdirectory
  · have hsharing : candidates directory a = directory.filter (·.symbol = a.mainnetSymbol) := rfl
    dsimp only
    rcases recordsOf_cases (feed.answers loaded.sent (r.recordRequests (candidates directory a))).1
      with ⟨records, hreplies, hrecords⟩ | ⟨before, f, rest, hreplies, hrecords⟩
    · -- All records are there, and the first that is trusted is picked, if any.
      have hpicks := r.picks_find? a.assetType records
      rw [hrecords]
      cases hslug : (records.find? (r.supports a.assetType)).map (·.slug) with
      | none =>
        simp only [Except.map, hslug]
        exact .nameless hdirectory hsharing hreplies (hslug ▸ hpicks)
      | some slug =>
        simp only [Except.map, hslug]
        exact .named hdirectory hsharing hreplies (hslug ▸ hpicks)
    · rw [hrecords]
      exact .withoutRecord hdirectory hsharing hreplies

/-- A name is remembered exactly if it was found and is not empty. -/
theorem SearchEnds.remembered {feed : Feed} {a : Asset} {d final : Desk}
    {outcome : Except Failure (Option String)} (ends : r.SearchEnds feed a d outcome final)
    (unknown : d.memory.slugs.get? a.identifier = none) (slug : String) :
    final.memory.slugs.get? a.identifier = some slug ↔ outcome = .ok (some slug) ∧ slug ≠ "" := by
  cases ends with
  | withoutDirectory fails => simp [fails.slugs, unknown]
  | withoutRecord loads | nameless loads => simp [loads.slugs, unknown]
  | @named _ _ _ _ found loads =>
    dsimp only
    rw [loads.slugs]
    cases hempty : found.isEmpty with
    | true =>
      -- The memory refuses the empty name.
      obtain rfl : found = "" := by simpa using hempty
      simp only [SlugCache.get?_put_empty, unknown, Except.ok.injEq, Option.some.injEq, reduceCtorEq, false_iff,
        not_and, not_not]
      exact fun h => h.symm
    | false =>
      have hne : found ≠ "" := by simpa using hempty
      rw [SlugCache.get?_put_self _ _ hempty]
      constructor
      · rintro ⟨⟩
        exact ⟨rfl, hne⟩
      · rintro ⟨⟨⟩, -⟩
        rfl

/-- Whatever a search comes to, the names of other assets stay, and a search that fails leaves all of them. -/
theorem SearchEnds.slugs {feed : Feed} {a : Asset} {d final : Desk}
    {outcome : Except Failure (Option String)} (ends : r.SearchEnds feed a d outcome final) :
    (∀ f, outcome = .error f → final.memory.slugs = d.memory.slugs)
      ∧ ∀ other, other ≠ a.identifier → final.memory.slugs.get? other = d.memory.slugs.get? other := by
  cases ends with
  | withoutDirectory fails => exact ⟨fun _ _ => fails.slugs, fun _ _ => by rw [fails.slugs]⟩
  | withoutRecord loads | nameless loads => exact ⟨fun _ _ => loads.slugs, fun _ _ => by rw [← loads.slugs]⟩
  | named loads =>
    refine ⟨nofun, fun other hother => ?_⟩
    rw [← loads.slugs]
    exact SlugCache.get?_put_of_ne _ hother _

theorem SearchEnds.mem_nativeSlugs {feed : Feed} {a : Asset} {d final : Desk} {slug : String}
    (ends : r.SearchEnds feed a d (.ok (some slug)) final) (crc20 : a.assetType ≠ .crc20)
    (erc20 : a.assetType ≠ .erc20) : slug ∈ nativeSlugs := by
  cases ends with
  | named _ _ _ picks => exact mem_nativeSlugs_of_picks crc20 erc20 picks

structure FindsFirst (r : Resolver) (feed : Feed) (a : Asset) (d : Desk)
    (outcome : Except Failure (Option String)) (final : Desk) : Prop where
  ends : r.SearchEnds feed a d outcome final
  remembered : ∀ slug, final.memory.slugs.get? a.identifier = some slug ↔ outcome = .ok (some slug) ∧ slug ≠ ""
  unchanged : ∀ f, outcome = .error f → final.memory.slugs = d.memory.slugs
  others : ∀ other, other ≠ a.identifier → final.memory.slugs.get? other = d.memory.slugs.get? other
  /-- Only assets of two types ever have a name that is not native. -/
  native : a.assetType ≠ .crc20 → a.assetType ≠ .erc20 → ∀ slug,
    outcome = .ok (some slug) ∨ final.memory.slugs.get? a.identifier = some slug → slug ∈ nativeSlugs

/-- The name of an asset is that of the first candidate in the directory whose record is trusted. All records
of candidates are asked for, once each, and no name is found or remembered if one of them is not there. -/
theorem first_supported (r : Resolver) (feed : Feed) (a : Asset) (d : Desk)
    (unknown : d.memory.slugs.get? a.identifier = none) :
    r.FindsFirst feed a d ((r.resolveSlug a).run feed d).1 ((r.resolveSlug a).run feed d).2 := by
  have ends := r.searchEnds_resolveSlug feed unknown
  refine ⟨ends, ends.remembered unknown, ends.slugs.1, ends.slugs.2, fun crc20 erc20 slug hslug => ?_⟩
  -- What is remembered is what was found, so both cases are one.
  have houtcome : ((r.resolveSlug a).run feed d).1 = .ok (some slug) := by
    rcases hslug with h | h
    · exact h
    · exact ((ends.remembered unknown slug).mp h).1
  rw [houtcome] at ends
  exact ends.mem_nativeSlugs crc20 erc20

/-- Of two tokens with the symbol the second one is on the list, but only for assets of its type. -/
theorem second_coin_supported :
    Memory.empty.slugs.get? bridgedCoin.identifier = none
    ∧ ((twoCoinsResolver.resolveSlug bridgedCoin).run twoCoins.feed .empty).1 = .ok (some "the-coin")
    ∧ ((twoCoinsResolver.resolveSlug bridgedCoin).run twoCoins.feed .empty).2.memory.slugs.get? "coin"
      = some "the-coin"
    ∧ ((twoCoinsResolver.resolveSlug { bridgedCoin with assetType := .evm }).run twoCoins.feed .empty).1
      = .ok none
    ∧ ∀ slug, ((twoCoinsResolver.resolveSlug { bridgedCoin with assetType := .evm }).run
        twoCoins.feed .empty).2.memory.slugs.get? "coin" ≠ some slug := by
  have hcrc20 := first_supported twoCoinsResolver twoCoins.feed bridgedCoin .empty rfl
  have hevm := first_supported twoCoinsResolver twoCoins.feed { bridgedCoin with assetType := .evm } .empty rfl
  have hfound : ((twoCoinsResolver.resolveSlug bridgedCoin).run twoCoins.feed .empty).1
      = .ok (some "the-coin") := by decide +kernel
  have hnone : ((twoCoinsResolver.resolveSlug { bridgedCoin with assetType := .evm }).run
      twoCoins.feed .empty).1 = .ok none := by decide +kernel
  refine ⟨rfl, hfound, (hcrc20.remembered _).mpr ⟨hfound, by decide⟩, hnone, fun slug hslug => ?_⟩
  -- Nothing is remembered where nothing was found.
  have hsome := ((hevm.remembered slug).mp hslug).1
  rw [hnone] at hsome
  cases hsome

end Resolver

end ChainWallet
