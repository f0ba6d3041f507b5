import ChainWallet.Market.Crowd
import ChainWallet.Proofs.Market.Transparency
import ChainWallet.Proofs.Store.WellKept

/-!
# How callers of a resolver conduct themselves

Between two of its steps a caller may find the memory changed by others, but not in every way: names that
were found stay, so does a directory, and what a lock guards is changed by its holder only. Callers can rely
on this because all of them keep to the same rules.

* **`Memory.Later`** — what may have become of the memory for somebody who holds some locks.
* **`View.Allows`** — the rules: which deeds are allowed to a caller by what it knows.
* **`Enquiry.Abides`** — an enquiry does nothing that the rules do not allow, whatever others do that keep to
  them and whatever the feed answers, and where it ends something holds. It is computed along the tree, and
  the rules `abides_bind`, `abides_guarded` and so on let the resolver's functions be taken one by one.
* **`abides_directory`**, **`abides_resolveSlug`** — the functions that take locks, with all that is known when
  they return. The others call these and otherwise only ask for prices (`Tidy`).
-/

namespace ChainWallet

/-! ### Letters about the directory -/

/-- The directory that an answer writes has all its entries, in order, and is not empty. -/
theorem Resolver.directoryOf_eq_ok {j : Json} {directory : List TokenSlug} :
    directoryOf j = .ok directory ↔
      ∃ entries, j = .arr entries ∧ directory ≠ [] ∧ entries.mapM TokenSlug.model.validate = .ok directory := by
  constructor
  · intro h
    unfold directoryOf at h
    split at h
    · cases h
    · next hvoid =>
      split at h
      · next entries =>
        refine ⟨entries, rfl, ?_, h⟩
        rintro rfl
        -- No entries are no directory, and one that is refused gives none.
        cases entries with
        | nil => exact hvoid rfl
        | cons e rest =>
          obtain ⟨_, _, -, -, h⟩ := mapM_cons_eq_ok.mp h
          cases h
      · cases h
      · cases h
      · cases h
  · rintro ⟨_ | ⟨e, rest⟩, rfl, hne, h⟩
    · cases h
      exact absurd rfl hne
    · exact h

/-- The letter asks for the directory, and this becomes of it. -/
def Letter.Settles (l : Letter) (outcome : Except Failure (List TokenSlug)) : Prop :=
  l.errand = .directory ∧ ∃ content, l.answers = [content] ∧ content.bind Resolver.directoryOf = outcome

/-- The letter brings a directory. -/
def Letter.Gives (l : Letter) (directory : List TokenSlug) : Prop :=
  l.Settles (.ok directory)

namespace Letter

variable {l : Letter} {directory : List TokenSlug}

/-- A letter has one answer, so one thing becomes of it. -/
theorem Settles.unique {one other : Except Failure (List TokenSlug)} (h : l.Settles one)
    (h' : l.Settles other) : one = other := by
  obtain ⟨-, content, hcontent, rfl⟩ := h
  obtain ⟨-, content', hcontent', rfl⟩ := h'
  rw [hcontent] at hcontent'
  rw [(List.cons.inj hcontent').1]

/-- A letter brings at most one directory. -/
theorem Gives.unique {other : List TokenSlug} (h : l.Gives directory) (h' : l.Gives other) :
    directory = other :=
  Except.ok.inj (Settles.unique h h')

/-- A letter that brings a directory was answered with a list of which every entry is valid. -/
theorem gives_iff : l.Gives directory ↔ l.errand = .directory ∧
    ∃ entries, l.answers = [.ok (.arr entries)] ∧ directory ≠ [] ∧
      entries.mapM TokenSlug.model.validate = .ok directory := by
  constructor
  · rintro ⟨herrand, content, hcontent, h⟩
    cases content with
    | error f => cases h
    | ok j =>
      obtain ⟨entries, rfl, hne, hentries⟩ := Resolver.directoryOf_eq_ok.mp h
      exact ⟨herrand, entries, hcontent, hne, hentries⟩
  · rintro ⟨herrand, entries, hcontent, hne, hentries⟩
    exact ⟨herrand, _, hcontent, Resolver.directoryOf_eq_ok.mpr ⟨entries, rfl, hne, hentries⟩⟩

/-- An empty list is not a directory. -/
theorem Gives.ne_nil (h : l.Gives directory) : directory ≠ [] :=
  (gives_iff.mp h).2.choose_spec.2.1

end Letter

/-! ### What others may do -/

/-- What may have become of the memory meanwhile, for somebody who holds some locks. -/
structure Memory.Later (gates : List Gate) (m later : Memory) : Prop where
  names : ∀ identifier slug, m.slugs.get? identifier = some slug →
    later.slugs.get? identifier = some slug
  ownNames : ∀ identifier, .slug identifier ∈ gates →
    later.slugs.get? identifier = m.slugs.get? identifier
  directory : m.directory ≠ [] → later.directory = m.directory
  ownDirectory : .directory ∈ gates → later.directory = m.directory

namespace Memory

variable {gates more : List Gate} {m m' m'' : Memory}

/-- If nobody does anything, the memory is as others may leave it. -/
theorem Later.refl (gates : List Gate) (m : Memory) : m.Later gates m where
  names _ _ h := h
  ownNames _ _ := rfl
  directory _ := rfl
  ownDirectory _ := rfl

/-- What others do in two stretches of time they may do in one. -/
theorem Later.trans (h : m.Later gates m') (h' : m'.Later gates m'') : m.Later gates m'' where
  names identifier slug hslug := h'.names identifier slug (h.names identifier slug hslug)
  ownNames identifier hgate := (h'.ownNames identifier hgate).trans (h.ownNames identifier hgate)
  directory hne := (h'.directory (by rwa [h.directory hne])).trans (h.directory hne)
  ownDirectory hgate := (h'.ownDirectory hgate).trans (h.ownDirectory hgate)

/-- Who holds fewer locks can rely on less. -/
theorem Later.of_subset (h : m.Later more m') (hsub : gates ⊆ more) : m.Later gates m' where
  names := h.names
  ownNames identifier hgate := h.ownNames identifier (hsub hgate)
  directory := h.directory
  ownDirectory hgate := h.ownDirectory (hsub hgate)

/-- Somebody else may keep a name for an asset that has none, unless one holds the lock of that asset. -/
theorem later_put {identifier slug : String} (missing : m.slugs.get? identifier = none)
    (hgate : .slug identifier ∉ gates) :
    m.Later gates { m with slugs := m.slugs.put identifier slug } where
  names other name h := by
    -- A name that is there already belongs to another asset.
    have hne : other ≠ identifier := by
      rintro rfl
      rw [missing] at h
      cases h
    exact (m.slugs.get?_put_of_ne hne slug).trans h
  ownNames other hother := by
    have hne : other ≠ identifier := by
      rintro rfl
      exact hgate hother
    exact m.slugs.get?_put_of_ne hne slug
  directory _ := rfl
  ownDirectory _ := rfl

/-- Somebody else may keep a directory where none is, unless one holds its lock. -/
theorem later_directory {directory : List TokenSlug} (missing : m.directory = [])
    (hgate : .directory ∉ gates) : m.Later gates { m with directory } where
  names _ _ h := h
  ownNames _ _ := rfl
  directory hne := absurd missing hne
  ownDirectory h := absurd h hgate

end Memory

/-! ### The rules -/

/-- What a caller knows: the locks it holds, the memory as it last saw it and the letters it has sent. -/
structure View where
  gates : List Gate
  memory : Memory
  letters : List Letter

namespace View

def seeing (v : View) (m : Memory) : View := { v with memory := m }

/-- What a caller knows after a deed of its own. -/
def after (v : View) (d : Deed) : View where
  gates := match d with
    | .enter gate => gate :: v.gates
    | .leave gate => v.gates.filter (· != gate)
    | _ => v.gates
  memory := d.remember v.memory
  letters := v.letters ++ d.letters

@[simp] theorem after_look (v : View) : v.after .look = v := by
  simp [after, Deed.remember, Deed.letters]

@[simp] theorem after_keepSlug (v : View) (identifier slug : String) : v.after (.keepSlug identifier slug)
    = v.seeing { v.memory with slugs := v.memory.slugs.put identifier slug } := by
  simp [after, seeing, Deed.remember, Deed.letters]

@[simp] theorem after_keepDirectory (v : View) (directory : List TokenSlug) :
    v.after (.keepDirectory directory) = v.seeing { v.memory with directory } := by
  simp [after, seeing, Deed.remember, Deed.letters]

@[simp] theorem after_enter (v : View) (gate : Gate) :
    v.after (.enter gate) = { v with gates := gate :: v.gates } := by
  simp [after, Deed.remember, Deed.letters]

@[simp] theorem after_leave (v : View) (gate : Gate) :
    v.after (.leave gate) = { v with gates := v.gates.filter (· != gate) } := by
  simp [after, Deed.remember, Deed.letters]

@[simp] theorem after_send (v : View) (l : Letter) :
    v.after (.send l) = { v with letters := v.letters ++ [l] } := by
  simp [after, Deed.remember, Deed.letters]

/-- The memory may be the one that the caller sees on its next step. Unless it holds the lock of the
directory, it has kept the directory that its letters brought. -/
structure Meets (v : View) (m : Memory) : Prop where
  later : v.memory.Later v.gates m
  kept : .directory ∉ v.gates → ∀ l ∈ v.letters, ∀ directory, l.Gives directory → m.directory = directory

/-- A caller that looks twice meets with what happened before the first look and after it. -/
theorem Meets.trans {v : View} {m m' : Memory} (h : v.Meets m) (h' : (v.seeing m).Meets m') : v.Meets m' where
  later := h.later.trans h'.later
  kept := h'.kept

/-- The caller holds the lock, if there is one, under which requests are sent for an errand. -/
def Minds (v : View) : Errand → Prop
  | .directory => .directory ∈ v.gates
  | .candidates identifier => .slug identifier ∈ v.gates
  | .prices => True

/-- The rules by which a caller may do a deed, given what it knows. -/
def Allows (r : Resolver) (v : View) : Deed → Prop
  | .look => True
  | .keepSlug identifier _ => .slug identifier ∈ v.gates ∧ v.memory.slugs.get? identifier = none
  | .keepDirectory directory =>
    .directory ∈ v.gates ∧ v.memory.directory = [] ∧ ∃ l ∈ v.letters, l.Gives directory
  -- Locks are taken in one order: the one of an asset, then the one of the directory.
  | .enter gate => gate ∉ v.gates ∧ (v.gates = [] ∨ gate = .directory)
  | .leave gate => gate ∈ v.gates ∧ (gate = .directory →
      ∀ l ∈ v.letters, ∀ directory, l.Gives directory → v.memory.directory = directory)
  | .send l => v.Minds l.errand ∧ match l.errand with
    | .directory => v.memory.directory = [] ∧ (∀ l ∈ v.letters, ∀ directory, ¬ l.Gives directory) ∧
        l.requests = [r.directoryRequest]
    | .candidates identifier => v.memory.slugs.get? identifier = none
    | .prices => True

/-- Whatever the caller sees, the deed is allowed, and afterwards something holds. -/
def Does (r : Resolver) (v : View) (d : Deed) (so : View → Prop) : Prop :=
  ∀ m, v.Meets m → (v.seeing m).Allows r d ∧ so ((v.seeing m).after d)

/-- What holds after a deed may be weakened. -/
theorem Does.imp {r : Resolver} {v : View} {d : Deed} {so thus : View → Prop} (h : v.Does r d so)
    (himp : ∀ w, so w → thus w) : v.Does r d thus :=
  fun m hm => ⟨(h m hm).1, himp _ (h m hm).2⟩

end View

/-! ### Enquiries that keep to the rules -/

namespace Enquiry

variable {α β : Type} {r : Resolver} {Q : Except Failure α → View → Prop} {v : View}

/-- The enquiry keeps to the rules, and where it ends its outcome and what is then known have a property. -/
def Abides (r : Resolver) (Q : Except Failure α → View → Prop) : Enquiry α → View → Prop
  | answer a, v => Q (.ok a) v
  | fail f, v => Q (.error f) v
  | consult next, v => ∀ m, v.Meets m → Abides r Q (next m) (v.seeing m)
  | keepSlug identifier slug next, v => v.Does r (.keepSlug identifier slug) (Abides r Q next)
  | keepDirectory directory next, v => v.Does r (.keepDirectory directory) (Abides r Q next)
  | enter gate next, v => v.Does r (.enter gate) (Abides r Q next)
  | leave gate next, v => v.Does r (.leave gate) (Abides r Q next)
  | request errand q next, v => ∀ content, v.Does r (.send ⟨errand, [q], [content]⟩) fun w =>
      ∀ m, w.Meets m → Abides r Q (next content) (w.seeing m)
  -- A sender may hear the one answer that spoils the letter, so it has to keep to the rules whatever it hears.
  | requestAll errand qs next, v => ∀ contents, v.Does r (.send ⟨errand, qs, contents⟩) fun w =>
      ∀ heard m, w.Meets m → Abides r Q (next heard) (w.seeing m)

/-- Nothing is done to return a result that is already there. -/
theorem abides_ofExcept {result : Except Failure α} (h : Q result v) : Abides r Q (ofExcept result) v := by
  cases result <;> exact h

/-- A look at the memory is allowed always; what follows has to bear whatever is seen. -/
theorem abides_memory_bind {k : Memory → Enquiry α}
    (h : ∀ m, v.Meets m → Abides r Q (k m) (v.seeing m)) : Abides r Q (memory >>= k) v :=
  h

/-- After a request the caller has to bear any answer, and any memory that others leave meanwhile. -/
theorem abides_fetch_bind {q : Request} {errand : Errand} {k : Json → Enquiry α}
    (h : ∀ content, v.Does r (.send ⟨errand, [q], [content]⟩) fun w =>
      ∀ m, w.Meets m → Abides r Q (ofExcept content >>= k) (w.seeing m)) :
    Abides r Q (fetch q errand >>= k) v :=
  h

/-- Requests for candidates are sent together. What follows has to bear whatever is heard in answer, be it all
answers or the one that spoils the letter. -/
theorem abides_fetchAll_bind {qs : List Request} {errand : Errand}
    {k : List (Except Failure Json) → Enquiry α}
    (h : ∀ contents, v.Does r (.send ⟨errand, qs, contents⟩) fun w =>
      ∀ heard m, w.Meets m → Abides r Q (k heard) (w.seeing m)) :
    Abides r Q (fetchAll errand qs >>= k) v :=
  h

/-! What comes after an enquiry may rely on what holds where that ends. -/

variable {x : Enquiry α} {Q' : Except Failure β → View → Prop}

/-- The basic rule: what follows an enquiry is met with how that ended and what was then known. -/
theorem Abides.attempt_bind {k : Except Failure α → Enquiry β} (h : Abides r Q x v)
    (hk : ∀ result w, Q result w → Abides r Q' (k result) w) : Abides r Q' (x.attempt.bind k) v := by
  -- The induction is on the tree of the enquiry; what others may do between two steps is in the premise `h`.
  induction x generalizing v with
  | answer a => exact hk _ v h
  | fail f => exact hk _ v h
  | consult next ih => exact fun m hm => ih m (h m hm)
  | keepSlug _ _ _ ih | keepDirectory _ _ ih | enter _ _ ih | leave _ _ ih => exact h.imp fun w hw => ih hw
  | request _ _ _ ih => exact fun content => (h content).imp fun w hw m hm => ih content (hw m hm)
  | requestAll _ _ _ ih =>
    exact fun contents => (h contents).imp fun w hw heard m hm => ih heard (hw heard m hm)

/-- What holds where an enquiry ends may be weakened. -/
theorem Abides.imp {Q' : Except Failure α → View → Prop} (h : Abides r Q x v)
    (himp : ∀ result w, Q result w → Q' result w) : Abides r Q' x v := by
  rw [← x.attempt_bind_ofExcept]
  exact h.attempt_bind fun result w hw => abides_ofExcept (himp result w hw)

/-- In sequence: the second part is met with where the first one ends, and a failure passes it by. -/
theorem Abides.bind {k : α → Enquiry β} (h : Abides r Q x v)
    (ok : ∀ a w, Q (.ok a) w → Abides r Q' (k a) w) (error : ∀ f w, Q (.error f) w → Q' (.error f) w) :
    Abides r Q' (x >>= k) v := by
  show Abides r Q' (x.bind k) v
  rw [bind_eq_attempt_bind]
  refine h.attempt_bind fun result w hw => ?_
  cases result with
  | ok a => exact ok a w hw
  | error f => exact error f w hw

/-- An enquiry whose failure is caught keeps to the same rules. -/
theorem Abides.attempt {Q' : Except Failure (Except Failure α) → View → Prop} (h : Abides r Q x v)
    (himp : ∀ result w, Q result w → Q' (.ok result) w) : Abides r Q' x.attempt v := by
  rw [← x.attempt.bind_answer]
  exact h.attempt_bind himp

/-- Under a lock: the lock may be taken, and where the part ends it may be released. -/
theorem abides_guarded {gate : Gate}
    (h : v.Does r (.enter gate) (Abides r (fun result w => w.Does r (.leave gate) (Q result)) x)) :
    Abides r Q (guarded gate x) v :=
  h.imp fun _ hx => hx.attempt_bind fun _ _ hleave => hleave.imp fun _ hw => abides_ofExcept hw

end Enquiry

/-! ### The directory -/

open Enquiry

namespace View

/-- A caller that holds the locks that it held before, and has met with nothing but what others may do. -/
structure Returns (v w : View) : Prop where
  gates : w.gates = v.gates
  later : v.memory.Later v.gates w.memory

/-- Who has returned and looks once more has still returned. -/
theorem Returns.seeing {v w : View} {m : Memory} (h : v.Returns w) (hm : w.Meets m) :
    v.Returns (w.seeing m) :=
  ⟨h.gates, h.later.trans (h.gates ▸ hm.later)⟩

/-- Sending a letter changes no lock and no memory. -/
theorem Returns.after_send {v w : View} (h : v.Returns w) (l : Letter) : v.Returns (w.after (.send l)) :=
  ⟨h.gates, h.later⟩

/-- A lock that is taken and released again leaves the locks as they were. -/
theorem filter_cons_gate {gate : Gate} {gates : List Gate} (h : gate ∉ gates) :
    (gate :: gates).filter (· != gate) = gates := by
  rw [List.filter_cons_of_neg (by simp), List.filter_eq_self]
  intro other hother
  have hne : other ≠ gate := by
    rintro rfl
    exact h hother
  simpa using hne

end View

namespace Resolver

variable {r : Resolver} {v w : View}

/-- How a caller has come by a directory, or by none: it was there, or the caller has asked the feed. -/
inductive Loading (v w : View) : Except Failure (List TokenSlug) → Prop
  | remembered {directory : List TokenSlug} (known : directory ≠ []) (kept : w.memory.directory = directory)
      (letters : w.letters = v.letters) : Loading v w (.ok directory)
  | asked {result : Except Failure (List TokenSlug)} {l : Letter} (missing : v.memory.directory = [])
      (settles : l.Settles result) (letters : w.letters = v.letters ++ [l])
      (kept : w.memory.directory = result.toOption.getD []) : Loading v w result

/-- What is known when the directory has been asked for. -/
def Loaded (v : View) (result : Except Failure (List TokenSlug)) (w : View) : Prop :=
  v.Returns w ∧ Loading v w result

/-- The lock of the directory is released only when what the letters brought has been kept, and what was known
under the lock holds afterwards: nobody else could change it. -/
theorem does_leave_directory {result : Except Failure (List TokenSlug)} (free : .directory ∉ v.gates)
    (hgates : w.gates = .directory :: v.gates) (hlater : v.memory.Later v.gates w.memory)
    (hkept : ∀ l ∈ w.letters, ∀ directory, l.Gives directory → w.memory.directory = directory)
    (hloading : Loading v w result) : w.Does r (.leave .directory) (Loaded v result) := by
  intro m hm
  have hmem : .directory ∈ w.gates := hgates ▸ List.mem_cons_self
  have hown : m.directory = w.memory.directory := hm.later.ownDirectory hmem
  have hlater' : w.memory.Later v.gates m := hm.later.of_subset (hgates ▸ List.subset_cons_self ..)
  rw [View.after_leave]
  refine ⟨⟨hmem, fun _ l hl directory hgives => hown.trans (hkept l hl directory hgives)⟩,
    ⟨?_, hlater.trans hlater'⟩, ?_⟩
  · rw [View.seeing, hgates]
    exact View.filter_cons_gate free
  · -- While the lock was held, `w` had the directory that is in the memory now.
    cases hloading with
    | remembered known kept letters => exact .remembered known (hown.trans kept) letters
    | asked missing settles letters kept => exact .asked missing settles letters (hown.trans kept)

/-- A caller that has the answer about the directory keeps the directory, if it is one. -/
theorem abides_keep_directory {l : Letter} {result : Except Failure (List TokenSlug)}
    (free : .directory ∉ v.gates) (hgates : w.gates = .directory :: v.gates)
    (hlater : v.memory.Later v.gates w.memory) (hmissing : w.memory.directory = [])
    (hnone : ∀ l ∈ v.letters, ∀ directory, ¬ l.Gives directory)
    (hletters : w.letters = v.letters ++ [l]) (hsettles : l.Settles result) :
    Abides r (fun result w => w.Does r (.leave .directory) (Loaded v result))
      (do
        let directory ← .ofExcept result
        .rememberDirectory directory
        pure directory) w := by
  have hstart : v.memory.directory = [] := by
    by_contra hne
    exact hne ((hlater.directory hne).symm.trans hmissing)
  -- Only the last letter can have brought a directory.
  have hlast : ∀ {directory}, ∀ l' ∈ w.letters, l'.Gives directory → result = .ok directory := by
    intro directory l' hl' hgives
    rcases List.mem_append.mp (hletters ▸ hl') with hl' | hl'
    · exact absurd hgives (hnone l' hl' directory)
    · cases List.mem_singleton.mp hl'
      exact hsettles.unique hgives
  cases result with
  | error f =>
    refine does_leave_directory free hgates hlater (fun l' hl' directory hgives => ?_)
      (.asked hstart hsettles hletters hmissing)
    cases hlast l' hl' hgives
  | ok directory =>
    -- The lock is still held, so the directory is still missing when it is kept.
    have hmem : .directory ∈ w.gates := hgates ▸ List.mem_cons_self
    intro m hm
    have hempty : m.directory = [] := (hm.later.ownDirectory hmem).trans hmissing
    have hmore : w.memory.Later v.gates m := hm.later.of_subset (hgates ▸ List.subset_cons_self ..)
    rw [View.after_keepDirectory]
    refine ⟨⟨hmem, hempty, l, ?_, hsettles⟩, does_leave_directory free hgates ?_ ?_ ?_⟩
    · exact hletters ▸ List.mem_append_right _ List.mem_cons_self
    · exact (hlater.trans hmore).trans (Memory.later_directory hempty free)
    · intro l' hl' other hgives
      exact Except.ok.inj (hlast l' hl' hgives)
    · exact .asked hstart hsettles hletters rfl

/-- The directory is asked for under its lock and only where there is none. -/
theorem abides_directory (free : .directory ∉ v.gates) : Abides r (Loaded v) r.directory v := by
  refine abides_guarded fun m hm => ⟨⟨free, .inr rfl⟩, ?_⟩
  rw [View.after_enter]
  -- While the lock is held, nobody else changes the directory.
  refine abides_memory_bind fun m₁ hm₁ => ?_
  have hown : m₁.directory = m.directory := hm₁.later.ownDirectory List.mem_cons_self
  have hkept : ∀ l ∈ v.letters, ∀ directory, l.Gives directory → m₁.directory = directory :=
    fun l hl directory hgives => hown.trans (hm.kept free l hl directory hgives)
  have hlater : v.memory.Later v.gates m₁ :=
    hm.later.trans (hm₁.later.of_subset (List.subset_cons_self ..))
  split
  · next hempty =>
    have hempty : m₁.directory = [] := List.isEmpty_iff.mp hempty
    -- What earlier letters brought was kept, so they brought nothing.
    have hnone : ∀ l ∈ v.letters, ∀ directory, ¬ l.Gives directory := fun l hl directory hgives =>
      hgives.ne_nil ((hkept l hl directory hgives).symm.trans hempty)
    refine abides_fetch_bind fun content m₂ hm₂ => ?_
    have hmissing : m₂.directory = [] := (hm₂.later.ownDirectory List.mem_cons_self).trans hempty
    rw [View.after_send]
    refine ⟨⟨List.mem_cons_self, hmissing, hnone, rfl⟩, fun m₃ hm₃ => ?_⟩
    have hlater₂ : v.memory.Later v.gates m₂ :=
      hlater.trans (hm₂.later.of_subset (List.subset_cons_self ..))
    have hlater₃ : v.memory.Later v.gates m₃ :=
      hlater₂.trans (hm₃.later.of_subset (List.subset_cons_self ..))
    have hmissing₃ : m₃.directory = [] := (hm₃.later.ownDirectory List.mem_cons_self).trans hmissing
    rw [Enquiry.ofExcept_bind_ofExcept]
    exact abides_keep_directory free rfl hlater₃ hmissing₃ hnone rfl ⟨rfl, content, rfl, rfl⟩
  · next hknown =>
    refine does_leave_directory free rfl hlater hkept (.remembered ?_ rfl rfl)
    simpa using hknown

/-- Who is about to ask for the directory does not hold its lock. -/
theorem free_of_abides_directory {α : Type} {Q : Except Failure α → View → Prop}
    {k : Except Failure (List TokenSlug) → Enquiry α} (h : Abides r Q (r.directory.attempt.bind k) v)
    (hv : v.Meets v.memory) : .directory ∉ v.gates := by
  rw [Resolver.directory, guarded_attempt_bind] at h
  exact (h v.memory hv).1.1

/-! ### Names -/

/-- What is done under the lock of an asset whose name is not known. -/
def search (r : Resolver) (a : Asset) : Enquiry (Option String) := do
  let slug ← r.supportedSlug a
  if let some name := slug then .rememberSlug a.identifier name
  pure slug

/-- What is done when the name of an asset was not known at first sight. -/
def searchInTurn (r : Resolver) (a : Asset) : Enquiry (Option String) :=
  .guarded (.slug a.identifier) do
    match (← .memory).slugs.get? a.identifier with
    | some slug => pure (some slug)
    | none => r.search a

/-- A name is looked for in the memory first; the search under the lock looks once more. -/
theorem resolveSlug_eq (a : Asset) :
    r.resolveSlug a = (do
      match (← .memory).slugs.get? a.identifier with
      | some slug => pure (some slug)
      | none => r.searchInTurn a) :=
  rfl

/-- The name that can be remembered from the outcome of a search: none if it failed or found nothing. -/
def nameOf : Except Failure (Option String) → Option String
  | .ok (some slug) => if slug.isEmpty then none else some slug
  | .ok none | .error _ => none

/-- What is known when the name of an asset has been asked for: it is remembered if there is one, and if it
was remembered before, the caller has it from there. -/
structure Resolved (a : Asset) (v : View) (result : Except Failure (Option String)) (w : View) : Prop where
  later : v.memory.Later [] w.memory
  name : w.memory.slugs.get? a.identifier = nameOf result
  known : ∀ slug, v.memory.slugs.get? a.identifier = some slug →
    result = .ok (some slug) ∧ w.letters = v.letters

/-- The search itself returns with the locks it began with. Its requests for candidates are sent under the lock
of the asset. -/
theorem abides_supportedSlug {a : Asset} (held : .slug a.identifier ∈ v.gates) (free : .directory ∉ v.gates)
    (missing : v.memory.slugs.get? a.identifier = none) :
    Abides r (fun _ w => v.Returns w) (r.supportedSlug a) v := by
  -- Without a directory there is nothing to search, and the locks are as they were.
  refine (abides_directory free).bind (fun directory w hw => ?_) (fun f w hw => hw.1)
  have hw : v.Returns w := hw.1
  split
  · exact hw
  · refine abides_fetchAll_bind fun contents m hm => ?_
    have hm := hw.seeing hm
    -- While the lock of the asset is held, nobody else finds its name.
    refine ⟨⟨?_, ?_⟩, fun heard m' hm' => ?_⟩
    · show Gate.slug a.identifier ∈ w.gates
      exact hw.gates ▸ held
    · exact (hm.later.ownNames _ held).trans missing
    · have hend := (hm.after_send _).seeing hm'
      exact (abides_ofExcept (Q := fun _ w => v.Returns w) hend).bind (fun _ _ h => h) fun _ _ h => h

/-- A search remembers what it finds, and it finds nothing if it fails. -/
theorem abides_search {a : Asset} (held : v.gates = [.slug a.identifier])
    (missing : v.memory.slugs.get? a.identifier = none) :
    Abides r (fun result w => w.gates = v.gates ∧ v.memory.Later [] w.memory ∧
      w.memory.slugs.get? a.identifier = nameOf result) (r.search a) v := by
  have hmem : .slug a.identifier ∈ v.gates := held ▸ List.mem_cons_self
  refine (abides_supportedSlug hmem (by simp [held]) missing).bind (fun slug w hw => ?_) (fun f w hw => ?_)
  · have hnone : w.memory.slugs.get? a.identifier = none := (hw.later.ownNames _ hmem).trans missing
    have hlater : v.memory.Later [] w.memory := hw.later.of_subset (List.nil_subset _)
    -- A name is kept only if it is not empty, and `nameOf` says the same of the outcome.
    cases slug with
    | none => exact ⟨hw.gates, hlater, hnone⟩
    | some name =>
      intro m hm
      have hm := hw.seeing hm
      have hnone : m.slugs.get? a.identifier = none := (hm.later.ownNames _ hmem).trans missing
      have hlater : v.memory.Later [] m := hm.later.of_subset (List.nil_subset _)
      rw [View.after_keepSlug]
      refine ⟨⟨hm.gates ▸ hmem, hnone⟩, hm.gates, hlater.trans (Memory.later_put hnone (by simp)), ?_⟩
      show (m.slugs.put a.identifier name).get? a.identifier = nameOf (.ok (some name))
      cases hname : name.isEmpty with
      | true => simpa [SlugCache.put, nameOf, hname] using hnone
      | false => simpa [nameOf, hname] using m.slugs.get?_put_self a.identifier hname
  · exact ⟨hw.gates, hw.later.of_subset (List.nil_subset _), (hw.later.ownNames _ hmem).trans missing⟩

/-- A name in the memory is never empty, so it is one that can be remembered. -/
theorem nameOf_known {m : Memory} {identifier slug : String} (h : m.slugs.get? identifier = some slug) :
    nameOf (.ok (some slug)) = some slug := by
  have hne : (!slug.isEmpty) = true := (Option.filter_eq_some_iff.mp h).2
  simpa [nameOf] using hne

/-- The lock of an asset is released when the outcome of the search is in the memory, and the outcome holds
afterwards. -/
theorem does_leave_slug {a : Asset} {result : Except Failure (Option String)}
    (held : w.gates = [.slug a.identifier]) (hresolved : Resolved a v result w) :
    w.Does r (.leave (.slug a.identifier)) fun w => w.gates = [] ∧ Resolved a v result w := by
  intro m hm
  have hmem : .slug a.identifier ∈ w.gates := held ▸ List.mem_cons_self
  rw [View.after_leave]
  refine ⟨⟨hmem, fun h => by cases h⟩, ?_, ?_, ?_, ?_⟩
  · show w.gates.filter _ = []
    simp [held]
  · exact hresolved.later.trans (hm.later.of_subset (List.nil_subset _))
  · exact (hm.later.ownNames _ hmem).trans hresolved.name
  · exact hresolved.known

/-- Under the lock of the asset the memory is looked into, and only if it has no name the search begins. -/
theorem abides_searchInTurn (a : Asset) (idle : v.gates = []) :
    Abides r (fun result w => w.gates = [] ∧ Resolved a v result w) (r.searchInTurn a) v := by
  refine abides_guarded fun m hm => ⟨⟨by simp [View.seeing, idle], .inl idle⟩, ?_⟩
  rw [View.after_enter]
  -- Whoever held the lock before may have found the name, so the memory is looked into once more.
  refine abides_memory_bind fun m₁ hm₁ => ?_
  have held : Gate.slug a.identifier :: v.gates = [.slug a.identifier] := by rw [idle]
  have hlater : v.memory.Later [] m₁ :=
    (hm.later.of_subset (List.nil_subset _)).trans (hm₁.later.of_subset (List.nil_subset _))
  cases hknown : m₁.slugs.get? a.identifier with
  | some slug =>
    refine does_leave_slug held ⟨hlater, hknown.trans (nameOf_known hknown).symm, fun name hname => ?_⟩
    cases (hlater.names _ _ hname).symm.trans hknown
    exact ⟨rfl, rfl⟩
  | none =>
    refine (abides_search held hknown).imp fun result w hw => ?_
    obtain ⟨hgates, hlater', hname⟩ := hw
    refine does_leave_slug (hgates.trans held) ⟨hlater.trans hlater', hname, fun name hstart => ?_⟩
    cases (hlater.names _ _ hstart).symm.trans hknown

/-- Whoever is about to wait for its turn holds no lock. -/
theorem idle_of_abides_searchInTurn {α : Type} {a : Asset} {Q : Except Failure α → View → Prop}
    {k : Except Failure (Option String) → Enquiry α} (h : Abides r Q ((r.searchInTurn a).attempt.bind k) v)
    (hv : v.Meets v.memory) : v.gates = [] := by
  rw [searchInTurn, guarded_attempt_bind] at h
  obtain ⟨⟨-, hidle⟩, -⟩ := h v.memory hv
  -- The rules let a lock of an asset be taken only by somebody who holds none.
  exact hidle.resolve_right (by simp)

/-- Whoever asks for a name that is not known holds no lock. -/
theorem idle_of_abides_resolveSlug {α : Type} {a : Asset} {Q : Except Failure α → View → Prop}
    {k : Except Failure (Option String) → Enquiry α} (h : Abides r Q ((r.resolveSlug a).attempt.bind k) v)
    (hv : v.Meets v.memory) (missing : v.memory.slugs.get? a.identifier = none) : v.gates = [] := by
  have hrest : Abides r Q ((match v.memory.slugs.get? a.identifier with
      | some slug => pure (some slug)
      | none => r.searchInTurn a : Enquiry (Option String)).attempt.bind k) v := h v.memory hv
  rw [missing] at hrest
  exact idle_of_abides_searchInTurn hrest hv

/-- What is known when a name has been asked for. A caller that finds the name at first sight may hold locks. -/
theorem abides_resolveSlug (a : Asset) (idle : v.memory.slugs.get? a.identifier = none → v.gates = []) :
    Abides r (fun result w => w.gates = v.gates ∧ Resolved a v result w) (r.resolveSlug a) v := by
  rw [resolveSlug_eq]
  refine abides_memory_bind fun m hm => ?_
  have hlater : v.memory.Later [] m := hm.later.of_subset (List.nil_subset _)
  cases hknown : m.slugs.get? a.identifier with
  | some slug =>
    refine ⟨rfl, hlater, hknown.trans (nameOf_known hknown).symm, fun name hname => ?_⟩
    cases (hlater.names _ _ hname).symm.trans hknown
    exact ⟨rfl, rfl⟩
  | none =>
    -- A name does not go away, so there was none before either.
    have hnone : ∀ name, v.memory.slugs.get? a.identifier ≠ some name := fun name hname => by
      cases (hlater.names _ _ hname).symm.trans hknown
    have idle : v.gates = [] := idle (Option.eq_none_iff_forall_ne_some.mpr hnone)
    refine (abides_searchInTurn (v := v.seeing m) a idle).imp fun result w ⟨hgates, hresolved⟩ => ?_
    exact ⟨hgates.trans idle.symm, hlater.trans hresolved.later, hresolved.name,
      fun name hname => absurd hname (hnone name)⟩

end Resolver

/-! ### Callers that end without a lock -/

namespace Enquiry

variable {α β : Type} {r : Resolver}

/-- Begun without a lock, the enquiry keeps to the rules and holds no lock where it ends. -/
def Tidy (r : Resolver) (x : Enquiry α) : Prop :=
  ∀ v, v.gates = [] → Abides r (fun _ w => w.gates = []) x v

theorem tidy_pure (a : α) : Tidy r (pure a) :=
  fun _ hv => hv

theorem tidy_fail (f : Failure) : Tidy r (.fail f : Enquiry α) :=
  fun _ hv => hv

theorem tidy_ofExcept (result : Except Failure α) : Tidy r (ofExcept result) :=
  fun _ hv => abides_ofExcept hv

/-- Enquiries that end without a lock can be put one after the other. -/
theorem Tidy.bind {x : Enquiry α} {k : α → Enquiry β} (hx : Tidy r x) (hk : ∀ a, Tidy r (k a)) :
    Tidy r (x >>= k) :=
  fun v hv => (hx v hv).bind (fun a w hw => hk a w hw) fun _ _ hw => hw

theorem Tidy.attempt {x : Enquiry α} (hx : Tidy r x) : Tidy r x.attempt :=
  fun v hv => (hx v hv).attempt fun _ _ hw => hw

/-- Requests for prices are sent without a lock. -/
theorem tidy_fetch (q : Request) : Tidy r (fetch q) :=
  fun _ hv _ _ _ => ⟨⟨trivial, trivial⟩, fun _ _ => abides_ofExcept hv⟩

end Enquiry

namespace Resolver

variable {r : Resolver}

/-- The directory's lock is released on every way out. -/
theorem tidy_directory : Tidy r r.directory := fun v hv =>
  (abides_directory (by simp [hv])).imp fun _ _ hw => hw.1.gates.trans hv

/-- The lock of an asset is released on every way out. -/
theorem tidy_resolveSlug (a : Asset) : Tidy r (r.resolveSlug a) := fun _ hv =>
  (abides_resolveSlug a fun _ => hv).imp fun _ _ hw => hw.1.trans hv

theorem tidy_knownSlug (a : Asset) (shownSymbol : String) : Tidy r (r.knownSlug a shownSymbol) := by
  refine (tidy_resolveSlug a).bind fun slug => ?_
  cases slug with
  | none => exact tidy_fail _
  | some name =>
    dsimp only
    split
    · exact tidy_fail _
    · exact tidy_pure name

theorem tidy_tokenPrice (a : Asset) (currency : String) : Tidy r (r.tokenPrice a currency) := by
  refine (tidy_knownSlug a _).bind fun slug => (tidy_fetch _).bind fun body => ?_
  refine (tidy_ofExcept _).bind fun token => ?_
  by_cases hfeed : currency = feedCurrency
  · simpa only [hfeed, if_true] using (tidy_pure _).bind fun _ => tidy_ofExcept _
  · have hrate : Tidy r (r.fiatRate feedCurrency currency) := (tidy_fetch _).bind fun _ => tidy_ofExcept _
    simpa only [hfeed, if_false] using hrate.bind fun _ => tidy_ofExcept _

theorem tidy_assetPrice (a : Asset) (currency : String) : Tidy r (r.assetPrice a currency) :=
  (tidy_tokenPrice a currency).attempt.bind fun _ => tidy_pure _

theorem tidy_priceSeries (a : Asset) (currency interval : String) :
    Tidy r (r.priceSeries a currency interval) :=
  (tidy_knownSlug a _).bind fun _ => (tidy_fetch _).bind fun _ => tidy_ofExcept _

/-- Prices are asked for one after the other, so each enquiry begins without a lock. -/
theorem tidy_addPrices (currency : String) (assets : List Asset) (prices : Portfolio.Prices) :
    Tidy r (r.addPrices currency assets prices) := by
  induction assets generalizing prices with
  | nil => exact tidy_pure prices
  | cons a rest ih =>
    simp only [addPrices]
    split
    · exact ih prices
    · exact (tidy_assetPrice a currency).bind fun _ => ih _

/-- Whatever a resolver is called for, it keeps to the rules and holds no lock at the end. -/
theorem tidy_call (c : Call) : Tidy r (c.enquiry r) := by
  cases c with
  | slug a => exact (tidy_resolveSlug a).bind fun _ => tidy_pure _
  | assetPrice a currency => exact (tidy_assetPrice a currency).bind fun _ => tidy_pure _
  | tokenPrice a currency => exact (tidy_tokenPrice a currency).bind fun _ => tidy_pure _
  | priceSeries a currency interval =>
    exact (tidy_priceSeries a currency interval).bind fun _ => tidy_pure _
  | assetPrices as currency =>
    exact (tidy_addPrices currency as []).bind fun _ => tidy_pure _

end Resolver

/-- What somebody wants from a resolver: an answer to a call, or only the directory. -/
inductive Wish where
  | call (c : Call)
  | directory

namespace Wish

def enquiry (r : Resolver) : Wish → Enquiry (Answer ⊕ List TokenSlug)
  | call c => do return .inl (← c.enquiry r)
  | directory => do return .inr (← r.directory)

/-- So does every caller, whatever it wants. -/
theorem tidy_enquiry {r : Resolver} (w : Wish) : Tidy r (w.enquiry r) := by
  cases w with
  | call c => exact (Resolver.tidy_call c).bind fun _ => tidy_pure _
  | directory => exact Resolver.tidy_directory.bind fun _ => tidy_pure _

end Wish

end ChainWallet
