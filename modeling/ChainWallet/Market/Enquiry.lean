import ChainWallet.Market.Feed
import ChainWallet.Market.Price
import ChainWallet.Market.SlugCache

/-!
# Enquiries

An `Enquiry` is what one caller of the price resolver goes through: it looks into the resolver's memory
and adds to it, it takes and releases locks, and it sends requests to a feed and goes on with the
answers. It is a tree whose branches are the answers, so nothing is said yet about the feed or about
other callers.

* `run` — an enquiry with nobody else around, against a feed: every lock is free. `run_bind` and
  `run_attempt` say how runs compose.
* `guarded` — a part that is done under a lock, which is released also if the part fails.

Between two requests or locks an enquiry is not interrupted, so the tree also says where several
enquiries can interleave.
-/

namespace ChainWallet

/-- The locks of a resolver: one for the directory and one for each asset. -/
inductive Gate where
  | directory
  | slug (identifier : String)
  deriving DecidableEq, Repr

/-- What a resolver remembers. -/
structure Memory where
  slugs : SlugCache
  directory : List TokenSlug
  deriving DecidableEq, Repr, Inhabited

/-- A memory of nothing. -/
def Memory.empty : Memory := ⟨.empty, []⟩

/-- What requests are sent for. -/
inductive Errand where
  | directory
  /-- The records of all tokens that an asset could be. -/
  | candidates (identifier : String)
  /-- A price, prices over time or exchange rates. -/
  | prices
  deriving DecidableEq, Repr

/-- What one caller of a resolver goes through. -/
inductive Enquiry (α : Type) where
  | answer (a : α)
  | fail (f : Failure)
  | consult (next : Memory → Enquiry α)
  | keepSlug (identifier slug : String) (next : Enquiry α)
  | keepDirectory (directory : List TokenSlug) (next : Enquiry α)
  | enter (gate : Gate) (next : Enquiry α)
  | leave (gate : Gate) (next : Enquiry α)
  | request (errand : Errand) (r : Request) (next : Except Failure Json → Enquiry α)
  /-- Sends several requests at once and waits until enough is heard in answer. With nobody else around that is
  all of it. -/
  | requestAll (errand : Errand) (rs : List Request) (next : List (Except Failure Json) → Enquiry α)

namespace Enquiry

variable {α β : Type}

/-- An enquiry that goes on with the answer of another one. -/
def bind : Enquiry α → (α → Enquiry β) → Enquiry β
  | answer a, k => k a
  | fail f, _ => fail f
  | consult next, k => consult fun m => (next m).bind k
  | keepSlug i s next, k => keepSlug i s (next.bind k)
  | keepDirectory d next, k => keepDirectory d (next.bind k)
  | enter g next, k => enter g (next.bind k)
  | leave g next, k => leave g (next.bind k)
  | request e r next, k => request e r fun a => (next a).bind k
  | requestAll e rs next, k => requestAll e rs fun as => (next as).bind k

instance : Monad Enquiry where
  pure := answer
  bind := bind

/-- An enquiry that never fails: its answer says whether another one did. -/
def attempt : Enquiry α → Enquiry (Except Failure α)
  | answer a => answer (.ok a)
  | fail f => answer (.error f)
  | consult next => consult fun m => (next m).attempt
  | keepSlug i s next => keepSlug i s next.attempt
  | keepDirectory d next => keepDirectory d next.attempt
  | enter g next => enter g next.attempt
  | leave g next => leave g next.attempt
  | request e r next => request e r fun a => (next a).attempt
  | requestAll e rs next => requestAll e rs fun as => (next as).attempt

/-- An enquiry that asks nobody. -/
def ofExcept : Except Failure α → Enquiry α
  | .ok a => answer a
  | .error f => fail f

/-- The memory. -/
def memory : Enquiry Memory := consult answer

/-- Remembers the name of an asset. -/
def rememberSlug (identifier slug : String) : Enquiry Unit := keepSlug identifier slug (answer ())

/-- Remembers the directory. -/
def rememberDirectory (directory : List TokenSlug) : Enquiry Unit := keepDirectory directory (answer ())

/-- Sends a request and waits for its answer. -/
def fetch (r : Request) (errand : Errand := .prices) : Enquiry Json := request errand r ofExcept

/-- Sends several requests at once, for one errand, and goes on with what is heard in answer. -/
def fetchAll (errand : Errand) (rs : List Request) : Enquiry (List (Except Failure Json)) :=
  requestAll errand rs answer

/-- A part that is done under a lock. -/
def guarded (gate : Gate) (body : Enquiry α) : Enquiry α :=
  enter gate (body.attempt.bind fun result => leave gate (ofExcept result))

/-! ### Runs -/

/-- What an enquiry changes: the resolver's memory and the list of requests sent so far. -/
structure Desk where
  memory : Memory
  sent : List Request

/-- The desk of a fresh resolver. -/
def Desk.empty : Desk := ⟨.empty, []⟩

/-- An enquiry with nobody else around. -/
def run (feed : Feed) : Enquiry α → Desk → Except Failure α × Desk
  | answer a, d => (.ok a, d)
  | fail f, d => (.error f, d)
  | consult next, d => (next d.memory).run feed d
  | keepSlug i s next, d =>
    next.run feed { d with memory := { d.memory with slugs := d.memory.slugs.put i s } }
  | keepDirectory directory next, d => next.run feed { d with memory := { d.memory with directory } }
  | enter _ next, d => next.run feed d
  | leave _ next, d => next.run feed d
  | request _ r next, d => (next (feed.answer d.sent r)).run feed { d with sent := d.sent ++ [r] }
  | requestAll _ rs next, d =>
    let (answers, sent) := feed.answers d.sent rs
    (next answers).run feed { d with sent }

/-! ### Characterization -/

/-- What comes after two enquiries comes after the second one. -/
theorem bind_assoc {γ : Type} (x : Enquiry α) (f : α → Enquiry β) (g : β → Enquiry γ) :
    (x.bind f).bind g = x.bind fun a => (f a).bind g := by
  induction x with
  | answer | fail => rfl
  | consult _ ih => exact congrArg consult (funext ih)
  | keepSlug i s _ ih => exact congrArg (keepSlug i s) ih
  | keepDirectory d _ ih => exact congrArg (keepDirectory d) ih
  | enter g _ ih => exact congrArg (enter g) ih
  | leave g _ ih => exact congrArg (leave g) ih
  | request e r _ ih => exact congrArg (request e r) (funext ih)
  | requestAll e rs _ ih => exact congrArg (requestAll e rs) (funext ih)

/-- An attempt that goes on from its outcome as the enquiry would is the enquiry. -/
theorem attempt_bind_ofExcept (x : Enquiry α) : x.attempt.bind ofExcept = x := by
  induction x with
  | answer | fail => rfl
  | consult _ ih => exact congrArg consult (funext ih)
  | keepSlug i s _ ih => exact congrArg (keepSlug i s) ih
  | keepDirectory d _ ih => exact congrArg (keepDirectory d) ih
  | enter g _ ih => exact congrArg (enter g) ih
  | leave g _ ih => exact congrArg (leave g) ih
  | request e r _ ih => exact congrArg (request e r) (funext ih)
  | requestAll e rs _ ih => exact congrArg (requestAll e rs) (funext ih)

/-- An attempt does not fail, so only what comes after it is left to be attempted. -/
theorem attempt_attempt_bind (x : Enquiry α) (k : Except Failure α → Enquiry β) :
    (x.attempt.bind k).attempt = x.attempt.bind fun result => (k result).attempt := by
  induction x with
  | answer | fail => rfl
  | consult _ ih => exact congrArg consult (funext ih)
  | keepSlug i s _ ih => exact congrArg (keepSlug i s) ih
  | keepDirectory d _ ih => exact congrArg (keepDirectory d) ih
  | enter g _ ih => exact congrArg (enter g) ih
  | leave g _ ih => exact congrArg (leave g) ih
  | request e r _ ih => exact congrArg (request e r) (funext ih)
  | requestAll e rs _ ih => exact congrArg (requestAll e rs) (funext ih)

/-- What comes after a part under a lock comes after the lock is released. -/
theorem guarded_attempt_bind (gate : Gate) (x : Enquiry α) (k : Except Failure α → Enquiry β) :
    (guarded gate x).attempt.bind k = enter gate (x.attempt.bind fun result => leave gate (k result)) := by
  -- Releasing the lock comes between the outcome and what is made of it.
  have hends : (fun result : Except Failure α => (leave gate (ofExcept result)).attempt.bind k)
      = fun result => leave gate (k result) := by
    funext result
    cases result <;> rfl
  rw [guarded, attempt, attempt_attempt_bind, bind, bind_assoc, hends]

/-- What comes after an enquiry comes after its outcome. -/
theorem bind_eq_attempt_bind (x : Enquiry α) (k : α → Enquiry β) :
    x.bind k = x.attempt.bind fun result => (ofExcept result).bind k := by
  rw [← bind_assoc, attempt_bind_ofExcept]

/-- To go on with the answer itself is to do nothing more. -/
theorem bind_answer (x : Enquiry α) : x.bind answer = x := by
  have hends : (fun result : Except Failure α => (ofExcept result).bind answer) = ofExcept := by
    funext result
    cases result <;> rfl
  rw [bind_eq_attempt_bind, hends, attempt_bind_ofExcept]

/-- Outcomes one after the other are one outcome. -/
theorem ofExcept_bind_ofExcept {γ : Type} (x : Except Failure α) (f : α → Except Failure β)
    (k : β → Enquiry γ) :
    (ofExcept x >>= fun a => ofExcept (f a) >>= k) = ofExcept (x.bind f) >>= k := by
  cases x <;> rfl

instance : LawfulMonad Enquiry := LawfulMonad.mk' Enquiry bind_answer (fun _ _ => rfl) bind_assoc

/-- A run of a composed enquiry is the run of its first part, then of its second part if the first one
has an answer. -/
theorem run_bind (feed : Feed) (x : Enquiry α) (f : α → Enquiry β) (d : Desk) :
    (x.bind f).run feed d = match x.run feed d with
      | (.ok a, d) => (f a).run feed d
      | (.error e, d) => (.error e, d) := by
  induction x generalizing d with
  | answer | fail => rfl
  | consult _ ih => exact ih d.memory d
  | keepSlug _ _ _ ih | keepDirectory _ _ ih => exact ih _
  | enter _ _ ih | leave _ _ ih => exact ih d
  | request _ _ _ ih | requestAll _ _ _ ih => exact ih _ _

/-! The runs of the parts that enquiries are written with. -/

@[simp] theorem run_pure (feed : Feed) (a : α) (d : Desk) :
    (pure a : Enquiry α).run feed d = (.ok a, d) := rfl

/-- A result that is there already is what comes of it. -/
@[simp] theorem run_ofExcept (feed : Feed) (result : Except Failure α) (d : Desk) :
    (ofExcept result).run feed d = (result, d) := by
  cases result <;> rfl

@[simp] theorem run_memory (feed : Feed) (d : Desk) : memory.run feed d = (.ok d.memory, d) := rfl

@[simp] theorem run_rememberSlug (feed : Feed) (identifier slug : String) (d : Desk) :
    (rememberSlug identifier slug).run feed d
      = (.ok (), { d with memory := { d.memory with slugs := d.memory.slugs.put identifier slug } }) := rfl

@[simp] theorem run_rememberDirectory (feed : Feed) (directory : List TokenSlug) (d : Desk) :
    (rememberDirectory directory).run feed d
      = (.ok (), { d with memory := { d.memory with directory } }) := rfl

/-- A request is answered by what was sent before, and adds itself to that. -/
@[simp] theorem run_fetch (feed : Feed) (r : Request) (errand : Errand) (d : Desk) :
    (fetch r errand).run feed d = (feed.answer d.sent r, { d with sent := d.sent ++ [r] }) := by
  simp only [fetch, run, run_ofExcept]

@[simp] theorem run_fetchAll (feed : Feed) (errand : Errand) (rs : List Request) (d : Desk) :
    (fetchAll errand rs).run feed d
      = (.ok (feed.answers d.sent rs).1, { d with sent := (feed.answers d.sent rs).2 }) := rfl

/-- In sequence: the second part goes on where the first one has left the desk. -/
theorem run_seq (feed : Feed) (x : Enquiry α) (f : α → Enquiry β) (d : Desk) :
    (x >>= f).run feed d = match x.run feed d with
      | (.ok a, d) => (f a).run feed d
      | (.error e, d) => (.error e, d) :=
  run_bind feed x f d

/-- What is made of an answer is made of it at the end. -/
theorem fst_run_return (feed : Feed) (x : Enquiry α) (f : α → β) (d : Desk) :
    ((do return f (← x) : Enquiry β).run feed d).1 = (x.run feed d).1.map f := by
  rw [run_seq]
  rcases x.run feed d with ⟨_ | a, d'⟩ <;> rfl

/-- An attempt goes the way of the enquiry and answers with its outcome. -/
theorem run_attempt (feed : Feed) (x : Enquiry α) (d : Desk) :
    x.attempt.run feed d = (.ok (x.run feed d).1, (x.run feed d).2) := by
  induction x generalizing d with
  | answer | fail => rfl
  | consult _ ih => exact ih d.memory d
  | keepSlug _ _ _ ih | keepDirectory _ _ ih => exact ih _
  | enter _ _ ih | leave _ _ ih => exact ih d
  | request _ _ _ ih | requestAll _ _ _ ih => exact ih _ _

/-- With nobody else around a lock makes no difference. -/
theorem run_guarded (feed : Feed) (gate : Gate) (x : Enquiry α) (d : Desk) :
    (guarded gate x).run feed d = x.run feed d := by
  rw [guarded, run, run_bind, run_attempt]
  -- The lock is released after an answer and after a failure alike.
  cases h : x.run feed d with
  | mk result d' => cases result <;> rfl

end Enquiry

end ChainWallet
