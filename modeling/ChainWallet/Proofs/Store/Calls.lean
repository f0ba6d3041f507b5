import ChainWallet.Proofs.Store.WellKept

/-!
# Saves, one after the other

The store is written to by saves in sessions. Saves of wallets and prices are committed by themselves. A save
of assets that fails in the middle leaves those before in its session: they are lost if the session is closed,
and committed by its next save if it goes on.

* **`StoreCall`, `Session.after`** — saves and the ends of sessions, and the session after one of them.
* **`Session.after_cases`** — all that a call can do.
* **`Session.WellKept`** — what a session sees and what it has committed are well kept. Every call leaves it so
  (`Session.WellKept.after`), and so does every list of them (`Session.WellKept.foldl`).
-/

namespace ChainWallet

/-- What is done with the store, in one session at a time. -/
inductive StoreCall where
  | saveWallet (w : WalletDraft)
  | saveAssets (assets : List Asset)
  | savePrice (p : MarketPrice)
  /-- The session is closed, and another one is opened. -/
  | reopen

namespace StoreCall

/-- The values of a call can be stored. -/
def Storable : StoreCall → Prop
  | saveWallet w => fitsColumn w.addressIndex = true
  | saveAssets assets => ∀ a ∈ assets, a.Storable
  | savePrice _ | reopen => True

/-- The assets that a call would save. -/
def assets : StoreCall → List Asset
  | saveAssets assets => assets
  | saveWallet _ | savePrice _ | reopen => []

end StoreCall

namespace Session

/-- The session after a call, which may have failed. -/
def after (x : Session) : StoreCall → Session
  | .saveWallet w => (x.saveWallet w).2
  | .saveAssets assets => (x.saveAssets assets).2
  | .savePrice p => x.savePrice p
  | .reopen => .on x.close

variable {x : Session} {c : StoreCall}

/-- A call commits what the session then sees, except for a list of assets that fails. -/
theorem after_cases (x : Session) (storable : c.Storable) :
    (∃ w, c = .saveWallet w ∧ x.after c = .on (x.current.putWallet w))
    ∨ (∃ assets t, c = .saveAssets assets ∧ x.current.saveAssets assets = .ok t ∧ x.after c = .on t)
    ∨ (∃ before after held, c = .saveAssets (before ++ after) ∧ x.current.saveAssets before = .ok held
      ∧ x.after c = ⟨x.committed, held⟩)
    ∨ (∃ p, c = .savePrice p ∧ x.after c = .on (x.current.savePrice p))
    ∨ (c = .reopen ∧ x.after c = .on x.committed) := by
  cases c with
  | saveWallet w =>
    have hsave : x.current.saveWallet w = .ok (x.current.putWallet w) := Store.saveWallet_of_fits storable
    refine .inl ⟨w, rfl, ?_⟩
    simp only [after, saveWallet, hsave, commit, on]
  | saveAssets assets =>
    -- A list that fails leaves the assets before the failing one in the session, uncommitted.
    cases hsave : x.current.saveAssets assets with
    | ok t => exact .inr (.inl ⟨assets, t, rfl, hsave, congrArg Prod.snd (saveAssets_of_ok hsave)⟩)
    | error f =>
      obtain ⟨before, after, held, rfl, hheld, hfailed⟩ := saveAssets_of_error hsave
      exact .inr (.inr (.inl ⟨before, after, held, rfl, hheld, congrArg Prod.snd hfailed⟩))
  | savePrice p => exact .inr (.inr (.inr (.inl ⟨p, rfl, rfl⟩)))
  | reopen => exact .inr (.inr (.inr (.inr ⟨rfl, rfl⟩)))

/-- What the session sees and what it has committed are well kept, and differ in assets only. -/
structure WellKept (x : Session) : Prop where
  committed : x.committed.WellKept
  current : x.current.WellKept
  wallets : x.current.wallets = x.committed.wallets
  prices : x.current.prices = x.committed.prices

/-- A session that has just been opened sees what is committed. -/
theorem wellKept_on {s : Store} (kept : s.WellKept) : (on s).WellKept :=
  ⟨kept, kept, rfl, rfl⟩

/-- A call leaves the session well kept, whether it fails or not. -/
theorem WellKept.after (kept : x.WellKept) (storable : c.Storable) : (x.after c).WellKept := by
  rcases after_cases x storable with ⟨w, rfl, hafter⟩ | ⟨assets, t, rfl, hsave, hafter⟩
    | ⟨before, rest, held, rfl, hheld, hafter⟩ | ⟨p, rfl, hafter⟩ | ⟨rfl, hafter⟩ <;> rw [hafter]
  · exact wellKept_on (kept.current.saveWallet (Store.saveWallet_of_fits storable))
  · exact wellKept_on (kept.current.saveAssets (fun a ha => (storable a ha).balance) hsave)
  · -- Nothing is committed, but the session sees the assets before the one that failed.
    obtain ⟨hwallets, hprices⟩ := Store.saveAssets_others hheld
    have hbalances : ∀ a ∈ before, a.balance.exactRange = true :=
      fun a ha => (storable a (List.mem_append_left rest ha)).balance
    exact ⟨kept.committed, kept.current.saveAssets hbalances hheld, hwallets.trans kept.wallets,
      hprices.trans kept.prices⟩
  · exact wellKept_on (kept.current.savePrice p)
  · exact wellKept_on kept.committed

/-- So does every list of calls. -/
theorem WellKept.foldl {calls : List StoreCall} (kept : x.WellKept) (storable : ∀ c ∈ calls, c.Storable) :
    (calls.foldl Session.after x).WellKept :=
  List.foldlRecOn (motive := Session.WellKept) calls Session.after kept
    fun _ hkept c hc => hkept.after (storable c hc)

/-- The session finds the wallets that are committed. -/
theorem WellKept.findWallet (kept : x.WellKept) (identifier : String) :
    x.current.findWallet identifier = x.committed.findWallet identifier := by
  rw [Store.findWallet, kept.wallets]
  rfl

end Session

end ChainWallet
