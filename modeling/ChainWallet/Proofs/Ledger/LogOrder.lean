import ChainWallet.Ledger.Sequencer
import ChainWallet.Proofs.Prefixwise
import Mathlib.Data.List.Induction
import Mathlib.Data.Set.Card

/-!
# Confirmations in a log

A wait has a beginning and an end in the log, and so has every confirmation its place there. Which confirmation
counts for which wait can be read off: it comes after the beginning of that wait and before its end.

* **`openWait`** — the wait that has begun and is not over, and whether a confirmation has come in it.
  `announced` is the step that was announced last, and `isCleared` says whether a wait has been over since
  the last call.
* **`Admits`** — what may be noted next: the end of the wait that is open, as confirmed only if a confirmation
  has come in it, and a call for a step that waits only after a wait.
* **`Confirms`, `CallsAwaiting`** — a confirmation that counts for a wait, and a call for a step that waits.
* **`oneByOne_of_admitted`** — if every entry was admitted when it was noted, each confirmed wait has a
  confirmation of its own, and no more calls are made for steps that wait than there are such confirmations.
-/

namespace ChainWallet.Ledger

/-! ### Reading a log -/

/-- The step whose wait is open, and whether a confirmation has come in it, after one more entry. -/
def openWaitAfter (wait : Option (Step × Bool)) : LogEntry → Option (Step × Bool)
  | .armed step => some (step, false)
  | .command .advance => wait.map fun w => (w.1, true)
  | .wait .. => none
  | .command .reset | .event _ | .warned _ | .call _ => wait

/-- The step whose wait has begun and is not over, and whether a confirmation has come in it. -/
def openWait (log : List LogEntry) : Option (Step × Bool) :=
  log.foldl openWaitAfter none

/-- Whether a wait has been over since the last call. -/
def isCleared (log : List LogEntry) : Bool :=
  log.foldl (fun cleared e => match e with | .wait .. => true | .call _ => false | _ => cleared) false

/-- The step that was announced last. -/
def announced (log : List LogEntry) : Option Step :=
  (log.filterMap fun | .event ⟨step, .inProgress, _, _⟩ => some step | _ => none).getLast?

/-- What was done to the switch. -/
def switched (log : List LogEntry) : List Command :=
  log.filterMap fun | .command c => some c | .armed _ => some .reset | _ => none

variable {log : List LogEntry} {e : LogEntry} {cs : List Command}

@[simp] theorem openWait_concat : openWait (log ++ [e]) = openWaitAfter (openWait log) e := by
  simp [openWait]

/-- Commands keep a wait open, and a confirmation among them counts for it. -/
@[simp] theorem openWait_commands :
    openWait (log ++ cs.map .command) = (openWait log).map fun w => (w.1, w.2 || cs.contains .advance) := by
  induction cs using List.reverseRecOn with
  | nil => simp
  | append_singleton cs c ih =>
    rw [List.map_append, ← List.append_assoc, List.map_singleton, openWait_concat, ih]
    cases c <;> cases openWait log <;> simp [openWaitAfter]

@[simp] theorem isCleared_concat : isCleared (log ++ [e])
    = match e with | .wait .. => true | .call _ => false | _ => isCleared log := by
  simp [isCleared]

/-- Commands are no calls. -/
@[simp] theorem isCleared_commands : isCleared (log ++ cs.map .command) = isCleared log := by
  simp [isCleared, List.foldl_map]

/-- Commands announce nothing. -/
@[simp] theorem announced_commands : announced (log ++ cs.map .command) = announced log := by
  simp [announced, List.filterMap_map]

/-- A step that is announced is the last one that was. -/
theorem announced_event (step : Step) (address : String) (failure : Option StepFailure) :
    announced (log ++ [.event ⟨step, .inProgress, address, failure⟩]) = some step := by
  simp [announced]

/-! ### What may be noted -/

/-- What may be noted next. Only if `elapses` holds may a wait be over without a confirmation. -/
def Admits (elapses : Prop) (before : List LogEntry) : LogEntry → Prop
  | .wait step confirmed => ∃ released, openWait before = some (step, released)
      ∧ (confirmed = true → released = true) ∧ (confirmed = false → elapses)
  | .call _ => ∀ step, announced before = some step → step.awaitsAppSwitch = true →
      isCleared before = true
  | .armed _ | .command _ | .event _ | .warned _ => True

/-! ### What an admitted log is like -/

/-- The beginning of a wait, or its end. -/
def LogEntry.boundsWait : LogEntry → Bool
  | .armed _ | .wait .. => true
  | .event _ | .command _ | .warned _ | .call _ => false

/-- The confirmation at `k` counts for the wait that is over at `j`: it comes after the switch was last reset
for a wait, which was the wait of the same step, and before that is over. -/
def Confirms (log : List LogEntry) (k j : Nat) : Prop :=
  log[k]? = some (.command .advance) ∧ ∃ i step, i < k ∧ k < j
    ∧ log[i]? = some (.armed step) ∧ log[j]? = some (.wait step true)
    ∧ ∀ other, .armed other ∉ (log.take j).drop (i + 1)

/-- The call at `k` is for a step that waits for its app. -/
def CallsAwaiting (log : List LogEntry) (k : Nat) : Prop :=
  ∃ call step, log[k]? = some (.call call) ∧ announced (log.take k) = some step
    ∧ step.awaitsAppSwitch = true

variable {elapses : Prop} {step : Step}

/-- Where an open wait began. Nothing that bounds a wait has come since. -/
theorem exists_armed_of_openWait {released : Bool} (h : openWait log = some (step, released)) :
    ∃ i : Nat, log[i]? = some (.armed step) ∧ (∀ e ∈ log.drop (i + 1), e.boundsWait = false)
      ∧ (released = true → ∃ k, i < k ∧ log[k]? = some (.command .advance)) := by
  induction log using List.reverseRecOn generalizing released with
  | nil => cases h
  | append_singleton log last ih =>
    rw [openWait_concat] at h
    -- An entry that bounds no wait leaves the beginning where it is.
    have hstill : ∀ {released}, openWait log = some (step, released) → last.boundsWait = false →
        ∃ i : Nat, i < log.length ∧ (log ++ [last])[i]? = some (.armed step)
          ∧ (∀ e ∈ (log ++ [last]).drop (i + 1), e.boundsWait = false)
          ∧ (released = true → ∃ k, i < k ∧ (log ++ [last])[k]? = some (.command .advance)) := by
      intro released hopen hlast
      obtain ⟨i, hi, hsince, hconfirmed⟩ := ih hopen
      have hlt := (List.getElem?_eq_some_iff.mp hi).1
      refine ⟨i, hlt, by rw [List.getElem?_append_left hlt, hi], ?_, fun hreleased => ?_⟩
      · rw [List.drop_append_of_le_length hlt]
        intro e he
        rcases List.mem_append.mp he with he | he
        · exact hsince e he
        · exact List.mem_singleton.mp he ▸ hlast
      · obtain ⟨k, hik, hk⟩ := hconfirmed hreleased
        have hlt' := (List.getElem?_eq_some_iff.mp hk).1
        exact ⟨k, hik, by rw [List.getElem?_append_left hlt', hk]⟩
    -- By the last entry: it begins the wait, or leaves it open, and a confirmation is noted where it came.
    cases last with
    | armed other =>
      cases h
      exact ⟨log.length, by simp, by simp, fun hreleased => by cases hreleased⟩
    | wait other confirmed => cases h
    | event | warned | call =>
      obtain ⟨i, -, hall⟩ := hstill h rfl
      exact ⟨i, hall⟩
    | command c =>
      cases c with
      | reset =>
        obtain ⟨i, -, hall⟩ := hstill h rfl
        exact ⟨i, hall⟩
      | advance =>
        obtain ⟨⟨_, before⟩, hopen, heq⟩ := Option.map_eq_some_iff.mp h
        cases heq
        obtain ⟨i, hlt, hi, hsince, -⟩ := hstill hopen rfl
        exact ⟨i, hi, hsince, fun _ => ⟨log.length, hlt, by simp⟩⟩

/-- Where the last wait was over. No call has been made since. -/
theorem exists_wait_of_isCleared (h : isCleared log = true) :
    ∃ j step confirmed, log[j]? = some (.wait step confirmed)
      ∧ ∀ call, .call call ∉ log.drop (j + 1) := by
  induction log using List.reverseRecOn with
  | nil => cases h
  | append_singleton log last ih =>
    rw [isCleared_concat] at h
    -- An entry that is no call leaves the wait where it is.
    have hstill : isCleared log = true → (∀ call, last ≠ .call call) →
        ∃ j step confirmed, (log ++ [last])[j]? = some (.wait step confirmed)
          ∧ ∀ call, .call call ∉ (log ++ [last]).drop (j + 1) := by
      intro hcleared hlast
      obtain ⟨j, step, confirmed, hj, hsince⟩ := ih hcleared
      have hlt := (List.getElem?_eq_some_iff.mp hj).1
      refine ⟨j, step, confirmed, by rw [List.getElem?_append_left hlt, hj], fun call hmem => ?_⟩
      rw [List.drop_append_of_le_length hlt] at hmem
      rcases List.mem_append.mp hmem with hmem | hmem
      · exact hsince call hmem
      · exact hlast call (List.mem_singleton.mp hmem).symm
    cases last with
    | wait step confirmed => exact ⟨log.length, step, confirmed, by simp, by simp⟩
    | call c => cases h
    | armed | event | command | warned => exact hstill h (by simp)

section Admitted

variable (admitted : Prefixwise (Admits elapses) log) {j : Nat}

include admitted

/-- Every wait that is over began somewhere, and no other wait began or was over in between. If it is confirmed,
a confirmation came in between. -/
theorem exists_armed_of_wait {confirmed : Bool} (hj : log[j]? = some (.wait step confirmed)) :
    ∃ i < j, log[i]? = some (.armed step)
      ∧ (∀ e ∈ (log.take j).drop (i + 1), e.boundsWait = false)
      ∧ (confirmed = true → ∃ k, i < k ∧ k < j ∧ log[k]? = some (.command .advance)) := by
  obtain ⟨released, hopen, hreleased, -⟩ := admitted j _ hj
  obtain ⟨i, hi, hsince, hconfirmed⟩ := exists_armed_of_openWait hopen
  obtain ⟨hij, hi⟩ := getElem?_of_take hi
  refine ⟨i, hij, hi, hsince, fun hc => ?_⟩
  obtain ⟨k, hik, hk⟩ := hconfirmed (hreleased hc)
  obtain ⟨hkj, hk⟩ := getElem?_of_take hk
  exact ⟨k, hik, hkj, hk⟩

/-- A confirmed wait has a confirmation. -/
theorem exists_confirms (hj : log[j]? = some (.wait step true)) : ∃ k, Confirms log k j := by
  obtain ⟨i, -, hi, hsince, hconfirmed⟩ := exists_armed_of_wait admitted hj
  obtain ⟨k, hik, hkj, hk⟩ := hconfirmed rfl
  refine ⟨k, hk, i, step, hik, hkj, hi, hj, fun other hmem => ?_⟩
  cases hsince _ hmem

/-- A confirmation does not count for a wait and a later one, since the later one began after the other was
over. -/
theorem Confirms.not_lt {k j' : Nat} (h : Confirms log k j) (h' : Confirms log k j') : ¬ j < j' := by
  intro hlt
  obtain ⟨-, -, step, -, hkj, -, hj, -⟩ := h
  obtain ⟨-, i', step', hik', hkj', hi', hj', hlast⟩ := h'
  obtain ⟨i, hij, hi, hsince, -⟩ := exists_armed_of_wait admitted hj'
  -- The confirmation counts for the later wait, so no wait may have begun between its beginning and the
  -- confirmation.
  have hbegan : i ≤ i' := by
    by_contra hgt
    exact hlast step' (mem_between hi (Nat.lt_of_not_le hgt) hij)
  have hbetween : LogEntry.wait step true ∈ (log.take j').drop (i + 1) := mem_between hj (by omega) hlt
  cases hsince _ hbetween

/-- A confirmation counts for one wait only. -/
theorem Confirms.eq {k j' : Nat} (h : Confirms log k j) (h' : Confirms log k j') : j = j' :=
  Nat.le_antisymm (Nat.le_of_not_lt (h'.not_lt admitted h)) (Nat.le_of_not_lt (h.not_lt admitted h'))

/-- A call for a step that waits comes after a wait, and no other call was made in between. -/
theorem exists_wait_of_callsAwaiting {k : Nat} (h : CallsAwaiting log k) :
    ∃ j < k, ∃ step confirmed, log[j]? = some (.wait step confirmed)
      ∧ ∀ call, .call call ∉ (log.take k).drop (j + 1) := by
  obtain ⟨call, step, hk, hannounced, hawaits⟩ := h
  have hcleared : isCleared (log.take k) = true := admitted k _ hk step hannounced hawaits
  obtain ⟨j, step', confirmed, hj, hsince⟩ := exists_wait_of_isCleared hcleared
  obtain ⟨hjk, hj⟩ := getElem?_of_take hj
  exact ⟨j, hjk, step', confirmed, hj, hsince⟩

/-- If every wait was confirmed, each call for a step that waits has the wait before it to itself, and that has
a confirmation to itself. -/
theorem ncard_callsAwaiting_le (unelapsed : ∀ step, .wait step false ∉ log) :
    {k | CallsAwaiting log k}.ncard ≤ {k | ∃ j, Confirms log k j}.ncard := by
  have hex : ∀ k, CallsAwaiting log k → ∃ c j, Confirms log c j ∧ j < k
      ∧ ∀ call, .call call ∉ (log.take k).drop (j + 1) := by
    intro k h
    obtain ⟨j, hjk, step, confirmed, hj, hsince⟩ := exists_wait_of_callsAwaiting admitted h
    cases confirmed with
    | false => exact absurd (List.mem_of_getElem? hj) (unelapsed step)
    | true =>
      obtain ⟨c, hc⟩ := exists_confirms admitted hj
      exact ⟨c, j, hc, hjk, hsince⟩
  choose! confirmation wait hconfirms hbefore hsince using hex
  -- Two calls with one confirmation would have one wait before them, but between a wait and its call there is
  -- no other call.
  have hnotlt : ∀ k k', CallsAwaiting log k → CallsAwaiting log k' →
      confirmation k = confirmation k' → ¬ k < k' := by
    intro k k' h h' heq hlt
    have hwait : wait k = wait k' := (hconfirms k h).eq admitted (heq ▸ hconfirms k' h')
    obtain ⟨call, -, hk, -⟩ := id h
    exact hsince k' h' call (mem_between hk (hwait ▸ hbefore k h) hlt)
  -- There are no more confirmations than entries, so they can be counted.
  have hfinite : {k | ∃ j, Confirms log k j}.Finite := by
    refine (Set.finite_lt_nat log.length).subset ?_
    rintro k ⟨j, hk, -⟩
    exact (List.getElem?_eq_some_iff.mp hk).1
  refine Set.ncard_le_ncard_of_injOn confirmation (fun k h => ⟨wait k, hconfirms k h⟩) ?_ hfinite
  intro k h k' h' heq
  exact Nat.le_antisymm (Nat.le_of_not_lt (hnotlt k' k h' h heq.symm))
    (Nat.le_of_not_lt (hnotlt k k' h h' heq))

end Admitted

/-- In a log, confirmations count one by one: every confirmed wait has one, no two waits share one, and if every
wait is confirmed, there are no more calls for steps that wait than there are confirmations that count. -/
structure OneByOne (log : List LogEntry) : Prop where
  confirmed : ∀ j step, log[j]? = some (.wait step true) → ∃ k, Confirms log k j
  once : ∀ k j j', Confirms log k j → Confirms log k j' → j = j'
  calls : (∀ step, .wait step false ∉ log) →
    {k | CallsAwaiting log k}.ncard ≤ {k | ∃ j, Confirms log k j}.ncard

/-- In an admitted log confirmations count one by one. -/
theorem oneByOne_of_admitted (admitted : Prefixwise (Admits elapses) log) : OneByOne log where
  confirmed _ _ hj := exists_confirms admitted hj
  once _ _ _ h h' := h.eq admitted h'
  calls unelapsed := ncard_callsAwaiting_le admitted unelapsed

/-- Where no window can pass, every wait that is over was confirmed. -/
theorem not_mem_wait_of_admitted (admitted : Prefixwise (Admits elapses) log) (lasting : ¬ elapses) :
    .wait step false ∉ log := by
  intro hmem
  obtain ⟨j, hj⟩ := List.mem_iff_getElem?.mp hmem
  obtain ⟨-, -, -, helapses⟩ := admitted j _ hj
  exact lasting (helapses rfl)

end ChainWallet.Ledger
