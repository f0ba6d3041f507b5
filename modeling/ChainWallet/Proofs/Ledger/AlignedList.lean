import ChainWallet.Ledger.AddressList
import ChainWallet.Proofs.Prefixwise

/-!
# Every entry of an address list belongs to its index

The device is asked for one address after the other, and each is put beside the index and the path that it is
for. This holds for any range, on either side of zero, and for a device that is unplugged or changes its mind
between two calls.

* **`Device.Answered`** — calls that a device has answered, one after the other; `ask_append` says that it is
  then asked for the rest.
* **`AddressQuery.Listed`, `request`** — the assets that have a list, and the call for one index of it.
* **`AddressQuery.reply`** — the reply to the call for an index, after the calls for the indices before it.
* **`run_of_answered`**, **`run_of_failure`** — what becomes of a list all of whose calls are answered, and of
  one that a call ends.
* **`list_aligned`** — both together.
-/

namespace ChainWallet

open Ledger

/-- At place `k` of a list over the first numbers stands what belongs to `k`. -/
theorem getElem?_map_range {α : Type} {g : Nat → α} {n k : Nat} {x : α} :
    ((List.range n).map g)[k]? = some x ↔ k < n ∧ g k = x := by
  rw [List.getElem?_map, Option.map_eq_some_iff]
  constructor
  · rintro ⟨i, hi, rfl⟩
    obtain ⟨hlt, rfl⟩ := List.getElem?_eq_some_iff.mp hi
    rw [List.getElem_range]
    exact ⟨by simpa using hlt, rfl⟩
  · rintro ⟨hk, rfl⟩
    exact ⟨k, List.getElem?_range hk, rfl⟩

namespace Device

variable {device : Device} {earlier : List DeviceCall} {exchange : List (DeviceCall × String)}

/-- A device has answered calls one after the other. -/
def Answered (device : Device) (earlier : List DeviceCall) (exchange : List (DeviceCall × String)) : Prop :=
  Prefixwise (fun before x => device (earlier ++ before.map Prod.fst) x.1 = .ok x.2) exchange

/-- A device that has answered calls has answered the first one, and after it the others. -/
theorem answered_cons {x : DeviceCall × String} : device.Answered earlier (x :: exchange)
    ↔ device earlier x.1 = .ok x.2 ∧ device.Answered (earlier ++ [x.1]) exchange := by
  constructor
  · intro h
    refine ⟨by simpa using h 0 x rfl, fun k y hy => ?_⟩
    simpa using h (k + 1) y hy
  · rintro ⟨hx, hrest⟩ (_ | k) y hy
    · cases hy
      simpa using hx
    · simpa using hrest k y hy

/-- After the calls that it answers a device is asked for the rest. -/
theorem ask_append (h : device.Answered earlier exchange) (rest : List DeviceCall) :
    device.ask earlier (exchange.map Prod.fst ++ rest)
      = ((device.ask (earlier ++ exchange.map Prod.fst) rest).1.map (exchange.map Prod.snd ++ ·),
        (device.ask (earlier ++ exchange.map Prod.fst) rest).2) := by
  induction exchange generalizing earlier with
  | nil =>
    simp only [List.map_nil, List.nil_append, List.append_nil]
    rcases device.ask earlier rest with ⟨_ | _, _⟩ <;> rfl
  | cons x exchange ih =>
    obtain ⟨hx, hrest⟩ := answered_cons.mp h
    -- The first call is answered, so the device is asked for the others behind it.
    rw [List.map_cons, List.cons_append, ask]
    simp only [hx, ih hrest, List.map_cons, List.append_assoc, List.singleton_append]
    rcases device.ask (earlier ++ x.1 :: exchange.map Prod.fst) rest with ⟨_ | _, _⟩ <;> rfl

end Device

namespace Ledger.AddressQuery

variable {q : AddressQuery} {device : Device} {earlier : List DeviceCall}

/-! ### Calls and replies -/

/-- The assets that have a list: those of EVM chains, and the coins of the Crypto.org chain and the Cosmos
Hub. -/
def Listed (q : AddressQuery) : Prop :=
  q.assetType = .evm ∨ q.assetType = .tendermint ∧ (q.chain = .cryptoOrg ∨ q.chain = .cosmosHub)

/-- The call for one index of a list. Only a list of the Crypto.org chain uses the prefix that it is asked
with. -/
def request (q : AddressQuery) (index : Int) : DeviceCall :=
  if q.assetType = .evm then .evmAddress index q.standard false
  else .address index (if q.chain = .cosmosHub then cosmosHubPrefix else q.addressPrefix) q.chain q.standard
    false

/-- The calls for the indices from the start to before another one. -/
def requestsTo (q : AddressQuery) (index : Int) : List DeviceCall :=
  (List.range (index - q.start).toNat).map fun (k : Nat) => q.request (q.start + k)

/-- The reply to the call for an index, when the calls for those before it have been made. -/
def reply (q : AddressQuery) (device : Device) (earlier : List DeviceCall) (index : Int) :
    Except Failure String :=
  device (earlier ++ q.requestsTo index) (q.request index)

/-- The call for an index asks for that index. -/
theorem index_request (q : AddressQuery) (index : Int) : (q.request index).index = index := by
  unfold request
  split <;> rfl

/-- A list of one of these kinds asks by its own call. -/
theorem call?_of_listed (listed : q.Listed) (index : Int) : q.call? index = some (q.request index) := by
  obtain ⟨assetType, chain, standard, addressPrefix, start, stop⟩ := q
  rcases listed with hevm | ⟨htendermint, hchain⟩
  · cases hevm
    rfl
  · cases htendermint
    rcases hchain with hchain | hchain <;> cases hchain <;> rfl

/-- No other list makes a call. -/
theorem call?_of_unlisted (unlisted : ¬ q.Listed) (index : Int) : q.call? index = none := by
  obtain ⟨assetType, chain, standard, addressPrefix, start, stop⟩ := q
  -- By type and chain: there is no call, or the list would be one of those above.
  cases assetType <;> cases chain <;> first | rfl | exact absurd (by simp [Listed]) unlisted

/-- The call for an index is the last one of those up to it. -/
theorem requestsTo_eq_append {index : Int} (h : q.start ≤ index) :
    q.requestsTo (index + 1) = q.requestsTo index ++ [q.request index] := by
  have hlength : (index + 1 - q.start).toNat = (index - q.start).toNat + 1 := by omega
  have hlast : q.start + ((index - q.start).toNat : Int) = index := by omega
  simp only [requestsTo, hlength, List.range_succ, List.map_append, List.map_cons, List.map_nil, hlast]

/-- There are as many calls as indices. -/
theorem length_requestsTo (q : AddressQuery) (index : Int) :
    (q.requestsTo index).length = (index - q.start).toNat := by
  rw [requestsTo, List.length_map, List.length_range]

/-- The coin of the test network stands only in the paths of a Crypto.org list whose addresses are on it. -/
theorem testnet_eq_true_iff : q.testnet = true
    ↔ q.assetType = .tendermint ∧ q.chain = .cryptoOrg ∧ ∃ rest, q.addressPrefix.toList = 't' :: rest := by
  have hhead : isTestnetPrefix q.addressPrefix = true ↔ ∃ rest, q.addressPrefix.toList = 't' :: rest := by
    rw [isTestnetPrefix, beq_iff_eq, List.head?_eq_some_iff]
  rw [← hhead]
  obtain ⟨assetType, chain, standard, addressPrefix, start, stop⟩ := q
  cases assetType <;> cases chain <;> simp [testnet]

/-! ### Lists -/

/-- The exchange with a device over the indices from the start to before another one. -/
def exchangeTo (q : AddressQuery) (address : Int → String) (index : Int) : List (DeviceCall × String) :=
  (List.range (index - q.start).toNat).map fun (k : Nat) => (q.request (q.start + k), address (q.start + k))

/-- The calls of an exchange are those for its indices. -/
theorem map_fst_exchangeTo (q : AddressQuery) (address : Int → String) (index : Int) :
    (q.exchangeTo address index).map Prod.fst = q.requestsTo index := by
  rw [exchangeTo, requestsTo, List.map_map]
  rfl

/-- A device that replies to every index has answered the whole exchange, because each call is made after those
before it. -/
theorem answered_exchangeTo {address : Int → String} {index : Int}
    (h : ∀ i, q.start ≤ i → i < index → q.reply device earlier i = .ok (address i)) :
    device.Answered earlier (q.exchangeTo address index) := by
  intro k x hx
  obtain ⟨hk, rfl⟩ := getElem?_map_range.mp hx
  -- The calls before an index are those for the indices before it.
  have hbefore : ((q.exchangeTo address index).take k).map Prod.fst = q.requestsTo (q.start + k) := by
    rw [List.map_take, map_fst_exchangeTo, requestsTo, requestsTo, ← List.map_take, List.take_range]
    congr 2
    omega
  rw [hbefore]
  exact h (q.start + k) (by omega) (by omega)

/-- A list asks for its indices in order and puts the answers beside them. -/
theorem run_of_listed (listed : q.Listed) (device : Device) (earlier : List DeviceCall) :
    q.run device earlier = ((device.ask earlier (q.requestsTo q.stop)).1.map (List.zipWith q.entry q.indices),
      (device.ask earlier (q.requestsTo q.stop)).2) := by
  have hcalls : q.indices.mapM q.call? = some (q.requestsTo q.stop) := by
    rw [funext (call?_of_listed listed), indices, requestsTo, List.mapM_map]
    exact List.mapM_pure
  rw [run, hcalls]

/-- A list all of whose calls are answered has the answers in order. -/
theorem run_of_answered (listed : q.Listed) {address : Int → String}
    (h : ∀ i, q.start ≤ i → i < q.stop → q.reply device earlier i = .ok (address i)) :
    q.run device earlier = (.ok (q.indices.map fun i => q.entry i (address i)),
      earlier ++ q.requestsTo q.stop) := by
  have hask := Device.ask_append (answered_exchangeTo h) []
  rw [List.append_nil, map_fst_exchangeTo, Device.ask] at hask
  have haddresses : (q.exchangeTo address q.stop).map Prod.snd = q.indices.map address := by
    rw [exchangeTo, indices, List.map_map, List.map_map]
    rfl
  rw [run_of_listed listed, hask, haddresses]
  simp only [Except.map, List.append_nil, List.zipWith_map_right, List.zipWith_self]

/-- The first call that fails ends a list, and is the last one that is made. -/
theorem run_of_failure (listed : q.Listed) {address : Int → String} {j : Int} {f : Failure}
    (first : q.start ≤ j) (last : j < q.stop)
    (h : ∀ i, q.start ≤ i → i < j → q.reply device earlier i = .ok (address i))
    (failed : q.reply device earlier j = .error f) :
    q.run device earlier = (.error f, earlier ++ q.requestsTo (j + 1)) := by
  -- Behind the answered calls comes the one for the index, and then others that are never made.
  obtain ⟨rest, hsplit⟩ : ∃ rest, q.requestsTo q.stop = q.requestsTo j ++ q.request j :: rest := by
    have hprefix : q.requestsTo (j + 1) <+: q.requestsTo q.stop := by
      have htake : q.requestsTo (j + 1) = (q.requestsTo q.stop).take (j + 1 - q.start).toNat := by
        rw [requestsTo, requestsTo, ← List.map_take, List.take_range]
        congr 2
        omega
      rw [htake]
      exact List.take_prefix _ _
    obtain ⟨rest, hrest⟩ := hprefix
    exact ⟨rest, by rw [← hrest, requestsTo_eq_append first, List.append_assoc, List.singleton_append]⟩
  have hask := Device.ask_append (answered_exchangeTo h) (q.request j :: rest)
  have hfailed : device (earlier ++ q.requestsTo j) (q.request j) = .error f := failed
  rw [map_fst_exchangeTo, ← hsplit, Device.ask] at hask
  simp only [hfailed, Except.map] at hask
  rw [run_of_listed listed, hask, requestsTo_eq_append first, List.append_assoc]
  rfl

/-- A list has one entry for each index, in order, with the address that the device gave for this index and the
path of this index, and the calls for them are made in the same order. The first call that fails ends it, with
its failure and without the calls behind it. Assets that have no list cost no call. -/
theorem list_aligned (q : AddressQuery) (device : Device) (earlier : List DeviceCall) :
    (q.Listed →
      ((∀ i, q.start ≤ i → i < q.stop → ∃ address, q.reply device earlier i = .ok address) →
        ∃ entries, q.run device earlier = (.ok entries, earlier ++ q.requestsTo q.stop)
          ∧ entries.length = (q.stop - q.start).toNat
          ∧ ∀ (k : Nat) (e : AddressEntry), entries[k]? = some e →
            e.index = q.start + k ∧ q.reply device earlier (q.start + k) = .ok e.address
              ∧ e.path = derivationPath (q.start + k) q.assetType q.chain q.standard q.testnet
              ∧ e.balance = "0")
      ∧ ∀ j f, q.start ≤ j → j < q.stop →
        (∀ i, q.start ≤ i → i < j → ∃ address, q.reply device earlier i = .ok address) →
        q.reply device earlier j = .error f →
          q.run device earlier = (.error f, earlier ++ q.requestsTo (j + 1))
            ∧ ((q.requestsTo (j + 1)).length : Int) = j - q.start + 1)
    ∧ (¬ q.Listed → q.run device earlier = (.ok [], earlier))
    ∧ (∀ j, (q.requestsTo j).map (·.index)
      = (List.range (j - q.start).toNat).map fun (k : Nat) => q.start + (k : Int))
    ∧ (q.testnet = true
      ↔ q.assetType = .tendermint ∧ q.chain = .cryptoOrg ∧ ∃ rest, q.addressPrefix.toList = 't' :: rest) := by
  -- The address for each index, as far as the device replies.
  let address (i : Int) : String := (q.reply device earlier i).toOption.getD ""
  have haddress : ∀ i, (∃ a, q.reply device earlier i = .ok a) → q.reply device earlier i = .ok (address i) := by
    rintro i ⟨a, ha⟩
    simp only [address, ha, Except.toOption, Option.getD_some]
  refine ⟨fun listed => ⟨fun answered => ?_, fun j f first last answered failed => ?_⟩, fun unlisted => ?_,
    fun j => ?_, testnet_eq_true_iff⟩
  · have hreplies : ∀ i, q.start ≤ i → i < q.stop → q.reply device earlier i = .ok (address i) :=
      fun i hi hi' => haddress i (answered i hi hi')
    refine ⟨_, run_of_answered listed hreplies, by simp [indices], fun k e he => ?_⟩
    rw [indices, List.map_map] at he
    obtain ⟨hk, rfl⟩ := getElem?_map_range.mp he
    exact ⟨rfl, hreplies _ (by omega) (by omega), rfl, rfl⟩
  · refine ⟨run_of_failure listed first last (fun i hi hi' => haddress i (answered i hi hi')) failed, ?_⟩
    rw [length_requestsTo]
    omega
  · -- Without indices there is nothing to ask for anyway.
    cases hindices : q.indices with
    | nil =>
      rw [run, hindices]
      rfl
    | cons i rest =>
      rw [run, hindices, List.mapM_cons, call?_of_unlisted unlisted]
      rfl
  · rw [requestsTo, List.map_map]
    exact List.map_congr_left fun k _ => index_request q _

/-- The accounts of a test network from the one before the first on. -/
def testnetAccounts : AddressQuery where
  assetType := .tendermint
  chain := .cryptoOrg
  standard := .ledgerLive
  addressPrefix := "tcro"
  start := -1
  stop := 3

/-- A device that is unplugged after two answers. -/
def unpluggedAfterTwo : Device := fun earlier call =>
  if earlier.length < 2 then .ok ("tcro1-" ++ toString call.index)
  else .error (.device ⟨.disconnected, "", none⟩)

/-- Up to the first account the device answers, and behind it the list ends without its two entries. Vouchers
have no list. -/
theorem accounts_until_unplugged :
    testnetAccounts.Listed
    ∧ (∃ entries, { testnetAccounts with stop := 1 }.run unpluggedAfterTwo [] = (.ok entries,
        [.address (-1) "tcro" .cryptoOrg .ledgerLive false, .address 0 "tcro" .cryptoOrg .ledgerLive false])
      ∧ entries.map (fun e => (e.index, e.address, e.path))
        = [(-1, "tcro1--1", "m/44'/1'/-1'/0/0"), (0, "tcro1-0", "m/44'/1'/0'/0/0")])
    ∧ testnetAccounts.run unpluggedAfterTwo [] = (.error (.device ⟨.disconnected, "", none⟩),
      [.address (-1) "tcro" .cryptoOrg .ledgerLive false, .address 0 "tcro" .cryptoOrg .ledgerLive false,
        .address 1 "tcro" .cryptoOrg .ledgerLive false])
    ∧ { testnetAccounts with assetType := .ibc }.run unpluggedAfterTwo [] = (.ok [], []) := by
  have listed : testnetAccounts.Listed := .inr ⟨rfl, .inl rfl⟩
  have answered : ∀ i, -1 ≤ i → i < 1 →
      ∃ address, testnetAccounts.reply unpluggedAfterTwo [] i = .ok address := by
    intro i hi hi'
    obtain rfl | rfl : i = -1 ∨ i = 0 := by omega
    · exact ⟨"tcro1--1", by decide +kernel⟩
    · exact ⟨"tcro1-0", by decide +kernel⟩
  refine ⟨listed, ?_, ?_, ?_⟩
  · obtain ⟨entries, hrun, hlength, hentry⟩ :=
      ((list_aligned { testnetAccounts with stop := 1 } unpluggedAfterTwo []).1 listed).1 answered
    refine ⟨entries, hrun, ?_⟩
    -- Two indices make two entries, in their order.
    obtain ⟨e, e', rfl⟩ := List.length_eq_two.mp hlength
    obtain ⟨hindex, haddress, hpath, -⟩ := hentry 0 e rfl
    obtain ⟨hindex', haddress', hpath', -⟩ := hentry 1 e' rfl
    have hfirst : e.address = "tcro1--1" := Except.ok.inj (haddress.symm.trans (by decide +kernel))
    have hsecond : e'.address = "tcro1-0" := Except.ok.inj (haddress'.symm.trans (by decide +kernel))
    rw [List.map_cons, List.map_cons, List.map_nil, hindex, hfirst, hpath, hindex', hsecond, hpath']
    decide +kernel
  · exact (((list_aligned testnetAccounts unpluggedAfterTwo []).1 listed).2 1 _ (by decide) (by decide) answered
      (by decide +kernel)).1
  · refine (list_aligned { testnetAccounts with assetType := .ibc } unpluggedAfterTwo []).2.1 ?_
    -- An IBC voucher is neither on an EVM chain nor a coin of its own chain.
    rintro (hevm | ⟨htendermint, -⟩)
    · cases hevm
    · cases htendermint

end Ledger.AddressQuery

end ChainWallet
