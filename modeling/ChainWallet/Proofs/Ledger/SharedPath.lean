import ChainWallet.Ledger.AddressList
import ChainWallet.Proofs.Text.Pieces

/-!
# Accounts that share a path

The two standards number the accounts of a coin along different levels of one tree of keys. A path tells all of
its levels, so the numberings meet only where neither has left the first account.

* **`levelPath`**, **`levelPath_eq_iff`** — a path through given levels tells each of them, since no level has a
  slash in it (`slash_not_mem_level`).
* **`account`, `address`**, **`derivationPath_eq_levelPath`** — the levels that a standard puts an index at.
* **`derivationPath_eq_iff`** — so paths are equal only for one coin, and within a standard for one index.
* **`AddressQuery.path_of_mem`**, **`paths_meet_at_origin`** — the same of the lists to pick from.
-/

namespace ChainWallet

/-! ### Levels -/

/-- The text of a natural number has digits only. -/
theorem not_mem_repr {c : Char} (h : c.isDigit = false) (n : Nat) : c ∉ n.repr.toList := by
  -- Every character of the text stands for a digit.
  rw [Nat.repr_eq_ofList_toDigits, String.toList_ofList]
  intro hmem
  have hdigit : c.isDigit = true := Nat.isDigit_of_mem_toDigits (by decide) (by decide) hmem
  rw [h] at hdigit
  cases hdigit

/-- The text of a natural number tells the number. -/
theorem natRepr_inj {m n : Nat} : m.repr = n.repr ↔ m = n := by
  refine ⟨fun h => ?_, fun h => by rw [h]⟩
  rw [Nat.repr_eq_ofList_toDigits, Nat.repr_eq_ofList_toDigits, String.ofList_inj] at h
  -- A text of digits is read back as the number that it writes.
  rw [← Nat.ofDigitChars_ten_toDigits (n := m), h, Nat.ofDigitChars_ten_toDigits]

/-- Only the text of a negative number has a sign, so the text of a number tells the number. -/
theorem intRepr_inj {i j : Int} : i.repr = j.repr ↔ i = j := by
  refine ⟨fun h => ?_, fun h => by rw [h]⟩
  have hsigned : ∀ m n : Nat, m.repr ≠ "-" ++ n.repr := by
    intro m n heq
    have hsign : '-' ∈ m.repr.toList := by rw [heq]; simp
    exact not_mem_repr (by decide) m hsign
  rw [Int.repr_eq_if, Int.repr_eq_if] at h
  -- Both negative or both not; a text with a sign is none without.
  split at h <;> split at h
  · have := natRepr_inj.mp h
    omega
  · exact absurd h (hsigned _ _)
  · exact absurd h.symm (hsigned _ _)
  · have := natRepr_inj.mp (String.append_right_inj _ |>.mp h)
    omega

/-- No level but the last has a slash, so the slashes of a path part it. -/
theorem slash_not_mem_level (i : Int) : '/' ∉ (i.repr ++ "'").toList := by
  have hdigits : ∀ n : Nat, '/' ∉ n.repr.toList := not_mem_repr (by decide)
  have hquote : '/' ∉ "'".toList := by decide
  have hsign : '/' ∉ "-".toList := by decide
  rw [Int.repr_eq_if]
  split
  · simp only [String.toList_append, List.mem_append, not_or]
    exact ⟨hdigits _, hquote⟩
  · simp only [String.toList_append, List.mem_append, not_or]
    exact ⟨⟨hsign, hdigits _⟩, hquote⟩

namespace Ledger

/-- The path to an address of an account of a coin. -/
def levelPath (coin account address : Int) : String :=
  "m/44'/" ++ (coin.repr ++ "'" ++ "/" ++ (account.repr ++ "'" ++ "/" ++ ("0/" ++ address.repr)))

/-- Paths are the same text exactly if they are the same level by level. -/
theorem levelPath_eq_iff {coin coin' account account' address address' : Int} :
    levelPath coin account address = levelPath coin' account' address'
      ↔ coin = coin' ∧ account = account' ∧ address = address' := by
  constructor
  · intro h
    unfold levelPath at h
    rw [String.append_right_inj] at h
    -- The text is cut at its slashes, one after the other.
    obtain ⟨hcoin, h⟩ := Text.eq_of_append_slash (slash_not_mem_level coin) (slash_not_mem_level coin') h
    obtain ⟨haccount, h⟩ :=
      Text.eq_of_append_slash (slash_not_mem_level account) (slash_not_mem_level account') h
    rw [String.append_left_inj, intRepr_inj] at hcoin haccount
    rw [String.append_right_inj, intRepr_inj] at h
    exact ⟨hcoin, haccount, h⟩
  · rintro ⟨rfl, rfl, rfl⟩
    rfl

end Ledger

namespace DerivationStandard

/-- The account that an index stands for. -/
def account : DerivationStandard → Int → Int
  | .ledgerLive, index => index
  | .bip44, _ => 0

/-- The address of its account that an index stands for. -/
def address : DerivationStandard → Int → Int
  | .ledgerLive, _ => 0
  | .bip44, index => index

/-- Indices lead to the same levels only within one standard, or at the first account of both. -/
theorem levels_eq_iff {s t : DerivationStandard} {i j : Int} :
    s.account i = t.account j ∧ s.address i = t.address j ↔ s = t ∧ i = j ∨ i = 0 ∧ j = 0 := by
  cases s <;> cases t <;>
    simp only [account, address, reduceCtorEq, true_and, and_true, false_and, false_or] <;> omega

end DerivationStandard

namespace Ledger

/-- Both standards write a path of one form, and differ in the level that the index stands at. -/
theorem derivationPath_eq_levelPath (index : Int) (assetType : AssetType) (chain : Chain)
    (standard : DerivationStandard) (testnet : Bool) :
    derivationPath index assetType chain standard testnet
      = levelPath (coinType assetType chain testnet) (standard.account index) (standard.address index) := by
  have hend : "'/" = "'" ++ "/" := rfl
  have hfirst : "0'/0/" = (0 : Int).repr ++ "'" ++ "/" ++ "0/" := by decide
  have hlast : "'/0/0" = "'" ++ "/" ++ "0/" ++ (0 : Int).repr := by decide
  unfold derivationPath levelPath
  cases standard
  · rw [hend, hfirst]
    simp only [DerivationStandard.account, DerivationStandard.address, String.append_assoc]
    rfl
  · rw [hend, hlast]
    simp only [DerivationStandard.account, DerivationStandard.address, String.append_assoc]
    rfl

/-- Two paths are the same text only with the same coin and the same levels. -/
theorem derivationPath_eq_iff {i j : Int} {assetType other : AssetType} {chain chain' : Chain}
    {standard standard' : DerivationStandard} {testnet testnet' : Bool} :
    derivationPath i assetType chain standard testnet = derivationPath j other chain' standard' testnet'
      ↔ coinType assetType chain testnet = coinType other chain' testnet'
        ∧ (standard = standard' ∧ i = j ∨ i = 0 ∧ j = 0) := by
  rw [derivationPath_eq_levelPath, derivationPath_eq_levelPath, levelPath_eq_iff,
    DerivationStandard.levels_eq_iff, Int.natCast_inj]

/-! ### Lists -/

namespace AddressQuery

/-- The coin in the paths of a list. -/
def coin (q : AddressQuery) : Nat :=
  coinType q.assetType q.chain q.testnet

/-- The path beside an address of a list is the one of the index beside it. -/
theorem path_of_mem {q : AddressQuery} {device : Device} {earlier made : List DeviceCall}
    {entries : List AddressEntry} (listed : q.run device earlier = (.ok entries, made)) {e : AddressEntry}
    (he : e ∈ entries) : e.path = derivationPath e.index q.assetType q.chain q.standard q.testnet := by
  unfold run at listed
  split at listed
  · cases listed
    cases he
  · next calls _ =>
    rcases hask : device.ask earlier calls with ⟨f | addresses, made'⟩
    · rw [hask] at listed
      cases listed
    · rw [hask] at listed
      cases listed
      -- The entries are indices and addresses side by side, and the path is made of the index.
      rw [← List.map_uncurry_zip_eq_zipWith] at he
      obtain ⟨⟨index, address⟩, -, rfl⟩ := List.mem_map.mp he
      rfl

end AddressQuery

/-- Two paths are the same text exactly if they are of one coin, and of one index within a standard or of the
first index of both. So no two entries of lists of one standard have the same path unless they have the same
index, and lists of the two standards have only the path of the first account in common. -/
theorem paths_meet_at_origin :
    (∀ (i j : Int) (assetType other : AssetType) (chain chain' : Chain)
      (standard standard' : DerivationStandard) (testnet testnet' : Bool),
      derivationPath i assetType chain standard testnet = derivationPath j other chain' standard' testnet'
        ↔ coinType assetType chain testnet = coinType other chain' testnet'
          ∧ (standard = standard' ∧ i = j ∨ i = 0 ∧ j = 0))
    ∧ ∀ (p q : AddressQuery) (device device' : Device) (earlier earlier' made made' : List DeviceCall)
        (entries entries' : List AddressEntry),
      p.run device earlier = (.ok entries, made) → q.run device' earlier' = (.ok entries', made') →
        ∀ e ∈ entries, ∀ f ∈ entries', e.path = f.path
          ↔ p.coin = q.coin ∧ (p.standard = q.standard ∧ e.index = f.index ∨ e.index = 0 ∧ f.index = 0) := by
  constructor
  · intro i j assetType other chain chain' standard standard' testnet testnet'
    exact derivationPath_eq_iff
  · intro p q device device' earlier earlier' made made' entries entries' hp hq e he f hf
    rw [AddressQuery.path_of_mem hp he, AddressQuery.path_of_mem hq hf]
    exact derivationPath_eq_iff

/-- The accounts of an EVM chain before and behind the first one. -/
def accountsAround (standard : DerivationStandard) : AddressQuery where
  assetType := .evm
  chain := .cronos
  standard := standard
  addressPrefix := "cro"
  start := -1
  stop := 3

/-- A device that tells the index that it is asked for. -/
def indexTeller : Device := .steady fun call => .ok (toString call.index)

/-- Of the four accounts in each of the two lists only the first one has a path in common. -/
theorem first_account_shared : ∃ entries entries' made made',
    (accountsAround .bip44).run indexTeller [] = (.ok entries, made)
    ∧ (accountsAround .ledgerLive).run indexTeller [] = (.ok entries', made')
    ∧ (∃ e ∈ entries, ∃ f ∈ entries', e.path = f.path)
    ∧ (∀ e ∈ entries, ∀ f ∈ entries', e.path = f.path → e.index = 0 ∧ f.index = 0)
    ∧ ∀ e ∈ entries, ∀ f ∈ entries, e.path = f.path → e.index = f.index := by
  obtain ⟨entries, made, hbip, e, he, hezero⟩ : ∃ entries made,
      (accountsAround .bip44).run indexTeller [] = (.ok entries, made) ∧ ∃ e ∈ entries, e.index = 0 :=
    ⟨_, _, rfl, _, .tail _ (.head _), rfl⟩
  obtain ⟨entries', made', hlive, f, hf, hfzero⟩ : ∃ entries made,
      (accountsAround .ledgerLive).run indexTeller [] = (.ok entries, made) ∧ ∃ e ∈ entries, e.index = 0 :=
    ⟨_, _, rfl, _, .tail _ (.head _), rfl⟩
  have hshared := paths_meet_at_origin.2 _ _ _ _ _ _ _ _ _ _ hbip hlive
  have hwithin := paths_meet_at_origin.2 _ _ _ _ _ _ _ _ _ _ hbip hbip
  refine ⟨entries, entries', made, made', hbip, hlive, ⟨e, he, f, hf, ?_⟩, ?_, ?_⟩
  · exact (hshared e he f hf).mpr ⟨rfl, .inr ⟨hezero, hfzero⟩⟩
  · intro e he f hf hpath
    -- The lists are of different standards, which leaves the first account.
    obtain ⟨-, ⟨hstandard, -⟩ | hzero⟩ := (hshared e he f hf).mp hpath
    · cases hstandard
    · exact hzero
  · intro e he f hf hpath
    obtain ⟨-, ⟨-, hindex⟩ | ⟨hezero, hfzero⟩⟩ := (hwithin e he f hf).mp hpath
    · exact hindex
    · rw [hezero, hfzero]

end Ledger

end ChainWallet
