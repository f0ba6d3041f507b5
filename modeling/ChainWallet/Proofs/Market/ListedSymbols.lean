import ChainWallet.Proofs.Market.FirstSupported
import ChainWallet.Proofs.Text.Pieces
import ChainWallet.Proofs.Text.UpperCase

/-!
# The symbols that a deployment lists

A setting lists symbols as an operator writes them, and the whitelist holds them in capital letters. The symbol
of an Ethereum token is put into capital letters before it is looked up there; that of a Cronos token is not, so
for Cronos tokens the whitelist knows a listed symbol in capital letters only.

* **`Lists`**, **`mem_ofSetting_iff`** — the symbols that a setting lists, and what the whitelist holds of them.
* **`Honours`**, **`listed_symbol_honoured`** — the tokens that a listed symbol makes trusted.
* **`listed_symbol_not_supported`** — a Cronos token that stands on the list as it is written, and is not
  trusted.
-/

namespace ChainWallet

open Text

namespace Whitelist

/-- A setting lists a symbol: the symbol stands between two commas, without the blanks around it. -/
def Lists (setting symbol : String) : Prop :=
  symbol ≠ "" ∧ ∃ piece, IsPiece ',' setting.toList piece ∧ IsCore isBlank piece symbol.toList

variable {setting symbol : String}

/-- Whether a setting lists a symbol is told by its pieces. -/
theorem lists_iff : Lists setting symbol
    ↔ symbol ≠ "" ∧ ∃ piece ∈ pieces ',' setting.toList, trim isBlank piece = symbol.toList := by
  simp only [Lists, mem_pieces_iff, trim_eq_iff]

instance : Decidable (Lists setting symbol) := decidable_of_iff _ lists_iff.symm

theorem mem_ofSetting_iff {name : String} :
    name ∈ ofSetting setting ↔ ∃ symbol, Lists setting symbol ∧ name = upper symbol := by
  simp only [ofSetting, List.mem_eraseDups, List.mem_map, List.mem_filter]
  constructor
  · rintro ⟨core, ⟨⟨piece, hpiece, hcore⟩, hne⟩, rfl⟩
    refine ⟨String.ofList core, ⟨?_, piece, mem_pieces_iff.mp hpiece, ?_⟩, rfl⟩
    · simpa using hne
    · rw [String.toList_ofList]
      exact trim_eq_iff.mp hcore
  · rintro ⟨symbol, ⟨hne, piece, hpiece, hcore⟩, rfl⟩
    refine ⟨symbol.toList, ⟨⟨piece, mem_pieces_iff.mpr hpiece, trim_eq_iff.mpr hcore⟩, ?_⟩, ?_⟩
    · simpa using hne
    · rw [String.ofList_toList]

/-- A setting that lists some symbol replaces the bundled list. -/
theorem mem_effective_iff (listed : Lists setting symbol) {bundled : List String} {name : String} :
    name ∈ effective setting bundled ↔ ∃ symbol, Lists setting symbol ∧ name = upper symbol := by
  have hne : (ofSetting setting).isEmpty = false :=
    List.isEmpty_eq_false_iff_exists_mem.mpr ⟨_, mem_ofSetting_iff.mpr ⟨symbol, listed, rfl⟩⟩
  rw [effective, hne, ← mem_ofSetting_iff]
  rfl

/-- Of a listed symbol itself the whitelist knows something only if it is in capital letters. -/
theorem mem_effective_self_iff (listed : Lists setting symbol) {bundled : List String} :
    symbol ∈ effective setting bundled ↔ upper symbol = symbol := by
  rw [mem_effective_iff listed]
  constructor
  · rintro ⟨other, -, rfl⟩
    exact upper_upper other
  · exact fun h => ⟨symbol, listed, h.symm⟩

end Whitelist

namespace Resolver

open Whitelist

section

variable {r : Resolver} {crc20 erc20 : String}

/-- A Cronos token is trusted for its symbol, its name or a tag. -/
theorem trusts_crc20_iff {token : TokenRecord} : r.Trusts .crc20 token
    ↔ token.symbol ∈ r.whitelists.crc20 ∨ token.slug ∈ nativeSlugs ∨ cronosTag ∈ token.tags.getD [] := by
  constructor
  · intro h
    cases h with
    | native slug => exact .inr (.inl slug)
    | listedCrc20 symbol => exact .inl symbol
    | taggedCrc20 present tag => exact .inr (.inr (by rw [present]; exact tag))
  · rintro (hsymbol | hslug | htag)
    · exact .listedCrc20 hsymbol
    · exact .native hslug
    · cases htags : token.tags with
      | none => simp [htags] at htag
      | some tags => exact .taggedCrc20 htags (by simpa [htags] using htag)

/-- What the symbols that two settings list mean to a resolver. -/
structure Honours (r : Resolver) (crc20 erc20 : String) : Prop where
  /-- A listed Ethereum token is trusted in any letter case, whatever its name and tags. -/
  erc20 : ∀ symbol, Lists erc20 symbol → ∀ token : TokenRecord, upper token.symbol = upper symbol →
    r.supports .erc20 token = true
  /-- A listed Cronos token is trusted if its own symbol is in capital letters. -/
  capitals : ∀ symbol, Lists crc20 symbol → ∀ token : TokenRecord, token.symbol = upper symbol →
    r.supports .crc20 token = true
  /-- With the symbol as it is listed it is trusted only if that makes no difference, or for another reason. -/
  asListed : ∀ symbol, Lists crc20 symbol → ∀ token : TokenRecord, token.symbol = symbol →
    (r.supports .crc20 token = true
      ↔ upper symbol = symbol ∨ token.slug ∈ nativeSlugs ∨ cronosTag ∈ token.tags.getD [])

/-- The whitelists of two settings trust what these list, except that Cronos tokens must have their symbols in
capital letters. -/
theorem listed_symbol_honoured (loaded : r.whitelists = .ofSettings crc20 erc20) : r.Honours crc20 erc20 := by
  have hcrc20 : r.whitelists.crc20 = effective crc20 bundledCrc20 := by rw [loaded]; rfl
  have herc20 : r.whitelists.erc20 = effective erc20 bundledErc20 := by rw [loaded]; rfl
  refine ⟨fun symbol listed token hsymbol => ?_, fun symbol listed token hsymbol => ?_,
    fun symbol listed token hsymbol => ?_⟩
  · -- The symbol of an Ethereum token is put in capital letters before it is looked for.
    refine supports_iff.mpr (.listedErc20 ?_)
    rw [herc20, mem_effective_iff listed]
    exact ⟨symbol, listed, hsymbol⟩
  · refine supports_iff.mpr (.listedCrc20 ?_)
    rw [hcrc20, mem_effective_iff listed]
    exact ⟨symbol, listed, hsymbol⟩
  · rw [supports_iff, trusts_crc20_iff, hcrc20, hsymbol, mem_effective_self_iff listed]

end

/-! A deployment that lists `vvs` and `Tonic` among Cronos tokens and `link` among Ethereum tokens. -/

namespace SmallLetters

def deployment : Resolver where
  priceApiV1Url := "https://price.test/v1"
  priceApiV2Url := "https://price.test/v2"
  fiatRateApiUrl := "https://fiat.test/v2"
  whitelists := .ofSettings " vvs,Tonic ," "link"

def token (slug symbol : String) : TokenRecord where
  slug := slug
  symbol := symbol
  tags := none
  usdPrice := .one
  usdDailyChange := none

/-- Small letters are no matter to Ethereum tokens, but the Cronos token is trusted in capital letters only. -/
theorem listed_in_small_letters :
    deployment.whitelists = .ofSettings " vvs,Tonic ," "link"
    ∧ deployment.supports .erc20 (token "chainlink" "link") = true
    ∧ deployment.supports .crc20 (token "tectonic" "TONIC") = true
    ∧ deployment.supports .crc20 (token "tectonic" "Tonic") = false := by
  have honours : deployment.Honours " vvs,Tonic ," "link" := listed_symbol_honoured rfl
  have htonic : Lists " vvs,Tonic ," "Tonic" := by decide
  have hcapitals : (token "tectonic" "TONIC").symbol = upper "Tonic" := by decide +kernel
  refine ⟨rfl, honours.erc20 "link" (by decide) _ rfl, honours.capitals "Tonic" htonic _ hcapitals, ?_⟩
  rw [Bool.eq_false_iff, ne_eq, honours.asListed "Tonic" htonic _ rfl]
  decide +kernel

/-- The token carries the symbol that is listed, and would be trusted if it were an Ethereum token. -/
theorem listed_symbol_not_supported :
    Lists " vvs,Tonic ," "vvs" ∧ deployment.whitelists = .ofSettings " vvs,Tonic ," "link"
    ∧ (token "vvs-finance" "vvs").symbol = "vvs"
    ∧ deployment.supports .crc20 (token "vvs-finance" "vvs") = false :=
  ⟨by decide, rfl, rfl, by decide +kernel⟩

end SmallLetters

end Resolver

end ChainWallet
