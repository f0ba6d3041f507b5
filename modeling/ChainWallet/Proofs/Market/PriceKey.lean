import ChainWallet.Market.Price
import ChainWallet.Proofs.Text.Pieces

/-!
# The texts of keys

A table of prices has them under texts: the name of a type, a symbol and a currency with dashes in between.
Symbols and currencies may have dashes themselves, the names of types have none.

* **`MarketPrice.keyOf_eq_keyOf_iff`** — so a key tells the type, and symbol and currency only as one text.
* **`MarketPrice.keyOf_eq_iff`**, **`MarketPrice.keyOf_eq_of_symbol_iff`** — in one currency a key tells the
  symbol, and of one symbol it tells the currency.
-/

namespace ChainWallet

/-- The names of types have no dash, which is why a key tells the type. -/
theorem AssetType.dash_not_mem_name (t : AssetType) : '-' ∉ (Named.name t).toList := by
  cases t <;> decide

theorem AssetType.name_injective {t u : AssetType} (h : Named.name t = Named.name u) : t = u := by
  revert h
  cases t <;> cases u <;> decide

namespace MarketPrice

variable {t u : AssetType} {symbol other currency quote : String}

/-- Two prices have one key exactly if they are of one type, and symbol and currency are one text with the dash
between them. -/
theorem keyOf_eq_keyOf_iff : keyOf t symbol currency = keyOf u other quote
    ↔ t = u ∧ symbol ++ "-" ++ currency = other ++ "-" ++ quote := by
  constructor
  · intro h
    have hchars := congrArg String.toList h
    simp only [keyOf, String.toList_append, List.append_assoc] at hchars
    -- The first dash ends the name of the type.
    obtain ⟨hname, hrest⟩ := Text.eq_of_append_sep t.dash_not_mem_name u.dash_not_mem_name hchars
    refine ⟨AssetType.name_injective (String.toList_injective hname), String.toList_injective ?_⟩
    simp only [String.toList_append, List.append_assoc]
    exact hrest
  · rintro ⟨rfl, h⟩
    simpa only [keyOf, String.append_assoc] using congrArg (Named.name t ++ "-" ++ ·) h

/-- In one currency two prices have one key only if they are of one type and one symbol. -/
theorem keyOf_eq_iff : keyOf t symbol currency = keyOf u other currency ↔ t = u ∧ symbol = other := by
  rw [keyOf_eq_keyOf_iff]
  refine and_congr_right fun _ => ⟨fun h => ?_, fun h => h ▸ rfl⟩
  have hchars := congrArg String.toList h
  simp only [String.toList_append, List.append_assoc] at hchars
  exact String.toList_injective (List.append_cancel_right hchars)

/-- Of one symbol two prices have one key only if they are of one type and in one currency. -/
theorem keyOf_eq_of_symbol_iff : keyOf t symbol currency = keyOf u symbol quote ↔ t = u ∧ currency = quote := by
  rw [keyOf_eq_keyOf_iff]
  refine and_congr_right fun _ => ⟨fun h => ?_, fun h => h ▸ rfl⟩
  have hchars := congrArg String.toList h
  simp only [String.toList_append, List.append_assoc] at hchars
  exact String.toList_injective (List.append_cancel_left (List.append_cancel_left hchars))

end MarketPrice

end ChainWallet
