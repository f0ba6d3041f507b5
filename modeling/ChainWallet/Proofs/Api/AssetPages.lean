import ChainWallet.Proofs.Api.PagePath
import ChainWallet.Proofs.Market.Outages
import ChainWallet.Proofs.Text.PercentSpelling

/-!
# Which stored assets have pages

A client percent-encodes the identifier of an asset to ask for its price or for its prices over time. Every
identifier can be stored, but a path is decoded before it is taken apart, and so the pages of an asset are found
exactly if its identifier has no slash.

* **`AssetPage`** — the two pages of an asset; `standsAt_rest_iff` says which pages a request for one of them
  leads to: the asset's own one, or one that it is diverted to (`Diverted`).
* **`run_answer_of_get`**, **`run_display_of_found`** — what a client gets, and what it gets for an asset that is
  found.
* **`Service.Serves`**, **`stored_asset_reached`** — so a request is answered from the stored asset, from the page
  it is diverted to, or from no page.
* **`voucher_not_reached`** — a voucher of another chain has the slash of its denomination in its identifier.
-/

namespace ChainWallet.Api

/-- The pages of an asset. -/
inductive AssetPage where
  | price
  | history
  deriving DecidableEq, Repr

namespace AssetPage

def page : AssetPage → (identifier : String) → Page
  | .price, identifier => .price identifier
  | .history, identifier => .history identifier

/-- What stands behind `/prices/` in the path of the page. -/
def rest : AssetPage → (identifier : String) → String
  | .price, identifier => identifier
  | .history, identifier => identifier ++ "/history"

/-- The pages that requests for a page of an asset lead to although they are not the asset's own. -/
inductive Diverted : AssetPage → (identifier : String) → Page → Prop where
  | storedPrice {assetType symbol : String} (type : Page.IsPart assetType) (token : Page.IsPart symbol) :
      Diverted .price ("stored/" ++ assetType ++ "/" ++ symbol) (.storedPrice assetType symbol)
  | otherHistory {other last : String} (asset : Page.IsPart other) (ending : Page.isHistory last = true) :
      Diverted .price (other ++ "/" ++ last) (.history other)
  | storedHistory {assetType : String} (type : Page.IsPart assetType) :
      Diverted .history ("stored/" ++ assetType) (.storedPrice assetType "history")

variable {which : AssetPage} {identifier : String} {page : Page}

/-- Only an identifier with a slash is diverted. -/
theorem Diverted.slash_mem (h : Diverted which identifier page) : '/' ∈ identifier.toList := by
  cases h <;> simp

/-- What a request is diverted to is never the asset's own page. -/
theorem Diverted.ne_page (h : Diverted which identifier page) : page ≠ which.page identifier := by
  cases h <;> nofun

/-- The last part of the path of a history could be the name of an asset. -/
theorem isPart_history : Page.IsPart "history" :=
  Page.isPart_of_isHistory (by decide)

/-- A request for a page of an asset leads there, or is diverted. -/
theorem standsAt_rest_iff : page.StandsAt (which.rest identifier)
    ↔ page = which.page identifier ∧ Page.IsPart identifier ∨ Diverted which identifier page := by
  have hlast : "/history" = "/" ++ "history" := rfl
  constructor
  · intro h
    -- A request for a history has one more part at its end, so the slashes of the identifier are counted
    -- differently.
    cases which with
    | price =>
      change page.StandsAt identifier at h
      cases h with
      | storedPrice type token => exact .inr (.storedPrice type token)
      | price asset => exact .inl ⟨rfl, asset⟩
      | history asset ending => exact .inr (.otherHistory asset ending)
    | history =>
      change page.StandsAt (identifier ++ "/history") at h
      generalize hrest : identifier ++ "/history" = rest at h
      cases h with
      | storedPrice type token =>
        rw [hlast, ← String.append_assoc] at hrest
        obtain ⟨rfl, rfl⟩ := Text.eq_of_slash_append isPart_history.whole token.whole hrest
        exact .inr (.storedHistory type)
      | price asset =>
        have hslash : '/' ∈ rest.toList := by simp [← hrest]
        exact absurd hslash asset.whole
      | history asset ending =>
        rw [hlast, ← String.append_assoc] at hrest
        obtain ⟨rfl, -⟩ := Text.eq_of_slash_append isPart_history.whole
          (Page.isPart_of_isHistory ending).whole hrest
        exact .inl ⟨rfl, asset⟩
  · rintro (⟨rfl, asset⟩ | diverted)
    · cases which with
      | price => exact .price asset
      | history =>
        change (Page.history identifier).StandsAt (identifier ++ "/history")
        rw [hlast, ← String.append_assoc]
        exact .history asset (by decide)
    · cases diverted with
      | storedPrice type token => exact .storedPrice type token
      | otherHistory asset ending => exact .history asset ending
      | @storedHistory assetType type =>
        change (Page.storedPrice assetType "history").StandsAt ("stored/" ++ assetType ++ "/history")
        rw [hlast, ← String.append_assoc]
        exact .storedPrice type isPart_history

/-- The path of a page of an asset. -/
def path (base : String) (which : AssetPage) (identifier : String) : List Char :=
  (base ++ "/prices/" ++ which.rest identifier).toList

variable {base : String}

/-- The page at the path of an asset's page is that one, or one that the path is diverted to. -/
theorem ofPath?_path_iff : Page.ofPath? base (which.path base identifier) = some page
    ↔ page = which.page identifier ∧ Page.IsPart identifier ∨ Diverted which identifier page := by
  rw [path, Page.ofPath?_eq_some_iff, standsAt_rest_iff]

/-- An asset has its own page at its path exactly if its identifier has no slash. -/
theorem ofPath?_path_eq_page_iff (nonempty : identifier ≠ "") :
    Page.ofPath? base (which.path base identifier) = some (which.page identifier)
      ↔ '/' ∉ identifier.toList := by
  rw [ofPath?_path_iff]
  constructor
  · rintro (⟨-, part⟩ | diverted)
    · exact part.whole
    · exact absurd rfl diverted.ne_page
  · intro whole
    exact .inl ⟨rfl, nonempty, whole⟩

/-- Only the path of a price ends as the identifier does. -/
theorem price_of_getLast?_path (base : String) (nonempty : identifier ≠ "")
    (ends : (which.path base identifier).getLast? = some '/') :
    which = .price ∧ identifier.toList.getLast? = some '/' := by
  unfold path at ends
  rw [String.toList_append] at ends
  -- The path of a history ends with the last letter of its last part.
  cases which with
  | price =>
    rw [rest, List.getLast?_append_of_ne_nil _ (by simpa using nonempty)] at ends
    exact ⟨rfl, ends⟩
  | history =>
    have hrest : ∀ cs, (cs ++ (rest .history identifier).toList).getLast? = some 'y' := by
      intro cs
      rw [rest, String.toList_append, ← List.append_assoc, List.getLast?_append_of_ne_nil _ (by decide)]
      rfl
    rw [hrest] at ends
    cases ends

end AssetPage

/-! ### Answers -/

open Enquiry

namespace Service

variable {v : Service} {s : Store} {c : Call} {feed : Feed} {d : Desk} {identifier : String} {a : Asset}

/-- What a client gets of the outcome of a page. -/
def delivered (v : Service) (c : Call) : Except Failure Answer → Answer
  | .ok answer => if answer.body.isEncodable then answer.forOrigin v.origins c else .serverError
  | .error _ => .serverError

/-- A request for a page is answered with the outcome of the page that its path leads to. -/
theorem run_answer_of_get (get : c.method = "GET") (feed : Feed) (d : Desk) :
    ((v.answer s c).run feed d).1 = .ok (v.delivered c ((v.dispatch s c).run feed d).1) := by
  have hpreflight : c.preflight? = none := by
    unfold Call.preflight?
    rw [if_neg (by rw [get]; decide)]
  have hbody : ∀ answer : Answer, withoutBody c answer = answer := by
    intro answer
    unfold withoutBody
    rw [if_neg (by rw [get]; decide)]
  -- The request is neither a preflight nor one for the headers alone.
  unfold answer
  simp only [hpreflight, run_seq, run_attempt, hbody]
  cases ((v.dispatch s c).run feed d).1 <;> rfl

/-- A request for a page is answered by the page. -/
theorem dispatch_of_page {page : Page} (get : c.method = "GET") (h : Page.ofPath? v.base c.path = some page) :
    v.dispatch s c = v.display s c page := by
  rw [dispatch, h]
  exact if_pos get

/-- A request for no page is answered elsewhere. -/
theorem dispatch_of_none (h : Page.ofPath? v.base c.path = none) :
    v.dispatch s c = pure (v.elsewhere c.path) := by
  rw [dispatch, h]

/-- What a page of an asset shows, whatever the asset is stored under. -/
def outcome (v : Service) (a : Asset) (c : Call) (feed : Feed) (d : Desk) : AssetPage → Except Failure Answer
  | .price => .ok (.ok (Resolver.told a (v.currency c)
      ((v.resolver.tokenPrice a (v.currency c)).run feed d).1).toJson)
  | .history => historyAnswer ((v.resolver.priceSeries a (v.currency c)
      ((c.param? "interval").getD standardInterval)).run feed d).1

/-- The page of an asset that is found shows what is stored under its identifier. -/
theorem run_display_of_found (found : s.findAsset identifier = .ok (some a)) (which : AssetPage) :
    ((v.display s c (which.page identifier)).run feed d).1 = v.outcome a c feed d which := by
  cases which with
  | price =>
    simp only [AssetPage.page, display, price, outcome, run_seq, run_ofExcept, found,
      Resolver.run_assetPrice, run_pure]
  | history => exact run_history_of_found found d

/-- What a client gets that asks for a page of a stored asset. -/
inductive Serves (v : Service) (s : Store) (c : Call) (feed : Feed) (d : Desk) (which : AssetPage)
    (identifier : String) : Answer → Prop where
  | own {a : Asset} (whole : '/' ∉ identifier.toList) (found : s.findAsset identifier = .ok (some a))
      (same : a.identifier = identifier) :
      Serves v s c feed d which identifier (v.delivered c (v.outcome a c feed d which))
  | other {page : Page} (diverted : which.Diverted identifier page) :
      Serves v s c feed d which identifier (v.delivered c ((v.display s c page).run feed d).1)
  | nowhere {answer : Answer} (split : '/' ∈ identifier.toList)
      (undiverted : ∀ page, ¬ which.Diverted identifier page)
      (missing : answer.status = 404
        ∨ which = .price ∧ identifier.toList.getLast? = some '/' ∧ answer.status = 307) :
      Serves v s c feed d which identifier answer

/-- A path without a page that does not end in a slash is answered with that. -/
theorem elsewhere_of_getLast? {path : List Char} (h : path.getLast? ≠ some '/') :
    v.elsewhere path = .notFound := by
  unfold elsewhere
  exact if_neg fun ends => h ends.1

/-- Without a page the status is 404, or the one that sends a client on to the path without its last slash. -/
theorem status_elsewhere (v : Service) (c : Call) (path : List Char) :
    (v.delivered c (.ok (v.elsewhere path))).status = 404
      ∨ path.getLast? = some '/' ∧ (v.delivered c (.ok (v.elsewhere path))).status = 307 := by
  by_cases ends : path.getLast? = some '/'
  · unfold elsewhere
    split
    · exact .inr ⟨ends, rfl⟩
    · exact .inl rfl
  · rw [elsewhere_of_getLast? ends]
    exact .inl rfl

/-- A request for an asset's page that leads nowhere is one for an identifier with a slash. -/
theorem serves_elsewhere {which : AssetPage} (nonempty : identifier ≠ "") (split : '/' ∈ identifier.toList)
    (none : Page.ofPath? v.base (which.path v.base identifier) = none) :
    v.Serves s c feed d which identifier (v.delivered c (.ok (v.elsewhere (which.path v.base identifier)))) := by
  refine .nowhere split ?_ ?_
  · intro page diverted
    rw [AssetPage.ofPath?_path_iff.mpr (.inr diverted)] at none
    cases none
  · obtain missing | ⟨ends, moved⟩ := v.status_elsewhere c (which.path v.base identifier)
    · exact .inl missing
    · obtain ⟨price, hlast⟩ := AssetPage.price_of_getLast?_path v.base nonempty ends
      exact .inr ⟨price, hlast, moved⟩

end Service

/-- A request for a page of a stored asset, with the path spelled in any way, is answered from that asset exactly
if the identifier has no slash. With a slash in it, the request is answered from a page that it is diverted to,
or from none. -/
theorem stored_asset_reached (v : Service) (s : Store) (c : Call) (feed : Feed) (d : Desk) (which : AssetPage)
    (identifier : String) (target : List Char) (kept : s.WellKept)
    (stored : identifier ∈ s.assets.map AssetRow.identifier) (nonempty : identifier ≠ "")
    (get : c.method = "GET") (path : c.path = Text.percentDecode target)
    (spelled : Text.Spells target (v.base ++ "/prices/" ++ which.rest identifier).toList) :
    (Page.ofPath? v.base c.path = some (which.page identifier) ↔ '/' ∉ identifier.toList)
      ∧ ∃ answer, ((v.answer s c).run feed d).1 = .ok answer ∧ v.Serves s c feed d which identifier answer := by
  have hdecoded : c.path = which.path v.base identifier := path.trans (Text.percentDecode_of_spells spelled)
  have hown : Page.ofPath? v.base c.path = some (which.page identifier) ↔ '/' ∉ identifier.toList := by
    rw [hdecoded]
    exact AssetPage.ofPath?_path_eq_page_iff nonempty
  refine ⟨hown, _, Service.run_answer_of_get get feed d, ?_⟩
  -- Without a slash the path leads to the asset's own page, and with one to any other or to none.
  by_cases whole : '/' ∉ identifier.toList
  · obtain ⟨a, found⟩ := Store.exists_findAsset kept stored
    rw [Service.dispatch_of_page get (hown.mpr whole), Service.run_display_of_found found]
    exact .own whole found (Store.findAsset_identifier found)
  · have split : '/' ∈ identifier.toList := not_not.mp whole
    cases hpage : Page.ofPath? v.base c.path with
    | some page =>
      rw [Service.dispatch_of_page get hpage]
      rw [hdecoded] at hpage
      obtain ⟨-, part⟩ | diverted := AssetPage.ofPath?_path_iff.mp hpage
      · exact absurd part.whole whole
      · exact .other diverted
    | none =>
      rw [Service.dispatch_of_none hpage, run_pure, hdecoded]
      rw [hdecoded] at hpage
      exact Service.serves_elsewhere nonempty split hpage

/-! Vouchers of a coin from another chain. -/

namespace Voucher

def voucher (identifier : String) : Asset :=
  { identifier, walletId := "wallet-1", assetType := .ibc, mainnetSymbol := "ATOM", symbol := "ATOM"
    name := "", decimals := 6, balance := .zero, address := "", config := none }

def store (identifier : String) : Store :=
  (Store.empty.putWallet UnpricedCoin.wallet).putAsset (voucher identifier)

/-- A store with the voucher is well kept. -/
theorem wellKept_store (identifier : String) : (store identifier).WellKept :=
  (Store.wellKept_empty.saveWallet (Store.saveWallet_of_fits (by decide))).putAsset rfl (by rfl)

theorem mem_store (identifier : String) : identifier ∈ (store identifier).assets.map AssetRow.identifier :=
  .head _

def service : Service where
  base := "/api/v1"
  origins := []
  defaultCurrency := "USD"
  resolver := ⟨"v1", "v2", "fiat", ⟨[], []⟩⟩

/-- A request as it arrives of what a client asks for. -/
def request (target : String) : Call := ⟨"GET", Text.percentDecode target.toList, [], []⟩

/-- A voucher under an identifier with a percent sign, a blank and a letter that is not ASCII is shown. -/
theorem odd_identifier_reached : (store "50% é").WellKept
    ∧ "50% é" ∈ (store "50% é").assets.map AssetRow.identifier
    ∧ Text.Spells "/api/v1/prices/50%25%20%C3%A9".toList "/api/v1/prices/50% é".toList
    ∧ ∃ answer, ((service.answer (store "50% é") (request "/api/v1/prices/50%25%20%C3%A9")).run
        FeedRehearsal.silent.feed .empty).1 = .ok answer ∧ answer.status = 200 := by
  have spelled : Text.Spells "/api/v1/prices/50%25%20%C3%A9".toList "/api/v1/prices/50% é".toList := by
    have h : Text.Spells (Text.percentEncode (fun c => !(c.isAlphanum || c == '/')) "/api/v1/prices/50% é".toList)
        "/api/v1/prices/50% é".toList := Text.spells_percentEncode rfl _
    have hwritten : Text.percentEncode (fun c => !(c.isAlphanum || c == '/')) "/api/v1/prices/50% é".toList
        = "/api/v1/prices/50%25%20%C3%A9".toList := by decide +kernel
    rwa [hwritten] at h
  refine ⟨wellKept_store _, mem_store _, spelled, ?_⟩
  obtain ⟨hreached, answer, hanswer, hserves⟩ := stored_asset_reached service (store "50% é")
    (request "/api/v1/prices/50%25%20%C3%A9") FeedRehearsal.silent.feed .empty .price "50% é" _
    (wellKept_store _) (mem_store _) (by decide) rfl rfl spelled
  refine ⟨answer, hanswer, ?_⟩
  have whole : '/' ∉ "50% é".toList := by decide
  cases hserves with
  | @own a _ found _ =>
    have hvoucher : (store "50% é").findAsset "50% é" = .ok (some (voucher "50% é")) := by decide +kernel
    obtain rfl : a = voucher "50% é" := by simpa using found.symm.trans hvoucher
    decide +kernel
  | other diverted => exact absurd diverted.slash_mem whole
  | nowhere split => exact absurd split whole

/-- A voucher is stored under its denomination, and a client that encodes the denomination is told of both pages
that there is no such address. -/
theorem voucher_not_reached : (store "ibc/ABC").WellKept
    ∧ "ibc/ABC" ∈ (store "ibc/ABC").assets.map AssetRow.identifier
    ∧ Page.ofPath? service.base (request "/api/v1/prices/ibc%2FABC").path ≠ some (.price "ibc/ABC")
    ∧ ((service.answer (store "ibc/ABC") (request "/api/v1/prices/ibc%2FABC")).run
        FeedRehearsal.silent.feed .empty).1 = .ok .notFound
    ∧ ((service.answer (store "ibc/ABC") (request "/api/v1/prices/ibc%2FABC/history")).run
        FeedRehearsal.silent.feed .empty).1 = .ok .notFound := by
  refine ⟨wellKept_store _, mem_store _, by decide +kernel, ?_, ?_⟩
  · rw [Service.run_answer_of_get rfl, Service.dispatch_of_none (by decide +kernel), run_pure,
      Service.elsewhere_of_getLast? (by decide +kernel)]
    rfl
  · rw [Service.run_answer_of_get rfl, Service.dispatch_of_none (by decide +kernel), run_pure,
      Service.elsewhere_of_getLast? (by decide +kernel)]
    rfl

end Voucher

end ChainWallet.Api
