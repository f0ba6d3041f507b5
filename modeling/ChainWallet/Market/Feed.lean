import ChainWallet.Failure
import ChainWallet.Json.Reader

/-!
# Price feeds

A feed is asked over HTTP and answers with a status and a body. It may answer every request in its own
way, also the same request differently at different times, so a `Feed` is a function of the earlier
requests and the present one; one that ignores the earlier requests is `steady`.

`Feed.answer` is what a caller gets to see: the value of the body if the status is 200 and the body is
JSON, and the failure otherwise.
-/

namespace ChainWallet

/-- A request to a feed: an address, parameters and headers. -/
structure Request where
  url : String
  params : List (String × Json) := []
  headers : List (String × Json) := []

/-- An answer of a feed; its body may be no JSON. -/
structure Reply where
  status : Int
  body : Except ReadFault Json

/-- How deeply lists and objects may be nested in a body. -/
def Reply.deepest : Nat := 980

/-- The value that the text of a body writes. -/
def Reply.readBody (text : String) : Except ReadFault Json :=
  Json.read deepest text

/-- A feed: its reply to a request, given the requests before it from first to last. -/
abbrev Feed := (earlier : List Request) → Request → Except Failure Reply

/-- What a caller makes of a reply from an address. -/
def Reply.content (r : Reply) (url : String) : Except Failure Json :=
  if r.status = 200 then r.body.mapError .unreadable
  else .error (.httpStatus (some r.status) url)

namespace Feed

/-- A feed whose replies depend on the request alone. -/
def steady (reply : Request → Except Failure Reply) : Feed :=
  fun _ r => reply r

/-- The content of the reply to a request. -/
def answer (feed : Feed) (earlier : List Request) (r : Request) : Except Failure Json :=
  (feed earlier r).bind (·.content r.url)

/-- The contents of the replies to requests that are sent one after the other, with all requests sent
so far. -/
def answers (feed : Feed) : (earlier requests : List Request) →
    List (Except Failure Json) × List Request
  | earlier, [] => ([], earlier)
  | earlier, r :: rest =>
    let (more, sent) := feed.answers (earlier ++ [r]) rest
    (feed.answer earlier r :: more, sent)

/-! ### Characterization -/

/-- Every request is sent, whatever became of those before it. -/
theorem sent_answers (feed : Feed) (earlier requests : List Request) :
    (feed.answers earlier requests).2 = earlier ++ requests := by
  induction requests generalizing earlier with
  | nil => simp [answers]
  | cons r rest ih => simp [answers, ih]

end Feed

end ChainWallet
