import ChainWallet.Market.Feed

/-!
# Rehearsed feeds

A resolver can be tried out without a network: a `FeedRehearsal` lists the replies of a feed by their
addresses. An address that is not listed does not exist.
-/

namespace ChainWallet

/-- The outcomes of requests, by their addresses. -/
structure FeedRehearsal where
  outcomes : List (String × Except Failure Reply)

namespace FeedRehearsal

def silent : FeedRehearsal := ⟨[]⟩

/-- The reply of a host to an address that does not exist. -/
def notFound : Reply := ⟨404, .ok .null⟩

def feed (r : FeedRehearsal) : Feed :=
  .steady fun q => (r.outcomes.lookup q.url).getD (.ok notFound)

/-- A feed with the outcomes of another one laid over its own. -/
def overlay (r other : FeedRehearsal) : FeedRehearsal := ⟨other.outcomes ++ r.outcomes⟩

end FeedRehearsal

end ChainWallet
