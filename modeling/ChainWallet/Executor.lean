import ChainWallet.Refresh
import ChainWallet.Schedule

/-!
# The executor

The executor is the program that keeps stored prices fresh. It starts a scheduler with the refresh job,
refreshes the prices once at the start, and from then on only sleeps while the job does the work.
-/

namespace ChainWallet

/-- How long the executor sleeps at a time, in seconds. -/
def napSeconds : Nat := 10

/-- What an executor has done when it goes to sleep for the first time. -/
structure ExecutorStart where
  /-- The jobs of each scheduler that was started. -/
  schedulers : List (List RefreshJob)
  /-- The number of prices that were found. -/
  refreshed : Nat
  /-- The lengths of the sleeps, in seconds. -/
  naps : List Nat
  deriving DecidableEq, Repr

/-- The start of an executor. A schedule that cannot be read stops it before anything is refreshed. -/
def startExecutor (settings : Settings) (resolver : Resolver) (feed : Feed) (d : Enquiry.Desk)
    (s : Store) : Except Failure ExecutorStart × Enquiry.Desk × Store :=
  match RefreshJob.ofSettings settings with
  | .error f => (.error f, d, s)
  | .ok job =>
    let (result, d, s) := refreshPrices resolver feed settings.defaultCurrency d s
    (result.map fun refreshed => ⟨[[job]], refreshed, [napSeconds]⟩, d, s)

end ChainWallet
