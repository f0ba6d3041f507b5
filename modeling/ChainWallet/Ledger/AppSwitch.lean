import ChainWallet.Binary64

/-!
# Waiting for the right app

A step that needs another app waits until the owner says that it is open, or until a window of time is
over. The wait is armed anew for every step: an earlier confirmation does not count for a later step.

* `AppSwitch` — whether the confirmation has been given since the last reset, and how often in all.
* `Window` — how long a wait lasts; a window of no length only looks at the switch.
* `AppSwitch.wait` — the outcome of a wait during which some commands arrive.
-/

namespace ChainWallet.Ledger

/-- A confirmation that has been given since the last reset or not. The count of all confirmations ever
given tells a wait whether one came in between, whatever happened to the switch afterwards. -/
structure AppSwitch where
  isSet : Bool
  advances : Nat
  deriving DecidableEq, Repr, Inhabited

/-- What the owner's side does to the switch. -/
inductive Command where
  | advance
  | reset
  deriving DecidableEq, Repr

namespace AppSwitch

/-- The switch before any confirmation. -/
def unset : AppSwitch := ⟨false, 0⟩

/-- The switch after a command. -/
def apply (s : AppSwitch) : Command → AppSwitch
  | .advance => ⟨true, s.advances + 1⟩
  | .reset => { s with isSet := false }

/-- The switch after a list of commands. -/
def applyAll (s : AppSwitch) (cs : List Command) : AppSwitch :=
  cs.foldl apply s

end AppSwitch

/-- How long a wait lasts, in seconds, as it was written. -/
inductive Window where
  | whole (seconds : Int)
  | fractional (seconds : Binary64)
  deriving DecidableEq, Repr, Inhabited

namespace Window

/-- Whether a wait takes any time at all. -/
def isOpen : Window → Bool
  | whole n => 0 < n
  | fractional x => x.isNaN || (!x.negative && !x.isZero)

/-- The length of a window as messages show it. -/
def text : Window → String
  | whole n => toString n
  | fractional x => x.toText

end Window

namespace AppSwitch

/-- Whether a wait ends at once: the confirmation is there, or the window has no length. -/
def answersAtOnce (s : AppSwitch) (w : Window) : Bool :=
  s.isSet || !w.isOpen

/-- What a wait sees of the commands that arrive before its window is over. A wait that ends at once sees
none of them. -/
def seen (s : AppSwitch) (w : Window) (commands : List Command) : List Command :=
  if s.answersAtOnce w then [] else commands

/-- A wait during which `commands` arrive before its window is over: whether it was confirmed, and the
switch afterwards. -/
def wait (s : AppSwitch) (w : Window) (commands : List Command) : Bool × AppSwitch :=
  (s.isSet || (s.seen w commands).contains .advance, s.applyAll (s.seen w commands))

end AppSwitch

end ChainWallet.Ledger
