/-!
# Punycode

The name of a host has ASCII characters only. `punycode` writes any other label with them: first its
ASCII characters in order, then where the remaining ones belong, from the lowest code point to the
highest. A place is told by how many places lie between it and the one before, in digits of base 36
whose thresholds follow the size of the numbers told so far.
-/

namespace ChainWallet.Text.Punycode

/-- A digit of base 36: a letter or, from 26 on, one of 0 to 9. -/
def digit (d : Nat) : Char :=
  if d < 26 then Char.ofNat (97 + d) else Char.ofNat (22 + d)

/-- The threshold of the digit at `position`, in steps of 36. -/
def threshold (bias position : Nat) : Nat :=
  max 1 (min 26 (position - bias))

theorem threshold_bounds (bias position : Nat) :
    1 ≤ threshold bias position ∧ threshold bias position ≤ 26 := by
  unfold threshold
  omega

/-- The digits of a number; all but the last one are at least their thresholds. -/
def digits (bias position n : Nat) : List Char :=
  let t := threshold bias position
  if n < t then [digit n]
  else digit (t + (n - t) % (36 - t)) :: digits bias (position + 36) ((n - t) / (36 - t))
termination_by n
decreasing_by
  have h := threshold_bounds bias position
  calc (n - threshold bias position) / (36 - threshold bias position)
      ≤ n - threshold bias position := Nat.div_le_self _ _
    _ < n := by omega

/-- A bias from a number scaled down until it is small. -/
def scale (n position : Nat) : Nat :=
  if 455 < n then scale (n / 35) (position + 36) else position + 36 * n / (n + 38)
termination_by n
decreasing_by exact Nat.div_lt_self (by omega) (by omega)

/-- The bias behind a number, when `placed` characters have their places. -/
def nextBias (n placed : Nat) (isFirst : Bool) : Nat :=
  let n := if isFirst then n / 700 else n / 2
  scale (n + n / placed) 0

/-- The writer: what it has written, the bias, how many characters have their places, and how many
places have been passed since the last one. -/
structure Writer where
  written : List Char
  bias : Nat
  placed : Nat
  passed : Nat
  isFirst : Bool

/-- The writer at a character of the label, when those of the code point `n` are placed. -/
def Writer.pass (w : Writer) (n : Nat) (c : Char) : Writer :=
  if c.toNat < n then { w with passed := w.passed + 1 }
  else if c.toNat = n then
    { written := w.written ++ digits w.bias 36 w.passed
      bias := nextBias w.passed (w.placed + 1) w.isFirst
      placed := w.placed + 1
      passed := 0
      isFirst := false }
  else w

/-- Places the characters of the given code points, from the lowest to the highest; those below `next`
have their places. -/
def Writer.place (label : List Char) (next : Nat) (w : Writer) : List Nat → Writer
  | [] => w
  | n :: rest =>
    let w := label.foldl (·.pass n ·) { w with passed := w.passed + (n - next) * (w.placed + 1) }
    Writer.place label (n + 1) { w with passed := w.passed + 1 } rest

end Punycode

open Punycode in
def punycode (label : List Char) : List Char :=
  let plain := label.filter (·.toNat < 128)
  let others := ((label.filter (128 ≤ ·.toNat)).map Char.toNat).mergeSort.eraseDups
  plain ++ (if plain.isEmpty then [] else ['-'])
    ++ (Writer.place label 128 ⟨[], 72, plain.length, 0, true⟩ others).written

end ChainWallet.Text
