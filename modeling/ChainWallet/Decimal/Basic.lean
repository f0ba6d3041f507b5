/-!
# Decimal numbers as written

Prices and balances are decimal numbers, and the wallet keeps them as they were written: `1.50`,
`1.5` and `15E-1` have one value and three writings, and each is stored and shown as its own.

* `Decimal` — a finite number: a sign, a coefficient and a power of ten.
* `Numeral` — what a text may denote where a number is expected: a finite decimal, an infinity, or a
  "not a number" with its diagnostic payload.
* `Signal` — the two conditions under which an operation on decimals gives no result.

`digitCount` is the measure that everything else is stated in; `lt_pow_digitCount` and
`pow_digitCount_le` pin it down. Powers are written `Nat.pow`, which is the same term whether or not
the algebraic library is imported.
-/

namespace ChainWallet

/-- A finite decimal number `± coefficient · 10 ^ exponent`, with its writing kept. -/
structure Decimal where
  negative : Bool
  coefficient : Nat
  exponent : Int
  deriving DecidableEq, Repr, Inhabited

/-- What a text denotes where a number is expected. -/
inductive Numeral where
  | finite (value : Decimal)
  | infinite (negative : Bool)
  | nan (negative signaling : Bool) (payload : Nat)
  deriving DecidableEq, Repr, Inhabited

def Numeral.isNaN : Numeral → Bool
  | nan .. => true
  | _ => false

namespace Decimal

/-- The conditions under which an operation has no result. -/
inductive Signal where
  /-- The operation is not defined on these operands, or a text is no number. -/
  | invalidOperation
  /-- The result is larger than the largest number of the context. -/
  | overflow
  deriving DecidableEq, Repr, Inhabited

/-- The number of decimal digits of a natural number; zero has one. -/
def digitCount (n : Nat) : Nat :=
  if n < 10 then 1 else digitCount (n / 10) + 1
termination_by n

/-- The exponent of the first digit, as in scientific notation. -/
def adjustedExponent (d : Decimal) : Int :=
  d.exponent + digitCount d.coefficient - 1

def ofInt (n : Int) : Decimal :=
  ⟨n < 0, n.natAbs, 0⟩

/-- The number zero, written `0`. -/
def zero : Decimal := ⟨false, 0, 0⟩

/-- The number one, written `1`. -/
def one : Decimal := ⟨false, 1, 0⟩

/-! ### Characterization -/

theorem digitCount_pos (n : Nat) : 0 < digitCount n := by
  unfold digitCount
  split <;> omega

theorem lt_pow_digitCount (n : Nat) : n < Nat.pow 10 (digitCount n) := by
  fun_induction digitCount n with
  | case1 n h => exact h
  | case2 n h ih =>
    show n < Nat.pow 10 (digitCount (n / 10)) * 10
    omega

theorem pow_digitCount_le {n : Nat} (h : n ≠ 0) : Nat.pow 10 (digitCount n - 1) ≤ n := by
  fun_induction digitCount n with
  | case1 n _ => exact Nat.pos_of_ne_zero h
  | case2 n hn ih =>
    have h10 : n / 10 ≠ 0 := by omega
    have hle := ih h10
    obtain ⟨k, hk⟩ := Nat.exists_eq_succ_of_ne_zero (Nat.ne_of_gt (digitCount_pos (n / 10)))
    rw [hk] at hle ⊢
    show Nat.pow 10 k * 10 ≤ n
    have hquot : Nat.pow 10 k ≤ n / 10 := hle
    omega

end Decimal

end ChainWallet
