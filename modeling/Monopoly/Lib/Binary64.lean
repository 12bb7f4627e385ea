import Mathlib.Algebra.Group.Nat.Defs

/-!
# Monopoly.Lib.Binary64

Products of a natural number with an IEEE binary64 constant, rounded to
nearest, ties to even.  A constant is its integer significand `c < 2 ^ 53`
with the exponent of its last place kept apart: the real value is
`c / 2 ^ k`.
-/

namespace Monopoly.Binary64

/-- `n / 2 ^ s` rounded to the nearest integer, ties to the even one. -/
def roundShift (n s : Nat) : Nat :=
  let q := n / 2 ^ s
  let r := n % 2 ^ s
  if 2 * r < 2 ^ s then q
  else if 2 ^ s < 2 * r then q + 1
  else q + q % 2

/-- How many low bits a 53-bit significand cannot hold. -/
def excess (n : Nat) : Nat := Nat.log2 n + 1 - 53

/-- `n` rounded to 53 significant bits. -/
def round53 (n : Nat) : Nat := roundShift n (excess n) * 2 ^ excess n

/-- `int(m * x)` for `x = c / 2 ^ k` and `m ≥ 0`: the product is rounded,
then truncated. -/
def floorMul (m c k : Nat) : Nat := round53 (m * c) / 2 ^ k

/-- `math.ceil(m * x)` for `x = c / 2 ^ k` and `m ≥ 0`. -/
def ceilMul (m c k : Nat) : Nat := (round53 (m * c) + (2 ^ k - 1)) / 2 ^ k

/-- The significand of the double nearest to `0.10`, at exponent `-55`. -/
def tenth : Nat := 3602879701896397

/-- The significand of the double `1 + 0.10`, at exponent `-52`: the exact
sum `(2 ^ 55 + tenth) / 2 ^ 55` has three bits too many. -/
def oneAndTenth : Nat := roundShift (2 ^ 55 + tenth) 3

end Monopoly.Binary64
