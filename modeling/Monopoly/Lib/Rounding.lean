import Mathlib.Algebra.Order.Floor.Ring
import Mathlib.Data.Rat.Floor

/-!
# Monopoly.Lib.Rounding

Rounding to the nearest integer, ties to the even one: what `round` returns
for a number.

The definition splits on the distance to the floor.  From the two bounds that
say it is the floor or the next integer follow the rules a caller needs:
integers are fixed, order is kept, and a sign is kept.
-/

namespace Monopoly

variable {K : Type*} [Field K] [LinearOrder K] [FloorRing K]

/-- The nearest integer, and of two the even one. -/
def roundHalfEven (x : K) : ℤ :=
  if 2 * Int.fract x < 1 then ⌊x⌋
  else if 1 < 2 * Int.fract x then ⌊x⌋ + 1
  else ⌊x⌋ + ⌊x⌋ % 2

/-- Rounding does not go below the floor, -/
theorem floor_le_roundHalfEven (x : K) : ⌊x⌋ ≤ roundHalfEven x := by
  unfold roundHalfEven
  split
  · exact le_rfl
  · split <;> omega

/-- nor beyond the next integer. -/
theorem roundHalfEven_le (x : K) : roundHalfEven x ≤ ⌊x⌋ + 1 := by
  unfold roundHalfEven
  split
  · omega
  · split <;> omega

variable [IsStrictOrderedRing K] {x y : K}

/-- An integer is its own rounding. -/
@[simp] theorem roundHalfEven_intCast (n : ℤ) : roundHalfEven (n : K) = n := by
  simp [roundHalfEven]

/-- Between two integers the rounding follows the fraction. -/
theorem roundHalfEven_mono_of_floor (hfloor : ⌊x⌋ = ⌊y⌋) (hxy : x ≤ y) :
    roundHalfEven x ≤ roundHalfEven y := by
  have hfract : 2 * Int.fract x ≤ 2 * Int.fract y := by
    rw [Int.fract, Int.fract, hfloor]
    linarith
  by_cases hx : 2 * Int.fract x < 1
  · -- `x` is rounded down
    calc roundHalfEven x = ⌊x⌋ := if_pos hx
      _ ≤ roundHalfEven y := hfloor ▸ floor_le_roundHalfEven y
  by_cases hy : 1 < 2 * Int.fract y
  · -- `y` is rounded up
    calc roundHalfEven x ≤ ⌊x⌋ + 1 := roundHalfEven_le x
      _ = roundHalfEven y := by rw [hfloor, roundHalfEven, if_neg (by linarith), if_pos hy]
  · -- both are ties
    have hx' : ¬1 < 2 * Int.fract x := fun h => hy (h.trans_le hfract)
    have hy' : ¬2 * Int.fract y < 1 := fun h => hx (hfract.trans_lt h)
    rw [roundHalfEven, roundHalfEven, if_neg hx, if_neg hx', if_neg hy', if_neg hy, hfloor]

/-- Rounding keeps the order, ties included: of two ties the larger one is
rounded no lower. -/
theorem roundHalfEven_mono (hxy : x ≤ y) : roundHalfEven x ≤ roundHalfEven y := by
  rcases (Int.floor_mono hxy).lt_or_eq with hlt | heq
  · calc roundHalfEven x ≤ ⌊x⌋ + 1 := roundHalfEven_le x
      _ ≤ ⌊y⌋ := hlt
      _ ≤ roundHalfEven y := floor_le_roundHalfEven y
  · exact roundHalfEven_mono_of_floor heq hxy

/-- What is not negative stays so, -/
theorem roundHalfEven_nonneg (hx : 0 ≤ x) : 0 ≤ roundHalfEven x := by
  have h := roundHalfEven_mono (x := ((0 : ℤ) : K)) (y := x) (by simpa using hx)
  rwa [roundHalfEven_intCast] at h

/-- and what is not positive. -/
theorem roundHalfEven_nonpos (hx : x ≤ 0) : roundHalfEven x ≤ 0 := by
  have h := roundHalfEven_mono (x := x) (y := ((0 : ℤ) : K)) (by simpa using hx)
  rwa [roundHalfEven_intCast] at h

/-- A half goes to the even neighbour. -/
example : ([5 / 2, 7 / 2, -5 / 2, 13 / 5] : List ℚ).map roundHalfEven = [2, 4, -2, 3] := by
  decide +kernel

end Monopoly
