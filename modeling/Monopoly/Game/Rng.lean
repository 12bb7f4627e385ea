import Monopoly.Lib.Python
import Monopoly.Game.Enums

/-!
# Monopoly.Game.Rng

Dice, shuffles and the clock (`domain/game/rng.py`).

The generator is the sequence of numbers it is going to produce: a call
takes as many of them as it needs, and a sequence that has run out goes on
with zeros.  Every finite behaviour of `random.Random` is one such
sequence.
-/

namespace Monopoly

structure Rng where
  draws : List Nat
  deriving DecidableEq, Repr

/-- `rng._randbelow(n)` for `0 < n`. -/
def Rng.randbelow (rng : Rng) (n : Nat) : Nat × Rng :=
  (rng.draws.headD 0 % n, ⟨rng.draws.tail⟩)

/-- `rng.randint(a, b)`. -/
def Rng.randint (rng : Rng) (a b : Nat) : Nat × Rng :=
  let (d, rng) := rng.randbelow (b - a + 1)
  (a + d, rng)

/-- `x[i], x[j] = x[j], x[i]`. -/
def swapAt (xs : List α) (i j : Nat) : List α :=
  match xs[i]?, xs[j]? with
  | some a, some b => (xs.set i b).set j a
  | _, _ => xs

/-- The loop of `rng.shuffle`: position `i` is swapped with a random one at
or below it, for `i` from `n` down to `1`. -/
def Rng.shuffleFrom : Nat → List α → Rng → List α × Rng
  | 0, xs, rng => (xs, rng)
  | i + 1, xs, rng =>
      let (j, rng) := rng.randbelow (i + 2)
      Rng.shuffleFrom i (swapAt xs (i + 1) j) rng

/-- `rng.shuffle(xs)`. -/
def Rng.shuffle (rng : Rng) (xs : List α) : List α × Rng :=
  Rng.shuffleFrom (xs.length - 1) xs rng

/-- `roll_dice_count`: with one die the second one reads `0`. -/
def rollDiceCount (rng : Rng) (diceCount : Nat) : (Nat × Nat) × Rng :=
  let (die1, rng) := rng.randint diceMin diceMax
  if diceCount = 1 then ((die1, 0), rng)
  else
    let (die2, rng) := rng.randint diceMin diceMax
    ((die1, die2), rng)

/-- One reading of the clock: epoch milliseconds, and the `datetime` in
microseconds. -/
structure Clock where
  nowMs : Int
  now : Int
  deriving DecidableEq, Repr

end Monopoly
