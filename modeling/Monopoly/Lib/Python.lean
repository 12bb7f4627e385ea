import Mathlib.Data.List.Sort
import Mathlib.Data.List.Dedup

/-!
# Monopoly.Lib.Python

The fragment of Python's built-ins the engine is written with: a computation
that may raise is an `Except PyError`, and the partial operations (`dict`
and `tuple` indexing, `list.index`, `next`, `min`, `max`, `%`) raise what
CPython raises.  Nothing here mentions the game.
-/

namespace Monopoly

/-! ## exceptions -/

/-- What a call may raise.  `illegalMove` is the one exception the engine
raises on purpose; every other one is a crash. -/
inductive PyError where
  | illegalMove (message : String)
  | keyError
  | stopIteration
  | indexError
  | valueError
  | zeroDivisionError
  | runtimeError (message : String)
  | recursionError
  deriving DecidableEq, Repr

/-- The deliberate rejection, as opposed to a crash. -/
def PyError.IsIllegalMove : PyError → Prop
  | .illegalMove _ => True
  | _ => False

/-- A computation that returns an `α` or raises. -/
abbrev Py (α : Type) := Except PyError α

/-- `if c: raise e`. -/
def raiseIf (c : Prop) [Decidable c] (e : PyError) : Py Unit :=
  if c then .error e else .ok ()

/-- `if c: raise IllegalMove(message)`. -/
def illegalIf (c : Prop) [Decidable c] (message : String) : Py Unit :=
  raiseIf c (.illegalMove message)

/-- `x` of an optional value the code reads without a check, or the error
reading it raises. -/
def orRaise (x : Option α) (e : PyError) : Py α :=
  match x with
  | some a => .ok a
  | none => .error e

/-! ## sequences -/

/-- `next(x for x in xs if p(x))`. -/
def pyNext (p : α → Bool) (xs : List α) : Py α := orRaise (xs.find? p) .stopIteration

/-- `next(i for i, x in enumerate(xs) if p(x))`. -/
def pyNextIdx (p : α → Bool) (xs : List α) : Py Nat := orRaise (xs.findIdx? p) .stopIteration

/-- `xs.index(a)`. -/
def pyIndex [DecidableEq α] (xs : List α) (a : α) : Py Nat :=
  orRaise (xs.findIdx? (fun x => decide (x = a))) .valueError

/-- `xs[i]`, where a negative index counts from the end. -/
def pyGet (xs : List α) (i : Int) : Py α :=
  if 0 ≤ i then orRaise xs[i.toNat]? .indexError
  else if 0 ≤ xs.length + i then orRaise xs[(xs.length + i).toNat]? .indexError
  else .error .indexError

/-- `a % n` on integers: the sign follows the (positive) modulus. -/
def pyMod (a : Int) (n : Nat) : Py Nat :=
  if n = 0 then .error .zeroDivisionError else .ok (a % (n : Int)).toNat

/-- `min(xs)`. -/
def pyMin (xs : List Nat) : Py Nat := orRaise xs.min? .valueError

/-- `max(xs)`. -/
def pyMax (xs : List Nat) : Py Nat := orRaise xs.max? .valueError

/-- `min(xs, key=key)`, if there is anything: the first of the least. -/
def pyMinBy (key : α → Int) : List α → Option α
  | [] => none
  | a :: rest =>
      match pyMinBy key rest with
      | none => some a
      | some b => if key b < key a then some b else some a

/-- `sorted(xs)`. -/
def pySorted (xs : List Nat) : List Nat := xs.insertionSort (· ≤ ·)

/-- `sorted(set(xs))`. -/
def pySortedSet (xs : List Nat) : List Nat := pySorted xs.dedup

/-- The index `-1` is that of the last element. -/
theorem pyGet_last (xs : List α) (a : α) : pyGet (xs ++ [a]) (-1) = .ok a := by
  have hindex : ((xs ++ [a]).length : Int) + -1 = xs.length := by
    rw [List.length_append, List.length_singleton]
    omega
  rw [pyGet, if_neg (by omega), hindex, if_pos (Int.natCast_nonneg _), Int.toNat_natCast,
    List.getElem?_concat_length]
  rfl

theorem pyMinBy_eq_none {key : α → Int} {xs : List α} : pyMinBy key xs = none ↔ xs = [] := by
  cases xs with
  | nil => simp [pyMinBy]
  | cons a rest =>
      simp only [pyMinBy, reduceCtorEq, iff_false]
      cases pyMinBy key rest with
      | none => simp
      | some b => simp only; split <;> simp

/-- The least is one of them, and no other is less. -/
theorem pyMinBy_spec {key : α → Int} {xs : List α} {b : α} (h : pyMinBy key xs = some b) :
    b ∈ xs ∧ ∀ a ∈ xs, key b ≤ key a := by
  induction xs generalizing b with
  | nil => simp [pyMinBy] at h
  | cons a rest ih =>
      simp only [pyMinBy] at h
      cases hrest : pyMinBy key rest with
      | none =>
          obtain rfl := pyMinBy_eq_none.mp hrest
          rw [hrest] at h
          obtain rfl := Option.some.inj h
          simp
      | some c =>
          obtain ⟨hmem, hleast⟩ := ih hrest
          rw [hrest] at h
          simp only at h
          split at h
          · rename_i hlt
            obtain rfl := Option.some.inj h
            exact ⟨List.mem_cons_of_mem _ hmem, List.forall_mem_cons.mpr ⟨hlt.le, hleast⟩⟩
          · rename_i hge
            obtain rfl := Option.some.inj h
            exact ⟨List.mem_cons_self, List.forall_mem_cons.mpr
              ⟨le_rfl, fun x hx => (not_lt.mp hge).trans (hleast x hx)⟩⟩

@[simp] theorem mem_pySorted {xs : List Nat} {a : Nat} : a ∈ pySorted xs ↔ a ∈ xs := by
  simp [pySorted]

@[simp] theorem mem_pySortedSet {xs : List Nat} {a : Nat} : a ∈ pySortedSet xs ↔ a ∈ xs := by
  simp [pySortedSet]

theorem nodup_pySorted {xs : List Nat} : (pySorted xs).Nodup ↔ xs.Nodup :=
  (List.perm_insertionSort _ xs).nodup_iff

theorem nodup_pySortedSet (xs : List Nat) : (pySortedSet xs).Nodup :=
  nodup_pySorted.mpr (List.nodup_dedup xs)

/-- `sorted(set(xs))` is in order and repeats nothing. -/
theorem pairwise_pySortedSet (xs : List Nat) : (pySortedSet xs).Pairwise (· < ·) := by
  have hsorted : (pySortedSet xs).Pairwise (· ≤ ·) := List.pairwise_insertionSort _ xs.dedup
  exact (hsorted.and (nodup_pySortedSet xs)).imp fun h => Nat.lt_of_le_of_ne h.1 h.2

end Monopoly
