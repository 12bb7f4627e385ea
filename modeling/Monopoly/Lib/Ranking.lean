import Mathlib.Data.List.Sort

/-!
# Monopoly.Lib.Ranking

Rankings: a list sorted by a key, the highest first, and numbered from one.
-/

namespace Monopoly

section Ranking

variable {α β κ : Type} [LinearOrder κ]

/-- `sorted(xs, key=key, reverse=True)`: elements of one key keep their order.
-/
def pySortedDesc (key : α → κ) (xs : List α) : List α :=
  xs.insertionSort fun a b => key b ≤ key a

/-- `[(f(x), i + 1) for i, x in enumerate(xs)]`. -/
def ranked (f : α → β) (xs : List α) : List (β × Nat) := xs.mapIdx fun i a => (f a, i + 1)

variable {key : α → κ} {f : α → β} {xs : List α}

/-- Sorting loses nothing and adds nothing. -/
theorem pySortedDesc_perm (key : α → κ) (xs : List α) : (pySortedDesc key xs).Perm xs :=
  List.perm_insertionSort _ xs

/-- So the elements are the same. -/
@[simp] theorem mem_pySortedDesc {a : α} : a ∈ pySortedDesc key xs ↔ a ∈ xs :=
  (pySortedDesc_perm key xs).mem_iff

/-- Later elements have no larger key. -/
theorem pairwise_pySortedDesc (key : α → κ) (xs : List α) :
    (pySortedDesc key xs).Pairwise fun a b => key b ≤ key a := by
  have htotal : Std.Total fun a b : α => key b ≤ key a := ⟨fun a b => le_total (key b) (key a)⟩
  have htrans : IsTrans α fun a b => key b ≤ key a := ⟨fun _ _ _ hab hbc => hbc.trans hab⟩
  exact List.pairwise_insertionSort _ xs

/-- The higher key comes first. -/
theorem index_lt_of_key_lt {a b : α} {i j : Nat} (ha : (pySortedDesc key xs)[i]? = some a)
    (hb : (pySortedDesc key xs)[j]? = some b) (h : key a < key b) : j < i := by
  obtain ⟨hi, rfl⟩ := List.getElem?_eq_some_iff.mp ha
  obtain ⟨hj, rfl⟩ := List.getElem?_eq_some_iff.mp hb
  by_contra hij
  rcases Nat.lt_or_eq_of_le (Nat.le_of_not_lt hij) with hlt | rfl
  · exact absurd h (not_lt.mpr
      (List.pairwise_iff_getElem.mp (pairwise_pySortedDesc key xs) i j hi hj hlt))
  · exact absurd h (lt_irrefl _)

/-- Numbering keeps the elements in order, -/
@[simp] theorem ranked_fst (f : α → β) (xs : List α) : (ranked f xs).map Prod.fst = xs.map f := by
  apply List.ext_getElem <;> simp [ranked]

/-- and the numbers are `1`, `2`, and so on. -/
@[simp] theorem ranked_snd (f : α → β) (xs : List α) :
    (ranked f xs).map Prod.snd = List.range' 1 xs.length := by
  apply List.ext_getElem <;> simp [ranked, Nat.add_comm]

/-- The number of an element is one more than its index. -/
theorem mem_ranked {b : β} {n : Nat} :
    (b, n) ∈ ranked f xs ↔ ∃ i a, xs[i]? = some a ∧ f a = b ∧ n = i + 1 := by
  simp only [ranked, List.mem_mapIdx, Prod.mk.injEq]
  constructor
  · rintro ⟨i, hi, hf, hn⟩
    exact ⟨i, xs[i], List.getElem?_eq_getElem hi, hf, hn.symm⟩
  · rintro ⟨i, a, ha, hf, hn⟩
    obtain ⟨hi, rfl⟩ := List.getElem?_eq_some_iff.mp ha
    exact ⟨i, hi, hf, hn.symm⟩

end Ranking

end Monopoly
