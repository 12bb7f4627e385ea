import Mathlib.Data.List.Rotate

/-!
# Monopoly.Lib.Rotation

Going round a list.  The next element that satisfies `p` is the same
whether one scans the seats of the list one by one, past its end to the
front, or steps by one in the list of the elements that satisfy `p`.
-/

namespace Monopoly

variable {α : Type} {p : α → Bool} {xs : List α} {a : α} {i : Nat}

/-- The first element after index `i` that satisfies `p`, going round the
list, and whether the way there leads past its end. -/
def nextAround (p : α → Bool) (xs : List α) (i : Nat) : Option (α × Bool) :=
  (((xs.drop (i + 1)).find? p).map (·, false)).or (((xs.take (i + 1)).find? p).map (·, true))

theorem nextAround_map {β : Type} (f : β → α) (ys : List β) (i : Nat) :
    nextAround p (ys.map f) i =
      (nextAround (p ∘ f) ys i).map fun found => (f found.1, found.2) := by
  simp only [nextAround, ← List.map_drop, ← List.map_take, List.find?_map, Option.map_map]
  cases (ys.drop (i + 1)).find? (p ∘ f) <;> simp [Function.comp_def]

/-- Whom the scan finds. -/
theorem nextAround_mem {wrapped : Bool} (h : nextAround p xs i = some (a, wrapped)) :
    a ∈ xs ∧ p a = true := by
  unfold nextAround at h
  rcases Option.or_eq_some_iff.mp h with h | ⟨-, h⟩
  · obtain ⟨b, hb, hab⟩ := Option.map_eq_some_iff.mp h
    obtain rfl : b = a := congrArg Prod.fst hab
    exact ⟨List.mem_of_mem_drop (List.mem_of_find?_eq_some hb), List.find?_some hb⟩
  · obtain ⟨b, hb, hab⟩ := Option.map_eq_some_iff.mp h
    obtain rfl : b = a := congrArg Prod.fst hab
    exact ⟨List.mem_of_mem_take (List.mem_of_find?_eq_some hb), List.find?_some hb⟩

/-- The scan finds somebody if there is anybody. -/
theorem nextAround_isSome (ha : a ∈ xs) (hp : p a = true) (i : Nat) :
    ∃ b wrapped, nextAround p xs i = some (b, wrapped) := by
  cases hnext : nextAround p xs i with
  | some found => exact ⟨found.1, found.2, rfl⟩
  | none =>
      obtain ⟨hdrop, htake⟩ := Option.or_eq_none_iff.mp hnext
      rw [Option.map_eq_none_iff, List.find?_eq_none] at hdrop htake
      rw [← List.take_append_drop (i + 1) xs] at ha
      rcases List.mem_append.mp ha with ha | ha
      · exact absurd hp (htake a ha)
      · exact absurd hp (hdrop a ha)

/-- The place an element of the list has among those that satisfy `p`. -/
theorem length_filter_take (hi : xs[i]? = some a) (ha : p a = true) :
    ((xs.take (i + 1)).filter p).length = (xs.take i).countP p + 1 := by
  rw [List.take_add_one, hi, List.filter_append, List.length_append, List.countP_eq_length_filter]
  simp [ha]

theorem getElem?_filter_countP (hi : xs[i]? = some a) (ha : p a = true) :
    (xs.filter p)[(xs.take i).countP p]? = some a := by
  obtain ⟨hlt, hxi⟩ := List.getElem?_eq_some_iff.mp hi
  have hsplit : xs = xs.take i ++ a :: xs.drop (i + 1) := by
    rw [← hxi, List.cons_getElem_drop_succ, List.take_append_drop]
  have hfilter : xs.filter p = (xs.take i).filter p ++ a :: (xs.drop (i + 1)).filter p := by
    conv_lhs => rw [hsplit]
    rw [List.filter_append, List.filter_cons_of_pos ha]
  rw [hfilter, List.countP_eq_length_filter, List.getElem?_append_right (Nat.le_refl _)]
  simp

/-- Scanning the list for `p` is a step in the list of those who satisfy
it. -/
theorem nextAround_filter (hi : xs[i]? = some a) (ha : p a = true) :
    nextAround p xs i = nextAround (fun _ => true) (xs.filter p) ((xs.take i).countP p) := by
  have hsplit : xs.filter p = (xs.take (i + 1)).filter p ++ (xs.drop (i + 1)).filter p := by
    rw [← List.filter_append, List.take_append_drop]
  have hlen := length_filter_take hi ha
  have hdrop : (xs.filter p).drop ((xs.take i).countP p + 1) = (xs.drop (i + 1)).filter p := by
    rw [hsplit, ← hlen, List.drop_left]
  have htake : (xs.filter p).take ((xs.take i).countP p + 1) = (xs.take (i + 1)).filter p := by
    rw [hsplit, ← hlen, List.take_left]
  rw [nextAround, nextAround, hdrop, htake, List.find?_filter, List.find?_filter]
  simp

theorem find?_all (xs : List α) : xs.find? (fun _ => true) = xs.head? := by
  cases xs <;> rfl

/-- Where everybody counts, the next one is at the next index. -/
theorem nextAround_true (hi : i < xs.length) :
    ∃ b, xs[(i + 1) % xs.length]? = some b ∧
      nextAround (fun _ => true) xs i = some (b, decide ((i + 1) % xs.length ≤ i)) := by
  by_cases hlast : i + 1 < xs.length
  · have hmod : (i + 1) % xs.length = i + 1 := Nat.mod_eq_of_lt hlast
    have hhead : (xs.drop (i + 1)).head? = some xs[i + 1] := by
      rw [List.head?_drop, List.getElem?_eq_getElem hlast]
    refine ⟨xs[i + 1], by rw [hmod, List.getElem?_eq_getElem hlast], ?_⟩
    rw [nextAround, find?_all, hhead, hmod]
    simp
  · have hmod : (i + 1) % xs.length = 0 := by
      rw [show i + 1 = xs.length by omega, Nat.mod_self]
    have hpos : 0 < xs.length := by omega
    refine ⟨xs[0], by rw [hmod, List.getElem?_eq_getElem hpos], ?_⟩
    have hhead : xs.head? = some xs[0] := by
      rw [List.head?_eq_getElem?, List.getElem?_eq_getElem hpos]
    rw [nextAround, List.drop_eq_nil_of_le (by omega), List.take_of_length_le (by omega),
      find?_all xs, hhead, hmod]
    simp

/-- How often `n` steps from index `i` have come past the end. -/
theorem laps_succ {n m : Nat} (hm : 0 < m) :
    (n + 1) / m = n / m + if (n % m + 1) % m ≤ n % m then 1 else 0 := by
  have hlt : n % m < m := Nat.mod_lt n hm
  have hn : n = m * (n / m) + n % m := (Nat.div_add_mod n m).symm
  by_cases hlast : n % m + 1 < m
  · have hnot : ¬(n % m + 1) % m ≤ n % m := by
      rw [Nat.mod_eq_of_lt hlast]
      omega
    rw [if_neg hnot, show n + 1 = m * (n / m) + (n % m + 1) by omega,
      Nat.mul_add_div hm, Nat.div_eq_of_lt hlast]
  · have hback : n % m + 1 = m := by omega
    rw [hback, Nat.mod_self, if_pos (Nat.zero_le _), show n + 1 = m * (n / m) + m by omega,
      Nat.mul_add_div hm, Nat.div_self hm]

/-- Indices are stepped round the list one by one. -/
theorem mod_succ (n m : Nat) : (n % m + 1) % m = (n + 1) % m := Nat.mod_add_mod n m 1

theorem mod_succ_ne {m : Nat} (hm : 2 ≤ m) (n : Nat) : (n + 1) % m ≠ n % m := by
  have hlt : n % m < m := Nat.mod_lt n (by omega)
  rw [← mod_succ]
  by_cases hlast : n % m + 1 < m
  · rw [Nat.mod_eq_of_lt hlast]
    omega
  · rw [show n % m + 1 = m by omega, Nat.mod_self]
    omega

/-- One after the other, once round the list. -/
theorem eq_rotate_of_getElem? {ys : List α} (hlen : ys.length = xs.length)
    (hget : ∀ k, k < ys.length → ys[k]? = xs[(i + k) % xs.length]?) : ys = xs.rotate i := by
  refine List.ext_getElem? fun k => ?_
  by_cases hk : k < ys.length
  · rw [hget k hk, List.getElem?_rotate (hlen ▸ hk), Nat.add_comm]
  · rw [List.getElem?_eq_none (by omega), List.getElem?_eq_none (by rw [List.length_rotate]; omega)]

end Monopoly
