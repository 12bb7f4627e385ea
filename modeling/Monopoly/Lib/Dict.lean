import Mathlib.Data.List.Nodup

/-!
# Monopoly.Lib.Dict

A `dict` as the list of its values, in the order their keys were first
assigned.
-/

namespace Monopoly

/-- `d[key(x)] = x`, for a `dict` given as the list of its values: a key that
is there keeps its place. -/
def pyDictSet {α κ : Type} [DecidableEq κ] (key : α → κ) (xs : List α) (x : α) : List α :=
  if ∃ y ∈ xs, key y = key x then xs.map fun y => if key y = key x then x else y
  else xs ++ [x]

section Dict

variable {α κ : Type} [DecidableEq κ] {key : α → κ} {xs : List α} {x : α}

/-- The keys stay as they are, or the new one comes last. -/
theorem keys_pyDictSet : (pyDictSet key xs x).map key =
    if key x ∈ xs.map key then xs.map key else xs.map key ++ [key x] := by
  unfold pyDictSet
  by_cases h : ∃ y ∈ xs, key y = key x
  · rw [if_pos h, if_pos (List.mem_map.mpr h), List.map_map]
    refine List.map_congr_left fun y _ => ?_
    by_cases hy : key y = key x
    · simp [hy]
    · simp [hy]
  · rw [if_neg h, if_neg fun hmem => h (List.mem_map.mp hmem), List.map_append]
    rfl

/-- A `dict` has each key once. -/
theorem nodup_keys_pyDictSet (h : (xs.map key).Nodup) :
    ((pyDictSet key xs x).map key).Nodup := by
  rw [keys_pyDictSet]
  split
  · exact h
  · rename_i hnew
    rw [List.nodup_append]
    refine ⟨h, List.nodup_singleton _, fun a ha b hb => ?_⟩
    rw [List.mem_singleton.mp hb]
    rintro rfl
    exact hnew ha

/-- Setting a key adds it, if it was not there. -/
theorem mem_keys_pyDictSet {k : κ} :
    k ∈ (pyDictSet key xs x).map key ↔ k ∈ xs.map key ∨ k = key x := by
  rw [keys_pyDictSet]
  split
  · rename_i hmem
    constructor
    · exact .inl
    · rintro (h | rfl)
      · exact h
      · exact hmem
  · rw [List.mem_append, List.mem_singleton]

/-- A `dict` that is filled in turn has each key once. -/
theorem nodup_keys_foldl {β : Type} (f : β → α) (ys : List β) (h : (xs.map key).Nodup) :
    ((ys.foldl (fun d y => pyDictSet key d (f y)) xs).map key).Nodup := by
  induction ys generalizing xs with
  | nil => exact h
  | cons y rest ih => exact ih (nodup_keys_pyDictSet h)

/-- The keys after setting many, one after the other. -/
theorem mem_keys_foldl {β : Type} (f : β → α) (ys : List β) {k : κ} :
    k ∈ (ys.foldl (fun d y => pyDictSet key d (f y)) xs).map key ↔
      k ∈ xs.map key ∨ ∃ y ∈ ys, key (f y) = k := by
  induction ys generalizing xs with
  | nil => simp
  | cons y rest ih =>
      rw [List.foldl_cons, ih, mem_keys_pyDictSet]
      simp only [List.mem_cons, exists_eq_or_imp, or_assoc]
      rw [@eq_comm _ k]

/-- What is in the `dict` was there, or was put there. -/
theorem of_mem_pyDictSet {y : α} (h : y ∈ pyDictSet key xs x) : y ∈ xs ∨ y = x := by
  unfold pyDictSet at h
  split at h
  · obtain ⟨z, hz, rfl⟩ := List.mem_map.mp h
    split
    · exact .inr rfl
    · exact .inl hz
  · rcases List.mem_append.mp h with hy | hy
    · exact .inl hy
    · exact .inr (List.mem_singleton.mp hy)

/-- A value of a `dict` that is filled in turn was assigned to it. -/
theorem of_mem_foldl {β : Type} (f : β → α) (ys : List β) {x : α}
    (h : x ∈ ys.foldl (fun d y => pyDictSet key d (f y)) xs) : x ∈ xs ∨ ∃ y ∈ ys, x = f y := by
  induction ys generalizing xs with
  | nil => exact .inl h
  | cons y rest ih =>
      rcases ih h with hx | ⟨z, hz, rfl⟩
      · rcases of_mem_pyDictSet hx with hx | rfl
        · exact .inl hx
        · exact .inr ⟨y, List.mem_cons_self, rfl⟩
      · exact .inr ⟨z, List.mem_cons_of_mem _ hz, rfl⟩

/-- A `dict` that is filled with new keys lists its values in turn. -/
theorem foldl_pyDictSet_eq {β : Type} (f : β → α) (ys : List β)
    (h : ((xs ++ ys.map f).map key).Nodup) :
    ys.foldl (fun d y => pyDictSet key d (f y)) xs = xs ++ ys.map f := by
  induction ys generalizing xs with
  | nil => simp
  | cons y rest ih =>
      have hsplit : xs ++ (y :: rest).map f = (xs ++ [f y]) ++ rest.map f := by simp
      have hnew : ¬∃ x ∈ xs, key x = key (f y) := by
        rintro ⟨x, hx, hkey⟩
        rw [List.map_append, List.nodup_append] at h
        exact h.2.2 (key x) (List.mem_map_of_mem hx) (key (f y)) (by simp) hkey
      rw [List.foldl_cons, pyDictSet, if_neg hnew, ih (hsplit ▸ h), hsplit]

end Dict

end Monopoly
