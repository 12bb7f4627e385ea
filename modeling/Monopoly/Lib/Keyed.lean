import Mathlib.Algebra.BigOperators.Group.List.Basic
import Mathlib.Algebra.Ring.Int.Defs
import Mathlib.Data.List.Nodup

/-!
# Monopoly.Lib.Keyed

Lists whose elements are told apart by a key.  When the keys are distinct,
looking an element up and assigning at the index found is a pointwise edit
of the list, so updates compose as functions on elements.
-/

namespace Monopoly

variable {α κ : Type} [DecidableEq κ] {key : α → κ} {xs : List α} {a b : α} {k : κ}

/-- The element with key `k` is replaced by its image under `f`. -/
def editAt (key : α → κ) (k : κ) (f : α → α) (xs : List α) : List α :=
  xs.map fun x => if key x = k then f x else x

omit [DecidableEq κ] in
variable (key) in
theorem eq_of_key_eq (h : (xs.map key).Nodup) (ha : a ∈ xs) (hb : b ∈ xs)
    (hk : key a = key b) : a = b :=
  List.inj_on_of_nodup_map h ha hb hk

/-! ## lookup -/

variable (key) in
theorem find?_key (h : (xs.map key).Nodup) (ha : a ∈ xs) :
    xs.find? (fun x => decide (key x = key a)) = some a := by
  cases hf : xs.find? (fun x => decide (key x = key a)) with
  | none => simpa using List.find?_eq_none.mp hf a ha
  | some b =>
      have hb : key b = key a := by simpa using List.find?_some hf
      rw [eq_of_key_eq key h (List.mem_of_find?_eq_some hf) ha hb]

theorem find?_key_eq_none :
    xs.find? (fun x => decide (key x = k)) = none ↔ ∀ x ∈ xs, key x ≠ k := by
  simp [List.find?_eq_none]

variable (key) in
theorem findIdx?_key (h : (xs.map key).Nodup) (ha : a ∈ xs) :
    ∃ i, xs.findIdx? (fun x => decide (key x = key a)) = some i ∧ xs[i]? = some a := by
  cases hf : xs.findIdx? (fun x => decide (key x = key a)) with
  | none => simpa using List.findIdx?_eq_none_iff.mp hf a ha
  | some i =>
      obtain ⟨hi, hk, -⟩ := List.findIdx?_eq_some_iff_getElem.mp hf
      have hxi : xs[i] = a := eq_of_key_eq key h (List.getElem_mem hi) ha (by simpa using hk)
      exact ⟨i, rfl, by rw [List.getElem?_eq_getElem hi, hxi]⟩

theorem findIdx?_key_eq_none :
    xs.findIdx? (fun x => decide (key x = k)) = none ↔ ∀ x ∈ xs, key x ≠ k := by
  simp [List.findIdx?_eq_none_iff]

/-- The element at the index found for `k` has the key. -/
theorem findIdx?_key_get {i : Nat} (h : xs.findIdx? (fun x => decide (key x = k)) = some i) :
    ∃ a, xs[i]? = some a ∧ key a = k := by
  obtain ⟨hlt, hk, -⟩ := List.findIdx?_eq_some_iff_getElem.mp h
  exact ⟨xs[i], List.getElem?_eq_getElem hlt, by simpa using hk⟩

/-! ## assignment -/

omit [DecidableEq κ] in
/-- Assigning an element with the same key leaves the keys. -/
theorem map_key_set {i : Nat} (hi : xs[i]? = some a) (hb : key b = key a) :
    (xs.set i b).map key = xs.map key := by
  obtain ⟨hlt, hxi⟩ := List.getElem?_eq_some_iff.mp hi
  rw [List.map_set, hb, ← hxi, ← List.getElem_map key (h := by simpa using hlt),
    List.set_getElem_self]

/-- Assigning an element with the same key leaves where keys are found. -/
theorem findIdx?_key_set {i : Nat} (hi : xs[i]? = some a) (hb : key b = key a) (k : κ) :
    (xs.set i b).findIdx? (fun x => decide (key x = k)) =
      xs.findIdx? fun x => decide (key x = k) := by
  have hmap : ∀ ys : List α, ys.findIdx? (fun x => decide (key x = k)) =
      (ys.map key).findIdx? fun x => decide (x = k) := by
    intro ys
    rw [List.findIdx?_map]
    rfl
  rw [hmap, hmap, map_key_set hi hb]

/-- What is assigned at the index found for `k` is found for `k`. -/
theorem find?_key_set {i : Nat} (h : xs.findIdx? (fun x => decide (key x = k)) = some i)
    (hb : key b = k) : (xs.set i b).find? (fun x => decide (key x = k)) = some b := by
  obtain ⟨a, ha, hk⟩ := findIdx?_key_get h
  have hlt := (List.getElem?_eq_some_iff.mp ha).1
  rw [List.find?_eq_bind_findIdx?_getElem?, findIdx?_key_set ha (hb.trans hk.symm), h]
  simp [hlt]

variable (key) in
/-- Assigning at the index of `a` edits the list at `a`'s key. -/
theorem set_eq_editAt (h : (xs.map key).Nodup) {i : Nat} (hi : xs[i]? = some a) (f : α → α) :
    xs.set i (f a) = editAt key (key a) f xs := by
  have hlt : i < xs.length := (List.getElem?_eq_some_iff.mp hi).1
  have hxi : xs[i] = a := (List.getElem?_eq_some_iff.mp hi).2
  apply List.ext_getElem (by simp [editAt])
  intro j hj hj'
  have hjx : j < xs.length := by simpa using hj
  by_cases hij : i = j
  · subst hij; simp [editAt, hxi]
  · have hne : key xs[j] ≠ key a := by
      intro hk
      have hja : xs[j] = xs[i] := by
        rw [hxi]; exact eq_of_key_eq key h (List.getElem_mem hjx) (hxi ▸ List.getElem_mem hlt) hk
      exact hij ((List.Nodup.getElem_inj_iff (List.Nodup.of_map _ h)).mp hja).symm
    simp [editAt, hij, hne]

theorem map_key_editAt {f : α → α} (hf : ∀ x, key x = k → key (f x) = k) :
    (editAt key k f xs).map key = xs.map key := by
  simp only [editAt, List.map_map, List.map_inj_left, Function.comp]
  intro x _
  split
  · rename_i hk; rw [hf x hk, hk]
  · rfl

theorem mem_editAt {f : α → α} {y : α} :
    y ∈ editAt key k f xs ↔ ∃ x ∈ xs, (if key x = k then f x else x) = y := by
  simp [editAt]

/-- Nothing has the key. -/
theorem editAt_off (h : ∀ x ∈ xs, key x ≠ k) (f : α → α) : editAt key k f xs = xs :=
  (List.map_congr_left fun x hx => if_neg (h x hx)).trans (List.map_id' xs)

variable (key) in
/-- Editing with a function that agrees on the one element concerned. -/
theorem editAt_congr (h : (xs.map key).Nodup) (ha : a ∈ xs) {f g : α → α} (hfg : f a = g a) :
    editAt key (key a) f xs = editAt key (key a) g xs := by
  simp only [editAt, List.map_inj_left]
  intro x hx
  split
  · rename_i hk; rw [eq_of_key_eq key h hx ha hk, hfg]
  · rfl

/-! ## sums -/

variable (key) in
/-- One element has the key. -/
theorem sum_at_key (h : (xs.map key).Nodup) (ha : a ∈ xs) (c : Int) :
    (xs.map fun x => if key x = key a then c else 0).sum = c := by
  induction xs with
  | nil => simp at ha
  | cons x rest ih =>
      obtain ⟨hx, hrest⟩ := List.nodup_cons.mp h
      rw [List.map_cons, List.sum_cons]
      rcases List.mem_cons.mp ha with rfl | ha
      · have hzero : ∀ y ∈ rest, (if key y = key a then c else 0) = 0 := fun y hy =>
          if_neg fun hk => hx (by rw [← hk]; exact List.mem_map_of_mem hy)
        simp [List.map_congr_left hzero]
      · have hne : key x ≠ key a := fun hk => hx (by rw [hk]; exact List.mem_map_of_mem ha)
        rw [if_neg hne, ih hrest ha, Int.zero_add]

variable (key) in
/-- An edit that adds `c` to the one element concerned adds it to the sum. -/
theorem sum_editAt (h : (xs.map key).Nodup) (ha : a ∈ xs) {f : α → α} {g : α → Int} {c : Int}
    (hf : g (f a) = g a + c) : ((editAt key (key a) f xs).map g).sum = (xs.map g).sum + c := by
  have hpoint : ∀ x ∈ xs, g (if key x = key a then f x else x) =
      g x + if key x = key a then c else 0 := by
    intro x hx
    by_cases hk : key x = key a
    · rw [if_pos hk, if_pos hk, eq_of_key_eq key h hx ha hk, hf]
    · rw [if_neg hk, if_neg hk, Int.add_zero]
  rw [editAt, List.map_map, Function.comp_def, List.map_congr_left hpoint, List.sum_map_add,
    sum_at_key key h ha]

variable (key) in
/-- What moves from one element to another stays in the sum. -/
theorem sum_move (h : (xs.map key).Nodup) (ha : a ∈ xs) (hb : b ∈ xs) {f : α → α} {g : α → Int}
    {c : Int} (hf : ∀ x ∈ xs, g (f x) = g x + ((if key x = key a then -c else 0) +
      if key x = key b then c else 0)) : ((xs.map f).map g).sum = (xs.map g).sum := by
  rw [List.map_map, Function.comp_def, List.map_congr_left hf, List.sum_map_add, List.sum_map_add,
    sum_at_key key h ha, sum_at_key key h hb]
  omega

end Monopoly
