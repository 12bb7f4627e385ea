import Monopoly.Lib.Ranking

/-!
# Monopoly.Lib.Paging

Listings that are read page by page: a call answers with a page and the
cursor of the next one.  The rows come in order of decreasing key, and the
cursor names the last row of its page, so the next page is what lies below
that row.
-/

namespace Monopoly

/-! ## pages -/

section Pages

variable {α C ε : Type} {get : Option C → Except ε (List α × Option C)} {c : Option C}
  {pages pages' : List (List α)} {limit : Nat}

/-- The pages that are read when every call is made with the cursor of the
one before, from `c` until there is none. -/
inductive Follows (get : Option C → Except ε (List α × Option C)) :
    Option C → List (List α) → Prop
  | last {c : Option C} {page : List α} : get c = .ok (page, none) → Follows get c [page]
  | next {c : Option C} {c' : C} {page : List α} {pages : List (List α)} :
      get c = .ok (page, some c') → Follows get (some c') pages → Follows get c (page :: pages)

theorem Follows.unique (h : Follows get c pages) (h' : Follows get c pages') : pages = pages' := by
  induction h generalizing pages' with
  | last hget =>
      cases h' with
      | last hget' => simp_all
      | next hget' _ => simp_all
  | next hget _ ih =>
      cases h' with
      | last hget' => simp_all
      | next hget' hrest =>
          obtain ⟨rfl, rfl⟩ : _ = _ ∧ _ = _ := by simpa [hget] using hget'
          rw [ih hrest]

/-- The rows, cut into full pages and a last one. -/
structure PagesOf (limit : Nat) (rows : List α) (pages : List (List α)) : Prop where
  flatten : pages.flatten = rows
  full : ∀ page ∈ pages.dropLast, page.length = limit
  last : ∀ page ∈ pages.getLast?, page.length ≤ limit

/-- Cursors that keep track of the rows that are left, `At c rows`, lead
through all of them. -/
theorem exists_follows (hlimit : 0 < limit) (At : Option C → List α → Prop)
    (hget : ∀ c rows, At c rows → (rows.length ≤ limit ∧ get c = .ok (rows, none)) ∨
      (limit < rows.length ∧ ∃ c', get c = .ok (rows.take limit, some c') ∧
        At (some c') (rows.drop limit))) {c : Option C} {rows : List α} (hat : At c rows) :
    ∃ pages, Follows get c pages ∧ PagesOf limit rows pages := by
  induction hn : rows.length using Nat.strongRecOn generalizing c rows with
  | ind n ih =>
      rcases hget c rows hat with ⟨hshort, hlast⟩ | ⟨hlong, c', hnext, hat'⟩
      · exact ⟨[rows], .last hlast, by simp, by simp, by simpa using hshort⟩
      · have hfewer : (rows.drop limit).length < n := by
          rw [List.length_drop]
          omega
        obtain ⟨pages, hfollows, hpages⟩ := ih _ hfewer hat' rfl
        refine ⟨rows.take limit :: pages, .next hnext hfollows, ?_, ?_, ?_⟩
        · rw [List.flatten_cons, hpages.flatten, List.take_append_drop]
        · have hne : pages ≠ [] := by
            rintro rfl
            cases hfollows
          rw [List.dropLast_cons_of_ne_nil hne]
          exact List.forall_mem_cons.mpr ⟨by rw [List.length_take]; omega, hpages.full⟩
        · have hne : pages ≠ [] := by
            rintro rfl
            cases hfollows
          rw [List.getLast?_cons_of_ne_nil hne]
          exact hpages.last

end Pages

/-! ## keysets -/

section Keysets

variable {α κ : Type} [LinearOrder κ] {key : α → κ} {xs ys front rest : List α} {x : α}

/-- In order of decreasing key, no two keys being equal. -/
abbrev Descending (key : α → κ) (xs : List α) : Prop := xs.Pairwise fun a b => key b < key a

/-- The order determines the list. -/
theorem Descending.eq_of_perm (hx : Descending key xs) (hy : Descending key ys)
    (hperm : xs.Perm ys) : xs = ys :=
  List.Perm.eq_of_pairwise (fun _ _ _ _ hab hba => absurd (hab.trans hba) (lt_irrefl _)) hx hy hperm

theorem descending_pySortedDesc (h : (xs.map key).Nodup) :
    Descending key (pySortedDesc key xs) := by
  have hdistinct : (pySortedDesc key xs).Pairwise fun a b => key a ≠ key b := by
    have hkeys := ((pySortedDesc_perm key xs).map key).nodup_iff.mpr h
    exact List.pairwise_map.mp hkeys
  refine (hdistinct.and (pairwise_pySortedDesc key xs)).imp fun hab => ?_
  exact lt_of_le_of_ne hab.2 (Ne.symm hab.1)

/-- Rows that are picked out come in the order they have among all. -/
theorem pySortedDesc_filter (h : (xs.map key).Nodup) (p : α → Bool) :
    pySortedDesc key (xs.filter p) = (pySortedDesc key xs).filter p := by
  have hpicked : ((xs.filter p).map key).Nodup := h.sublist (List.filter_sublist.map key)
  refine (descending_pySortedDesc hpicked).eq_of_perm ((descending_pySortedDesc h).filter p) ?_
  exact (pySortedDesc_perm key _).trans ((pySortedDesc_perm key xs).filter p).symm

/-- Below a row come the rows after it. -/
theorem Descending.filter_below (h : Descending key (front ++ x :: rest)) :
    (front ++ x :: rest).filter (fun a => decide (key a < key x)) = rest := by
  obtain ⟨-, hrest, hbefore⟩ := List.pairwise_append.mp h
  obtain ⟨hafter, -⟩ := List.pairwise_cons.mp hrest
  have hfront : front.filter (fun a => decide (key a < key x)) = [] :=
    List.filter_eq_nil_iff.mpr fun a ha => by
      simpa using (hbefore a ha x List.mem_cons_self).le
  have htail : rest.filter (fun a => decide (key a < key x)) = rest :=
    List.filter_eq_self.mpr fun a ha => decide_eq_true (hafter a ha)
  rw [List.filter_append, hfront, List.filter_cons_of_neg (by simp), htail, List.nil_append]

end Keysets

end Monopoly
