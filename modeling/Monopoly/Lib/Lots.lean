import Mathlib.Data.Set.Basic

/-!
# Monopoly.Lib.Lots

Lots that are owned, developed level by level, and pledged.  A group of lots
is regular when it is developed evenly, by one owner, and pledged only while
nothing stands on it; it is whole when what stands on it stands on lots of
one owner throughout.
-/

namespace Monopoly

@[ext]
structure Lots (κ ι : Type) where
  owner : ι → Option κ
  level : ι → Nat
  pledged : ι → Prop

namespace Lots

variable {κ ι : Type} {L M : Lots κ ι} {group moved : Set ι} {i : ι} {k : κ}

/-- The rule of a group: even development by one owner, no pledge beside a
building, and nothing on a lot that nobody owns. -/
structure Regular (L : Lots κ ι) (group : Set ι) : Prop where
  even : ∀ i ∈ group, ∀ j ∈ group, L.level i ≤ L.level j + 1
  gated : ∀ i ∈ group, ∀ j ∈ group, 0 < L.level i → ¬ L.pledged j
  sole : ∀ i ∈ group, ∀ j ∈ group, 0 < L.level i → 0 < L.level j → L.owner i = L.owner j
  vacant : ∀ i ∈ group, L.owner i = none → L.level i = 0 ∧ ¬ L.pledged i

/-- Where something stands, one owner has the whole group. -/
def Whole (L : Lots κ ι) (group : Set ι) : Prop :=
  ∀ i ∈ group, 0 < L.level i → ∃ k, ∀ j ∈ group, L.owner j = some k

/-- The two tables have the same records on the group. -/
structure Agree (L M : Lots κ ι) (group : Set ι) : Prop where
  owner : ∀ i ∈ group, M.owner i = L.owner i
  level : ∀ i ∈ group, M.level i = L.level i
  pledged : ∀ i ∈ group, M.pledged i ↔ L.pledged i

theorem Agree.regular (h : Agree L M group) (hr : L.Regular group) : M.Regular group where
  even i hi j hj := by rw [h.level i hi, h.level j hj]; exact hr.even i hi j hj
  gated i hi j hj := by rw [h.level i hi, h.pledged j hj]; exact hr.gated i hi j hj
  sole i hi j hj := by
    rw [h.level i hi, h.level j hj, h.owner i hi, h.owner j hj]
    exact hr.sole i hi j hj
  vacant i hi := by
    rw [h.owner i hi, h.level i hi, h.pledged i hi]
    exact hr.vacant i hi

/-! ## development -/

/-- The level of one lot changes, and nothing else. -/
structure Developed (L M : Lots κ ι) (i : ι) : Prop where
  owner : M.owner = L.owner
  pledged : M.pledged = L.pledged
  others : ∀ j ≠ i, M.level j = L.level j

/-- Building on a lowest lot of a group that one owner has, unpledged. -/
theorem Regular.raise (hr : L.Regular group) (hd : Developed L M i)
    (hlevel : M.level i = L.level i + 1) (hleast : i ∈ group → ∀ j ∈ group, L.level i ≤ L.level j)
    (howner : i ∈ group → ∀ j ∈ group, L.owner j = some k ∧ ¬ L.pledged j) : M.Regular group := by
  by_cases hi : i ∈ group
  · have hle : ∀ j, L.level j ≤ M.level j ∧ M.level j ≤ L.level j + 1 := by
      intro j
      by_cases hj : j = i
      · subst hj; omega
      · have := hd.others j hj; omega
    constructor
    · intro j hj j' hj'
      have := hr.even j hj j' hj'
      have := hleast hi j' hj'
      have := hle j'
      by_cases hji : j = i
      · subst hji; omega
      · have := hd.others j hji; omega
    · intro _ _ j hj _
      rw [hd.pledged]
      exact (howner hi j hj).2
    · intro j hj j' hj' _ _
      rw [hd.owner, (howner hi j hj).1, (howner hi j' hj').1]
    · intro j hj hnone
      rw [hd.owner, (howner hi j hj).1] at hnone
      cases hnone
  · have hne : ∀ j ∈ group, j ≠ i := fun j hj hji => hi (hji ▸ hj)
    exact Agree.regular ⟨fun _ _ => by rw [hd.owner], fun j hj => hd.others j (hne j hj),
      fun _ _ => by rw [hd.pledged]⟩ hr

/-- Selling from a highest lot. -/
theorem Regular.lower (hr : L.Regular group) (hd : Developed L M i)
    (hlevel : M.level i + 1 = L.level i)
    (hmost : i ∈ group → ∀ j ∈ group, L.level j ≤ L.level i) : M.Regular group := by
  have hle : ∀ j, M.level j ≤ L.level j ∧ L.level j ≤ M.level j + 1 := by
    intro j
    by_cases hj : j = i
    · subst hj; omega
    · have := hd.others j hj; omega
  by_cases hi : i ∈ group
  · constructor
    · intro j hj j' hj'
      have := hr.even j hj j' hj'
      have := hmost hi j hj
      have := hle j
      by_cases hji : j' = i
      · subst hji; by_cases hjj : j = j'
        · subst hjj; omega
        · have := hd.others j hjj; have := hr.even j' hj' j hj; omega
      · have := hd.others j' hji; omega
    · intro j hj j' hj' hpos
      rw [hd.pledged]
      exact hr.gated j hj j' hj' (by have := hle j; omega)
    · intro j hj j' hj' hpos hpos'
      rw [hd.owner]
      exact hr.sole j hj j' hj' (by have := hle j; omega) (by have := hle j'; omega)
    · intro j hj hnone
      rw [hd.owner] at hnone
      obtain ⟨hzero, hfree⟩ := hr.vacant j hj hnone
      exact ⟨by have := hle j; omega, by rwa [hd.pledged]⟩
  · have hne : ∀ j ∈ group, j ≠ i := fun j hj hji => hi (hji ▸ hj)
    exact Agree.regular ⟨fun _ _ => by rw [hd.owner], fun j hj => hd.others j (hne j hj),
      fun _ _ => by rw [hd.pledged]⟩ hr

/-- Development by the owner of the whole group keeps it whole. -/
theorem Whole.raise (hw : L.Whole group) (hd : Developed L M i)
    (howner : i ∈ group → ∀ j ∈ group, L.owner j = some k) : M.Whole group := by
  intro j hj hlevel
  by_cases hji : j = i
  · subst hji
    exact ⟨k, fun j' hj' => by rw [hd.owner]; exact howner hj j' hj'⟩
  · rw [hd.others j hji] at hlevel
    rw [hd.owner]
    exact hw j hj hlevel

theorem Whole.lower (hw : L.Whole group) (hd : Developed L M i) (hpos : 0 < L.level i) :
    M.Whole group := by
  intro j hj hlevel
  rw [hd.owner]
  by_cases hji : j = i
  · exact hw j hj (hji ▸ hpos)
  · exact hw j hj (hd.others j hji ▸ hlevel)

/-! ## pledges -/

/-- A lot is pledged where nothing stands in its group, or redeemed. -/
theorem Regular.repledge (hr : L.Regular group) (howner : M.owner = L.owner)
    (hlevel : M.level = L.level)
    (hpledged : ∀ j ∈ group, M.pledged j → L.pledged j ∨
      L.owner j ≠ none ∧ ∀ i ∈ group, L.level i = 0) : M.Regular group where
  even := by rw [hlevel]; exact hr.even
  gated i hi j hj hpos hj' := by
    rw [hlevel] at hpos
    rcases hpledged j hj hj' with h | ⟨-, hzero⟩
    · exact hr.gated i hi j hj hpos h
    · have := hzero i hi; omega
  sole := by rw [hlevel, howner]; exact hr.sole
  vacant i hi hnone := by
    rw [howner] at hnone
    obtain ⟨hzero, hfree⟩ := hr.vacant i hi hnone
    refine ⟨by rw [hlevel]; exact hzero, fun hi' => ?_⟩
    rcases hpledged i hi hi' with h | ⟨hsome, -⟩
    · exact hfree h
    · exact hsome hnone

theorem Whole.repledge (hw : L.Whole group) (howner : M.owner = L.owner)
    (hlevel : M.level = L.level) : M.Whole group := by
  intro i hi hpos
  rw [howner]
  exact hw i hi (hlevel ▸ hpos)

/-! ## changing hands -/

/-- Lots change hands, whatever stands on them. -/
structure Conveyed (L M : Lots κ ι) (moved : Set ι) : Prop where
  level : M.level = L.level
  pledged : M.pledged = L.pledged
  others : ∀ i ∉ moved, M.owner i = L.owner i

/-- Lots on which nothing stands find new owners. -/
theorem Regular.convey (hr : L.Regular group) (hc : Conveyed L M moved)
    (hzero : ∀ i ∈ group, i ∈ moved → L.level i = 0) (hsome : ∀ i ∈ moved, M.owner i ≠ none) :
    M.Regular group where
  even := by rw [hc.level]; exact hr.even
  gated := by rw [hc.level, hc.pledged]; exact hr.gated
  sole i hi j hj hposi hposj := by
    rw [hc.level] at hposi hposj
    have hstays : ∀ i ∈ group, 0 < L.level i → M.owner i = L.owner i := fun i hi hpos =>
      hc.others i fun hmem => by have := hzero i hi hmem; omega
    rw [hstays i hi hposi, hstays j hj hposj]
    exact hr.sole i hi j hj hposi hposj
  vacant i hi hnone := by
    have hi' : i ∉ moved := fun hmem => hsome i hmem hnone
    rw [hc.others i hi'] at hnone
    rw [hc.level, hc.pledged]
    exact hr.vacant i hi hnone

/-- A group stays whole when none of its lots change hands while something
stands on it. -/
theorem Whole.convey (hw : L.Whole group) (hc : Conveyed L M moved)
    (hkept : ∀ i ∈ group, 0 < L.level i → ∀ j ∈ group, j ∉ moved) : M.Whole group := by
  intro i hi hpos
  rw [hc.level] at hpos
  obtain ⟨k, hk⟩ := hw i hi hpos
  exact ⟨k, fun j hj => (hc.others j (hkept i hi hpos j hj)).trans (hk j hj)⟩

/-- Everything an owner has goes to one heir. -/
structure Inherited (L M : Lots κ ι) (k heir : κ) : Prop where
  level : M.level = L.level
  pledged : M.pledged = L.pledged
  taken : ∀ i, L.owner i = some k → M.owner i = some heir
  others : ∀ i, L.owner i ≠ some k → M.owner i = L.owner i

theorem Inherited.owner_eq {heir : κ} (h : Inherited L M k heir) {j : ι}
    (hij : L.owner i = L.owner j) : M.owner i = M.owner j := by
  by_cases hi : L.owner i = some k
  · rw [h.taken i hi, h.taken j (hij ▸ hi)]
  · rw [h.others i hi, h.others j (hij ▸ hi), hij]

theorem Regular.inherit {heir : κ} (hr : L.Regular group) (h : Inherited L M k heir) :
    M.Regular group where
  even := by rw [h.level]; exact hr.even
  gated := by rw [h.level, h.pledged]; exact hr.gated
  sole i hi j hj hposi hposj := by
    rw [h.level] at hposi hposj
    exact h.owner_eq (hr.sole i hi j hj hposi hposj)
  vacant i hi hnone := by
    rw [h.level, h.pledged]
    by_cases hk : L.owner i = some k
    · rw [h.taken i hk] at hnone
      cases hnone
    · exact hr.vacant i hi (h.others i hk ▸ hnone)

theorem Whole.inherit {heir : κ} (hw : L.Whole group) (h : Inherited L M k heir) :
    M.Whole group := by
  intro i hi hpos
  rw [h.level] at hpos
  obtain ⟨k', hk'⟩ := hw i hi hpos
  by_cases hkk : k' = k
  · exact ⟨heir, fun j hj => h.taken j (hkk ▸ hk' j hj)⟩
  · refine ⟨k', fun j hj => ?_⟩
    rw [h.others j (by rw [hk' j hj]; simpa using hkk), hk' j hj]

/-- Everything an owner has is cleared and falls vacant. -/
structure Cleared (L M : Lots κ ι) (k : κ) : Prop where
  taken : ∀ i, L.owner i = some k → M.owner i = none ∧ M.level i = 0 ∧ ¬ M.pledged i
  owner : ∀ i, L.owner i ≠ some k → M.owner i = L.owner i
  level : ∀ i, L.owner i ≠ some k → M.level i = L.level i
  pledged : ∀ i, L.owner i ≠ some k → (M.pledged i ↔ L.pledged i)

/-- What still stands after a clearance stood before it, on a lot of another
owner. -/
theorem Cleared.standing (h : Cleared L M k) (hpos : 0 < M.level i) :
    L.owner i ≠ some k ∧ M.level i = L.level i := by
  have hi : L.owner i ≠ some k := fun hk => by
    have := (h.taken i hk).2.1
    omega
  exact ⟨hi, h.level i hi⟩

/-- The group of what stands either falls to one owner and is cleared with
them, or is not theirs and stays. -/
theorem Regular.clear (hr : L.Regular group) (h : Cleared L M k) : M.Regular group where
  even i hi j hj := by
    by_cases hpos : 0 < M.level i
    · obtain ⟨hne, hlevel⟩ := h.standing hpos
      rw [hlevel] at hpos ⊢
      have heven := hr.even i hi j hj
      by_cases hposj : 0 < L.level j
      · have hsole := hr.sole i hi j hj hpos hposj
        rw [h.level j (hsole ▸ hne)]
        exact heven
      · omega
    · omega
  gated i hi j hj hpos := by
    obtain ⟨hne, hlevel⟩ := h.standing hpos
    by_cases hj' : L.owner j = some k
    · exact (h.taken j hj').2.2
    · rw [h.pledged j hj']
      exact hr.gated i hi j hj (hlevel ▸ hpos)
  sole i hi j hj hposi hposj := by
    obtain ⟨hnei, hleveli⟩ := h.standing hposi
    obtain ⟨hnej, hlevelj⟩ := h.standing hposj
    rw [h.owner i hnei, h.owner j hnej]
    exact hr.sole i hi j hj (hleveli ▸ hposi) (hlevelj ▸ hposj)
  vacant i hi hnone := by
    by_cases hk : L.owner i = some k
    · exact (h.taken i hk).2
    · rw [h.level i hk, h.pledged i hk]
      exact hr.vacant i hi (h.owner i hk ▸ hnone)

theorem Whole.clear (hw : L.Whole group) (h : Cleared L M k) : M.Whole group := by
  intro i hi hpos
  obtain ⟨hne, hlevel⟩ := h.standing hpos
  obtain ⟨k', hk'⟩ := hw i hi (hlevel ▸ hpos)
  refine ⟨k', fun j hj => ?_⟩
  rw [h.owner j (by rw [hk' j hj, ← hk' i hi]; exact hne), hk' j hj]

end Lots

end Monopoly
