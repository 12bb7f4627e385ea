import Mathlib.Data.Set.Insert

/-!
# Monopoly.Lib.Register

Registers of titles.  Ownership is written down twice: every thing names its
owner, and every holder lists things.  The two records agree when a holder
lists exactly what names them.  The rules below say which of the usual
entries keep the agreement.
-/

namespace Monopoly

/-- Both records of who owns what. -/
@[ext]
structure Register (H T : Type) where
  owner : T → Option H
  lists : H → Set T

namespace Register

variable {H T : Type} {r : Register H T} {members : Set H} {ts : Set T} {h d : H}
  {heir : Option H}

/-- Every member lists exactly the things that name them. -/
def Agrees (members : Set H) (r : Register H T) : Prop :=
  ∀ h ∈ members, ∀ t, t ∈ r.lists h ↔ r.owner t = some h

open Classical in
/-- `ts` change hands, and every list takes note of it. -/
noncomputable def convey (ts : Set T) (heir : Option H) (r : Register H T) : Register H T where
  owner t := if t ∈ ts then heir else r.owner t
  lists h := {t | if t ∈ ts then heir = some h else t ∈ r.lists h}

open Classical in
/-- `ts` go to `h`, and only the list of `h` takes note of it. -/
noncomputable def enter (ts : Set T) (h : H) (r : Register H T) : Register H T where
  owner t := if t ∈ ts then some h else r.owner t
  lists k := {t | t ∈ r.lists k ∨ k = h ∧ t ∈ ts}

open Classical in
/-- What `d` lists goes to `heir`, and the list of `d` is struck. -/
noncomputable def bequeath (d : H) (heir : Option H) (r : Register H T) : Register H T where
  owner t := if t ∈ r.lists d then heir else r.owner t
  lists h := {t | h ≠ d ∧ (t ∈ r.lists h ∨ heir = some h ∧ t ∈ r.lists d)}

/-- Only the owners and the lists of members matter. -/
theorem Agrees.of_eq {r' : Register H T} (ha : r.Agrees members) (howner : r'.owner = r.owner)
    (hlists : ∀ h ∈ members, r'.lists h = r.lists h) : r'.Agrees members := by
  intro h hh t
  rw [hlists h hh, howner]
  exact ha h hh t

theorem Agrees.convey (ha : r.Agrees members) (ts : Set T) (heir : Option H) :
    (r.convey ts heir).Agrees members := by
  intro h hh t
  by_cases ht : t ∈ ts
  · simp [Register.convey, ht]
  · simpa [Register.convey, ht] using ha h hh t

/-- An entry in one list keeps the agreement exactly when it takes nothing
from another member. -/
theorem Agrees.enter_iff (ha : r.Agrees members) (ts : Set T) (hh : h ∈ members) :
    (r.enter ts h).Agrees members ↔
      ∀ t ∈ ts, ∀ k ∈ members, r.owner t = some k → k = h := by
  constructor
  · intro hafter t ht k hk howner
    have hlisted : t ∈ (r.enter ts h).lists k := .inl ((ha k hk t).mpr howner)
    have hnew := (hafter k hk t).mp hlisted
    exact (Option.some.inj (by simpa [enter, ht] using hnew)).symm
  · intro hfree k hk t
    by_cases ht : t ∈ ts
    · simp only [enter, ht, and_true, if_true, Set.mem_ofPred_eq, Option.some.injEq]
      constructor
      · rintro (hlisted | rfl)
        · exact (hfree t ht k hk ((ha k hk t).mp hlisted)).symm
        · rfl
      · exact fun heq => .inr heq.symm
    · simpa [enter, ht] using ha k hk t

theorem Agrees.bequeath (ha : r.Agrees members) (hd : d ∈ members) (hne : heir ≠ some d) :
    (r.bequeath d heir).Agrees members := by
  intro h hh t
  by_cases ht : t ∈ r.lists d
  · have howner : r.owner t = some d := (ha d hd t).mp ht
    simp only [Register.bequeath, ht, if_true, and_true, Set.mem_ofPred_eq]
    constructor
    · rintro ⟨hhd, hlisted | hheir⟩
      · exact absurd (Option.some.inj (((ha h hh t).mp hlisted).symm.trans howner)) hhd
      · exact hheir
    · rintro rfl
      exact ⟨fun hhd => hne (by rw [hhd]), .inr rfl⟩
  · simp only [Register.bequeath, ht, if_false, and_false, or_false, Set.mem_ofPred_eq]
    rw [← ha h hh t]
    exact ⟨fun hlisted => hlisted.2, fun hlisted => ⟨fun hhd => ht (hhd ▸ hlisted), hlisted⟩⟩

end Register

end Monopoly
