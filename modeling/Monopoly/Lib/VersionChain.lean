import Mathlib.Tactic.Common

/-!
# Monopoly.Lib.VersionChain

A value under optimistic concurrency control: everything that was ever
stored, the latest first, each with a version one above the one it replaced.
A compare-and-set on the version can only replace the value it was computed
from, whoever read that value and however long ago.
-/

namespace Monopoly

/-- `xs`, the latest first, are the successive values of one register:
versions go up by one, and `link older newer` holds of each next value. -/
inductive VersionChain {α : Type} (version : α → Nat) (link : α → α → Prop) : List α → Prop
  | first (a : α) : VersionChain version link [a]
  | next {a b : α} {rest : List α} : VersionChain version link (a :: rest) →
      version b = version a + 1 → link a b → VersionChain version link (b :: a :: rest)

namespace VersionChain

variable {α : Type} {version : α → Nat} {link : α → α → Prop} {a b : α} {rest xs : List α}

theorem version_lt (h : VersionChain version link (a :: rest)) (hb : b ∈ rest) :
    version b < version a := by
  induction rest generalizing a with
  | nil => simp at hb
  | cons c rest ih =>
      cases h with
      | next hrest hversion _ =>
          rcases List.mem_cons.mp hb with rfl | hb
          · omega
          · have := ih hrest hb
            omega

theorem version_le (h : VersionChain version link (a :: rest)) (hb : b ∈ a :: rest) :
    version b ≤ version a := by
  rcases List.mem_cons.mp hb with rfl | hb
  · exact Nat.le_refl _
  · exact Nat.le_of_lt (h.version_lt hb)

/-- A value that was stored and still has the current version is the current
one. -/
theorem eq_head (h : VersionChain version link (a :: rest)) (hb : b ∈ a :: rest)
    (hversion : version b = version a) : b = a := by
  rcases List.mem_cons.mp hb with rfl | hb
  · rfl
  · have := h.version_lt hb
    omega

/-- No two values have the same version. -/
theorem eq_of_version (h : VersionChain version link xs) (ha : a ∈ xs) (hb : b ∈ xs)
    (hversion : version a = version b) : a = b := by
  induction h with
  | first c => rw [List.mem_singleton.mp ha, List.mem_singleton.mp hb]
  | @next older newer rest hrest hnext hlink ih =>
      have hlt : ∀ c ∈ older :: rest, version c < version newer := fun c hc => by
        have := hrest.version_le hc
        omega
      rcases List.mem_cons.mp ha with ha' | ha' <;> rcases List.mem_cons.mp hb with hb' | hb'
      · exact ha'.trans hb'.symm
      · have := hlt b hb'
        rw [ha'] at hversion
        omega
      · have := hlt a ha'
        rw [hb'] at hversion
        omega
      · exact ih ha' hb'

/-- Every version between the first and the last is that of some value. -/
theorem exists_version {n : Nat} (h : VersionChain version link xs)
    (hfirst : ∀ a, xs.getLast? = some a → version a ≤ n)
    (hlast : ∀ a, xs.head? = some a → n ≤ version a) : ∃ a ∈ xs, version a = n := by
  induction h with
  | first a => exact ⟨a, List.mem_singleton_self a, Nat.le_antisymm (hfirst a rfl) (hlast a rfl)⟩
  | @next older newer rest hrest hnext hlink ih =>
      rcases Nat.lt_or_ge (version older) n with hlt | hge
      · have hle := hlast newer rfl
        exact ⟨newer, List.mem_cons_self, by omega⟩
      · obtain ⟨a, ha, hversion⟩ := ih (fun a ha => hfirst a (by rwa [List.getLast?_cons_cons]))
          fun a ha => by rwa [← Option.some.inj ha]
        exact ⟨a, List.mem_cons_of_mem _ ha, hversion⟩

/-- What the first value has and every link passes on, all values have. -/
theorem forall_mem {P : α → Prop} (h : VersionChain version link xs)
    (hfirst : ∀ a, xs.getLast? = some a → P a) (hlink : ∀ a b, P a → link a b → P b) :
    ∀ a ∈ xs, P a := by
  induction h with
  | first a => exact fun b hb => by simpa [List.mem_singleton.mp hb] using hfirst a rfl
  | next hrest _ hab ih =>
      have hpast := ih fun a ha => hfirst a (by rw [List.getLast?_cons_cons]; exact ha)
      intro c hc
      rcases List.mem_cons.mp hc with rfl | hc
      · exact hlink _ _ (hpast _ List.mem_cons_self) hab
      · exact hpast c hc

end VersionChain

end Monopoly
