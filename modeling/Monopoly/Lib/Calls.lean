import Mathlib.Logic.Function.Iterate

/-!
# Monopoly.Lib.Calls

Recursions that call themselves at most once in a call.  A recursion is
given by its functional `F`: `F f a` is what the call at `a` returns when the
calls it makes return what `f` says.  A chain of calls that ends has a value
that does not depend on what stands in for the calls after it.
-/

namespace Monopoly

variable {A B : Type} {F : (A → B) → A → B} {a b : A} {n : Nat}

/-- The call at `a` makes no further call. -/
def Ends (F : (A → B) → A → B) (a : A) : Prop := ∀ f g, F f a = F g a

/-- The call at `a` makes one further call, at `b`, and goes on with what it
returns. -/
def CallsOnce (F : (A → B) → A → B) (a b : A) : Prop := ∃ k : B → B, ∀ f, F f a = k (f b)

/-- From `a` there are `n` calls, the one at `a` included. -/
inductive CallChain (F : (A → B) → A → B) : A → Nat → Prop
  | last {a : A} : Ends F a → CallChain F a 1
  | next {a b : A} {n : Nat} : CallsOnce F a b → CallChain F b n → CallChain F a (n + 1)

/-- What stands in for the calls after the chain makes no difference. -/
theorem CallChain.unroll (h : CallChain F a n) (f g : A → B) : F^[n] f a = F^[n] g a := by
  induction h with
  | last hends => exact hends f g
  | next hcalls _ ih =>
      obtain ⟨k, hk⟩ := hcalls
      rw [Function.iterate_succ_apply', Function.iterate_succ_apply', hk, hk, ih]

/-- Nor do more calls than the chain has. -/
theorem CallChain.unroll_le (h : CallChain F a n) {m : Nat} (hle : n ≤ m) (f : A → B) :
    F^[n] f a = F^[m] f a := by
  rw [h.unroll f (F^[m - n] f), ← Function.iterate_add_apply, Nat.add_sub_cancel' hle]

/-- Calls along which a measure decreases form a chain. -/
theorem exists_callChain (measure : A → Nat) {P : A → Prop}
    (hstep : ∀ a, P a → Ends F a ∨ ∃ b, CallsOnce F a b ∧ P b ∧ measure b < measure a) :
    ∀ a, P a → ∃ n ≤ measure a + 1, CallChain F a n := by
  intro a
  induction hm : measure a using Nat.strongRecOn generalizing a with
  | ind m ih =>
      intro ha
      rcases hstep a ha with hends | ⟨b, hcalls, hb, hlt⟩
      · exact ⟨1, by omega, .last hends⟩
      · obtain ⟨n, hn, hchain⟩ := ih (measure b) (hm ▸ hlt) b rfl hb
        exact ⟨n + 1, by omega, .next hcalls hchain⟩

end Monopoly
