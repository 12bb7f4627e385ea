import Monopoly.Lib.Checked

/-!
# Monopoly.Lib.Related

Two computations that may raise, side by side.  `Related R x y` says that
they end alike: both raise the same exception or both return, with results as
`R` says.  `Both R x y` says so of the results only.  The rules walk through
two `do` blocks a step at a time.
-/

namespace Monopoly

variable {α β γ δ : Type}

/-- Both raise the same exception, or both return, with results as `R` says. -/
inductive Related (R : α → β → Prop) : Py α → Py β → Prop
  | ok {a : α} {b : β} : R a b → Related R (.ok a) (.ok b)
  | error (e : PyError) : Related R (.error e) (.error e)

namespace Related

variable {R : α → β → Prop} {S : γ → δ → Prop}

/-- Related values are related results. -/
theorem pure {a : α} {b : β} (h : R a b) : Related R (Pure.pure a) (Pure.pure b) := .ok h

/-- A computation beside itself. -/
theorem same {Q : α → α → Prop} (x : Py α) (h : ∀ a, x = .ok a → Q a a) : Related Q x x := by
  cases x with
  | ok a => exact .ok (h a rfl)
  | error e => exact .error e

theorem mono {R' : α → β → Prop} {x : Py α} {y : Py β} (h : Related R x y)
    (hR : ∀ a b, R a b → R' a b) : Related R' x y := by
  cases h with
  | ok hab => exact .ok (hR _ _ hab)
  | error e => exact .error e

/-- Steps that end alike may be followed by rests that do. -/
theorem bind {x : Py γ} {y : Py δ} {f : γ → Py α} {g : δ → Py β} (h : Related S x y)
    (hfg : ∀ c d, S c d → Related R (f c) (g d)) : Related R (x >>= f) (y >>= g) := by
  cases h with
  | ok hcd => exact hfg _ _ hcd
  | error e => exact .error e

/-- Sequencing after a first part that both share. -/
theorem after (x : Py γ) {f : γ → Py α} {g : γ → Py β} (h : ∀ c, Related R (f c) (g c)) :
    Related R (x >>= f) (x >>= g) :=
  (same (Q := Eq) x fun _ _ => rfl).bind fun c _ hcd => hcd ▸ h c

theorem map {f : γ → α} {g : δ → β} {x : Py γ} {y : Py δ} (h : Related S x y)
    (hfg : ∀ c d, S c d → R (f c) (g d)) : Related R (x.map f) (y.map g) := by
  cases h with
  | ok hcd => exact .ok (hfg _ _ hcd)
  | error e => exact .error e

theorem ite {c : Prop} [Decidable c] {x x' : Py α} {y y' : Py β} (h : Related R x y)
    (h' : Related R x' y') : Related R (if c then x else x') (if c then y else y') := by
  split
  · exact h
  · exact h'

/-- They raise the same exceptions. -/
theorem error_iff {x : Py α} {y : Py β} (h : Related R x y) (e : PyError) :
    x = .error e ↔ y = .error e := by
  cases h <;> simp

end Related

/-- If both return, their results are as `R` says. -/
def Both (R : α → β → Prop) (x : Py α) (y : Py β) : Prop :=
  ∀ a b, x = .ok a → y = .ok b → R a b

namespace Both

variable {R : α → β → Prop} {S : γ → δ → Prop}

/-- Only two results have to be related. -/
theorem ok {a : α} {b : β} (h : R a b) : Both R (.ok a) (.ok b) := by
  intro a' b' ha hb
  obtain rfl := Except.ok.inj ha
  obtain rfl := Except.ok.inj hb
  exact h

theorem mono {R' : α → β → Prop} {x : Py α} {y : Py β} (h : Both R x y)
    (hR : ∀ a b, R a b → R' a b) : Both R' x y :=
  fun a b hx hy => hR a b (h a b hx hy)

/-- If either raises, nothing is said of the rest. -/
theorem bind {x : Py γ} {y : Py δ} {f : γ → Py α} {g : δ → Py β} (h : Both S x y)
    (hfg : ∀ c d, S c d → Both R (f c) (g d)) : Both R (x >>= f) (y >>= g) := by
  intro a b hx hy
  cases x with
  | error e => cases hx
  | ok c =>
      cases y with
      | error e => cases hy
      | ok d => exact hfg c d (h c d rfl rfl) a b hx hy

/-- Sequencing after a first part that both share. -/
theorem after (x : Py γ) {f : γ → Py α} {g : γ → Py β} (h : ∀ c, Both R (f c) (g c)) :
    Both R (x >>= f) (x >>= g) := by
  refine bind (S := Eq) ?_ fun c _ hcd => hcd ▸ h c
  rintro c _ rfl hd
  exact Except.ok.inj hd

theorem ite {c : Prop} [Decidable c] {x x' : Py α} {y y' : Py β} (h : Both R x y)
    (h' : Both R x' y') : Both R (if c then x else x') (if c then y else y') := by
  split
  · exact h
  · exact h'

end Both

/-- What ends alike has related results. -/
theorem Related.both {R : α → β → Prop} {x : Py α} {y : Py β} (h : Related R x y) : Both R x y := by
  cases h with
  | ok hab => exact .ok hab
  | error e => exact fun _ _ hx => by cases hx

end Monopoly
