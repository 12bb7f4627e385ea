import Monopoly.Lib.Python

/-!
# Monopoly.Lib.Checked

Weakest preconditions of computations that may raise.  `Sat E x Q` says how
`x` may end: an exception satisfies `E`, a result satisfies `Q`.  The rules
below are equivalences and rewrite a `do` block into the conditions of its
steps, one at a time.
-/

namespace Monopoly

/-- Every exception of `x` satisfies `E`, every result satisfies `Q`. -/
def Sat (E : PyError → Prop) (x : Py α) (Q : α → Prop) : Prop :=
  match x with
  | .ok a => Q a
  | .error e => E e

variable {E E' : PyError → Prop} {α β : Type} {P Q : α → Prop}

/-! ## the rules -/

/-- A result is judged by the postcondition, -/
@[simp] theorem sat_ok {a : α} : Sat E (.ok a) Q ↔ Q a := Iff.rfl

/-- an exception by the condition on exceptions. -/
@[simp] theorem sat_error {e : PyError} : Sat E (.error e : Py α) Q ↔ E e := Iff.rfl

/-- `return` is a result. -/
@[simp] theorem sat_pure {a : α} : Sat E (pure a : Py α) Q ↔ Q a := Iff.rfl

/-- A step is judged by what the rest makes of its result. -/
@[simp] theorem sat_bind {x : Py β} {f : β → Py α} :
    Sat E (x >>= f) Q ↔ Sat E x fun b => Sat E (f b) Q := by
  cases x <;> rfl

/-- A function on the result goes into the postcondition. -/
@[simp] theorem sat_map {x : Py β} {f : β → α} :
    Sat E (x.map f) Q ↔ Sat E x fun b => Q (f b) := by
  cases x <;> rfl

/-- Each branch is judged under its condition. -/
@[simp] theorem sat_ite {c : Prop} [Decidable c] {x y : Py α} :
    Sat E (if c then x else y) Q ↔ (c → Sat E x Q) ∧ (¬ c → Sat E y Q) := by
  split <;> simp [*]

/-- A check raises, or the rest goes on without it. -/
@[simp] theorem sat_raiseIf {c : Prop} [Decidable c] {e : PyError} {Q : Unit → Prop} :
    Sat E (raiseIf c e) Q ↔ (c → E e) ∧ (¬ c → Q ()) := by
  simp [raiseIf]

/-- The same for the refusal of a move. -/
@[simp] theorem sat_illegalIf {c : Prop} [Decidable c] {m : String} {Q : Unit → Prop} :
    Sat E (illegalIf c m) Q ↔ (c → E (.illegalMove m)) ∧ (¬ c → Q ()) :=
  sat_raiseIf

/-- A lookup finds something, or raises. -/
@[simp] theorem sat_orRaise {x : Option α} {e : PyError} :
    Sat E (orRaise x e) Q ↔ (x = none → E e) ∧ ∀ a, x = some a → Q a := by
  cases x <;> simp [orRaise]

/-- A result goes on, -/
@[simp] theorem ok_bind {a : β} {f : β → Py α} : (Except.ok a >>= f) = f a := rfl

/-- an exception does not. -/
@[simp] theorem error_bind {e : PyError} {f : β → Py α} :
    ((.error e : Py β) >>= f) = .error e := rfl

/-! ## indexing -/

/-- Within the bounds, indexing is indexing. -/
theorem pyGet_natCast {xs : List α} {i : Nat} (h : i < xs.length) : pyGet xs i = .ok xs[i] := by
  simp [pyGet, orRaise, List.getElem?_eq_getElem h]

/-- What an index finds is in the list. -/
theorem pyGet_mem {xs : List α} {i : Int} {a : α} (h : pyGet xs i = .ok a) :
    a ∈ xs := by
  have hraise : ∀ j : Nat, orRaise xs[j]? .indexError = .ok a → a ∈ xs := by
    intro j hj
    cases hget : xs[j]? with
    | none => simp [hget, orRaise] at hj
    | some b =>
        obtain rfl : b = a := by simpa [hget, orRaise] using hj
        exact List.mem_of_getElem? hget
  unfold pyGet at h
  split at h
  · exact hraise _ h
  · split at h
    · exact hraise _ h
    · cases h

/-- The remainder of naturals is the usual one. -/
theorem pyMod_natCast (a : Nat) {n : Nat} (h : 0 < n) : pyMod a n = .ok (a % n) := by
  have hcast : ((a : Int) % (n : Int)).toNat = a % n := by
    rw [← Int.natCast_emod, Int.toNat_natCast]
  simp [pyMod, Nat.pos_iff_ne_zero.mp h, hcast]

/-! ## consequence -/

/-- What is known of the outcomes may be weakened. -/
theorem Sat.mono {x : Py α} (h : Sat E x P) (hE : ∀ e, E e → E' e) (hQ : ∀ a, P a → Q a) :
    Sat E' x Q := by
  cases x with
  | ok a => exact hQ a h
  | error e => exact hE e h

/-- The rule of consequence for the result alone. -/
theorem Sat.imp {x : Py α} (h : Sat E x P) (hQ : ∀ a, P a → Q a) : Sat E x Q :=
  h.mono (fun _ he => he) hQ

/-- What is known of a result once the computation is seen to return it. -/
theorem Sat.of_ok {x : Py α} {a : α} (h : Sat E x Q) (hx : x = .ok a) : Q a := by
  subst hx; exact h

/-- An exception that was raised is one of those that may be. -/
theorem Sat.of_error {x : Py α} {e : PyError} (h : Sat E x Q) (hx : x = .error e) : E e := by
  subst hx; exact h

/-- A computation that cannot raise returns. -/
theorem Sat.exists_ok {x : Py α} (h : Sat (fun _ => False) x Q) : ∃ a, x = .ok a ∧ Q a := by
  cases x with
  | ok a => exact ⟨a, rfl, h⟩
  | error e => exact h.elim

/-! ## partial correctness -/

/-- Whatever `x` returns satisfies `Q`. -/
abbrev Ensures (x : Py α) (Q : α → Prop) : Prop := Sat (fun _ => True) x Q

/-- Partial correctness speaks of the results only. -/
theorem ensures_iff {x : Py α} : Ensures x Q ↔ ∀ a, x = .ok a → Q a := by
  cases x <;> simp [Ensures]

/-- Every computation ends somehow. -/
@[simp] theorem sat_true {x : Py α} : Sat (fun _ => True) x fun _ => True := by
  cases x <;> trivial

/-- Sequencing, with what the first part ensures. -/
theorem Sat.seq {x : Py β} {f : β → Py α} {R : β → Prop} (hx : Ensures x R)
    (h : ∀ b, R b → Ensures (f b) Q) : Ensures (x >>= f) Q :=
  sat_bind.mpr (hx.imp h)

/-- Sequencing, where what the first part returns does not matter. -/
theorem Sat.after {x : Py β} {f : β → Py α} (h : ∀ b, x = .ok b → Ensures (f b) Q) :
    Ensures (x >>= f) Q :=
  Sat.seq (ensures_iff.mpr fun _ hb => hb) h

/-- Past a guard. -/
theorem Sat.guard {c : Prop} [Decidable c] {m : String} {f : Unit → Py α}
    (h : ¬ c → Ensures (f ()) Q) : Ensures (illegalIf c m >>= f) Q :=
  sat_bind.mpr (sat_illegalIf.mpr ⟨fun _ => trivial, h⟩)

@[simp] theorem PyError.isIllegalMove_illegalMove (m : String) :
    (PyError.illegalMove m).IsIllegalMove := trivial

/-! ## what is not refused -/

/-- `x` returns or crashes: it raises no `IllegalMove`. -/
def Unrefused (x : Py α) : Prop := Sat (fun e => ¬e.IsIllegalMove) x fun _ => True

namespace Unrefused

theorem ok (a : α) : Unrefused (.ok a) := trivial

theorem error {e : PyError} (he : ¬e.IsIllegalMove) : Unrefused (.error e : Py α) := he

theorem bind {x : Py β} {f : β → Py α} (hx : Unrefused x) (hf : ∀ b, Unrefused (f b)) :
    Unrefused (x >>= f) :=
  sat_bind.mpr (hx.imp fun b _ => hf b)

theorem orRaise {e : PyError} (he : ¬e.IsIllegalMove) (x : Option α) :
    Unrefused (Monopoly.orRaise x e) := by
  cases x with
  | none => exact he
  | some a => trivial

theorem ite {c : Prop} [Decidable c] {x y : Py α} (hx : Unrefused x) (hy : Unrefused y) :
    Unrefused (if c then x else y) :=
  sat_ite.mpr ⟨fun _ => hx, fun _ => hy⟩

theorem map {f : β → α} {x : Py β} (hx : Unrefused x) : Unrefused (x.map f) :=
  sat_map.mpr hx

theorem pyGet (xs : List α) (i : Int) : Unrefused (Monopoly.pyGet xs i) :=
  .ite (.orRaise id _) (.ite (.orRaise id _) (.error id))

end Unrefused

end Monopoly
