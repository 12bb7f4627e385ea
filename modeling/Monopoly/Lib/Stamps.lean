import Monopoly.Lib.Runs

/-!
# Monopoly.Lib.Stamps

Stamps from a clock.  The steps of a system stamp keys with the time its
clock shows, once each, and the clock moves on before another key is
stamped: the stamps have the order in which they were given.
-/

namespace Monopoly

section Stamps

variable {S L K : Type}

/-- What one step does to the stamps.  Where the system goes on, the clock
has moved past every stamp the step gives. -/
structure Stamping (on : S → Prop) (clock : S → Nat) (stamp : S → K → Option Nat) (s s' : S) :
    Prop where
  keep : ∀ k n, stamp s k = some n → stamp s' k = some n
  fresh : ∀ k n, stamp s k = none → stamp s' k = some n → n = clock s
  tick : on s' → clock s ≤ clock s'
  spent : ∀ k, on s' → stamp s k = none → stamp s' k ≠ none → clock s < clock s'

/-- The step stamps the key. -/
def Stamps (stamp : S → K → Option Nat) (t : Taken S L) (k : K) : Prop :=
  stamp t.before k = none ∧ stamp t.after k ≠ none

variable {init : S → Prop} {step : S → L → S → Prop} {on : S → Prop} {clock : S → Nat}
  {stamp : S → K → Option Nat} {h : List (Taken S L)} {s : S}

/-- While the system is on, every stamp is older than its clock. -/
theorem stamp_lt_clock (hblank : ∀ s, init s → ∀ k, stamp s k = none)
    (hstep : ∀ h s l s', Run init step h s → on s → step s l s' → Stamping on clock stamp s s')
    (hrun : Run init step h s) (hon : ∀ t ∈ h, on t.before) (hgo : on s) :
    ∀ k n, stamp s k = some n → n < clock s := by
  induction hrun with
  | start hinit => simp [hblank _ hinit]
  | @next h s s' l hr hl ih =>
      obtain ⟨hlast, hrest⟩ := List.forall_mem_cons.mp hon
      have hstamping := hstep _ _ _ _ hr hlast hl
      intro k n hn
      cases hk : stamp s k with
      | none =>
          have hspent := hstamping.spent k hgo hk (by simp [hn])
          rwa [← hstamping.fresh k n hk hn] at hspent
      | some m =>
          obtain rfl := Option.some.inj ((hstamping.keep k m hk).symm.trans hn)
          exact Nat.lt_of_lt_of_le (ih hrest hlast k m hk) (hstamping.tick hgo)

/-- A stamp stays. -/
theorem stamp_of_mem
    (hstep : ∀ h s l s', Run init step h s → on s → step s l s' → Stamping on clock stamp s s')
    (hrun : Run init step h s) (hon : ∀ t ∈ h, on t.before) {t : Taken S L} (ht : t ∈ h) {k : K}
    (hk : Stamps stamp t k) : ∃ n, stamp s k = some n := by
  induction hrun with
  | start _ => simp at ht
  | next hr hl ih =>
      obtain ⟨hlast, hrest⟩ := List.forall_mem_cons.mp hon
      rcases List.mem_cons.mp ht with rfl | ht
      · exact Option.ne_none_iff_exists'.mp hk.2
      · obtain ⟨n, hn⟩ := ih hrest ht
        exact ⟨n, (hstep _ _ _ _ hr hlast hl).keep k n hn⟩

/-- Of two keys the one that was stamped earlier has the older stamp. -/
theorem stamps_in_order (hblank : ∀ s, init s → ∀ k, stamp s k = none)
    (hstep : ∀ h s l s', Run init step h s → on s → step s l s' → Stamping on clock stamp s s')
    (hrun : Run init step h s) (hon : ∀ t ∈ h, on t.before) {later earlier : Taken S L}
    (hsub : List.Sublist [later, earlier] h) {j k : K} (hj : Stamps stamp earlier j)
    (hk : Stamps stamp later k) :
    ∃ m n, stamp s j = some m ∧ stamp s k = some n ∧ m < n := by
  induction hrun with
  | start _ => cases hsub
  | next hr hl ih =>
      obtain ⟨hlast, hrest⟩ := List.forall_mem_cons.mp hon
      have hstamping := hstep _ _ _ _ hr hlast hl
      cases hsub with
      | cons _ hsub =>
          obtain ⟨m, n, hm, hn, hlt⟩ := ih hrest hsub
          exact ⟨m, n, hstamping.keep j m hm, hstamping.keep k n hn, hlt⟩
      | cons_cons _ hsub =>
          -- the last step stamps `k`, and `j` was stamped before it
          obtain ⟨m, hm⟩ := stamp_of_mem hstep hr hrest (List.singleton_sublist.mp hsub) hj
          obtain ⟨n, hn⟩ := Option.ne_none_iff_exists'.mp hk.2
          refine ⟨m, n, hstamping.keep j m hm, hn, ?_⟩
          rw [hstamping.fresh k n hk.1 hn]
          exact stamp_lt_clock hblank hstep hr hrest hlast j m hm

end Stamps

end Monopoly
