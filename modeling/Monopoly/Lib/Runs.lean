/-!
# Monopoly.Lib.Runs

Runs of a labelled transition system, with their history.  A run is grown
one step at a time at its end, so a property of runs is an induction with
one case for the start and one for the last step.
-/

namespace Monopoly

/-- One step that was taken. -/
structure Taken (S L : Type) where
  before : S
  label : L
  after : S

/-- A history, cut at one of its steps. -/
theorem eq_of_getElem?_some {T : Type} {h : List T} {n : Nat} {t : T} (ht : h[n]? = some t) :
    h = h.take n ++ t :: h.drop (n + 1) := by
  obtain ⟨hn, rfl⟩ := List.getElem?_eq_some_iff.mp ht
  rw [← List.drop_eq_getElem_cons hn, List.take_append_drop]

/-- `Run init step h s`: the steps `h`, the latest first, lead from an
initial state to `s`. -/
inductive Run {S L : Type} (init : S → Prop) (step : S → L → S → Prop) :
    List (Taken S L) → S → Prop
  | start {s : S} : init s → Run init step [] s
  | next {h : List (Taken S L)} {s s' : S} {l : L} :
      Run init step h s → step s l s' → Run init step (⟨s, l, s'⟩ :: h) s'

namespace Run

variable {S L : Type} {init : S → Prop} {step : S → L → S → Prop} {I : S → Prop}
  {A : S → L → Prop} {h : List (Taken S L)} {s : S}

theorem weaken {init' : S → Prop} (hinit : ∀ s, init s → init' s) (hrun : Run init step h s) :
    Run init' step h s := by
  induction hrun with
  | start hs => exact .start (hinit _ hs)
  | next _ hl ih => exact ih.next hl

/-- A run of allowed steps is a run of the system that takes no others. -/
theorem restrict_iff : Run init (fun s l s' => step s l s' ∧ A s l) h s ↔
    Run init step h s ∧ ∀ t ∈ h, A t.before t.label := by
  constructor
  · intro hrun
    induction hrun with
    | start hs => exact ⟨.start hs, by simp⟩
    | next _ hl ih => exact ⟨ih.1.next hl.1, List.forall_mem_cons.mpr ⟨hl.2, ih.2⟩⟩
  · rintro ⟨hrun, hok⟩
    induction hrun with
    | start hs => exact .start hs
    | next _ hl ih =>
        obtain ⟨hlast, hrest⟩ := List.forall_mem_cons.mp hok
        exact (ih hrest).next ⟨hl, hlast⟩

/-- A property of the initial states that every step preserves holds after
every run. -/
theorem invariant (hinit : ∀ s, init s → I s)
    (hstep : ∀ s l s', I s → step s l s' → I s') (hrun : Run init step h s) : I s := by
  induction hrun with
  | start hs => exact hinit _ hs
  | next _ hl ih => exact hstep _ _ _ ih hl

/-- The same for a property that a step preserves when it is taken from a
state it is allowed in: the steps of the run have to be allowed. -/
theorem invariant_of (hinit : ∀ s, init s → I s)
    (hstep : ∀ h s l s', Run init step h s → I s → A s l → step s l s' → I s')
    (hrun : Run init step h s) (hok : ∀ t ∈ h, A t.before t.label) : I s := by
  induction hrun with
  | start hs => exact hinit _ hs
  | next hr hl ih =>
      have hlast := hok _ List.mem_cons_self
      exact hstep _ _ _ _ hr (ih fun t ht => hok t (List.mem_cons_of_mem _ ht)) hlast hl

/-- When a step from a state with the property keeps it exactly where it is
allowed, the states of a run all have the property exactly when its steps
are all allowed. -/
theorem invariant_iff (hinit : ∀ s, init s → I s)
    (hstep : ∀ h s l s', Run init step h s → I s → step s l s' → (I s' ↔ A s l))
    (hrun : Run init step h s) :
    (I s ∧ ∀ t ∈ h, I t.before) ↔ ∀ t ∈ h, A t.before t.label := by
  induction hrun with
  | start hs => simp [hinit _ hs]
  | next hr hl ih =>
      simp only [List.forall_mem_cons]
      constructor
      · rintro ⟨hlast, hbefore, hrest⟩
        exact ⟨(hstep _ _ _ _ hr hbefore hl).mp hlast, ih.mp ⟨hbefore, hrest⟩⟩
      · rintro ⟨hallowed, hrest⟩
        obtain ⟨hbefore, hstates⟩ := ih.mpr hrest
        exact ⟨(hstep _ _ _ _ hr hbefore hl).mpr hallowed, hbefore, hstates⟩

/-- A property that steps preserve holds at the end of a run when it held
before one of its steps. -/
theorem persists {P : S → Prop}
    (hstep : ∀ h s l s', Run init step h s → P s → step s l s' → P s')
    (hrun : Run init step h s) {t : Taken S L} (ht : t ∈ h) (hP : P t.before) : P s := by
  induction hrun with
  | start _ => simp at ht
  | next hr hl ih =>
      rcases List.mem_cons.mp ht with rfl | ht
      · exact hstep _ _ _ _ hr hP hl
      · exact hstep _ _ _ _ hr (ih ht) hl

/-- The same for a property that held after one of the steps. -/
theorem persists_after {P : S → Prop} (hstep : ∀ s l s', P s → step s l s' → P s')
    (hrun : Run init step h s) {t : Taken S L} (ht : t ∈ h) (hP : P t.after) : P s := by
  induction hrun with
  | start _ => simp at ht
  | next hr hl ih =>
      rcases List.mem_cons.mp ht with rfl | ht
      · exact hP
      · exact hstep _ _ _ (ih ht) hl

/-- A property that held after a step, and that every step since then has
kept, held all the time since then. -/
theorem since {P : S → Prop} {later earlier : List (Taken S L)} {t : Taken S L}
    (hstep : ∀ t' ∈ later, P t'.before → P t'.after)
    (hrun : Run init step (later ++ t :: earlier) s) (hP : P t.after) :
    P s ∧ ∀ t' ∈ later, P t'.before := by
  induction later generalizing s with
  | nil =>
      cases hrun with
      | next _ _ => exact ⟨hP, by simp⟩
  | cons t' later ih =>
      cases hrun with
      | next hr _ =>
          obtain ⟨hlast, hkept⟩ := List.forall_mem_cons.mp hstep
          obtain ⟨hbefore, hrest⟩ := ih hkept hr
          exact ⟨hlast hbefore, List.forall_mem_cons.mpr ⟨hbefore, hrest⟩⟩

/-- What no step changes is the same before every step as at the end. -/
theorem constant {β : Type} {f : S → β}
    (hstep : ∀ h s l s', Run init step h s → step s l s' → f s' = f s)
    (hrun : Run init step h s) {t : Taken S L} (ht : t ∈ h) : f t.before = f s := by
  induction hrun with
  | start _ => simp at ht
  | next hr hl ih =>
      rcases List.mem_cons.mp ht with rfl | ht
      · exact (hstep _ _ _ _ hr hl).symm
      · exact (ih ht).trans (hstep _ _ _ _ hr hl).symm

/-- A step was taken at the end of a run, of some of the steps. -/
theorem cut_of_mem (hrun : Run init step h s) {t : Taken S L} (ht : t ∈ h) :
    ∃ h', Run init step h' t.before ∧ h' ⊆ h := by
  induction hrun with
  | start _ => simp at ht
  | next hr _ ih =>
      rcases List.mem_cons.mp ht with rfl | ht
      · exact ⟨_, hr, List.subset_cons_self ..⟩
      · obtain ⟨h', hr', hsub⟩ := ih ht
        exact ⟨h', hr', List.subset_cons_of_subset _ hsub⟩

theorem reached_of_mem (hrun : Run init step h s) {t : Taken S L} (ht : t ∈ h) :
    ∃ h', Run init step h' t.before := by
  obtain ⟨h', hr, -⟩ := hrun.cut_of_mem ht
  exact ⟨h', hr⟩

theorem step_of_mem (hrun : Run init step h s) {t : Taken S L} (ht : t ∈ h) :
    step t.before t.label t.after := by
  induction hrun with
  | start _ => simp at ht
  | next hr hl ih =>
      rcases List.mem_cons.mp ht with rfl | ht
      · exact hl
      · exact ih ht

end Run

end Monopoly
