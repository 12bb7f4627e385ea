/-!
# Monopoly.Lib.Path

Paths of a labelled transition relation, with their labels in order.
-/

namespace Monopoly

/-- The labels `es` lead from one state to the other. -/
inductive Path {S L : Type} (step : S → L → S → Prop) : S → List L → S → Prop
  | nil {a : S} : Path step a [] a
  | cons {a b c : S} {e : L} {es : List L} :
      step a e b → Path step b es c → Path step a (e :: es) c

namespace Path

variable {S L : Type} {step : S → L → S → Prop} {a b c : S} {e : L} {es es' : List L}

theorem nil_iff : Path step a [] b ↔ a = b := by
  constructor
  · rintro ⟨⟩
    rfl
  · rintro rfl
    exact .nil

theorem cons_iff : Path step a (e :: es) c ↔ ∃ b, step a e b ∧ Path step b es c := by
  constructor
  · rintro ⟨⟩
    exact ⟨_, ‹_›, ‹_›⟩
  · rintro ⟨b, hstep, hrest⟩
    exact .cons hstep hrest

theorem one (h : step a e b) : Path step a [e] b := .cons h .nil

/-- A path is cut at any of its labels. -/
theorem append_iff : Path step a (es ++ es') c ↔ ∃ b, Path step a es b ∧ Path step b es' c := by
  induction es generalizing a with
  | nil => simp [nil_iff]
  | cons e es ih =>
      simp only [List.cons_append, cons_iff, ih]
      constructor
      · rintro ⟨b, hstep, m, hfirst, hrest⟩
        exact ⟨m, ⟨b, hstep, hfirst⟩, hrest⟩
      · rintro ⟨m, ⟨b, hstep, hfirst⟩, hrest⟩
        exact ⟨b, hstep, m, hfirst, hrest⟩

theorem append (h : Path step a es b) (h' : Path step b es' c) : Path step a (es ++ es') c :=
  append_iff.mpr ⟨b, h, h'⟩

/-- Labels that lead nowhere. -/
theorem stay (h : ∀ e ∈ es, step a e a) : Path step a es a := by
  induction es with
  | nil => exact .nil
  | cons e es ih =>
      obtain ⟨hhead, hrest⟩ := List.forall_mem_cons.mp h
      exact .cons hhead (ih hrest)

/-- Every label is taken from some state. -/
theorem step_of_mem (h : Path step a es b) (he : e ∈ es) : ∃ c d, step c e d := by
  induction h with
  | nil => cases he
  | cons hstep _ ih =>
      rcases List.mem_cons.mp he with rfl | he
      · exact ⟨_, _, hstep⟩
      · exact ih he

/-- A path is seen as a path of another relation, each of whose steps it
takes in some number of labels. -/
theorem flatMap {T K : Type} {step' : T → K → T → Prop} {f : S → T} {g : L → List K}
    (h : ∀ a e b, e ∈ es → step a e b → Path step' (f a) (g e) (f b)) (hpath : Path step a es b) :
    Path step' (f a) (es.flatMap g) (f b) := by
  induction hpath with
  | nil => exact .nil
  | cons hstep _ ih =>
      rw [List.flatMap_cons]
      exact (h _ _ _ List.mem_cons_self hstep).append
        (ih fun a e b he => h a e b (List.mem_cons_of_mem _ he))

/-- A measure that is positive and lowered by every step until the end is
reached, and is no larger than the number of steps, is a proof that it is
reached.  What the steps are taken under may depend on the labels to come. -/
theorem reaches_end {Done : S → Prop} {P : S → List L → Prop} {m : S → Nat}
    (hdone : ∀ a e b, Done a → step a e b → Done b) (hpos : ∀ a es, P a es → 0 < m a)
    (hstep : ∀ a e es b, P a (e :: es) → step a e b → Done b ∨ P b es ∧ m b < m a)
    (hpath : Path step a es b) (hP : P a es) (hlong : m a ≤ es.length) : Done b := by
  have hstays : ∀ {a es b}, Path step a es b → Done a → Done b := by
    intro a es b hpath
    induction hpath with
    | nil => exact id
    | cons hfirst _ ih => exact fun ha => ih (hdone _ _ _ ha hfirst)
  induction hpath with
  | nil => exact absurd (hpos _ _ hP) (Nat.not_lt.mpr hlong)
  | cons hfirst hrest ih =>
      rcases hstep _ _ _ _ hP hfirst with hend | ⟨hnext, hlower⟩
      · exact hstays hrest hend
      · refine ih hnext ?_
        rw [List.length_cons] at hlong
        omega

end Path

end Monopoly
