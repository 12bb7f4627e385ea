import Mathlib.Logic.Function.Basic
import Monopoly.Lib.Runs

/-!
# Monopoly.Lib.Coroutine

Coroutines that share a world, and a rely-guarantee logic for them.  A
coroutine has returned or waits for the answer to an operation; in a pool of
flows any waiting one may be the next to have its operation carried out.
`Holds` says of one flow what it promises (its operations satisfy `guar`)
and what it ends with, whatever the other flows do within `rely`; a pool of
such flows keeps the invariant of the world.
-/

namespace Monopoly

/-- A coroutine over the operations `Op`, where `op` is answered by an
`Ans op`. -/
inductive Co (Op : Type) (Ans : Op → Type) (α : Type) where
  | done (a : α)
  | call (op : Op) (k : Ans op → Co Op Ans α)

namespace Co

variable {Op : Type} {Ans : Op → Type} {α β : Type}

def bind : Co Op Ans α → (α → Co Op Ans β) → Co Op Ans β
  | done a, f => f a
  | call op k, f => call op fun r => (k r).bind f

/-- One operation. -/
def await (op : Op) : Co Op Ans (Ans op) := call op done

instance : Monad (Co Op Ans) where
  pure := done
  bind := bind

@[simp] theorem pure_eq (a : α) : (pure a : Co Op Ans α) = done a := rfl

@[simp] theorem done_bind (a : α) (f : α → Co Op Ans β) : (done a >>= f) = f a := rfl

@[simp] theorem call_bind (op : Op) (k : Ans op → Co Op Ans α) (f : α → Co Op Ans β) :
    (call op k >>= f) = call op fun r => k r >>= f := rfl

@[simp] theorem await_bind (op : Op) (f : Ans op → Co Op Ans β) :
    (await op >>= f) = call op f := rfl

theorem bind_done (c : Co Op Ans α) : (c >>= done) = c := by
  induction c with
  | done a => rfl
  | call op k ih => exact congrArg (call op) (funext ih)

theorem bind_assoc {γ : Type} (c : Co Op Ans α) (f : α → Co Op Ans β) (g : β → Co Op Ans γ) :
    (c >>= f >>= g) = c >>= fun a => f a >>= g := by
  induction c with
  | done a => rfl
  | call op k ih => exact congrArg (call op) (funext ih)

/-- Every operation the coroutine may ask for satisfies `ok`. -/
def Uses (ok : Op → Prop) : Co Op Ans α → Prop
  | done _ => True
  | call op k => ok op ∧ ∀ r, (k r).Uses ok

theorem Uses.bind {ok : Op → Prop} {c : Co Op Ans α} {f : α → Co Op Ans β} (hc : c.Uses ok)
    (hf : ∀ a, (f a).Uses ok) : (c >>= f).Uses ok := by
  induction c with
  | done a => exact hf a
  | call op k ih => exact ⟨hc.1, fun r => ih r (hc.2 r)⟩

theorem Uses.mono {ok ok' : Op → Prop} {c : Co Op Ans α} (hc : c.Uses ok)
    (h : ∀ op, ok op → ok' op) : c.Uses ok' := by
  induction c with
  | done a => trivial
  | call op k ih => exact ⟨h op hc.1, fun r => ih r (hc.2 r)⟩

theorem Uses.and {ok ok' : Op → Prop} {c : Co Op Ans α} (hc : c.Uses ok) (hc' : c.Uses ok') :
    c.Uses fun op => ok op ∧ ok' op := by
  induction c with
  | done a => trivial
  | call op k ih => exact ⟨⟨hc.1, hc'.1⟩, fun r => ih r (hc.2 r) (hc'.2 r)⟩

def isDone : Co Op Ans α → Bool
  | done _ => true
  | call .. => false

theorem isDone_iff {c : Co Op Ans α} : c.isDone = true ↔ ∃ a, c = done a := by
  cases c <;> simp [isDone]

/-- The coroutine does not return before it has made a call as `ok` says. -/
def Must (ok : Op → Prop) : Co Op Ans α → Prop
  | done _ => False
  | call op k => ok op ∨ ∀ r, (k r).Must ok

/-- Every call the coroutine may come to satisfies `ok`. -/
def Every (ok : (op : Op) → (Ans op → Co Op Ans α) → Prop) : Co Op Ans α → Prop
  | done _ => True
  | call op k => ok op k ∧ ∀ r, (k r).Every ok

theorem every_await {ok : (op : Op) → (Ans op → Co Op Ans α) → Prop} {op : Op}
    {f : Ans op → Co Op Ans α} :
    (await op >>= f).Every ok ↔ ok op f ∧ ∀ r, (f r).Every ok := Iff.rfl

/-- Whatever it is answered, the operations the coroutine goes through and
what it returns are as `P` says. -/
def Traces : Co Op Ans α → (List Op → α → Prop) → Prop
  | done a, P => P [] a
  | call op k, P => ∀ r, (k r).Traces fun ops a => P (op :: ops) a

theorem Traces.mono {P Q : List Op → α → Prop} {c : Co Op Ans α} (hc : c.Traces P)
    (h : ∀ ops a, P ops a → Q ops a) : c.Traces Q := by
  induction c generalizing P Q with
  | done a => exact h [] a hc
  | call op k ih => exact fun r => ih r (hc r) fun ops a => h (op :: ops) a

theorem Traces.bind {P : List Op → β → Prop} {c : Co Op Ans α} {f : α → Co Op Ans β}
    (hc : c.Traces fun ops a => (f a).Traces fun ops' b => P (ops ++ ops') b) :
    (c >>= f).Traces P := by
  induction c generalizing P with
  | done a => exact hc
  | call op k ih => exact fun r => ih r (hc r)

/-- The coroutine over more operations, into which `f` takes its own; `g`
reads their answers. -/
def lift {Op' : Type} {Ans' : Op' → Type} (f : Op → Op') (g : ∀ op, Ans' (f op) → Ans op) :
    Co Op Ans α → Co Op' Ans' α
  | done a => done a
  | call op k => call (f op) fun r => (k (g op r)).lift f g

theorem Uses.lift {Op' : Type} {Ans' : Op' → Type} {f : Op → Op'}
    {g : ∀ op, Ans' (f op) → Ans op} {ok : Op → Prop} {ok' : Op' → Prop} {c : Co Op Ans α}
    (hc : c.Uses ok) (h : ∀ op, ok op → ok' (f op)) : (c.lift f g).Uses ok' := by
  induction c with
  | done a => trivial
  | call op k ih => exact ⟨h op hc.1, fun r => ih (g op r) (hc.2 (g op r))⟩

end Co

/-! ## pools -/

/-- A world and the flows that act on it. -/
structure Pool (ι W Op : Type) (Ans : Op → Type) (α : Type) where
  world : W
  flow : ι → Co Op Ans α

/-- One operation that was carried out: whose, which and its answer. -/
structure Event (ι Op : Type) (Ans : Op → Type) where
  flow : ι
  op : Op
  answer : Ans op

section Pools

variable {ι W Op α β : Type} {Ans : Op → Type}

/-- `exec i w op r w'`: carried out for flow `i` in the world `w`, `op` may
be answered by `r` and leave `w'`. -/
abbrev Exec (ι W Op : Type) (Ans : Op → Type) := ι → W → (op : Op) → Ans op → W → Prop

/-- One waiting flow has its operation carried out. -/
inductive Pool.Step [DecidableEq ι] (exec : Exec ι W Op Ans) :
    Pool ι W Op Ans α → Event ι Op Ans → Pool ι W Op Ans α → Prop
  | step {p : Pool ι W Op Ans α} {i : ι} {op : Op} {k : Ans op → Co Op Ans α} {r : Ans op}
      {w' : W} : p.flow i = .call op k → exec i p.world op r w' →
      Step exec p ⟨i, op, r⟩ ⟨w', Function.update p.flow i (k r)⟩

/-- The operation of a step was carried out. -/
theorem Pool.Step.exec [DecidableEq ι] {exec : Exec ι W Op Ans} {p p' : Pool ι W Op Ans α}
    {e : Event ι Op Ans} (h : Pool.Step exec p e p') :
    exec e.flow p.world e.op e.answer p'.world := by
  cases h with
  | step _ hexec => exact hexec

/-- What a step is: whose call was answered, and how it goes on. -/
theorem Pool.Step.call [DecidableEq ι] {exec : Exec ι W Op Ans} {p p' : Pool ι W Op Ans α}
    {e : Event ι Op Ans} (h : Pool.Step exec p e p') :
    ∃ k, p.flow e.flow = .call e.op k ∧ p'.flow = Function.update p.flow e.flow (k e.answer) := by
  cases h with
  | step hflow _ => exact ⟨_, hflow, rfl⟩

/-- The runs of the pool whose flows start with `code`. -/
abbrev Pool.Runs [DecidableEq ι] (exec : Exec ι W Op Ans) (start : W → Prop)
    (code : ι → Co Op Ans α) :=
  Run (fun p : Pool ι W Op Ans α => start p.world ∧ p.flow = code) (Pool.Step exec)

/-- Flow `i` has begun and has not returned. -/
def Pool.InFlight (h : List (Taken (Pool ι W Op Ans α) (Event ι Op Ans))) (p : Pool ι W Op Ans α)
    (i : ι) : Prop :=
  (∃ t ∈ h, t.label.flow = i) ∧ ∀ a, p.flow i ≠ .done a

/-- A flow that has not begun is where its code starts. -/
theorem Pool.Runs.unbegun [DecidableEq ι] {exec : Exec ι W Op Ans} {start : W → Prop}
    {code : ι → Co Op Ans α} {h : List (Taken (Pool ι W Op Ans α) (Event ι Op Ans))}
    {p : Pool ι W Op Ans α} (hrun : Pool.Runs exec start code h p) {i : ι}
    (hnot : ∀ t ∈ h, t.label.flow ≠ i) : p.flow i = code i := by
  induction hrun with
  | start hs => rw [hs.2]
  | next _ hstep ih =>
      obtain ⟨hlast, hrest⟩ := List.forall_mem_cons.mp hnot
      obtain ⟨k, -, hflows⟩ := hstep.call
      rw [hflows, Function.update_of_ne (Ne.symm hlast)]
      exact ih hrest

/-- A flow only comes to calls of its code. -/
theorem Pool.Runs.every [DecidableEq ι] {exec : Exec ι W Op Ans} {start : W → Prop}
    {code : ι → Co Op Ans α} {i : ι} {ok : (op : Op) → (Ans op → Co Op Ans α) → Prop}
    {h : List (Taken (Pool ι W Op Ans α) (Event ι Op Ans))} {p : Pool ι W Op Ans α}
    (hrun : Pool.Runs exec start code h p) (hcode : (code i).Every ok) : (p.flow i).Every ok := by
  refine Run.invariant (I := fun p : Pool ι W Op Ans α => (p.flow i).Every ok) ?_ ?_ hrun
  · rintro s ⟨-, rfl⟩
    exact hcode
  · intro s e s' hs hstep
    obtain ⟨k, hflow, hflows⟩ := hstep.call
    rw [hflows]
    by_cases hi : i = e.flow
    · subst hi
      rw [hflow] at hs
      rw [Function.update_self]
      exact hs.2 e.answer
    · rw [Function.update_of_ne hi]
      exact hs

/-- A flow that must make a call has made it once it has returned. -/
theorem Pool.Runs.must [DecidableEq ι] {exec : Exec ι W Op Ans} {start : W → Prop}
    {code : ι → Co Op Ans α} {i : ι} {ok : Op → Prop} {a : α}
    {h : List (Taken (Pool ι W Op Ans α) (Event ι Op Ans))} {p : Pool ι W Op Ans α}
    (hrun : Pool.Runs exec start code h p) (hcode : (code i).Must ok) (hdone : p.flow i = .done a) :
    ∃ t ∈ h, t.label.flow = i ∧ ok t.label.op := by
  suffices hmade : (p.flow i).Must ok ∨ ∃ t ∈ h, t.label.flow = i ∧ ok t.label.op by
    rw [hdone] at hmade
    exact hmade.resolve_left id
  clear hdone
  induction hrun with
  | start hs => exact .inl (hs.2 ▸ hcode)
  | @next _ s s' e _ hstep ih =>
      rcases ih with hmust | ⟨t, ht, hmade⟩
      · obtain ⟨k, hflow, hflows⟩ := hstep.call
        by_cases hi : i = e.flow
        · subst hi
          rw [hflow] at hmust
          rcases hmust with hok | hmust
          · exact .inr ⟨_, List.mem_cons_self, rfl, hok⟩
          · exact .inl (by rw [hflows, Function.update_self]; exact hmust e.answer)
        · exact .inl (by rwa [hflows, Function.update_of_ne hi])
      · exact .inr ⟨t, List.mem_cons_of_mem _ ht, hmade⟩

/-- Carried out for flow `i` with nothing in between, the coroutine returns
`a` and leaves `w'`. -/
def Co.Alone (exec : Exec ι W Op Ans) (i : ι) : Co Op Ans α → W → α → W → Prop
  | .done b, w, a, w' => a = b ∧ w' = w
  | .call op k, w, a, w' => ∃ r v, exec i w op r v ∧ (k r).Alone exec i v a w'

theorem Co.alone_await {exec : Exec ι W Op Ans} {i : ι} {op : Op} {f : Ans op → Co Op Ans α}
    {w w' : W} {a : α} : (Co.await op >>= f).Alone exec i w a w' ↔
      ∃ r v, exec i w op r v ∧ (f r).Alone exec i v a w' := Iff.rfl

/-- A coroutine whose operations can always be carried out returns. -/
theorem Co.Uses.alone {exec : Exec ι W Op Ans} {i : ι} {ok : Op → Prop} {c : Co Op Ans α}
    (hc : c.Uses ok) (hexec : ∀ w op, ok op → ∃ r w', exec i w op r w') (w : W) :
    ∃ a w', c.Alone exec i w a w' := by
  induction c generalizing w with
  | done a => exact ⟨a, w, rfl, rfl⟩
  | call op k ih =>
      obtain ⟨r, v, hstep⟩ := hexec w op hc.1
      obtain ⟨a, w', hrest⟩ := ih r (hc.2 r) v
      exact ⟨a, w', r, v, hstep, hrest⟩

/-- A coroutine of operations that keep an assertion keeps it when it is carried
out with nothing in between. -/
theorem Co.Uses.alone_keeps {exec : Exec ι W Op Ans} {i : ι} {ok : Op → Prop} {A : W → Prop}
    {c : Co Op Ans α} {w w' : W} {a : α} (hc : c.Uses ok)
    (hstep : ∀ w op r w', ok op → A w → exec i w op r w' → A w')
    (halone : c.Alone exec i w a w') (hw : A w) : A w' := by
  induction c generalizing w with
  | done b =>
      obtain ⟨-, rfl⟩ := halone
      exact hw
  | call op k ih =>
      obtain ⟨r, v, hexec, hrest⟩ := halone
      exact ih r (hc.2 r) hrest (hstep w op r v hc.1 hw hexec)

/-- A flow that is the only one to move is carried out with nothing in
between. -/
theorem Pool.Runs.alone [DecidableEq ι] {exec : Exec ι W Op Ans} {start : W → Prop}
    {code : ι → Co Op Ans α} {i : ι} {h : List (Taken (Pool ι W Op Ans α) (Event ι Op Ans))}
    {p : Pool ι W Op Ans α} {a : α} (hrun : Pool.Runs exec start code h p)
    (honly : ∀ t ∈ h, t.label.flow = i) (hdone : p.flow i = .done a) :
    ∃ w, start w ∧ (code i).Alone exec i w a p.world := by
  suffices hrest : ∀ w', (p.flow i).Alone exec i p.world a w' →
      ∃ w, start w ∧ (code i).Alone exec i w a w' by
    refine hrest p.world ?_
    rw [hdone]
    exact ⟨rfl, rfl⟩
  clear hdone
  induction hrun with
  | start hs => exact fun w' hw' => ⟨_, hs.1, hs.2 ▸ hw'⟩
  | next _ hstep ih =>
      intro w' hw'
      obtain ⟨rfl, hbefore⟩ := List.forall_mem_cons.mp honly
      obtain ⟨k, hflow, hflows⟩ := hstep.call
      rw [hflows, Function.update_self] at hw'
      refine ih hbefore w' ?_
      rw [hflow]
      exact ⟨_, _, hstep.exec, hw'⟩

/-- `exec` where it is allowed. -/
def Exec.under (exec : Exec ι W Op Ans) (A : W → Event ι Op Ans → Prop) : Exec ι W Op Ans :=
  fun i w op r w' => A w ⟨i, op, r⟩ ∧ exec i w op r w'

theorem Pool.Runs.under [DecidableEq ι] {exec : Exec ι W Op Ans} {start : W → Prop}
    {code : ι → Co Op Ans α} {A : W → Event ι Op Ans → Prop}
    {h : List (Taken (Pool ι W Op Ans α) (Event ι Op Ans))} {p : Pool ι W Op Ans α}
    (hrun : Pool.Runs exec start code h p) (hA : ∀ t ∈ h, A t.before.world t.label) :
    Pool.Runs (exec.under A) start code h p := by
  induction hrun with
  | start hs => exact .start hs
  | next _ hl ih =>
      have hlast := hA _ List.mem_cons_self
      refine (ih fun t ht => hA t (List.mem_cons_of_mem _ ht)).next ?_
      obtain ⟨hflow, hexec⟩ := hl
      exact .step hflow ⟨hlast, hexec⟩

/-! ## replays -/

/-- A way to carry out operations: `perform i hint w op` is the answer and the
world it leaves, where the hint settles what the world does not. -/
abbrev Performer (ι W Op τ : Type) (Ans : Op → Type) :=
  ι → τ → W → (op : Op) → Option (Ans op × W)

/-- The turn of a waiting flow. -/
def Pool.turn [DecidableEq ι] {τ : Type} (perform : Performer ι W Op τ Ans)
    (p : Pool ι W Op Ans α) (turn : ι × τ) :
    Option (Taken (Pool ι W Op Ans α) (Event ι Op Ans)) :=
  match p.flow turn.1 with
  | .done _ => none
  | .call op k => (perform turn.1 turn.2 p.world op).map fun answer =>
      ⟨p, ⟨turn.1, op, answer.1⟩, ⟨answer.2, Function.update p.flow turn.1 (k answer.1)⟩⟩

/-- The steps of the turns, the latest first, and where they lead. -/
def Pool.replay [DecidableEq ι] {τ : Type} (perform : Performer ι W Op τ Ans)
    (p : Pool ι W Op Ans α) (turns : List (ι × τ)) :
    Option (List (Taken (Pool ι W Op Ans α) (Event ι Op Ans)) × Pool ι W Op Ans α) :=
  turns.foldlM (fun r turn => (Pool.turn perform r.2 turn).map fun t => (t :: r.1, t.after)) ([], p)

/-- The turns can be taken, and their steps and the pool they lead to pass
the check. -/
def Pool.Replays [DecidableEq ι] {τ : Type} (perform : Performer ι W Op τ Ans)
    (p : Pool ι W Op Ans α) (turns : List (ι × τ))
    (check : List (Taken (Pool ι W Op Ans α) (Event ι Op Ans)) → Pool ι W Op Ans α → Bool) :
    Bool :=
  match Pool.replay perform p turns with
  | none => false
  | some (h, p') => check h p'

/-- Every flow that has begun has returned. -/
def Pool.settled (h : List (Taken (Pool ι W Op Ans α) (Event ι Op Ans)))
    (p : Pool ι W Op Ans α) : Bool :=
  h.all fun t => (p.flow t.label.flow).isDone

theorem Pool.not_inFlight_of_settled {h : List (Taken (Pool ι W Op Ans α) (Event ι Op Ans))}
    {p : Pool ι W Op Ans α} (hsettled : Pool.settled h p = true) (i : ι) :
    ¬Pool.InFlight h p i := by
  rintro ⟨⟨t, ht, rfl⟩, hwaits⟩
  obtain ⟨a, ha⟩ := Co.isDone_iff.mp (List.all_eq_true.mp hsettled t ht)
  exact hwaits a ha

section Replays

variable [DecidableEq ι] {τ : Type} {perform : Performer ι W Op τ Ans} {exec : Exec ι W Op Ans}
  {start : W → Prop} {code : ι → Co Op Ans α} {p p' : Pool ι W Op Ans α}
  {h h' : List (Taken (Pool ι W Op Ans α) (Event ι Op Ans))}

theorem Pool.turn_step (hperform : ∀ i hint w op r w', perform i hint w op = some (r, w') →
      exec i w op r w') {turn : ι × τ} {t : Taken (Pool ι W Op Ans α) (Event ι Op Ans)}
    (ht : Pool.turn perform p turn = some t) :
    t.before = p ∧ Pool.Step exec t.before t.label t.after := by
  unfold Pool.turn at ht
  cases hflow : p.flow turn.1 with
  | done a => simp [hflow] at ht
  | call op k =>
      rw [hflow] at ht
      obtain ⟨answer, hanswer, rfl⟩ := Option.map_eq_some_iff.mp ht
      exact ⟨rfl, .step hflow (hperform _ _ _ _ _ _ hanswer)⟩

/-- A replay of turns that are carried out as `exec` allows is a run. -/
theorem Pool.replay_run (hperform : ∀ i hint w op r w', perform i hint w op = some (r, w') →
      exec i w op r w') {turns : List (ι × τ)} (hstart : start p.world) (hcode : p.flow = code)
    (hreplay : Pool.replay perform p turns = some (h, p')) : Pool.Runs exec start code h p' := by
  suffices hruns : ∀ (turns : List (ι × τ)) (h₀ : List _) (p₀ : Pool ι W Op Ans α),
      Pool.Runs exec start code h₀ p₀ →
      turns.foldlM (fun r turn => (Pool.turn perform r.2 turn).map fun t => (t :: r.1, t.after))
        (h₀, p₀) = some (h, p') → Pool.Runs exec start code h p' from
    hruns turns [] p (.start ⟨hstart, hcode⟩) hreplay
  intro turns
  induction turns with
  | nil =>
      intro h₀ p₀ hrun heq
      obtain ⟨rfl, rfl⟩ := Prod.mk.inj (Option.some.inj heq)
      exact hrun
  | cons turn rest ih =>
      intro h₀ p₀ hrun heq
      simp only [List.foldlM_cons, Option.bind_eq_bind] at heq
      obtain ⟨r, hr, hrest⟩ := Option.bind_eq_some_iff.mp heq
      obtain ⟨t, ht, rfl⟩ := Option.map_eq_some_iff.mp hr
      obtain ⟨rfl, hstep⟩ := Pool.turn_step hperform ht
      exact ih _ _ (hrun.next hstep) hrest

theorem Pool.runs_of_replays (hperform : ∀ i hint w op r w',
      perform i hint w op = some (r, w') → exec i w op r w') {turns : List (ι × τ)}
    {check : List (Taken (Pool ι W Op Ans α) (Event ι Op Ans)) → Pool ι W Op Ans α → Bool}
    (hstart : start p.world) (hcode : p.flow = code)
    (hreplays : Pool.Replays perform p turns check = true) :
    ∃ h p', Pool.Runs exec start code h p' ∧ check h p' = true := by
  unfold Pool.Replays at hreplays
  cases hreplay : Pool.replay perform p turns with
  | none => simp [hreplay] at hreplays
  | some r =>
      rw [hreplay] at hreplays
      exact ⟨r.1, r.2, Pool.replay_run hperform hstart hcode hreplay, hreplays⟩

end Replays

/-! ## rely and guarantee -/

/-- What the flows of a pool promise each other: `guar i w op` is what flow
`i` may do in `w`, `rely i w w'` what may happen to it meanwhile. -/
structure Protocol (exec : Exec ι W Op Ans) where
  inv : W → Prop
  guar : ι → W → Op → Prop
  rely : ι → W → W → Prop
  rely_refl : ∀ i w, rely i w w
  rely_trans : ∀ i w w' w'', rely i w w' → rely i w' w'' → rely i w w''
  keeps : ∀ i w op r w', inv w → guar i w op → exec i w op r w' → inv w'
  spares : ∀ i j w op r w', j ≠ i → inv w → guar i w op → exec i w op r w' → rely j w w'

namespace Protocol

variable {exec : Exec ι W Op Ans}

/-- From `w` on, flow `i` with the code that is left keeps its promises and
returns with `Q`. -/
def Holds (P : Protocol exec) (i : ι) (Q : α → W → Prop) : Co Op Ans α → W → Prop
  | .done a, w => ∀ w', P.inv w' → P.rely i w w' → Q a w'
  | .call op k, w => ∀ w', P.inv w' → P.rely i w w' →
      P.guar i w' op ∧ ∀ r w'', exec i w' op r w'' → P.Holds i Q (k r) w''

variable {P : Protocol exec} {i : ι} {Q : α → W → Prop} {w w' : W}

theorem Holds.later {c : Co Op Ans α} (h : P.Holds i Q c w) (hw : P.rely i w w') :
    P.Holds i Q c w' := by
  cases c with
  | done a => exact fun w'' hinv hrely => h w'' hinv (P.rely_trans i w w' w'' hw hrely)
  | call op k => exact fun w'' hinv hrely => h w'' hinv (P.rely_trans i w w' w'' hw hrely)

theorem Holds.mono {Q' : α → W → Prop} {c : Co Op Ans α} (h : P.Holds i Q c w)
    (hQ : ∀ a w, Q a w → Q' a w) : P.Holds i Q' c w := by
  induction c generalizing w with
  | done a => exact fun w' hinv hrely => hQ a w' (h w' hinv hrely)
  | call op k ih =>
      intro w' hinv hrely
      obtain ⟨hguar, hnext⟩ := h w' hinv hrely
      exact ⟨hguar, fun r w'' hexec => ih r (hnext r w'' hexec)⟩

/-- Sequencing: the rest holds from every world the first part may end
in. -/
theorem Holds.bind {R : β → W → Prop} {c : Co Op Ans β} {f : β → Co Op Ans α}
    (hc : P.Holds i R c w) (hinv : P.inv w)
    (hf : ∀ b w', P.inv w' → R b w' → P.Holds i Q (f b) w') : P.Holds i Q (c >>= f) w := by
  induction c generalizing w with
  | done b => exact hf b w hinv (hc w hinv (P.rely_refl i w))
  | call op k ih =>
      intro w' hinv' hrely
      obtain ⟨hguar, hnext⟩ := hc w' hinv' hrely
      exact ⟨hguar, fun r w'' hexec =>
        ih r (hnext r w'' hexec) (P.keeps i w' op r w'' hinv' hguar hexec)⟩

/-- A coroutine of operations that keep an assertion keeps it to its end. -/
theorem Holds.of_uses {A : W → Prop} {ok : Op → Prop} {c : Co Op Ans α}
    (hstable : ∀ w w', P.rely i w w' → A w → A w')
    (hguar : ∀ w op, P.inv w → ok op → A w → P.guar i w op)
    (hstep : ∀ w op r w', P.inv w → ok op → A w → exec i w op r w' → A w')
    (hc : c.Uses ok) (hA : A w) : P.Holds i (fun _ => A) c w := by
  induction c generalizing w with
  | done a => exact fun w' _ hrely => hstable w w' hrely hA
  | call op k ih =>
      intro w' hinv hrely
      have hA' := hstable w w' hrely hA
      exact ⟨hguar w' op hinv hc.1 hA', fun r w'' hexec =>
        ih r (hc.2 r) (hstep w' op r w'' hinv hc.1 hA' hexec)⟩

/-- What a coroutine promises it promises of a part of the world, where it
does the same. -/
theorem Holds.lift {W' Op' : Type} {Ans' : Op' → Type} {exec' : Exec ι W' Op' Ans'}
    {P' : Protocol exec'} (view : W' → W) {f : Op → Op'} {g : ∀ op, Ans' (f op) → Ans op}
    {ok : Op → Prop} {c : Co Op Ans α} {w : W'} (hinv : ∀ w, P'.inv w → P.inv (view w))
    (hrely : ∀ w w', P'.rely i w w' → P.rely i (view w) (view w'))
    (hguar : ∀ w op, ok op → P.guar i (view w) op → P'.guar i w (f op))
    (hexec : ∀ w op r w', exec' i w (f op) r w' → exec i (view w) op (g op r) (view w'))
    (hc : c.Uses ok) (h : P.Holds i Q c (view w)) :
    P'.Holds i (fun a w => Q a (view w)) (c.lift f g) w := by
  induction c generalizing w with
  | done a => exact fun w' hw' hr => h (view w') (hinv w' hw') (hrely w w' hr)
  | call op k ih =>
      intro w' hw' hr
      obtain ⟨hpromised, hnext⟩ := h (view w') (hinv w' hw') (hrely w w' hr)
      exact ⟨hguar w' op hc.1 hpromised, fun r w'' hstep =>
        ih (g op r) (hc.2 (g op r)) (hnext (g op r) (view w'') (hexec w' op r w'' hstep))⟩

variable [DecidableEq ι] {start : W → Prop} {code : ι → Co Op Ans α} {R : ι → α → W → Prop}
  {h : List (Taken (Pool ι W Op Ans α) (Event ι Op Ans))} {p : Pool ι W Op Ans α}

/-- A pool of flows that keep their promises keeps the invariant, and every
flow goes on keeping them. -/
theorem sound (P : Protocol exec) (hinv : ∀ w, start w → P.inv w)
    (hcode : ∀ i w, start w → P.Holds i (R i) (code i) w)
    (hrun : Pool.Runs exec start code h p) :
    P.inv p.world ∧ ∀ i, P.Holds i (R i) (p.flow i) p.world := by
  induction hrun with
  | start hs =>
      obtain ⟨hstart, rfl⟩ := hs
      exact ⟨hinv _ hstart, fun i => hcode i _ hstart⟩
  | next _ hl ih =>
      obtain ⟨hworld, hflows⟩ := ih
      cases hl with
      | step hflow hexec =>
          rename_i i op k r w'
          have hmine := hflows i
          rw [hflow] at hmine
          obtain ⟨hguar, hnext⟩ := hmine _ hworld (P.rely_refl i _)
          refine ⟨P.keeps i _ op r w' hworld hguar hexec, fun j => ?_⟩
          by_cases hj : j = i
          · subst hj
            simpa using hnext r w' hexec
          · simp only [Function.update_of_ne hj]
            exact (hflows j).later (P.spares i j _ op r w' hj hworld hguar hexec)

/-- Every operation of the run was one its flow had promised. -/
theorem guaranteed (P : Protocol exec) (hinv : ∀ w, start w → P.inv w)
    (hcode : ∀ i w, start w → P.Holds i (R i) (code i) w)
    (hrun : Pool.Runs exec start code h p) {t : Taken (Pool ι W Op Ans α) (Event ι Op Ans)}
    (ht : t ∈ h) : P.inv t.before.world ∧ P.guar t.label.flow t.before.world t.label.op := by
  induction hrun with
  | start _ => simp at ht
  | next hr hl ih =>
      rcases List.mem_cons.mp ht with rfl | ht
      · obtain ⟨hworld, hflows⟩ := P.sound hinv hcode hr
        cases hl with
        | step hflow hexec =>
            rename_i i op k r w'
            have hmine := hflows i
            rw [hflow] at hmine
            exact ⟨hworld, (hmine _ hworld (P.rely_refl i _)).1⟩
      · exact ih ht

/-- What a flow has returned with holds. -/
theorem returned (P : Protocol exec) (hinv : ∀ w, start w → P.inv w)
    (hcode : ∀ i w, start w → P.Holds i (R i) (code i) w)
    (hrun : Pool.Runs exec start code h p) {a : α} (hdone : p.flow i = .done a) :
    R i a p.world := by
  obtain ⟨hworld, hflows⟩ := P.sound hinv hcode hrun
  have hmine := hflows i
  rw [hdone] at hmine
  exact hmine _ hworld (P.rely_refl i _)

/-- A flow goes on keeping what it has promised, whoever takes the step. -/
theorem step_holds (P : Protocol exec) (hinv : ∀ w, start w → P.inv w)
    (hcode : ∀ i w, start w → P.Holds i (R i) (code i) w)
    (hrun : Pool.Runs exec start code h p) {p' : Pool ι W Op Ans α} {e : Event ι Op Ans}
    (hstep : Pool.Step exec p e p') {i : ι} {Q : α → W → Prop}
    (hpromise : P.Holds i Q (p.flow i) p.world) : P.Holds i Q (p'.flow i) p'.world := by
  obtain ⟨hworld, hflows⟩ := P.sound hinv hcode hrun
  cases hstep with
  | step hflow hexec =>
      rename_i j op k r w'
      have htheirs := hflows j
      rw [hflow] at htheirs
      have hguar := (htheirs _ hworld (P.rely_refl j _)).1
      by_cases hj : i = j
      · subst hj
        rw [hflow] at hpromise
        simpa using (hpromise _ hworld (P.rely_refl i _)).2 r w' hexec
      · simp only [Function.update_of_ne hj]
        exact hpromise.later (P.spares j i _ op r w' hj hworld hguar hexec)

/-- What a flow promises from some step of a run on, it has kept when it
returns. -/
theorem returned_after (P : Protocol exec) (hinv : ∀ w, start w → P.inv w)
    (hcode : ∀ i w, start w → P.Holds i (R i) (code i) w)
    (hrun : Pool.Runs exec start code h p) {t : Taken (Pool ι W Op Ans α) (Event ι Op Ans)}
    (ht : t ∈ h) {i : ι} {Q : α → W → Prop}
    (hpromise : P.Holds i Q (t.after.flow i) t.after.world) {a : α}
    (hdone : p.flow i = .done a) : Q a p.world := by
  suffices hkept : P.Holds i Q (p.flow i) p.world by
    rw [hdone] at hkept
    exact hkept _ (P.sound hinv hcode hrun).1 (P.rely_refl i _)
  clear hdone
  induction hrun with
  | start _ => simp at ht
  | next hr hl ih =>
      rcases List.mem_cons.mp ht with rfl | ht
      · exact hpromise
      · exact P.step_holds hinv hcode hr hl (ih ht)

end Protocol

end Pools

end Monopoly
