import Monopoly.Service.Fanout

/-!
# Monopoly.Laws.NodeListeners

A node is subscribed to a session's channel while it has listeners, and its
count is right, as long as no connection subscribes while another call is
waiting for Redis.
-/

namespace Monopoly.Fanout

/-- The record and Redis agree with this set of listeners. -/
structure Follows (w : World) (listeners : Finset ConnectionId) : Prop where
  count : w.subscriptions = listeners.card
  subscribed : w.subscribed = true ↔ 0 < listeners.card

/-- No call is in flight and all is well, or the first listener is about to
come, or the last one to go. -/
inductive Coherent (p : Node) (listeners : Finset ConnectionId) : Prop
  | quiet (hquiet : ∀ i, ¬InCall p i) (hfollows : Follows p.world listeners)
  | opening (i : ConnectionId) (hempty : listeners = ∅) (honly : ∀ j, InCall p j → j = i)
      (hflow : p.flow i = opening)
  | opened (i : ConnectionId) (hempty : listeners = ∅) (honly : ∀ j, InCall p j → j = i)
      (hflow : p.flow i = opened) (hsubscribed : p.world.subscribed = true)
  | closing (i : ConnectionId) (hempty : listeners = ∅) (honly : ∀ j, InCall p j → j = i)
      (hflow : p.flow i = closing)
  | closed (i : ConnectionId) (hempty : listeners = ∅) (honly : ∀ j, InCall p j → j = i)
      (hflow : p.flow i = ask .popSubscriptions) (hsubscribed : p.world.subscribed = false)

/-- The listeners are these, and all is well with them. -/
def Counted (p : Node) : Prop :=
  ∃ listeners : Finset ConnectionId, (∀ i, i ∈ listeners ↔ Listens p i) ∧ Coherent p listeners

/-- If the step begins a `subscribe`, no other call is in flight. -/
def Alone (p : Node) (e : Event ConnectionId Op Op.Ans) : Prop :=
  e.op = .enterSubscribe → ∀ i, ¬InCall p i

section Moves

variable {p p' : Node} {i : ConnectionId} {c : Flow Unit} {listeners : Finset ConnectionId}

/-- A connection begins to listen. -/
theorem listens_insert (hlist : ∀ j, j ∈ listeners ↔ Listens p j)
    (hflows : p'.flow = Function.update p.flow i unsubscribe) (j : ConnectionId) :
    j ∈ insert i listeners ↔ Listens p' j := by
  rw [Finset.mem_insert, Listens, hflows]
  by_cases hj : j = i
  · subst hj
    simp
  · rw [Function.update_of_ne hj, hlist j, Listens]
    simp [hj]

/-- A connection moves, and does not listen then. -/
theorem listens_erase (hlist : ∀ j, j ∈ listeners ↔ Listens p j)
    (hflows : p'.flow = Function.update p.flow i c) (hc : c ≠ unsubscribe) (j : ConnectionId) :
    j ∈ listeners.erase i ↔ Listens p' j := by
  rw [Finset.mem_erase, Listens, hflows]
  by_cases hj : j = i
  · subst hj
    simp [hc]
  · rw [Function.update_of_ne hj, hlist j, Listens]
    simp [hj]

/-- After the move of a connection only that one can be in a call, if no
other one was. -/
theorem only_moved (honly : ∀ j, InCall p j → j = i)
    (hflows : p'.flow = Function.update p.flow i c) (j : ConnectionId) (hcall : InCall p' j) :
    j = i := by
  by_contra hj
  rw [InCall, hflows, Function.update_of_ne hj] at hcall
  exact hj (honly j hcall)

/-- When the last call returns, none is in flight. -/
theorem quiet_moved (honly : ∀ j, InCall p j → j = i)
    (hflows : p'.flow = Function.update p.flow i c) (hc : isResting c = true) (j : ConnectionId) :
    ¬InCall p' j := by
  intro hcall
  obtain rfl := only_moved honly hflows j hcall
  rw [InCall, hflows, Function.update_self, hc] at hcall
  cases hcall

theorem not_inCall_of_quiet (hquiet : ∀ j, ¬InCall p j) (j : ConnectionId) (hcall : InCall p j) :
    j = i :=
  absurd hcall (hquiet j)

end Moves

section Steps

variable {h : List Step} {p p' : Node} {e : Event ConnectionId Op Op.Ans}
  {listeners : Finset ConnectionId}

/-- A connection that waits at Redis or right after it is in a call. -/
theorem inCall_of_call {i : ConnectionId} {op : Op} {k : op.Ans → Flow Unit}
    (hflow : p.flow i = .call op k) (hop : op ≠ .enterSubscribe ∧ op ≠ .enterUnsubscribe) :
    InCall p i := by
  rw [InCall, hflow]
  cases op with
  | enterSubscribe => exact absurd rfl hop.1
  | enterUnsubscribe => exact absurd rfl hop.2
  | _ => rfl

/-- A connection subscribes at a node no call is in flight at. -/
theorem counted_enterSubscribe {i : ConnectionId} {count : Nat}
    (hlist : ∀ j, j ∈ listeners ↔ Listens p j) (hquiet : ∀ j, ¬InCall p j)
    (hfollows : Follows p.world listeners) (hnew : ¬Listens p i)
    (hcount : count = p.world.subscriptions)
    (hworld : p'.world = if count = 0 then p.world else { p.world with subscriptions := count + 1 })
    (hflows : p'.flow = Function.update p.flow i (if count = 0 then opening else unsubscribe)) :
    Counted p' := by
  have honly := not_inCall_of_quiet (i := i) hquiet
  rw [hfollows.count] at hcount
  by_cases hzero : count = 0
  · rw [if_pos hzero] at hflows
    obtain rfl := Finset.card_eq_zero.mp (hcount.symm.trans hzero)
    refine ⟨∅, fun j => ?_, .opening i rfl (only_moved honly hflows)
      (by rw [hflows, Function.update_self])⟩
    rw [← listens_erase hlist hflows (by rintro ⟨⟩) j]
    simp
  · rw [if_neg hzero] at hflows hworld
    have hcard := Finset.card_insert_of_notMem (mt (hlist i).mp hnew)
    have hpos : p.world.subscribed = true := hfollows.subscribed.mpr (by omega)
    refine ⟨insert i listeners, listens_insert hlist hflows,
      .quiet (quiet_moved honly hflows rfl) ?_⟩
    constructor
    · rw [hworld, hcard, hcount]
    · rw [hworld, hcard]
      simp [hpos]

/-- A listener unsubscribes at a node no call is in flight at. -/
theorem counted_enterUnsubscribe {i : ConnectionId} {count : Nat}
    (hlist : ∀ j, j ∈ listeners ↔ Listens p j) (hquiet : ∀ j, ¬InCall p j)
    (hfollows : Follows p.world listeners) (hlistens : Listens p i)
    (hcount : count = p.world.subscriptions)
    (hworld : p'.world = if count ≤ 1 then p.world else { p.world with subscriptions := count - 1 })
    (hflows : p'.flow = Function.update p.flow i (if count ≤ 1 then closing else .done ())) :
    Counted p' := by
  have honly := not_inCall_of_quiet (i := i) hquiet
  have hmem : i ∈ listeners := (hlist i).mpr hlistens
  have hcard := Finset.card_erase_of_mem hmem
  have hpos : 0 < listeners.card := Finset.card_pos.mpr ⟨i, hmem⟩
  rw [hfollows.count] at hcount
  by_cases hlast : count ≤ 1
  · rw [if_pos hlast] at hflows
    have hnone : listeners.erase i = ∅ := Finset.card_eq_zero.mp (by omega)
    exact ⟨listeners.erase i, listens_erase hlist hflows (by rintro ⟨⟩), .closing i hnone
      (only_moved honly hflows) (by rw [hflows, Function.update_self])⟩
  · rw [if_neg hlast] at hflows hworld
    have hsub : p.world.subscribed = true := hfollows.subscribed.mpr hpos
    refine ⟨listeners.erase i, listens_erase hlist hflows (by rintro ⟨⟩),
      .quiet (quiet_moved honly hflows rfl) ?_⟩
    constructor
    · rw [hworld, hcard, hcount]
    · rw [hworld, hcard]
      simp only [hsub, true_iff]
      omega

/-- A step of a node no call is in flight at. -/
theorem counted_of_quiet (hrun : Runs h p) (hstep : Pool.Step exec p e p')
    (hlist : ∀ i, i ∈ listeners ↔ Listens p i) (hquiet : ∀ i, ¬InCall p i)
    (hfollows : Follows p.world listeners) : Counted p' := by
  obtain ⟨k, hflow, hflows⟩ := hstep.call
  have hgoes := hrun.goes hflow
  have hexec := hstep.exec
  obtain ⟨i, op, r⟩ := e
  cases op with
  | enterSubscribe =>
      have hnew : ¬Listens p i := by
        rw [Listens, hflow]
        rintro ⟨⟩
      have hnext : k r = if r = 0 then opening else unsubscribe := hgoes r
      exact counted_enterSubscribe hlist hquiet hfollows hnew hexec.1 hexec.2 (hnext ▸ hflows)
  | enterUnsubscribe =>
      have hnext : k r = if r ≤ 1 then closing else .done () := hgoes.2 r
      exact counted_enterUnsubscribe hlist hquiet hfollows (hflow.trans hgoes.1) hexec.1 hexec.2
        (hnext ▸ hflows)
  | _ => exact absurd (inCall_of_call hflow (by simp)) (hquiet i)

/-- While the first listener comes or the last one goes, nobody else
moves. -/
theorem flow_of_busy (hrun : Runs h p) (hstep : Pool.Step exec p e p') (halone : Alone p e)
    (hlist : ∀ i, i ∈ listeners ↔ Listens p i) (hempty : listeners = ∅) {i : ConnectionId}
    (hcall : InCall p i) (honly : ∀ j, InCall p j → j = i) : e.flow = i := by
  obtain ⟨k, hflow, -⟩ := hstep.call
  have hgoes := hrun.goes hflow
  obtain ⟨j, op, r⟩ := e
  cases op with
  | enterSubscribe => exact absurd hcall (halone rfl i)
  | enterUnsubscribe =>
      have hlistens := (hlist j).mpr (hflow.trans hgoes.1)
      simp [hempty] at hlistens
  | _ => exact honly j (inCall_of_call hflow (by simp))

/-- A step that begins no `subscribe` beside another call keeps the count
right. -/
theorem Counted.step (hrun : Runs h p) (hstep : Pool.Step exec p e p') (halone : Alone p e)
    (hcounted : Counted p) : Counted p' := by
  obtain ⟨listeners, hlist, hcoherent⟩ := hcounted
  obtain ⟨k, hflow, hflows⟩ := hstep.call
  have hexec := hstep.exec
  cases hcoherent with
  | quiet hquiet hfollows => exact counted_of_quiet hrun hstep hlist hquiet hfollows
  | opening i hempty honly hhere =>
      obtain rfl := flow_of_busy hrun hstep halone hlist hempty (by rw [InCall, hhere]; rfl) honly
      obtain ⟨i, op, r⟩ := e
      cases hhere.symm.trans hflow
      have hsubscribed : p'.world.subscribed = true := by rw [show p'.world = _ from hexec]
      exact ⟨listeners.erase i, listens_erase hlist hflows (by rintro ⟨⟩), .opened i
        (by simp [hempty]) (only_moved honly hflows) (by rw [hflows, Function.update_self]; rfl)
        hsubscribed⟩
  | opened i hempty honly hhere hsubscribed =>
      obtain rfl := flow_of_busy hrun hstep halone hlist hempty (by rw [InCall, hhere]; rfl) honly
      obtain ⟨i, op, r⟩ := e
      cases hhere.symm.trans hflow
      have hworld : p'.world = { p.world with subscriptions := 1 } := hexec
      refine ⟨insert i listeners, listens_insert hlist hflows,
        .quiet (quiet_moved honly hflows rfl) ?_⟩
      rw [hempty, hworld]
      exact ⟨rfl, by simp [hsubscribed]⟩
  | closing i hempty honly hhere =>
      obtain rfl := flow_of_busy hrun hstep halone hlist hempty (by rw [InCall, hhere]; rfl) honly
      obtain ⟨i, op, r⟩ := e
      cases hhere.symm.trans hflow
      have hsubscribed : p'.world.subscribed = false := by rw [show p'.world = _ from hexec]
      exact ⟨listeners.erase i, listens_erase hlist hflows (by rintro ⟨⟩), .closed i
        (by simp [hempty]) (only_moved honly hflows) (by rw [hflows, Function.update_self]; rfl)
        hsubscribed⟩
  | closed i hempty honly hhere hsubscribed =>
      obtain rfl := flow_of_busy hrun hstep halone hlist hempty (by rw [InCall, hhere]; rfl) honly
      obtain ⟨i, op, r⟩ := e
      cases hhere.symm.trans hflow
      have hworld : p'.world = { p.world with subscriptions := 0 } := hexec
      refine ⟨listeners.erase i, listens_erase hlist hflows (by rintro ⟨⟩),
        .quiet (quiet_moved honly hflows rfl) ?_⟩
      rw [hempty, hworld]
      exact ⟨rfl, by simp [hsubscribed]⟩

end Steps

/-! ## the law -/

section Law

variable {h : List Step} {p : Node}

/-- Whatever the interleaving, if no connection begins to subscribe while
another call is in flight: when none is, the recorded count is the number of
listeners, and the node is subscribed exactly if there are any. -/
theorem node_follows_listeners (hrun : Runs h p) (halone : ∀ t ∈ h, Alone t.before t.label)
    (hquiet : ∀ i, ¬InCall p i) :
    ∃ listeners : Finset ConnectionId, (∀ i, i ∈ listeners ↔ Listens p i) ∧
      p.world.subscriptions = listeners.card ∧
      (p.world.subscribed = true ↔ 0 < listeners.card) := by
  have hcounted : Counted p := by
    refine Run.invariant_of ?_ ?_ hrun halone
    · rintro p ⟨hworld, hflow⟩
      refine ⟨∅, fun i => ?_, .quiet (fun i => ?_) ?_⟩
      · rw [Listens, hflow]
        simp only [Finset.notMem_empty, false_iff]
        rintro ⟨⟩
      · rw [InCall, hflow]
        rintro ⟨⟩
      · rw [hworld]
        exact ⟨rfl, by simp⟩
    · intro h p e p' hr hcounted hlast hstep
      exact hcounted.step hr hstep hlast
  obtain ⟨listeners, hlist, hcoherent⟩ := hcounted
  cases hcoherent with
  | quiet _ hfollows => exact ⟨listeners, hlist, hfollows.count, hfollows.subscribed⟩
  | opening i _ _ hhere => exact absurd (by rw [InCall, hhere]; rfl) (hquiet i)
  | opened i _ _ hhere => exact absurd (by rw [InCall, hhere]; rfl) (hquiet i)
  | closing i _ _ hhere => exact absurd (by rw [InCall, hhere]; rfl) (hquiet i)
  | closed i _ _ hhere => exact absurd (by rw [InCall, hhere]; rfl) (hquiet i)

end Law

section Replays

variable {h : List Step} {p : Node}

/-- Every connection that has begun is resting. -/
def allResting (h : List Step) (p : Node) : Bool := h.all fun t => isResting (p.flow t.label.flow)

theorem not_inCall_of_allResting {h' : List Step} (hrun : Runs h' p) (hsub : h' ⊆ h)
    (hrests : allResting h p = true) (i : ConnectionId) : ¬InCall p i := by
  intro hcall
  by_cases hbegun : ∃ t ∈ h', t.label.flow = i
  · obtain ⟨t, ht, rfl⟩ := hbegun
    rw [InCall, List.all_eq_true.mp hrests t (hsub ht)] at hcall
    cases hcall
  · have hstart := Pool.Runs.unbegun hrun (i := i) fun t ht hi => hbegun ⟨t, ht, hi⟩
    rw [InCall, hstart] at hcall
    cases hcall

/-- The connection waits to unsubscribe. -/
def awaitsEnd (p : Node) (i : ConnectionId) : Bool :=
  match p.flow i with
  | .call .enterUnsubscribe _ => true
  | _ => false

theorem Listens.of_awaitsEnd (hrun : Runs h p) {i : ConnectionId} (hends : awaitsEnd p i = true) :
    Listens p i := by
  unfold awaitsEnd at hends
  cases hflow : p.flow i with
  | done u => simp [hflow] at hends
  | call op k =>
      cases op with
      | enterUnsubscribe => exact hflow.trans (hrun.goes hflow).1
      | _ => simp [hflow] at hends

/-- The step does not begin to subscribe, or everybody is resting. -/
def isAlone (h : List Step) (t : Step) : Bool :=
  match t.label.op with
  | .enterSubscribe => allResting h t.before
  | _ => true

theorem Alone.of_isAlone (hrun : Runs h p) {t : Step} (ht : t ∈ h)
    (hcheck : isAlone h t = true) : Alone t.before t.label := by
  intro hop i
  obtain ⟨h', hbefore, hsub⟩ := hrun.cut_of_mem ht
  rw [isAlone, hop] at hcheck
  exact not_inCall_of_allResting hbefore hsub hcheck i

/-- Two connections come one after the other, and the first one goes: the
node stays subscribed for the second. -/
theorem node_follows_listeners_two :
    ∃ h p, Runs h p ∧ Listens p 1 ∧ p.world.subscribed = true := by
  obtain ⟨h, p, hrun, hcheck⟩ := runs_of_replays [0, 0, 0, 1, 0]
    (fun h p => h.all (isAlone h) && allResting h p && awaitsEnd p 1) (by decide +kernel)
  simp only [Bool.and_eq_true] at hcheck
  obtain ⟨⟨halone, hrests⟩, hends⟩ := hcheck
  have hlistens := Listens.of_awaitsEnd hrun hends
  obtain ⟨listeners, hlist, -, hsubscribed⟩ := node_follows_listeners hrun
    (fun t ht => .of_isAlone hrun ht (List.all_eq_true.mp halone t ht))
    (not_inCall_of_allResting hrun (List.Subset.refl h) hrests)
  exact ⟨h, p, hrun, hlistens,
    hsubscribed.mpr (Finset.card_pos.mpr ⟨1, (hlist 1).mpr hlistens⟩)⟩

/-- Two connections subscribe at the same time and are counted as one; when
the first one goes, the node is no longer subscribed for the second. -/
theorem node_follows_listeners_miscounted :
    ∃ h p, Runs h p ∧ (∀ i, ¬InCall p i) ∧ Listens p 1 ∧ p.world.subscriptions = 0 ∧
      p.world.subscribed = false := by
  obtain ⟨h, p, hrun, hcheck⟩ := runs_of_replays [0, 1, 0, 1, 0, 1, 0, 0, 0]
    (fun h p => allResting h p && awaitsEnd p 1 && decide (p.world.subscriptions = 0) &&
      !p.world.subscribed) (by decide +kernel)
  simp only [Bool.and_eq_true, decide_eq_true_eq, Bool.not_eq_true'] at hcheck
  obtain ⟨⟨⟨hrests, hends⟩, hcount⟩, hsubscribed⟩ := hcheck
  exact ⟨h, p, hrun, not_inCall_of_allResting hrun (List.Subset.refl h) hrests,
    .of_awaitsEnd hrun hends, hcount, hsubscribed⟩

end Replays

end Monopoly.Fanout
