import Monopoly.Laws.RoomMembers

/-!
# Monopoly.Laws.StartedRoom

A room that was started is not shrunk by a kick or a cleanup, as long as it
is not started between such a flow's look at the status and its removal.
-/

namespace Monopoly.Lobby

/-- A kick, or the cleanup after a disconnect. -/
def Request.Cleans (req : Request) (sid : SessionId) : Prop :=
  (∃ host target, req = .kick sid host target) ∨ ∃ userId, req = .cleanup sid userId

/-- The places of a cleanup after it has found the room waiting: the removal,
and the hand-over or the deletion that ends it, are still to come. -/
inductive Leaving (sid : SessionId) (userId : UserId) : Flow Outcome → Prop
  | look : Leaving sid userId (leave sid userId)
  | remove {k : Option Session → Flow Outcome} :
      Leaving sid userId (.call (.removeMember sid userId) k)
  | read {heir : UserId} {updated : Session} : Leaving sid userId (handOver sid heir updated)
  | rehost {heir : UserId} {members : List SessionMember} {k : Option Session → Flow Outcome} :
      Leaving sid userId (.call (.setHost sid heir members) k)
  | delete {k : Bool → Flow Outcome} : Leaving sid userId (.call (.delete sid) k)

/-- The flow is a kick or a cleanup that has seen the room waiting and has
not ended. -/
def PastCheck (requests : FlowId → Request) (sid : SessionId) (p : Rooms) (i : FlowId) : Prop :=
  (∃ host target k, requests i = .kick sid host target ∧
    p.flow i = .call (.removeMember sid target) k) ∨
  ∃ userId, requests i = .cleanup sid userId ∧ Leaving sid userId (p.flow i)

/-- The step does not start a room while a kick or a cleanup that has seen it
waiting has not ended.  Nothing is asked of what the removals, hand-overs and
deletions themselves find. -/
def Undisturbed (requests : FlowId → Request) (p : Rooms) (e : Event FlowId Op Op.Ans) : Prop :=
  ∀ sid session, e.op = .setStatus sid .inProgress (some .waiting) →
    p.world.sessions sid = some session → session.status = .waiting →
    ∀ i, ¬PastCheck requests sid p i

/-! ## where a flow can be -/

section Codes

variable {sid : SessionId} {userId : UserId}

theorem cleanupFound_ne_leaveFound : cleanupFound sid userId ≠ leaveFound sid userId := by
  intro h
  cases congrFun h none

theorem cleanupFound_ne_handOverFound {heir : UserId} {updated : Session} :
    cleanupFound sid userId ≠ handOverFound sid heir updated := by
  intro h
  cases congrFun h none

/-- A cleanup that looks at the status has not found the room waiting yet. -/
theorem not_leaving_of_look :
    ¬Leaving sid userId (.call (.findById sid) (cleanupFound sid userId)) := by
  intro h
  generalize hplace : (Co.call (.findById sid) (cleanupFound sid userId) : Flow Outcome) = place
    at h
  cases h with
  | look => exact cleanupFound_ne_leaveFound (eq_of_heq (Co.call.inj hplace).2)
  | read => exact cleanupFound_ne_handOverFound (eq_of_heq (Co.call.inj hplace).2)
  | remove | rehost | delete => cases hplace

/-- A cleanup that has found the room waiting goes on. -/
theorem Leaving.calls {place : Flow Outcome} (h : Leaving sid userId place) :
    ∃ op k, place = .call op k := by
  cases h
  all_goals exact ⟨_, _, rfl⟩

/-- A kick only goes on with a room that is waiting. -/
theorem kickFound_waiting {host target : UserId} {found : Option Session} {op : Op}
    {k : op.Ans → Flow Outcome} (h : kickFound sid host target found = .call op k) :
    ∃ session, found = some session ∧ session.status = .waiting := by
  cases found with
  | none => cases h
  | some session =>
      refine ⟨session, rfl, ?_⟩
      by_contra hstatus
      simp only [kickFound] at h
      repeat' split at h
      all_goals contradiction

/-- A cleanup only goes on with a room that is waiting. -/
theorem cleanupFound_waiting {found : Option Session} {op : Op} {k : op.Ans → Flow Outcome}
    (h : cleanupFound sid userId found = .call op k) :
    ∃ session, found = some session ∧ session.status = .waiting := by
  cases found with
  | none => cases h
  | some session =>
      refine ⟨session, rfl, ?_⟩
      by_contra hstatus
      simp only [cleanupFound] at h
      repeat' split at h
      all_goals contradiction

/-- The places a kick waits at. -/
theorem kick_places {host target : UserId} {op : Op} {k : op.Ans → Flow Outcome}
    (h : Request.Calls (.kick sid host target) op k) :
    Co.call op k = kick sid host target ∨
      Co.call op k = .call (.removeMember sid target) kickRemoved := by
  cases op with
  | findById other =>
      simp only [Request.Calls, Request.Joins, Request.Leaves, reduceCtorEq, false_and,
        exists_false, or_false, false_or, Request.kick.injEq] at h
      obtain ⟨host', target', ⟨rfl, rfl, rfl⟩, rfl⟩ := h
      exact .inl rfl
  | removeMember other userId =>
      simp only [Request.Calls, Request.Leaves, reduceCtorEq, false_and, or_false, false_or,
        Request.kick.injEq] at h
      obtain ⟨host', ⟨rfl, rfl, rfl⟩, rfl⟩ := h
      exact .inr rfl
  | _ => simp [Request.Calls, Request.Joins, Request.Leaves] at h

/-- The places a cleanup waits at. -/
theorem cleanup_places {op : Op} {k : op.Ans → Flow Outcome}
    (h : Request.Calls (.cleanup sid userId) op k) :
    Co.call op k = removeIfStillGone sid userId ∨
      Co.call op k = .call (.findById sid) (cleanupFound sid userId) ∨
      Leaving sid userId (.call op k) := by
  rcases leave_places (.inr rfl) h with hplace | hplace | hplace | hplace |
    ⟨heir, updated, hplace⟩ | ⟨⟨heir, members, rfl⟩ | rfl, -⟩
  · exact .inl hplace
  · exact .inr (.inl hplace)
  · exact .inr (.inr (hplace ▸ .look))
  · exact .inr (.inr (hplace ▸ .remove))
  · exact .inr (.inr (hplace ▸ .read))
  · exact .inr (.inr .rehost)
  · exact .inr (.inr .delete)

end Codes

/-! ## the invariant -/

section Law

variable {normalize : String → String} {requests : FlowId → Request} {first : World}
  {h : List Step} {p p' : Rooms} {e : Event FlowId Op Op.Ans} {sid : SessionId}

/-- While a removal is to come, the room is waiting. -/
def WaitsForRemovals (requests : FlowId → Request) (sid : SessionId) (p : Rooms) : Prop :=
  ∀ i, PastCheck requests sid p i →
    ∀ session, p.world.sessions sid = some session → session.status = .waiting

/-- At the start no flow is past its check. -/
theorem not_pastCheck_start {i : FlowId}
    (hstart : p.flow i = serve normalize (requests i)) : ¬PastCheck requests sid p i := by
  rintro (⟨host, target, k, hreq, hflow⟩ | ⟨userId, hreq, hleaving⟩)
  · rw [hstart, hreq] at hflow
    cases hflow
  · rw [hstart, hreq] at hleaving
    cases hleaving

/-- A flow that comes past its check has just read a waiting room. -/
theorem pastCheck_move (hrun : Runs normalize requests first h p)
    (hstep : Pool.Step exec p e p') (hpast : PastCheck requests sid p' e.flow) :
    PastCheck requests sid p e.flow ∨
      ∃ session, p'.world.sessions sid = some session ∧ session.status = .waiting := by
  obtain ⟨k, hflow, hflows⟩ := hstep.call
  have hcalls := hrun.calls hflow
  have hexec := hstep.exec
  obtain ⟨i, op, r⟩ := e
  have hnow : p'.flow i = k r := by rw [hflows, Function.update_self]
  rcases hpast with ⟨host, target, k', hreq, hgoes⟩ | ⟨userId, hreq, hleaving⟩
  · rw [hnow] at hgoes
    rw [hreq] at hcalls
    rcases kick_places hcalls with hplace | hplace
    · cases hplace
      obtain ⟨rfl, hsame⟩ := hexec
      obtain ⟨session, hfound, hwaiting⟩ := kickFound_waiting hgoes
      exact .inr ⟨session, by rw [hsame]; exact hfound, hwaiting⟩
    · cases hplace
      cases r <;> cases hgoes
  · rw [hnow] at hleaving
    rw [hreq] at hcalls
    rcases cleanup_places hcalls with hplace | hplace | hbefore
    · cases hplace
      cases r with
      | true => cases hleaving
      | false => exact absurd hleaving not_leaving_of_look
    · cases hplace
      obtain ⟨rfl, hsame⟩ := hexec
      obtain ⟨op, k', hcall⟩ := hleaving.calls
      obtain ⟨session, hfound, hwaiting⟩ := cleanupFound_waiting hcall
      exact .inr ⟨session, by rw [hsame]; exact hfound, hwaiting⟩
    · exact .inl (.inr ⟨userId, hreq, hflow ▸ hbefore⟩)

/-- A kick or cleanup that does anything but look is past its check. -/
theorem pastCheck_of_writes {i : FlowId} {op : Op} {k : op.Ans → Flow Outcome}
    (hrun : Runs normalize requests first h p) (hcleans : (requests i).Cleans sid)
    (hflow : p.flow i = .call op k) (hread : ∀ other, op ≠ .findById other)
    (hlook : ∀ other userId, op ≠ .connected other userId) : PastCheck requests sid p i := by
  have hcalls := hrun.calls hflow
  rcases hcleans with ⟨host, target, hreq⟩ | ⟨userId, hreq⟩
  · rw [hreq] at hcalls
    rcases kick_places hcalls with hplace | hplace
    · cases hplace
      exact absurd rfl (hread sid)
    · exact .inl ⟨host, target, kickRemoved, hreq, hflow.trans hplace⟩
  · rw [hreq] at hcalls
    rcases cleanup_places hcalls with hplace | hplace | hleaving
    · cases hplace
      exact absurd rfl (hlook sid userId)
    · cases hplace
      exact absurd rfl (hread sid)
    · exact .inr ⟨userId, hreq, hflow ▸ hleaving⟩

/-- An undisturbed step leaves every room waiting that a removal is to come
to. -/
theorem WaitsForRemovals.step (hrun : Runs normalize requests first h p)
    (hundisturbed : Undisturbed requests p e) (hstep : Pool.Step exec p e p')
    (hwaits : WaitsForRemovals requests sid p) : WaitsForRemovals requests sid p' := by
  intro i hpast session hsession
  obtain ⟨k, hflow, hflows⟩ := hstep.call
  have hbefore : PastCheck requests sid p i ∨
      ∃ session, p'.world.sessions sid = some session ∧ session.status = .waiting := by
    by_cases hi : i = e.flow
    · subst hi
      exact pastCheck_move hrun hstep hpast
    · left
      rwa [PastCheck, hflows, Function.update_of_ne hi] at hpast
  rcases hbefore with hpast | ⟨session', hsession', hwaiting⟩
  · have hcalls := hrun.calls hflow
    have htouched := exec_touched hstep.exec sid
    obtain ⟨j, op, r⟩ := e
    rw [hsession] at htouched
    generalize hdoc : p.world.sessions sid = doc at htouched
    have hstatus : ∀ s, doc = some s → s.status = .waiting :=
      fun s hs => hwaits i hpast s (hdoc.trans hs)
    cases htouched with
    | @restatused before _ _ hexpects =>
        have hwaiting := hstatus before rfl
        rcases hcalls with ⟨host, -, rfl, rfl⟩ | ⟨-, -, rfl⟩
        · exact absurd hpast (hundisturbed sid before rfl hdoc hwaiting i)
        · simp [Session.expects, hwaiting] at hexpects
    | kept => exact hstatus session rfl
    | added _ | removed | rehosted =>
        have hwaiting := hstatus _ rfl
        exact hwaiting
  · obtain rfl := Option.some.inj (hsession'.symm.trans hsession)
    exact hwaiting

theorem Runs.waitsForRemovals (hrun : Runs normalize requests first h p)
    (hundisturbed : ∀ t ∈ h, Undisturbed requests t.before t.label) (sid : SessionId) :
    WaitsForRemovals requests sid p := by
  refine Run.invariant_of ?_ ?_ hrun hundisturbed
  · rintro p ⟨-, hstart⟩ i hpast
    exact absurd hpast (not_pastCheck_start (congrFun hstart i))
  · intro h p e p' hr hwaits hlast hstep
    exact hwaits.step hr hlast hstep

/-- Whatever the interleaving: if no room is started while a kick or cleanup
that has seen it waiting has not ended, then no step of a kick or cleanup
takes anybody out of a room whose status is not `waiting`, be it the removal,
the hand-over or the deletion. -/
theorem started_room_kept (hrun : Runs normalize requests first h p)
    (hundisturbed : ∀ t ∈ h, Undisturbed requests t.before t.label) :
    ∀ t ∈ h, ∀ sid session, (requests t.label.flow).Cleans sid →
      t.before.world.sessions sid = some session → session.status ≠ .waiting →
      ∀ userId ∈ userIds session.members, IsMember sid userId t.after := by
  intro t ht sid session hcleans hsession hstatus userId hmem
  obtain ⟨h', hbefore, hsub⟩ := hrun.cut_of_mem ht
  have hstep := hrun.step_of_mem ht
  have hwaits := Runs.waitsForRemovals hbefore (fun t' ht' => hundisturbed t' (hsub ht')) sid
  obtain ⟨k, hflow, -⟩ := hstep.call
  have htouched := exec_touched hstep.exec sid
  obtain ⟨before, ⟨i, op, r⟩, after⟩ := t
  rw [hsession] at htouched
  generalize hafter : after.world.sessions sid = doc at htouched
  cases htouched with
  | kept => exact ⟨session, hafter, hmem⟩
  | added _ => exact ⟨_, hafter, by rw [userIds_push]; exact List.mem_append_left _ hmem⟩
  | restatused _ => exact ⟨_, hafter, hmem⟩
  | removed | rehosted | deleted =>
      -- the flow is past its check, so the room is waiting
      have hpast := pastCheck_of_writes hbefore hcleans hflow (by simp) (by simp)
      exact absurd (hwaits i hpast session hsession) hstatus

/-- The flow is not between its check and its end: it has returned, has not
looked yet, or starts the room itself. -/
def isAside (c : Flow Outcome) : Bool :=
  match c with
  | .done _ | .call (.connected ..) _ | .call (.setStatus ..) _ => true
  | _ => false

/-- If the step sets a status, all of the first `n` flows are aside. -/
def isUndisturbed (n : Nat) (t : Step) : Bool :=
  match t.label.op with
  | .setStatus .. => (List.range n).all fun i => isAside (t.before.flow i)
  | _ => true

theorem not_pastCheck_of_isAside {i : FlowId} (haside : isAside (p.flow i) = true) :
    ¬PastCheck requests sid p i := by
  rintro (⟨_, _, _, -, hflow⟩ | ⟨_, -, hleaving⟩)
  · rw [hflow] at haside
    cases haside
  · generalize p.flow i = place at haside hleaving
    cases hleaving
    all_goals cases haside

theorem Undisturbed.of_isUndisturbed {listed : List Request} {t : Step}
    (hcheck : isUndisturbed listed.length t = true) :
    Undisturbed (requestsOf listed) t.before t.label := by
  intro sid session hop _ _ i
  unfold isUndisturbed at hcheck
  rw [hop] at hcheck
  by_cases hi : i < listed.length
  · exact not_pastCheck_of_isAside (List.all_eq_true.mp hcheck i (List.mem_range.mpr hi))
  · have hnone : requestsOf listed i = .finish 0 := by
      rw [requestsOf, List.getD_eq_getElem?_getD, List.getElem?_eq_none (Nat.le_of_not_lt hi)]
      rfl
    rintro (⟨_, _, _, hreq, -⟩ | ⟨_, hreq, -⟩)
    all_goals
      rw [hnone] at hreq
      cases hreq

/-- A kick and the cleanup of the host, who is replaced, are over when the
new host starts the room; the cleanup that comes later leaves it alone. -/
theorem started_room_kept_cleanup :
    ∃ h p t, Runs id (requestsOf [.kick 7 1 4, .cleanup 7 1, .start 7 2, .cleanup 7 3])
        (house (roomOf .normal [1, 2, 3, 4])) h p ∧ t ∈ h ∧ t.label.flow = 3 ∧
      t.label.op = .findById 7 ∧ IsMember 7 3 t.after := by
  obtain ⟨h, p, hrun, hcheck⟩ := runs_of_replays (roomOf .normal [1, 2, 3, 4])
    [.kick 7 1 4, .cleanup 7 1, .start 7 2, .cleanup 7 3] [0, 0, 1, 1, 1, 1, 1, 1, 2, 2, 3, 3]
    (fun h _ => h.all (isUndisturbed 4) && stepBy h 0 3 fun t =>
      decide (t.label.op = .findById 7) && decide ((t.before.world.sessions 7).map
        (fun s => (s.status, userIds s.members)) = some (.inProgress, [2, 3])))
    (by decide +kernel)
  simp only [Bool.and_eq_true, stepBy_iff, decide_eq_true_eq, Option.map_eq_some_iff,
    Prod.mk.injEq] at hcheck
  obtain ⟨hchecked, t, ht, hflow, hop, session, hsession, hstatus, husers⟩ := hcheck
  have hmem : t ∈ h := by
    rw [ht]
    simp
  have hcleans : (requestsOf [.kick 7 1 4, .cleanup 7 1, .start 7 2, .cleanup 7 3]
      t.label.flow).Cleans 7 := by
    rw [hflow]
    exact .inr ⟨3, rfl⟩
  refine ⟨h, p, t, hrun, hmem, hflow, hop, started_room_kept hrun (fun t ht =>
    .of_isUndisturbed (List.all_eq_true.mp hchecked t ht)) t hmem 7 session hcleans hsession
    (by simp [hstatus]) 3 (by simp [husers])⟩

/-- The room is started after a kick and a cleanup have seen it waiting: both
take a member out of the started room. -/
theorem started_room_shrunk :
    ∃ h p t t', Runs id (requestsOf [.kick 7 1 3, .cleanup 7 2, .start 7 1])
        (house (roomOf .normal [1, 2, 3])) h p ∧
      (t ∈ h ∧ t.label.flow = 0 ∧ (∃ session, t.before.world.sessions 7 = some session ∧
        session.status = .inProgress ∧ 3 ∈ userIds session.members) ∧ ¬IsMember 7 3 t.after) ∧
      t' ∈ h ∧ t'.label.flow = 1 ∧ (∃ session, t'.before.world.sessions 7 = some session ∧
        session.status = .inProgress ∧ 2 ∈ userIds session.members) ∧ ¬IsMember 7 2 t'.after := by
  obtain ⟨h, p, hrun, hcheck⟩ := runs_of_replays (roomOf .normal [1, 2, 3])
    [.kick 7 1 3, .cleanup 7 2, .start 7 1] [0, 1, 1, 1, 2, 2, 0, 1]
    (fun h _ => stepBy h 1 0 (fun t => decide (t.label.op = .removeMember 7 3) &&
        decide ((t.before.world.sessions 7).map
          (fun s => (s.status, userIds s.members)) = some (.inProgress, [1, 2, 3]))) &&
      stepBy h 0 1 fun t => decide (t.label.op = .removeMember 7 2) &&
        decide ((t.before.world.sessions 7).map
          (fun s => (s.status, userIds s.members)) = some (.inProgress, [1, 2])))
    (by decide +kernel)
  simp only [Bool.and_eq_true, stepBy_iff, decide_eq_true_eq, Option.map_eq_some_iff,
    Prod.mk.injEq] at hcheck
  obtain ⟨⟨t, ht, hflow, hop, session, hsession, hstatus, husers⟩, t', ht', hflow', hop',
    session', hsession', hstatus', husers'⟩ := hcheck
  have hmem : t ∈ h := by
    rw [ht]
    simp
  have hmem' : t' ∈ h := by
    rw [ht']
    simp
  refine ⟨h, p, t, t', hrun,
    ⟨hmem, hflow, ⟨session, hsession, hstatus, by simp [husers]⟩,
      (hrun.takesOut hmem hop).not_isMember (hrun.step_of_mem hmem)⟩,
    hmem', hflow', ⟨session', hsession', hstatus', by simp [husers']⟩,
      (hrun.takesOut hmem' hop').not_isMember (hrun.step_of_mem hmem')⟩

end Law

end Monopoly.Lobby
