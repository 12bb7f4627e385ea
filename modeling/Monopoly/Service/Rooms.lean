import Monopoly.Service.Lobby

/-!
# Monopoly.Service.Rooms

What the operations on the rooms do, which calls each request makes, and
the runs of the rooms.
-/

namespace Monopoly.Lobby

/-! ## one operation -/

section Exec

variable {i : FlowId} {w w' : World} {sid : SessionId}

/-- The update took place, on the document it is about, or nothing was
changed. -/
theorem findOneAndUpdate_cases {filter : Session → Bool} {update : Session → Session}
    {updated : Option Session} (h : (updated, w') = w.findOneAndUpdate sid filter update) :
    (∃ session, w.sessions sid = some session ∧ filter session = true ∧
      updated = some (update session) ∧ w' = w.store sid updated) ∨
    (updated = none ∧ w' = w ∧ ∀ session ∈ w.sessions sid, filter session = false) := by
  unfold World.findOneAndUpdate at h
  cases hsession : w.sessions sid with
  | none =>
      rw [hsession] at h
      obtain ⟨rfl, rfl⟩ := Prod.mk.inj h
      exact .inr ⟨rfl, rfl, by simp⟩
  | some session =>
      rw [hsession] at h
      by_cases hfilter : filter session = true
      · simp only [hfilter, if_true] at h
        obtain ⟨rfl, rfl⟩ := Prod.mk.inj h
        exact .inl ⟨session, rfl, hfilter, rfl, rfl⟩
      · simp only [hfilter] at h
        obtain ⟨rfl, rfl⟩ := Prod.mk.inj h
        refine .inr ⟨rfl, rfl, fun s hs => ?_⟩
        obtain rfl := Option.some.inj hs
        simpa using hfilter

@[simp] theorem store_self (w : World) (sid : SessionId) (session : Option Session) :
    (w.store sid session).sessions sid = session := Function.update_self ..

theorem store_of_ne {other : SessionId} (w : World) (session : Option Session)
    (h : other ≠ sid) : (w.store sid session).sessions other = w.sessions other :=
  Function.update_of_ne h ..

/-- What an operation does to the document of one room. -/
inductive Touched (sid : SessionId) : Op → Option Session → Option Session → Prop
  | kept {op : Op} {doc : Option Session} : Touched sid op doc doc
  | added {session : Session} {member : SessionMember} {maxMembers : Nat} :
      session.admits member.userId maxMembers = true →
      Touched sid (.addMember sid member maxMembers) (some session) (some (session.push member))
  | removed {session : Session} {userId : UserId} :
      Touched sid (.removeMember sid userId) (some session) (some (session.pull userId))
  | rehosted {session : Session} {host : UserId} {members : List SessionMember} :
      Touched sid (.setHost sid host members) (some session) (some (session.rehost host members))
  | restatused {session : Session} {status : SessionStatus}
      {expectedStatus : Option SessionStatus} : Session.expects session expectedStatus = true →
      Touched sid (.setStatus sid status expectedStatus) (some session)
        (some (session.withStatus status))
  | deleted {doc : Option Session} : Touched sid (.delete sid) doc none

/-- An update of one room's document, seen from any room. -/
theorem touched_of_update {other : SessionId} {op : Op} {filter : Session → Bool}
    {update : Session → Session} {updated : Option Session}
    (h : (updated, w') = w.findOneAndUpdate other filter update)
    (hupdate : ∀ session, sid = other → filter session = true →
      Touched sid op (some session) (some (update session))) :
    Touched sid op (w.sessions sid) (w'.sessions sid) := by
  rcases findOneAndUpdate_cases h with ⟨session, hsession, hfilter, rfl, rfl⟩ | ⟨-, rfl, -⟩
  · by_cases hsid : sid = other
    · have htouched := hupdate session hsid hfilter
      subst hsid
      rwa [hsession, store_self]
    · rw [store_of_ne w _ hsid]
      exact .kept
  · exact .kept

theorem exec_touched {op : Op} {r : op.Ans} (h : exec i w op r w') (sid : SessionId) :
    Touched sid op (w.sessions sid) (w'.sessions sid) := by
  cases op with
  | findById other => obtain ⟨-, rfl⟩ := h; exact .kept
  | findByInviteCode code => obtain ⟨rfl, -⟩ := h; exact .kept
  | findUser userId => obtain ⟨-, rfl⟩ := h; exact .kept
  | now => obtain rfl := h; exact .kept
  | connected other userId => obtain rfl := h; exact .kept
  | delete other =>
      obtain ⟨-, rfl⟩ := h
      by_cases hsid : sid = other
      · subst hsid
        rw [store_self]
        exact .deleted
      · rw [store_of_ne w _ hsid]
        exact .kept
  | addMember other member maxMembers =>
      refine touched_of_update h fun session hsid hfilter => ?_
      subst hsid
      exact .added hfilter
  | removeMember other userId =>
      refine touched_of_update h fun session hsid _ => ?_
      subst hsid
      exact .removed
  | setHost other host members =>
      refine touched_of_update h fun session hsid _ => ?_
      subst hsid
      exact .rehosted
  | setStatus other status expectedStatus =>
      refine touched_of_update h fun session hsid hfilter => ?_
      subst hsid
      exact .restatused hfilter

/-- A removal takes the user out, whoever was in the room. -/
theorem exec_removeMember {userId : UserId} {updated : Option Session}
    (h : exec i w (.removeMember sid userId) updated w') :
    updated = (w.sessions sid).map (·.pull userId) ∧ w'.sessions sid = updated := by
  rcases findOneAndUpdate_cases h with ⟨session, hsession, -, rfl, rfl⟩ | ⟨rfl, rfl, hnone⟩
  · rw [hsession]
    exact ⟨rfl, store_self ..⟩
  · cases hsession : w'.sessions sid with
    | none => exact ⟨rfl, rfl⟩
    | some session => exact absurd (hnone session hsession) (by simp)

/-- An insertion is answered with the room as it is after it. -/
theorem exec_addMember {member : SessionMember} {maxMembers : Nat} {updated : Option Session}
    (h : exec i w (.addMember sid member maxMembers) updated w') :
    (∃ session, w.sessions sid = some session ∧
      session.admits member.userId maxMembers = true ∧
      updated = some (session.push member) ∧ w'.sessions sid = updated) ∨
    (updated = none ∧ w' = w) := by
  rcases findOneAndUpdate_cases h with ⟨session, hsession, hadmits, rfl, rfl⟩ | ⟨rfl, rfl, -⟩
  · exact .inl ⟨session, hsession, hadmits, rfl, store_self ..⟩
  · exact .inr ⟨rfl, rfl⟩

/-- A host transfer takes place if there is a room. -/
theorem exec_setHost {host : UserId} {members : List SessionMember} {updated : Option Session}
    (h : exec i w (.setHost sid host members) updated w') :
    w'.sessions sid = (w.sessions sid).map (·.rehost host members) := by
  rcases findOneAndUpdate_cases h with ⟨session, hsession, -, rfl, rfl⟩ | ⟨rfl, rfl, hnone⟩
  · rw [hsession, store_self]
    rfl
  · cases hsession : w'.sessions sid with
    | none => rfl
    | some session => exact absurd (hnone session hsession) (by simp)

end Exec

/-! ## the calls of a request -/

/-- A join of this user. -/
def Request.Joins (req : Request) (userId : UserId) : Prop :=
  (∃ sid, req = .join sid userId) ∨ ∃ code, req = .joinByCode code userId

/-- A leave of this user, by a request or by the cleanup. -/
def Request.Leaves (req : Request) (sid : SessionId) (userId : UserId) : Prop :=
  req = .leave sid userId ∨ req = .cleanup sid userId

/-- The request is about this room; a code may be that of any room. -/
def Request.On (sid : SessionId) : Request → Prop
  | .join other _ | .leave other _ | .kick other _ _ | .start other _ | .finish other
  | .cleanup other _ => other = sid
  | .joinByCode .. => True

theorem Request.Leaves.on {req : Request} {sid : SessionId} {userId : UserId}
    (h : req.Leaves sid userId) : req.On sid := by
  rcases h with rfl | rfl <;> rfl

/-- Which calls a request makes, and how it goes on after them. -/
def Request.Calls (req : Request) : (op : Op) → (op.Ans → Flow Outcome) → Prop
  | .removeMember sid userId, k =>
      (req.Leaves sid userId ∧ k = leaveRemoved sid userId) ∨
        ∃ host, req = .kick sid host userId ∧ k = kickRemoved
  | .setHost sid heir members, k =>
      (∃ userId, req.Leaves sid userId) ∧ (∃ found, members = promote heir found) ∧
        ∀ updated, ∃ outcome, k updated = .done outcome
  | .delete sid, k =>
      (∃ userId, req.Leaves sid userId) ∧ ∀ deleted, ∃ outcome, k deleted = .done outcome
  | .setStatus sid status expectedStatus, _ =>
      (∃ host, req = .start sid host ∧ status = .inProgress ∧ expectedStatus = some .waiting) ∨
        (req = .finish sid ∧ status = .finished ∧ expectedStatus = some .inProgress)
  | .addMember _ member _, _ => (∃ userId, req.Joins userId) ∧ member.role = .player
  | .findById sid, k =>
      (∃ userId, req.Joins userId) ∨
        (∃ userId, req.Leaves sid userId ∧ k = leaveFound sid userId) ∨
        (∃ userId heir updated, req.Leaves sid userId ∧ k = handOverFound sid heir updated) ∨
        (∃ userId, req = .cleanup sid userId ∧ k = cleanupFound sid userId) ∨
        (∃ host target, req = .kick sid host target ∧ k = kickFound sid host target) ∨
        ∃ host, req = .start sid host
  | .connected sid userId, k => req = .cleanup sid userId ∧ k = cleanupGone sid userId
  | .findByInviteCode _, _ | .findUser _, _ | .now, _ => ∃ userId, req.Joins userId

section Calls

variable {req : Request} {sid : SessionId} {userId : UserId}

theorem joinFound_calls (h : req.Joins userId) (found : Option Session) :
    (joinFound userId found).Every req.Calls := by
  cases found with
  | none => trivial
  | some session =>
      simp only [joinFound, joinSession]
      repeat' split
      · trivial
      · trivial
      · trivial
      · refine Co.every_await.mpr ⟨⟨userId, h⟩, fun user => ?_⟩
        cases user with
        | none => trivial
        | some user =>
            refine Co.every_await.mpr ⟨⟨userId, h⟩, fun joinedAt => ?_⟩
            refine Co.every_await.mpr ⟨⟨⟨userId, h⟩, rfl⟩, fun updated => ?_⟩
            cases updated with
            | some updated => trivial
            | none =>
                refine Co.every_await.mpr ⟨.inl ⟨userId, h⟩, fun current => ?_⟩
                cases current with
                | none => trivial
                | some current =>
                    simp only [refuseJoin]
                    repeat' split
                    all_goals trivial

theorem handOver_calls (h : req.Leaves sid userId) (heir : UserId) (updated : Session) :
    (handOver sid heir updated).Every req.Calls := by
  refine Co.every_await.mpr ⟨.inr (.inr (.inl ⟨userId, heir, updated, h, rfl⟩)), fun found => ?_⟩
  cases found with
  | none => trivial
  | some session =>
      exact Co.every_await.mpr ⟨⟨⟨userId, h⟩, ⟨_, rfl⟩, fun _ => ⟨_, rfl⟩⟩, fun _ => trivial⟩

theorem leaveRemoved_calls (h : req.Leaves sid userId) (updated : Option Session) :
    (leaveRemoved sid userId updated).Every req.Calls := by
  cases updated with
  | none => trivial
  | some updated =>
      simp only [leaveRemoved]
      cases hheir : earliest updated.members with
      | none => exact Co.every_await.mpr ⟨⟨⟨userId, h⟩, fun _ => ⟨_, rfl⟩⟩, fun _ => trivial⟩
      | some heir =>
          simp only
          split
          · exact handOver_calls h heir.userId updated
          · trivial

theorem leave_calls (h : req.Leaves sid userId) : (leave sid userId).Every req.Calls := by
  refine Co.every_await.mpr ⟨.inr (.inl ⟨userId, h, rfl⟩), fun found => ?_⟩
  cases found with
  | none => trivial
  | some session =>
      simp only [leaveFound]
      split
      · exact Co.every_await.mpr ⟨.inl ⟨h, rfl⟩, leaveRemoved_calls h⟩
      · trivial

theorem kick_calls {host target : UserId} (h : req = .kick sid host target) :
    (kick sid host target).Every req.Calls := by
  refine Co.every_await.mpr
    ⟨.inr (.inr (.inr (.inr (.inl ⟨host, target, h, rfl⟩)))), fun found => ?_⟩
  cases found with
  | none => trivial
  | some session =>
      simp only [kickFound]
      repeat' split
      · trivial
      · trivial
      · trivial
      · trivial
      · refine Co.every_await.mpr ⟨.inr ⟨host, h, rfl⟩, fun updated => ?_⟩
        cases updated <;> trivial

theorem start_calls {host : UserId} (h : req = .start sid host) :
    (start sid host).Every req.Calls := by
  refine Co.every_await.mpr ⟨.inr (.inr (.inr (.inr (.inr ⟨host, h⟩)))), fun found => ?_⟩
  cases found with
  | none => trivial
  | some session =>
      simp only [startFound]
      repeat' split
      · trivial
      · trivial
      · refine Co.every_await.mpr ⟨.inl ⟨host, h, rfl, rfl⟩, fun updated => ?_⟩
        cases updated <;> trivial

theorem cleanup_calls (h : req = .cleanup sid userId) :
    (removeIfStillGone sid userId).Every req.Calls := by
  refine Co.every_await.mpr ⟨⟨h, rfl⟩, fun back => ?_⟩
  cases back with
  | true => trivial
  | false =>
      refine Co.every_await.mpr ⟨.inr (.inr (.inr (.inl ⟨userId, h, rfl⟩))), fun found => ?_⟩
      cases found with
      | none => trivial
      | some session =>
          simp only [cleanupFound]
          repeat' split
          · trivial
          · trivial
          · exact leave_calls (.inr h)

theorem serve_calls (normalize : String → String) (req : Request) :
    (serve normalize req).Every req.Calls := by
  cases req with
  | join sid userId => exact ⟨.inl ⟨userId, .inl ⟨sid, rfl⟩⟩, joinFound_calls (.inl ⟨sid, rfl⟩)⟩
  | joinByCode code userId =>
      exact ⟨⟨userId, .inr ⟨code, rfl⟩⟩, joinFound_calls (.inr ⟨code, rfl⟩)⟩
  | leave sid userId => exact leave_calls (.inl rfl)
  | kick sid host target => exact kick_calls rfl
  | start sid host => exact start_calls rfl
  | finish sid =>
      refine Co.every_await.mpr ⟨.inr ⟨rfl, rfl, rfl⟩, fun updated => ?_⟩
      cases updated <;> trivial
  | cleanup sid userId => exact cleanup_calls rfl

/-- The places a leave or a cleanup waits at. -/
theorem leave_places {op : Op} {k : op.Ans → Flow Outcome} (hleaves : req.Leaves sid userId)
    (h : req.Calls op k) :
    Co.call op k = removeIfStillGone sid userId ∨
      Co.call op k = .call (.findById sid) (cleanupFound sid userId) ∨
      Co.call op k = leave sid userId ∨
      Co.call op k = .call (.removeMember sid userId) (leaveRemoved sid userId) ∨
      (∃ heir updated, Co.call op k = handOver sid heir updated) ∨
      (((∃ heir members, op = .setHost sid heir members) ∨ op = .delete sid) ∧
        ∀ r, ∃ outcome, k r = .done outcome) := by
  have hjoins : ∀ user, ¬req.Joins user := by
    rintro user (⟨other, rfl⟩ | ⟨code, rfl⟩)
    all_goals simp [Request.Leaves] at hleaves
  have hsame : ∀ other user, req.Leaves other user → other = sid ∧ user = userId := by
    rintro other user hother
    rcases hleaves with rfl | rfl <;> simpa [Request.Leaves, eq_comm] using hother
  cases op with
  | findById other =>
      rcases h with ⟨user, hjoin⟩ | ⟨user, hleave, rfl⟩ | ⟨user, heir, updated, hleave, rfl⟩ |
        ⟨user, rfl, rfl⟩ | ⟨host, target, rfl, rfl⟩ | ⟨host, rfl⟩
      · exact absurd hjoin (hjoins user)
      · obtain ⟨rfl, rfl⟩ := hsame other user hleave
        exact .inr (.inr (.inl rfl))
      · obtain ⟨rfl, rfl⟩ := hsame other user hleave
        exact .inr (.inr (.inr (.inr (.inl ⟨heir, updated, rfl⟩))))
      · obtain ⟨rfl, rfl⟩ := hsame other user (.inr rfl)
        exact .inr (.inl rfl)
      · simp [Request.Leaves] at hleaves
      · simp [Request.Leaves] at hleaves
  | removeMember other user =>
      rcases h with ⟨hleave, rfl⟩ | ⟨host, rfl, rfl⟩
      · obtain ⟨rfl, rfl⟩ := hsame other user hleave
        exact .inr (.inr (.inr (.inl rfl)))
      · simp [Request.Leaves] at hleaves
  | setHost other heir members =>
      obtain ⟨⟨user, hleave⟩, -, hdone⟩ := h
      obtain ⟨rfl, rfl⟩ := hsame other user hleave
      exact .inr (.inr (.inr (.inr (.inr ⟨.inl ⟨heir, members, rfl⟩, hdone⟩))))
  | delete other =>
      obtain ⟨⟨user, hleave⟩, hdone⟩ := h
      obtain ⟨rfl, rfl⟩ := hsame other user hleave
      exact .inr (.inr (.inr (.inr (.inr ⟨.inr rfl, hdone⟩))))
  | connected other user =>
      obtain ⟨rfl, rfl⟩ := h
      obtain ⟨rfl, rfl⟩ := hsame other user (.inr rfl)
      exact .inl rfl
  | setStatus other status expectedStatus =>
      rcases h with ⟨host, rfl, -⟩ | ⟨rfl, -⟩
      all_goals simp [Request.Leaves] at hleaves
  | addMember other member maxMembers =>
      obtain ⟨⟨user, hjoin⟩, -⟩ := h
      exact absurd hjoin (hjoins user)
  | findByInviteCode _ | findUser _ | now =>
      obtain ⟨user, hjoin⟩ := h
      exact absurd hjoin (hjoins user)

end Calls

/-! ## runs -/

/-- `Runs normalize requests first h p`: the flows serve these requests on
the rooms of `first`, and have come to `p`. -/
abbrev Runs (normalize : String → String) (requests : FlowId → Request) (first : World) :=
  Pool.Runs exec (· = first) (fun i => serve normalize (requests i))

/-- A room that was created, as far as its members go: it is stored under its
id, its members are different users, and not more than its mode allows. -/
structure Furnished (sid : SessionId) (session : Session) : Prop where
  id : session.id = sid
  distinct : (userIds session.members).Nodup
  room : session.members.length ≤ session.maxPlayers

section Runs

variable {normalize : String → String} {requests : FlowId → Request} {first : World}
  {h : List Step} {p : Rooms}

/-- A waiting flow makes a call of its request. -/
theorem Runs.calls (hrun : Runs normalize requests first h p) {i : FlowId} {op : Op}
    {k : op.Ans → Flow Outcome} (hflow : p.flow i = .call op k) : (requests i).Calls op k := by
  have hevery := Pool.Runs.every hrun (serve_calls normalize (requests i))
  rw [hflow] at hevery
  exact hevery.1

/-- No request begins with a deletion. -/
theorem serve_ne_delete {req : Request} {sid : SessionId} {k : Bool → Flow Outcome} :
    serve normalize req ≠ .call (.delete sid) k := by
  intro hserve
  cases req <;> cases hserve

/-- Nor with a host transfer. -/
theorem serve_ne_setHost {req : Request} {sid : SessionId} {heir : UserId}
    {members : List SessionMember} {k : Option Session → Flow Outcome} :
    serve normalize req ≠ .call (.setHost sid heir members) k := by
  intro hserve
  cases req <;> cases hserve

/-- A flow that is about to delete a room has begun. -/
theorem Runs.deleting (hrun : Runs normalize requests first h p) {i : FlowId} {sid : SessionId}
    {k : Bool → Flow Outcome} (hflow : p.flow i = .call (.delete sid) k) :
    (requests i).On sid ∧ Pool.InFlight h p i := by
  obtain ⟨⟨userId, hleaves⟩, -⟩ := hrun.calls hflow
  refine ⟨hleaves.on, ?_, by simp [hflow]⟩
  by_contra hnot
  have hstart := Pool.Runs.unbegun hrun (i := i) fun t ht hi => hnot ⟨t, ht, hi⟩
  exact serve_ne_delete (hstart.symm.trans hflow)

end Runs

/-! ## replays -/

/-- Users exist under an empty name, nobody has come back, and the hint is
the time. -/
def perform : Performer FlowId World Op Int Op.Ans
  | _, _, w, .findById sessionId => some (w.sessions sessionId, w)
  | _, _, _, .findByInviteCode _ => none
  | _, _, w, .delete sessionId => some ((w.sessions sessionId).isSome, w.store sessionId none)
  | _, _, w, .addMember sessionId member maxMembers =>
      some (w.findOneAndUpdate sessionId (·.admits member.userId maxMembers) (·.push member))
  | _, _, w, .removeMember sessionId userId =>
      some (w.findOneAndUpdate sessionId (fun _ => true) (·.pull userId))
  | _, _, w, .setHost sessionId newHostUserId members =>
      some (w.findOneAndUpdate sessionId (fun _ => true) (·.rehost newHostUserId members))
  | _, _, w, .setStatus sessionId status expectedStatus =>
      some (w.findOneAndUpdate sessionId (Session.expects · expectedStatus) (·.withStatus status))
  | _, _, w, .findUser userId =>
      let user : User :=
        { id := userId, displayName := "", rating := 800, calibrationComplete := false }
      some (some user, w)
  | _, hint, w, .now => some (hint, w)
  | _, _, w, .connected .. => some (false, w)

theorem perform_exec (i : FlowId) (hint : Int) (w : World) (op : Op) (r : op.Ans) (w' : World)
    (h : perform i hint w op = some (r, w')) : exec i w op r w' := by
  cases op with
  | findById sid =>
      obtain ⟨rfl, rfl⟩ := Prod.mk.inj (Option.some.inj h)
      exact ⟨rfl, rfl⟩
  | findByInviteCode code => simp [perform] at h
  | delete sid =>
      obtain ⟨rfl, rfl⟩ := Prod.mk.inj (Option.some.inj h)
      exact ⟨rfl, rfl⟩
  | findUser userId =>
      obtain ⟨rfl, rfl⟩ := Prod.mk.inj (Option.some.inj h)
      exact ⟨fun _ hu => Option.some.inj hu ▸ rfl, rfl⟩
  | now =>
      obtain ⟨-, rfl⟩ := Prod.mk.inj (Option.some.inj h)
      rfl
  | connected sid userId =>
      obtain ⟨-, rfl⟩ := Prod.mk.inj (Option.some.inj h)
      rfl
  | _ => exact (Option.some.inj h).symm

/-- The room `7` of these users, of whom the first one is its host. -/
def roomOf (mode : GameMode) (users : List UserId) : Session where
  id := 7
  inviteCode := "MPLY-AAAA"
  hostUserId := users.headD 0
  status := .waiting
  visibility := .publicRoom
  gameMode := mode
  members := users.mapIdx fun i userId =>
    { userId, displayName := "", role := if i = 0 then .host else .player, joinedAt := i }

/-- The world with this one room. -/
def house (session : Session) : World where
  sessions sid := if sid = session.id then some session else none

theorem house_rooms {session s : Session} {sid : SessionId}
    (h : (house session).sessions sid = some s) : sid = session.id ∧ s = session := by
  simp only [house] at h
  by_cases hsid : sid = session.id
  · rw [if_pos hsid] at h
    exact ⟨hsid, (Option.some.inj h).symm⟩
  · simp [hsid] at h

theorem house_furnished {session : Session} (h : Furnished session.id session) :
    ∀ sid s, (house session).sessions sid = some s → Furnished sid s := by
  intro sid s hs
  obtain ⟨rfl, rfl⟩ := house_rooms hs
  exact h

/-- The requests of the first flows; no other flow does anything. -/
def requestsOf (requests : List Request) (i : FlowId) : Request := requests.getD i (.finish 0)

theorem requestsOf_mem (requests : List Request) (i : FlowId) :
    requestsOf requests i ∈ requests ∨ requestsOf requests i = .finish 0 := by
  rw [requestsOf, List.getD_eq_getElem?_getD]
  cases hi : requests[i]? with
  | none => exact .inr rfl
  | some req => exact .inl (List.mem_of_getElem? hi)

/-- The turns of these flows, one time unit apart. -/
def turnsOf (flows : List FlowId) : List (FlowId × Int) := flows.mapIdx fun n i => (i, n)

theorem runs_of_replays (session : Session) (requests : List Request) (flows : List FlowId)
    (check : List Step → Rooms → Bool)
    (hreplays : Pool.Replays perform
      ⟨house session, fun i => serve id (requestsOf requests i)⟩ (turnsOf flows) check = true) :
    ∃ h p, Runs id (requestsOf requests) (house session) h p ∧ check h p = true :=
  Pool.runs_of_replays perform_exec rfl rfl hreplays

/-- The room `7` has these users. -/
def seats (p : Rooms) : Option (List UserId) := (p.world.sessions 7).map (userIds ·.members)

theorem seats_iff {p : Rooms} {users : List UserId} : seats p = some users ↔
    ∃ session, p.world.sessions 7 = some session ∧ userIds session.members = users := by
  simp [seats, Option.map_eq_some_iff]

/-- The step with `n` steps after it is one of flow `i` and passes the
check. -/
def stepBy (h : List Step) (n : Nat) (i : FlowId) (check : Step → Bool) : Bool :=
  h[n]?.any fun t => decide (t.label.flow = i) && check t

theorem stepBy_iff {h : List Step} {n : Nat} {i : FlowId} {check : Step → Bool} :
    stepBy h n i check = true ↔
      ∃ t, h = h.take n ++ t :: h.drop (n + 1) ∧ t.label.flow = i ∧ check t = true := by
  simp only [stepBy, Option.any_eq_true, Bool.and_eq_true, decide_eq_true_eq]
  constructor
  · rintro ⟨t, ht, hcheck⟩
    exact ⟨t, eq_of_getElem?_some ht, hcheck⟩
  · rintro ⟨t, ht, hcheck⟩
    refine ⟨t, ?_, hcheck⟩
    by_cases hn : n ≤ h.length
    · rw [ht, List.getElem?_append_right (by simp)]
      simp [hn]
    · have hlen := congrArg List.length ht
      simp at hlen
      omega

/-- The flow has ended so. -/
def ended (p : Rooms) (i : FlowId) (outcome : Outcome) : Bool :=
  match p.flow i with
  | .done o => decide (o = outcome)
  | .call .. => false

theorem ended_iff {p : Rooms} {i : FlowId} {outcome : Outcome} :
    ended p i outcome = true ↔ p.flow i = .done outcome := by
  unfold ended
  cases p.flow i <;> simp

end Monopoly.Lobby
