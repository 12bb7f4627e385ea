import Monopoly.Laws.RoomCapacity

/-!
# Monopoly.Laws.RoomMembers

Nobody's join is lost, and nobody who has left comes back, as long as a
host transfer writes back the members the room still has, and only an empty
room is deleted.
-/

namespace Monopoly.Lobby

/-- The room exists and has the user. -/
def IsMember (sid : SessionId) (userId : UserId) (p : Rooms) : Prop :=
  ∃ session, p.world.sessions sid = some session ∧ userId ∈ userIds session.members

/-- The step writes over no change: the list that a hand-over writes back has
the users the room has, and a room that is deleted has none. -/
structure Current (p : Rooms) (e : Event FlowId Op Op.Ans) : Prop where
  setHost : ∀ sid heir members session, e.op = .setHost sid heir members →
    p.world.sessions sid = some session →
    ∀ userId, userId ∈ userIds members ↔ userId ∈ userIds session.members
  delete : ∀ sid session, e.op = .delete sid → p.world.sessions sid = some session →
    session.members = []

/-- A leave or kick of the user takes effect. -/
def TakesOut (requests : FlowId → Request) (sid : SessionId) (userId : UserId) (t : Step) : Prop :=
  ((requests t.label.flow).Leaves sid userId ∨
    ∃ host, requests t.label.flow = .kick sid host userId) ∧
  t.label.op = .removeMember sid userId

/-- A join of the user comes to insert them. -/
def BringsIn (requests : FlowId → Request) (sid : SessionId) (userId : UserId) (t : Step) : Prop :=
  (requests t.label.flow).Joins userId ∧
    ∃ member maxMembers, t.label.op = .addMember sid member maxMembers

/-- A join of the user returns this session, with the user in it. -/
structure JoinReturns (requests : FlowId → Request) (userId : UserId) (session : Session)
    (t : Step) : Prop where
  joins : (requests t.label.flow).Joins userId
  returned : t.after.flow t.label.flow = .done (.returned session)
  member : userId ∈ userIds session.members

/-! ## what a join returns -/

/-- A join returns only what the store has just shown it. -/
def Shows : (op : Op) → (op.Ans → Flow Outcome) → Prop
  | .findById _, k | .findByInviteCode _, k | .addMember .., k =>
      ∀ found session, k found = .done (.returned session) → found = some session
  | _, k => ∀ r session, k r ≠ .done (.returned session)

section Shows

variable {userId : UserId}

theorem refuseJoin_shows {sid : SessionId} {found : Option Session} {session : Session}
    (h : refuseJoin sid userId found = .done (.returned session)) : found = some session := by
  cases found with
  | none => cases h
  | some current =>
      simp only [refuseJoin] at h
      repeat' split at h
      all_goals cases h
      rfl

theorem joinFound_shows {found : Option Session} {session : Session}
    (h : joinFound userId found = .done (.returned session)) : found = some session := by
  cases found with
  | none => cases h
  | some current =>
      simp only [joinFound, joinSession] at h
      repeat' split at h
      all_goals cases h
      rfl

theorem joinFound_every (found : Option Session) : (joinFound userId found).Every Shows := by
  cases found with
  | none => trivial
  | some session =>
      simp only [joinFound, joinSession]
      repeat' split
      · trivial
      · trivial
      · trivial
      · refine Co.every_await.mpr ⟨fun user _ h => (by cases user <;> cases h), fun user => ?_⟩
        cases user with
        | none => trivial
        | some user =>
            refine Co.every_await.mpr ⟨fun _ _ h => (by cases h), fun joinedAt => ?_⟩
            refine Co.every_await.mpr ⟨fun updated _ h => ?_, fun updated => ?_⟩
            · cases updated <;> cases h
              rfl
            · cases updated with
              | some updated => trivial
              | none =>
                  refine Co.every_await.mpr ⟨fun _ _ h => refuseJoin_shows h, fun current => ?_⟩
                  cases current with
                  | none => trivial
                  | some current =>
                      simp only [refuseJoin]
                      repeat' split
                      all_goals trivial

theorem serve_shows (normalize : String → String) {req : Request} (h : req.Joins userId) :
    (serve normalize req).Every Shows := by
  rcases h with ⟨sid, rfl⟩ | ⟨code, rfl⟩
  · exact Co.every_await.mpr ⟨fun _ _ h => joinFound_shows h, joinFound_every⟩
  · exact Co.every_await.mpr ⟨fun _ _ h => joinFound_shows h, joinFound_every⟩

end Shows

section Steps

variable {normalize : String → String} {requests : FlowId → Request} {first : World}
  {h : List Step} {p : Rooms} {sid : SessionId} {userId : UserId} {session : Session} {t : Step}

theorem Runs.shows (hrun : Runs normalize requests first h p) {i : FlowId} {op : Op}
    {k : op.Ans → Flow Outcome} (hjoins : (requests i).Joins userId)
    (hflow : p.flow i = .call op k) : Shows op k := by
  have hevery := Pool.Runs.every hrun (serve_shows normalize hjoins)
  rw [hflow] at hevery
  exact hevery.1

/-- What a join returns is the room as it is stored then. -/
theorem JoinReturns.stored
    (hfirst : ∀ sid session, first.sessions sid = some session → Furnished sid session)
    (hrun : Runs normalize requests first h p) (ht : t ∈ h)
    (hreturns : JoinReturns requests userId session t) :
    t.after.world.sessions session.id = some session := by
  obtain ⟨h', hbefore⟩ := hrun.reached_of_mem ht
  have hstep := hrun.step_of_mem ht
  have hstored := Runs.furnished hfirst (hbefore.next hstep)
  obtain ⟨k, hflow, hflows⟩ := hstep.call
  have hshows := Runs.shows hbefore hreturns.joins hflow
  have hreturned := hreturns.returned
  rw [hflows, Function.update_self] at hreturned
  have hexec := hstep.exec
  obtain ⟨before, ⟨i, op, r⟩, after⟩ := t
  cases op with
  | findById other =>
      obtain rfl := hshows r session hreturned
      obtain ⟨hfound, hsame⟩ := hexec
      have hafter : after.world.sessions other = some session := by
        rw [show after.world = before.world from hsame]
        exact hfound.symm
      rw [(hstored other session hafter).id]
      exact hafter
  | findByInviteCode code =>
      obtain rfl := hshows r session hreturned
      obtain ⟨hsame, hfound⟩ := hexec
      rw [hsame]
      exact hfound.1
  | addMember other member maxMembers =>
      obtain rfl := hshows r session hreturned
      rcases exec_addMember hexec with ⟨_, -, -, -, hafter⟩ | ⟨hnone, -⟩
      · rw [(hstored other session hafter).id]
        exact hafter
      · cases hnone
  | _ => exact absurd hreturned (hshows r session)

/-! ## one step -/

variable {p' : Rooms} {e : Event FlowId Op Op.Ans}

/-- A step that writes over no change keeps the members it does not take
out. -/
theorem IsMember.step (hmember : IsMember sid userId p) (hcurrent : Current p e)
    (hstep : Pool.Step exec p e p') (hstays : e.op ≠ .removeMember sid userId) :
    IsMember sid userId p' := by
  obtain ⟨session, hsession, hmem⟩ := hmember
  have htouched := exec_touched hstep.exec sid
  obtain ⟨i, op, r⟩ := e
  rw [hsession] at htouched
  generalize hafter : p'.world.sessions sid = doc at htouched
  cases htouched with
  | kept => exact ⟨session, hafter, hmem⟩
  | added _ =>
      refine ⟨_, hafter, ?_⟩
      rw [userIds_push]
      exact List.mem_append_left _ hmem
  | @removed _ other =>
      refine ⟨_, hafter, ?_⟩
      rw [userIds_pull]
      have hne : userId ≠ other := by
        rintro rfl
        exact hstays rfl
      exact List.mem_filter.mpr ⟨hmem, by simpa using hne⟩
  | @rehosted _ heir members =>
      exact ⟨_, hafter, (hcurrent.setHost sid heir members session rfl hsession userId).mpr hmem⟩
  | restatused _ => exact ⟨_, hafter, hmem⟩
  | deleted =>
      rw [hcurrent.delete sid session rfl hsession] at hmem
      cases hmem

/-- A step that writes over no change brings nobody in but whom it
inserts. -/
theorem not_isMember_step (hmember : ¬IsMember sid userId p) (hcurrent : Current p e)
    (hstep : Pool.Step exec p e p')
    (hnew : ∀ member maxMembers, e.op = .addMember sid member maxMembers →
      member.userId ≠ userId) : ¬IsMember sid userId p' := by
  rintro ⟨session, hsession, hmem⟩
  have htouched := exec_touched hstep.exec sid
  obtain ⟨i, op, r⟩ := e
  rw [hsession] at htouched
  generalize hbefore : p.world.sessions sid = doc at htouched
  cases htouched with
  | kept => exact hmember ⟨session, hbefore, hmem⟩
  | @added before member maxMembers _ =>
      rw [userIds_push] at hmem
      rcases List.mem_append.mp hmem with hmem | hmem
      · exact hmember ⟨before, hbefore, hmem⟩
      · exact hnew member maxMembers rfl (List.mem_singleton.mp hmem).symm
  | @removed before other =>
      rw [userIds_pull] at hmem
      exact hmember ⟨before, hbefore, (List.mem_filter.mp hmem).1⟩
  | @rehosted before heir members =>
      exact hmember ⟨before, hbefore,
        (hcurrent.setHost sid heir members before rfl hbefore userId).mp hmem⟩
  | @restatused before _ _ _ => exact hmember ⟨before, hbefore, hmem⟩

/-- Right after a removal the user is out. -/
theorem TakesOut.not_isMember (hstep : Pool.Step exec t.before t.label t.after)
    (htakes : TakesOut requests sid userId t) : ¬IsMember sid userId t.after := by
  have hexec := hstep.exec
  obtain ⟨before, ⟨i, op, r⟩, after⟩ := t
  obtain ⟨-, rfl⟩ := htakes
  obtain ⟨hr, hafter⟩ := exec_removeMember hexec
  rintro ⟨session, hsession, hmem⟩
  rw [hafter, hr] at hsession
  obtain ⟨old, -, rfl⟩ := Option.map_eq_some_iff.mp hsession
  rw [userIds_pull] at hmem
  simpa using (List.mem_filter.mp hmem).2

/-- A removal is that of a leave or kick. -/
theorem Runs.takesOut (hrun : Runs normalize requests first h p) (ht : t ∈ h)
    (hop : t.label.op = .removeMember sid userId) : TakesOut requests sid userId t := by
  obtain ⟨h', hbefore⟩ := hrun.reached_of_mem ht
  obtain ⟨k, hflow, -⟩ := (hrun.step_of_mem ht).call
  have hcalls := Runs.calls hbefore hflow
  refine ⟨?_, hop⟩
  obtain ⟨before, ⟨i, op, r⟩, after⟩ := t
  subst hop
  rcases hcalls with ⟨hleaves, -⟩ | ⟨host, hkick, -⟩
  · exact .inl hleaves
  · exact .inr ⟨host, hkick⟩

end Steps

/-! ## the law -/

section Law

variable {normalize : String → String} {requests : FlowId → Request} {first : World}
  {h : List Step} {p : Rooms}

/-- A user whose join has returned a session is in that room as long as no
leave or kick of them takes effect, if no step writes over a change. -/
theorem Runs.joined_stays
    (hfirst : ∀ sid session, first.sessions sid = some session → Furnished sid session)
    (hrun : Runs normalize requests first h p) (hcurrent : ∀ t ∈ h, Current t.before t.label)
    {later earlier : List Step} {t : Step} {userId : UserId} {session : Session}
    (ht : h = later ++ t :: earlier) (hreturns : JoinReturns requests userId session t)
    (hstays : ∀ t' ∈ later, ¬TakesOut requests session.id userId t') :
    IsMember session.id userId p := by
  subst ht
  have hmem : t ∈ later ++ t :: earlier := by simp
  refine (hrun.since (P := IsMember session.id userId) ?_
    ⟨session, hreturns.stored hfirst hrun hmem, hreturns.member⟩).1
  intro t' ht' hmember
  have ht : t' ∈ later ++ t :: earlier := by simp [ht']
  exact hmember.step (hcurrent t' ht) (hrun.step_of_mem ht) fun hop =>
    hstays t' ht' (hrun.takesOut ht hop)

/-- A user whose leave or kick has taken effect is out of the room as long as
no join of theirs inserts them, if no step writes over a change. -/
theorem Runs.left_stays
    (hfirst : ∀ sid session, first.sessions sid = some session → Furnished sid session)
    (hrun : Runs normalize requests first h p) (hcurrent : ∀ t ∈ h, Current t.before t.label)
    {later earlier : List Step} {t : Step} {sid : SessionId} {userId : UserId}
    (ht : h = later ++ t :: earlier) (htakes : TakesOut requests sid userId t)
    (hstays : ∀ t' ∈ later, ¬BringsIn requests sid userId t') : ¬IsMember sid userId p := by
  subst ht
  have hmem : t ∈ later ++ t :: earlier := by simp
  refine (hrun.since (P := fun p => ¬IsMember sid userId p) ?_
    (htakes.not_isMember (hrun.step_of_mem hmem))).1
  intro t' ht' hnot
  have ht : t' ∈ later ++ t :: earlier := by simp [ht']
  refine not_isMember_step hnot (hcurrent t' ht) (hrun.step_of_mem ht) ?_
  rintro member maxMembers hop rfl
  have hproper := hrun.proper hfirst ht
  rw [hop] at hproper
  exact hstays t' ht' ⟨hproper.2, member, maxMembers, hop⟩

/-- Whatever the interleaving of steps that write over no change: a user
whose join has returned a session is in that room as long as no leave or
kick of them takes effect, and a user whose leave or kick has taken effect
is out of the room as long as no join of theirs inserts them. -/
theorem no_lost_member
    (hfirst : ∀ sid session, first.sessions sid = some session → Furnished sid session)
    (hrun : Runs normalize requests first h p)
    (hcurrent : ∀ t ∈ h, Current t.before t.label) :
    (∀ later t earlier userId session, h = later ++ t :: earlier →
      JoinReturns requests userId session t →
      (∀ t' ∈ later, ¬TakesOut requests session.id userId t') →
      IsMember session.id userId p) ∧
    ∀ later t earlier sid userId, h = later ++ t :: earlier → TakesOut requests sid userId t →
      (∀ t' ∈ later, ¬BringsIn requests sid userId t') → ¬IsMember sid userId p :=
  ⟨fun _ _ _ _ _ => hrun.joined_stays hfirst hcurrent,
    fun _ _ _ _ _ => hrun.left_stays hfirst hcurrent⟩

/-- The step writes over no change, as far as can be computed. -/
def writesOver (t : Step) : Bool :=
  match t.label.op with
  | .setHost sid _ members =>
      (t.before.world.sessions sid).any fun s => !decide (userIds members = userIds s.members)
  | .delete sid => (t.before.world.sessions sid).any fun s => !s.members.isEmpty
  | _ => false

theorem Current.of_writesOver {t : Step} (hcheck : writesOver t = false) :
    Current t.before t.label := by
  unfold writesOver at hcheck
  constructor
  · intro sid heir members session hop hsession userId
    rw [hop] at hcheck
    simp only [hsession, Option.any_some, Bool.not_eq_false', decide_eq_true_eq] at hcheck
    rw [hcheck]
  · intro sid session hop hsession
    rw [hop] at hcheck
    simpa [hsession] using hcheck

/-- The step is the return of a join of the user to the room `7`. -/
def returnsTo (t : Step) (userId : UserId) : Bool :=
  match t.after.flow t.label.flow with
  | .done (.returned s) => decide (s.id = 7) && decide (userId ∈ userIds s.members)
  | _ => false

theorem JoinReturns.of_returnsTo {t : Step} {userId : UserId}
    (hjoins : (requests t.label.flow).Joins userId) (hcheck : returnsTo t userId = true) :
    ∃ session, session.id = 7 ∧ JoinReturns requests userId session t := by
  unfold returnsTo at hcheck
  cases hflow : t.after.flow t.label.flow with
  | call op k => simp [hflow] at hcheck
  | done o =>
      cases o with
      | returned session =>
          simp only [hflow, Bool.and_eq_true, decide_eq_true_eq] at hcheck
          exact ⟨session, hcheck.1, hjoins, hflow, hcheck.2⟩
      | _ => simp [hflow] at hcheck

/-- Nobody takes the user out of the room who is not asked to. -/
theorem not_takesOut {listed : List Request} {sid : SessionId} {userId : UserId}
    (hlisted : ∀ req ∈ listed, ¬(req.Leaves sid userId ∨ ∃ host, req = .kick sid host userId))
    (t : Step) : ¬TakesOut (requestsOf listed) sid userId t := by
  rintro ⟨hrequest, -⟩
  rcases requestsOf_mem listed t.label.flow with hmem | hfinish
  · exact hlisted _ hmem hrequest
  · simp [hfinish, Request.Leaves] at hrequest

/-- Nobody brings the user in who is not asked to. -/
theorem not_bringsIn {listed : List Request} {sid : SessionId} {userId : UserId}
    (hlisted : ∀ req ∈ listed, ¬req.Joins userId) (t : Step) :
    ¬BringsIn (requestsOf listed) sid userId t := by
  rintro ⟨hrequest, -⟩
  rcases requestsOf_mem listed t.label.flow with hmem | hfinish
  · exact hlisted _ hmem hrequest
  · simp [hfinish, Request.Joins] at hrequest

/-- The host leaves after somebody has joined: the one who joined is in the
room, the one who left is not. -/
theorem no_lost_member_leave :
    ∃ h p, Runs id (requestsOf [.leave 7 1, .join 7 3]) (house (roomOf .normal [1, 2])) h p ∧
      IsMember 7 3 p ∧ ¬IsMember 7 1 p := by
  obtain ⟨h, p, hrun, hcheck⟩ := runs_of_replays (roomOf .normal [1, 2])
    [.leave 7 1, .join 7 3] [1, 1, 1, 1, 0, 0, 0, 0]
    (fun h _ => h.all (fun t => !writesOver t) && stepBy h 4 1 (returnsTo · 3) &&
      stepBy h 2 0 fun t => decide (t.label.op = .removeMember 7 1)) (by decide +kernel)
  simp only [Bool.and_eq_true, stepBy_iff, decide_eq_true_eq] at hcheck
  obtain ⟨⟨hcurrent, t, ht, hflow, hreturns⟩, t', ht', hflow', hop⟩ := hcheck
  have hroom : Furnished (roomOf .normal [1, 2]).id (roomOf .normal [1, 2]) :=
    ⟨rfl, by decide, by decide⟩
  obtain ⟨hjoined, hleft⟩ := no_lost_member (house_furnished hroom) hrun fun t ht =>
    .of_writesOver (by simpa using List.all_eq_true.mp hcurrent t ht)
  have hjoins : (requestsOf [.leave 7 1, .join 7 3] t.label.flow).Joins 3 := by
    rw [hflow]
    exact .inl ⟨7, rfl⟩
  have hleaves : (requestsOf [.leave 7 1, .join 7 3] t'.label.flow).Leaves 7 1 := by
    rw [hflow']
    exact .inl rfl
  obtain ⟨session, hid, hreturns⟩ := JoinReturns.of_returnsTo hjoins hreturns
  refine ⟨h, p, hrun, ?_, ?_⟩
  · rw [← hid]
    refine hjoined _ t _ 3 session ht hreturns fun t'' _ => ?_
    rw [hid]
    exact not_takesOut (by simp [Request.Leaves]) t''
  · refine hleft _ t' _ 7 1 ht' ⟨.inl hleaves, hop⟩ ?_
    exact fun t'' _ => not_bringsIn (by simp [Request.Joins]) t''

/-- While the host's hand-over is between its read and its write, a member
leaves and somebody joins: the write undoes both. -/
theorem no_lost_member_overwritten :
    ∃ h p, Runs id (requestsOf [.leave 7 1, .leave 7 3, .join 7 4])
        (house (roomOf .normal [1, 2, 3])) h p ∧
      (∃ later t earlier session, h = later ++ t :: earlier ∧ session.id = 7 ∧
        JoinReturns (requestsOf [.leave 7 1, .leave 7 3, .join 7 4]) 4 session t ∧
        (∀ t' ∈ later, ¬TakesOut (requestsOf [.leave 7 1, .leave 7 3, .join 7 4]) 7 4 t') ∧
        ¬IsMember 7 4 p) ∧
      ∃ later t earlier, h = later ++ t :: earlier ∧
        TakesOut (requestsOf [.leave 7 1, .leave 7 3, .join 7 4]) 7 3 t ∧
        (∀ t' ∈ later, ¬BringsIn (requestsOf [.leave 7 1, .leave 7 3, .join 7 4]) 7 3 t') ∧
        IsMember 7 3 p := by
  obtain ⟨h, p, hrun, hcheck⟩ := runs_of_replays (roomOf .normal [1, 2, 3])
    [.leave 7 1, .leave 7 3, .join 7 4] [0, 0, 0, 1, 1, 2, 2, 2, 2, 0]
    (fun h p => decide (seats p = some [2, 3]) && stepBy h 1 2 (returnsTo · 4) &&
      stepBy h 5 1 fun t => decide (t.label.op = .removeMember 7 3)) (by decide +kernel)
  simp only [Bool.and_eq_true, stepBy_iff, decide_eq_true_eq] at hcheck
  obtain ⟨⟨hseats, t, ht, hflow, hreturns⟩, t', ht', hflow', hop⟩ := hcheck
  obtain ⟨room, hroom, husers⟩ := seats_iff.mp hseats
  have hjoins : (requestsOf [.leave 7 1, .leave 7 3, .join 7 4] t.label.flow).Joins 4 := by
    rw [hflow]
    exact .inl ⟨7, rfl⟩
  have hleaves : (requestsOf [.leave 7 1, .leave 7 3, .join 7 4] t'.label.flow).Leaves 7 3 := by
    rw [hflow']
    exact .inl rfl
  obtain ⟨session, hid, hreturns⟩ := JoinReturns.of_returnsTo hjoins hreturns
  refine ⟨h, p, hrun, ⟨_, t, _, session, ht, hid, hreturns,
    fun t'' _ => not_takesOut (by simp [Request.Leaves]) t'', ?_⟩, _, t', _,
    ht', ⟨.inl hleaves, hop⟩,
    fun t'' _ => not_bringsIn (by simp [Request.Joins]) t'', room, hroom, by simp [husers]⟩
  rintro ⟨s, hs, hmem⟩
  obtain rfl := Option.some.inj (hs.symm.trans hroom)
  simp [husers] at hmem

/-! ## a schedule under which no step writes over a change -/

/-- The flow has read the room for a hand-over and is to write it back, or has
removed the last member and is to delete the room. -/
def Holding (sid : SessionId) (place : Flow Outcome) : Prop :=
  (∃ heir members k, place = .call (.setHost sid heir members) k) ∨
    ∃ k, place = .call (.delete sid) k

/-- The operation may change who is in the room. -/
def Op.Seats (sid : SessionId) : Op → Prop
  | .addMember other .. | .removeMember other _ | .setHost other .. | .delete other => other = sid
  | _ => False

/-- Nobody changes who is in a room while another flow is between the read and
the write of its hand-over, or between the removal of its last member and its
deletion. -/
def Uncrossed (p : Rooms) (e : Event FlowId Op Op.Ans) : Prop :=
  ∀ sid i, e.op.Seats sid → Holding sid (p.flow i) → i = e.flow

variable {p' : Rooms} {e : Event FlowId Op Op.Ans} {sid : SessionId} {userId : UserId}

/-- The flow, if it is to write a list back or to delete a room, knows who is
in the room. -/
def UpToDate (p : Rooms) (place : Flow Outcome) : Prop :=
  ∀ op k, place = .call op k → ∀ i r, Current p ⟨i, op, r⟩

theorem upToDate_done (o : Outcome) : UpToDate p (.done o) := by
  intro op k hplace
  cases hplace

theorem upToDate_call {op : Op} {k : op.Ans → Flow Outcome}
    (hwrite : ∀ sid heir members, op ≠ .setHost sid heir members)
    (hdelete : ∀ sid, op ≠ .delete sid) : UpToDate p (.call op k) := by
  intro op' k' hplace i r
  cases hplace
  exact ⟨fun sid heir members _ hop => absurd hop (hwrite sid heir members),
    fun sid _ hop => absurd hop (hdelete sid)⟩

/-- Only a flow that holds a room has to be up to date. -/
theorem UpToDate.of_holding {place : Flow Outcome}
    (h : ∀ sid, Holding sid place → UpToDate p place) : UpToDate p place := by
  intro op k hplace i r
  constructor
  · rintro sid heir members session rfl
    exact (h sid (.inl ⟨heir, members, k, hplace⟩) _ k hplace i r).setHost sid heir members
      session rfl
  · rintro sid session rfl
    exact (h sid (.inr ⟨k, hplace⟩) _ k hplace i r).delete sid session rfl

/-- A flow that holds a room serves a leave or a cleanup. -/
theorem Holding.leaves (hrun : Runs normalize requests first h p) {i : FlowId}
    (hholding : Holding sid (p.flow i)) : ∃ userId, (requests i).Leaves sid userId := by
  rcases hholding with ⟨heir, members, k, hflow⟩ | ⟨k, hflow⟩
  · exact (hrun.calls hflow).1
  · exact (hrun.calls hflow).1

/-- A flow stays up to date while nobody changes who is in its room. -/
theorem UpToDate.later {place : Flow Outcome} (hup : UpToDate p place)
    (hsame : ∀ sid, Holding sid place → ∀ session', p'.world.sessions sid = some session' →
      ∃ session, p.world.sessions sid = some session ∧ session.members = session'.members) :
    UpToDate p' place := by
  intro op k hplace i r
  constructor
  · rintro sid heir members session' rfl hsession'
    obtain ⟨session, hsession, hmembers⟩ :=
      hsame sid (.inl ⟨heir, members, k, hplace⟩) session' hsession'
    rw [← hmembers]
    exact (hup _ k hplace i r).setHost sid heir members session rfl hsession
  · rintro sid session' rfl hsession'
    obtain ⟨session, hsession, hmembers⟩ := hsame sid (.inr ⟨k, hplace⟩) session' hsession'
    rw [← hmembers]
    exact (hup _ k hplace i r).delete sid session rfl hsession

theorem leaveFound_upToDate (found : Option Session) :
    UpToDate p (leaveFound sid userId found) := by
  cases found with
  | none => exact upToDate_done _
  | some session =>
      simp only [leaveFound]
      split
      · exact upToDate_call (by simp) (by simp)
      · exact upToDate_done _

theorem cleanupFound_upToDate (found : Option Session) :
    UpToDate p (cleanupFound sid userId found) := by
  cases found with
  | none => exact upToDate_done _
  | some session =>
      simp only [cleanupFound]
      repeat' split
      · exact upToDate_done _
      · exact upToDate_done _
      · exact upToDate_call (by simp) (by simp)

/-- What has just been read for a hand-over is what the room is. -/
theorem handOverFound_upToDate {heir : UserId} {updated : Session} {found : Option Session}
    (hfound : p.world.sessions sid = found) :
    UpToDate p (handOverFound sid heir updated found) := by
  cases found with
  | none => exact upToDate_done _
  | some session =>
      intro op k hplace i r
      cases hplace
      constructor
      · intro other heir members session' hop hsession userId
        cases hop
        obtain rfl := Option.some.inj (hfound.symm.trans hsession)
        rw [userIds_promote]
      · intro other session' hop
        cases hop

/-- What a removal has just answered is what the room is. -/
theorem leaveRemoved_upToDate {updated : Option Session}
    (hupdated : p.world.sessions sid = updated) :
    UpToDate p (leaveRemoved sid userId updated) := by
  cases updated with
  | none => exact upToDate_done _
  | some session =>
      simp only [leaveRemoved]
      cases hheir : earliest session.members with
      | none =>
          intro op k hplace i r
          cases hplace
          constructor
          · intro other heir members session' hop
            cases hop
          · intro other session' hop hsession
            cases hop
            obtain rfl := Option.some.inj (hupdated.symm.trans hsession)
            exact pyMinBy_eq_none.mp hheir
      | some heir =>
          simp only
          split
          · exact upToDate_call (by simp) (by simp)
          · exact upToDate_done _

/-- Wherever a leave or cleanup goes, it is up to date there. -/
theorem Runs.upToDate_move (hrun : Runs normalize requests first h p)
    (hstep : Pool.Step exec p e p') (hleaves : (requests e.flow).Leaves sid userId) :
    UpToDate p' (p'.flow e.flow) := by
  obtain ⟨k, hflow, hflows⟩ := hstep.call
  have hcalls := hrun.calls hflow
  have hexec := hstep.exec
  rw [hflows, Function.update_self]
  obtain ⟨i, op, r⟩ := e
  rcases leave_places hleaves hcalls with hplace | hplace | hplace | hplace |
    ⟨heir, updated, hplace⟩ | ⟨-, hdone⟩
  · cases hplace
    cases r with
    | true => exact upToDate_done _
    | false => exact upToDate_call (by simp) (by simp)
  · cases hplace
    exact cleanupFound_upToDate r
  · cases hplace
    exact leaveFound_upToDate r
  · cases hplace
    exact leaveRemoved_upToDate (exec_removeMember hexec).2
  · cases hplace
    obtain ⟨hfound, hsame⟩ := hexec
    exact handOverFound_upToDate (by rw [hsame]; exact hfound.symm)
  · obtain ⟨outcome, houtcome⟩ := hdone r
    simp only [houtcome]
    exact upToDate_done _

/-- If no step crosses a hand-over or a deletion, every flow is up to date. -/
theorem Runs.upToDate (hrun : Runs normalize requests first h p)
    (huncrossed : ∀ t ∈ h, Uncrossed t.before t.label) (i : FlowId) : UpToDate p (p.flow i) := by
  refine Run.invariant_of (I := fun p => ∀ i, UpToDate p (p.flow i)) ?_ ?_ hrun huncrossed i
  · rintro p ⟨-, hstart⟩ i
    refine .of_holding fun sid hholding => ?_
    rw [hstart] at hholding
    rcases hholding with ⟨heir, members, k, hserve⟩ | ⟨k, hserve⟩
    · exact absurd hserve serve_ne_setHost
    · exact absurd hserve serve_ne_delete
  · intro h p e p' hr hup huncrossed hstep i
    by_cases hi : i = e.flow
    · subst hi
      refine .of_holding fun sid hholding => ?_
      obtain ⟨userId, hleaves⟩ := hholding.leaves (Run.next hr hstep)
      exact Runs.upToDate_move hr hstep hleaves
    · obtain ⟨k, -, hflows⟩ := hstep.call
      rw [hflows, Function.update_of_ne hi]
      refine (hup i).later fun sid hholding session' hsession' => ?_
      have hseats : ¬e.op.Seats sid := fun hseats => hi (huncrossed sid i hseats hholding)
      have htouched := exec_touched hstep.exec sid
      rw [hsession'] at htouched
      generalize hop : e.op = op at htouched hseats
      generalize hbefore : p.world.sessions sid = doc at htouched
      cases htouched with
      | kept => exact ⟨session', rfl, rfl⟩
      | @restatused session _ _ _ => exact ⟨session, rfl, rfl⟩
      | added _ | removed | rehosted => exact absurd rfl hseats

/-- A schedule without crossings writes over no change. -/
theorem Runs.current (hrun : Runs normalize requests first h p)
    (huncrossed : ∀ t ∈ h, Uncrossed t.before t.label) : ∀ t ∈ h, Current t.before t.label := by
  intro t ht
  obtain ⟨h', hbefore, hsub⟩ := hrun.cut_of_mem ht
  obtain ⟨k, hflow, -⟩ := (hrun.step_of_mem ht).call
  exact Runs.upToDate hbefore (fun t' ht' => huncrossed t' (hsub ht')) t.label.flow _ k hflow
    t.label.flow t.label.answer

/-- Whatever the interleaving: if nobody changes who is in a room while
another flow is between the read and the write of a hand-over of it, or
between the removal of its last member and its deletion, nobody's join is
lost and nobody who was taken out comes back. -/
theorem members_kept_uncrossed
    (hfirst : ∀ sid session, first.sessions sid = some session → Furnished sid session)
    (hrun : Runs normalize requests first h p)
    (huncrossed : ∀ t ∈ h, Uncrossed t.before t.label) :
    (∀ later t earlier userId session, h = later ++ t :: earlier →
      JoinReturns requests userId session t →
      (∀ t' ∈ later, ¬TakesOut requests session.id userId t') →
      IsMember session.id userId p) ∧
    ∀ later t earlier sid userId, h = later ++ t :: earlier → TakesOut requests sid userId t →
      (∀ t' ∈ later, ¬BringsIn requests sid userId t') → ¬IsMember sid userId p :=
  have hcurrent := hrun.current huncrossed
  ⟨fun _ _ _ _ _ => hrun.joined_stays hfirst hcurrent,
    fun _ _ _ _ _ => hrun.left_stays hfirst hcurrent⟩

end Law

end Monopoly.Lobby
