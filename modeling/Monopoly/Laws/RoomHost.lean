import Monopoly.Laws.RoomCapacity

/-!
# Monopoly.Laws.RoomHost

One host per room.  A host who leaves hands the room over in two more
steps, and until they are done the room has none; it gets one as long as
the heir is still in the list that is written back, and nobody who has
become the host meanwhile is kicked.
-/

namespace Monopoly.Lobby

/-- The members with the host's role. -/
def hosts (members : List SessionMember) : List SessionMember :=
  members.filter fun m => decide (m.role = .host)

/-- The list has one host, who is this user. -/
def HostedBy (host : UserId) (members : List SessionMember) : Prop :=
  ∃ m, hosts members = [m] ∧ m.userId = host

/-- The room has members, one of them is its host, and it names that one. -/
structure OneHost (session : Session) : Prop where
  populated : session.members ≠ []
  host : HostedBy session.hostUserId session.members

section Lists

variable {host : UserId} {members : List SessionMember}

theorem HostedBy.ne_nil (h : HostedBy host members) : members ≠ [] := by
  rintro rfl
  obtain ⟨m, hm, -⟩ := h
  cases hm

theorem HostedBy.push (h : HostedBy host members) {member : SessionMember}
    (hrole : member.role = .player) : HostedBy host (members ++ [member]) := by
  obtain ⟨m, hm, hhost⟩ := h
  refine ⟨m, ?_, hhost⟩
  rw [hosts, List.filter_append, ← hosts, hm]
  simp [hrole]

theorem HostedBy.pull (h : HostedBy host members) {userId : UserId} (hother : userId ≠ host) :
    HostedBy host (members.filter fun m => !decide (m.userId = userId)) := by
  obtain ⟨m, hm, rfl⟩ := h
  refine ⟨m, ?_, rfl⟩
  rw [hosts, List.filter_filter]
  have hcomm : (members.filter fun a => decide (a.role = .host) && !decide (a.userId = userId)) =
      (hosts members).filter fun a => !decide (a.userId = userId) := by
    rw [hosts, List.filter_filter]
    exact List.filter_congr fun a _ => Bool.and_comm ..
  rw [hcomm, hm]
  simp [Ne.symm hother]

/-- After a promotion the hosts are the heir's entries. -/
theorem hosts_promote (heir : UserId) (members : List SessionMember) :
    (hosts (promote heir members)).map (·.userId) =
      (userIds members).filter fun id => decide (id = heir) := by
  induction members with
  | nil => rfl
  | cons m rest ih =>
      have hrest : promote heir (m :: rest) = promote heir [m] ++ promote heir rest := rfl
      have hids : userIds (m :: rest) = m.userId :: userIds rest := rfl
      rw [hrest, hids, hosts, List.filter_append, ← hosts, ← hosts, List.map_append, ih]
      by_cases hheir : m.userId = heir
      · simp [promote, hosts, hheir]
      · by_cases hrole : m.role = .host
        · simp [promote, hosts, hheir, hrole]
        · simp [promote, hosts, hheir, hrole]

/-- An heir who is in the list once becomes its one host. -/
theorem HostedBy.promote {heir : UserId} (hdistinct : (userIds members).Nodup)
    (hmem : heir ∈ userIds members) : HostedBy heir (promote heir members) := by
  have hids : (hosts (Monopoly.promote heir members)).map (·.userId) = [heir] := by
    rw [hosts_promote, List.filter_eq, hdistinct.count, if_pos hmem]
    rfl
  obtain ⟨m, hm, hheir⟩ := List.map_eq_singleton_iff.mp hids
  exact ⟨m, hm, hheir⟩

/-- The host of the room is a host when asked about. -/
theorem OneHost.isHost {session : Session} (h : OneHost session)
    (hdistinct : (userIds session.members).Nodup) : session.isHost session.hostUserId = true := by
  obtain ⟨m, hm, hhost⟩ := h.host
  have hmem : m ∈ hosts session.members := hm ▸ List.mem_singleton_self m
  obtain ⟨hmember, hrole⟩ := List.mem_filter.mp hmem
  have hget : session.getMember session.hostUserId = some m := by
    unfold Session.getMember
    cases hfound : session.members.find? fun a => decide (a.userId = session.hostUserId) with
    | none =>
        have hnone := List.find?_eq_none.mp hfound m hmember
        simp [hhost] at hnone
    | some a =>
        have hfind := List.find?_some hfound
        have ha := List.mem_of_find?_eq_some hfound
        have hsame : a.userId = m.userId := by
          rw [hhost]
          exact of_decide_eq_true hfind
        rw [List.inj_on_of_nodup_map hdistinct ha hmember hsame]
  rw [Session.isHost, hget]
  exact hrole

end Lists

/-! ## rooms between two hosts -/

/-- The flow has taken the host out of the room, and is about to name
another one. -/
structure HandingOver (requests : FlowId → Request) (sid : SessionId) (h : List Step) (p : Rooms)
    (i : FlowId) : Prop where
  leaves : ∃ userId, (requests i).Leaves sid userId
  begun : ∃ t ∈ h, t.label.flow = i
  waits : (∃ heir updated, p.flow i = handOver sid heir updated) ∨
    ∃ heir members k, p.flow i = .call (.setHost sid heir members) k

/-- The room is gone, or a flow is about to delete it. -/
def Doomed (sid : SessionId) (p : Rooms) : Prop :=
  p.world.sessions sid = none ∨ ∃ i k, p.flow i = .call (.delete sid) k

/-- The step does not take a room's host away for good: a list that is
written back has the heir in it, and a kick does not hit a host. -/
structure Orderly (requests : FlowId → Request) (p : Rooms) (e : Event FlowId Op Op.Ans) :
    Prop where
  heir : ∀ sid heir members, e.op = .setHost sid heir members →
    heir ∈ userIds members ∨ Doomed sid p
  kicked : ∀ sid host target session, requests e.flow = .kick sid host target →
    e.op = .removeMember sid target → p.world.sessions sid = some session →
    session.isHost target = false ∨ Doomed sid p

section Steps

variable {requests : FlowId → Request} {sid : SessionId} {h : List Step} {p p' : Rooms}
  {e : Event FlowId Op Op.Ans}

theorem Doomed.step (hdoomed : Doomed sid p) (hstep : Pool.Step exec p e p') : Doomed sid p' := by
  obtain ⟨k, hflow, hflows⟩ := hstep.call
  rcases hdoomed with hnone | ⟨j, k', hj⟩
  · have htouched := exec_touched hstep.exec sid
    rw [hnone] at htouched
    generalize e.op = op at htouched
    generalize hafter : p'.world.sessions sid = doc at htouched
    cases htouched with
    | kept => exact .inl hafter
    | deleted => exact .inl hafter
  · by_cases hje : j = e.flow
    · subst hje
      obtain ⟨i, op, r⟩ := e
      rw [hflow] at hj
      cases hj
      obtain ⟨-, hafter⟩ := hstep.exec
      exact .inl (by rw [hafter, store_self])
    · exact .inr ⟨j, k', by rw [hflows, Function.update_of_ne hje]; exact hj⟩

/-- A flow that is not the one to move goes on handing over. -/
theorem HandingOver.other {i : FlowId} (hover : HandingOver requests sid h p i)
    (hne : i ≠ e.flow) (hstep : Pool.Step exec p e p') :
    HandingOver requests sid (⟨p, e, p'⟩ :: h) p' i := by
  obtain ⟨k, -, hflows⟩ := hstep.call
  obtain ⟨t, ht, hi⟩ := hover.begun
  have hsame : p'.flow i = p.flow i := by rw [hflows, Function.update_of_ne hne]
  exact ⟨hover.leaves, ⟨t, List.mem_cons_of_mem _ ht, hi⟩, by rw [hsame]; exact hover.waits⟩

/-- The flow that hands over reads the room, or writes it back. -/
theorem HandingOver.move (hover : HandingOver requests sid h p e.flow)
    (hstep : Pool.Step exec p e p') :
    Doomed sid p' ∨ HandingOver requests sid (⟨p, e, p'⟩ :: h) p' e.flow ∨
      ∃ heir members, e.op = .setHost sid heir members := by
  obtain ⟨k, hflow, hflows⟩ := hstep.call
  obtain ⟨i, op, r⟩ := e
  rcases hover.waits with ⟨heir, updated, hwaits⟩ | ⟨heir, members, k', hwaits⟩
  · rw [hflow] at hwaits
    cases hwaits
    obtain ⟨rfl, hsame⟩ := hstep.exec
    cases hfound : p.world.sessions sid with
    | none => exact .inl (.inl (by rw [hsame]; exact hfound))
    | some session =>
        refine .inr (.inl ⟨hover.leaves, ⟨_, List.mem_cons_self, rfl⟩, .inr ?_⟩)
        rw [hflows, Function.update_self]
        simp only [hfound]
        exact ⟨_, _, _, rfl⟩
  · rw [hflow] at hwaits
    cases hwaits
    exact .inr (.inr ⟨heir, members, rfl⟩)

end Steps

/-! ## the law -/

section Law

variable {normalize : String → String} {requests : FlowId → Request} {first : World}
  {h : List Step} {p p' : Rooms} {e : Event FlowId Op Op.Ans} {sid : SessionId}

/-- The room is gone or about to go, has its host, or is being handed
over. -/
def Kept (requests : FlowId → Request) (sid : SessionId) (h : List Step) (p : Rooms) : Prop :=
  Doomed sid p ∨ (∀ session, p.world.sessions sid = some session → OneHost session) ∨
    ∃ i, HandingOver requests sid h p i

/-- What is left of a room when its host leaves it is handed over, or
deleted. -/
theorem kept_of_left {userId : UserId} {session : Session}
    (hleaves : (requests e.flow).Leaves sid userId)
    (hflows : p'.flow = Function.update p.flow e.flow
      (leaveRemoved sid userId (some (session.pull userId))))
    (hhost : session.hostUserId = userId) : Kept requests sid (⟨p, e, p'⟩ :: h) p' := by
  have hnext : p'.flow e.flow = leaveRemoved sid userId (some (session.pull userId)) := by
    rw [hflows, Function.update_self]
  have hstill : (session.pull userId).hostUserId = userId := hhost
  simp only [leaveRemoved, hstill, if_true] at hnext
  cases hheir : earliest (session.pull userId).members with
  | none =>
      rw [hheir] at hnext
      exact .inl (.inr ⟨e.flow, _, hnext⟩)
  | some heir =>
      rw [hheir] at hnext
      exact .inr (.inr ⟨e.flow, ⟨userId, hleaves⟩, ⟨_, List.mem_cons_self, rfl⟩,
        .inl ⟨heir.userId, session.pull userId, hnext⟩⟩)

/-- An orderly step of a room with its host. -/
theorem kept_of_hosted (hrun : Runs normalize requests first h p)
    (hdistinct : ∀ session, p.world.sessions sid = some session →
      (userIds session.members).Nodup)
    (hproper : Proper first.modeOf (requests e.flow) e.op) (hstep : Pool.Step exec p e p')
    (horderly : Orderly requests p e) (hnot : ¬Doomed sid p)
    (hhosted : ∀ session, p.world.sessions sid = some session → OneHost session) :
    Kept requests sid (⟨p, e, p'⟩ :: h) p' := by
  obtain ⟨k, hflow, hflows⟩ := hstep.call
  have hcalls := hrun.calls hflow
  have hexec := hstep.exec
  have htouched := exec_touched hexec sid
  obtain ⟨i, op, r⟩ := e
  generalize hdoc : p.world.sessions sid = doc at htouched
  generalize hafter : p'.world.sessions sid = doc' at htouched
  have hkeeps : ∀ session', doc' = some session' → OneHost session' →
      Kept requests sid (⟨p, ⟨i, op, r⟩, p'⟩ :: h) p' := by
    rintro session' rfl hone
    refine .inr (.inl fun s hs => ?_)
    obtain rfl := Option.some.inj (hafter.symm.trans hs)
    exact hone
  cases htouched with
  | kept => exact .inr (.inl fun s hs => hhosted s (hdoc.trans (hafter.symm.trans hs)))
  | deleted => exact .inl (.inl hafter)
  | added hadmits =>
      have hhost := (hhosted _ hdoc).host.push hcalls.2
      exact hkeeps _ rfl ⟨hhost.ne_nil, hhost⟩
  | restatused _ =>
      have hone := hhosted _ hdoc
      exact hkeeps _ rfl ⟨hone.populated, hone.host⟩
  | @rehosted session heir members =>
      obtain ⟨-, ⟨found, rfl⟩, -⟩ := hcalls
      have hheir := (horderly.heir sid heir _ rfl).resolve_right hnot
      have hmem : heir ∈ userIds found := by rwa [userIds_promote] at hheir
      have hdist : (userIds found).Nodup := by
        have hboth := hproper.1
        rwa [userIds_promote] at hboth
      have hhost := HostedBy.promote hdist hmem
      exact hkeeps _ rfl ⟨hhost.ne_nil, hhost⟩
  | @removed session userId =>
      by_cases hhost : session.hostUserId = userId
      · rcases hcalls with ⟨hleaves, rfl⟩ | ⟨host, hkick, rfl⟩
        · have hr := (exec_removeMember hexec).1
          rw [hdoc] at hr
          obtain rfl : r = some (session.pull userId) := hr
          exact kept_of_left hleaves hflows hhost
        · have hspared := (horderly.kicked sid host userId session hkick rfl hdoc).resolve_right
            hnot
          have hishost := (hhosted session hdoc).isHost (hdistinct session hdoc)
          rw [hhost, hspared] at hishost
          cases hishost
      · have hstays := (hhosted session hdoc).host.pull (Ne.symm hhost)
        exact hkeeps _ rfl ⟨hstays.ne_nil, hstays⟩

/-- An orderly step keeps the room. -/
theorem Kept.step (hrun : Runs normalize requests first h p)
    (hdistinct : ∀ session, p.world.sessions sid = some session →
      (userIds session.members).Nodup)
    (hproper : Proper first.modeOf (requests e.flow) e.op) (hstep : Pool.Step exec p e p')
    (horderly : Orderly requests p e) (hkept : Kept requests sid h p) :
    Kept requests sid (⟨p, e, p'⟩ :: h) p' := by
  by_cases hdoomed : Doomed sid p
  · exact .inl (hdoomed.step hstep)
  · rcases hkept with hgone | hhosted | ⟨i, hover⟩
    · exact absurd hgone hdoomed
    · exact kept_of_hosted hrun hdistinct hproper hstep horderly hdoomed hhosted
    · by_cases hi : i = e.flow
      · subst hi
        rcases hover.move hstep with hgone | hmoved | ⟨heir, members, hop⟩
        · exact .inl hgone
        · exact .inr (.inr ⟨_, hmoved⟩)
        · -- the list that is written back makes the heir the host
          obtain ⟨k, hflow, -⟩ := hstep.call
          have hexec := hstep.exec
          obtain ⟨i, op, r⟩ := e
          subst hop
          obtain ⟨-, ⟨found, rfl⟩, -⟩ := hrun.calls hflow
          have hheir := (horderly.heir sid heir _ rfl).resolve_right hdoomed
          have hboth := hproper.1
          rw [userIds_promote] at hheir hboth
          have hhost := HostedBy.promote hboth hheir
          refine .inr (.inl fun session hsession => ?_)
          rw [exec_setHost hexec] at hsession
          obtain ⟨before, -, rfl⟩ := Option.map_eq_some_iff.mp hsession
          exact ⟨hhost.ne_nil, hhost⟩
      · exact .inr (.inr ⟨i, hover.other hi hstep⟩)

/-- A room as it is created is one the law starts from. -/
theorem createdSession_coherent (id : SessionId) (inviteCode : String) (user : User) (now : Int)
    (visibility : SessionVisibility) (ranked : Bool) (gameMode : GameMode) :
    Furnished id (createdSession id inviteCode user now visibility ranked gameMode) ∧
      OneHost (createdSession id inviteCode user now visibility ranked gameMode) := by
  refine ⟨⟨rfl, List.nodup_singleton _, ?_⟩, List.cons_ne_nil _ _, _, rfl, rfl⟩
  change 1 ≤ capacity gameMode
  cases gameMode <;> decide

/-- Whatever the interleaving of orderly steps: when no flow of a room is in
flight, the room has members, exactly one of them is its host, and it is
the one the room names. -/
theorem one_host_per_room
    (hfirst : ∀ sid session, first.sessions sid = some session →
      Furnished sid session ∧ OneHost session)
    (hrun : Runs normalize requests first h p)
    (horderly : ∀ t ∈ h, Orderly requests t.before t.label)
    (hquiet : ∀ i, (requests i).On sid → ¬Pool.InFlight h p i) {session : Session}
    (hsession : p.world.sessions sid = some session) : OneHost session := by
  have hfurnished := fun sid session hs => (hfirst sid session hs).1
  have hkept : Kept requests sid h p := by
    clear hquiet hsession
    induction hrun with
    | start hs =>
        obtain ⟨rfl, -⟩ := hs
        exact .inr (.inl fun session hs => (hfirst sid session hs).2)
    | next hr hstep ih =>
        obtain ⟨hlast, hrest⟩ := List.forall_mem_cons.mp horderly
        have hdistinct := fun session hs => (Runs.furnished hfurnished hr sid session hs).distinct
        have hproper := Runs.proper hfurnished (hr.next hstep) List.mem_cons_self
        exact (ih hrest).step hr hdistinct hproper hstep hlast
  rcases hkept with (hnone | ⟨i, k, hi⟩) | hhosted | ⟨i, hover⟩
  · rw [hnone] at hsession
    cases hsession
  · obtain ⟨hon, hflight⟩ := hrun.deleting hi
    exact absurd hflight (hquiet i hon)
  · exact hhosted session hsession
  · obtain ⟨userId, hleaves⟩ := hover.leaves
    refine absurd ⟨hover.begun, fun o ho => ?_⟩ (hquiet i hleaves.on)
    rcases hover.waits with ⟨heir, updated, hwaits⟩ | ⟨heir, members, k, hwaits⟩
    · rw [ho] at hwaits
      cases hwaits
    · rw [ho] at hwaits
      cases hwaits

/-- The step is no kick, and if it is a hand-over, to somebody in the list. -/
def handsOver (requests : FlowId → Request) (t : Step) : Bool :=
  (match requests t.label.flow with
    | .kick .. => false
    | _ => true) &&
  match t.label.op with
  | .setHost _ heir members => decide (heir ∈ userIds members)
  | _ => true

theorem Orderly.of_handsOver {t : Step} (hcheck : handsOver requests t = true) :
    Orderly requests t.before t.label := by
  obtain ⟨hrequest, hop⟩ := Bool.and_eq_true_iff.mp hcheck
  constructor
  · intro sid heir members heq
    rw [heq] at hop
    exact .inl (of_decide_eq_true hop)
  · intro sid host target session hkick
    rw [hkick] at hrequest
    cases hrequest

/-- The host leaves while somebody joins: the one who joined first takes
over. -/
theorem one_host_per_room_leave :
    ∃ h p session, Runs id (requestsOf [.leave 7 1, .join 7 4])
        (house (roomOf .normal [1, 2, 3])) h p ∧ p.world.sessions 7 = some session ∧
      session.hostUserId = 2 ∧ OneHost session := by
  obtain ⟨h, p, hrun, hcheck⟩ := runs_of_replays (roomOf .normal [1, 2, 3])
    [.leave 7 1, .join 7 4] [0, 1, 0, 1, 1, 1, 0, 0]
    (fun h p => h.all (handsOver (requestsOf [.leave 7 1, .join 7 4])) && Pool.settled h p &&
      decide ((p.world.sessions 7).map (·.hostUserId) = some 2)) (by decide +kernel)
  simp only [Bool.and_eq_true] at hcheck
  obtain ⟨⟨horderly, hsettled⟩, hhost⟩ := hcheck
  obtain ⟨session, hsession, hhost⟩ := Option.map_eq_some_iff.mp (of_decide_eq_true hhost)
  have hfirst : ∀ sid s, (house (roomOf .normal [1, 2, 3])).sessions sid = some s →
      Furnished sid s ∧ OneHost s := by
    intro sid s hs
    obtain ⟨rfl, rfl⟩ := house_rooms hs
    exact ⟨⟨rfl, by decide, by decide⟩, by decide, _, rfl, rfl⟩
  exact ⟨h, p, session, hrun, hsession, hhost, one_host_per_room hfirst hrun
    (fun t ht => .of_handsOver (List.all_eq_true.mp horderly t ht))
    (fun i _ => Pool.not_inFlight_of_settled hsettled i) hsession⟩

/-- The heir leaves before the hand-over reads the room: when both leaves
have returned, the room names a host who is gone, and no member is the
host. -/
theorem one_host_heir_gone :
    ∃ h p session, Runs id (requestsOf [.leave 7 1, .leave 7 2])
        (house (roomOf .normal [1, 2, 3])) h p ∧ (∀ i, ¬Pool.InFlight h p i) ∧
      p.world.sessions 7 = some session ∧ session.hostUserId = 2 ∧
      userIds session.members = [3] ∧ ¬OneHost session := by
  obtain ⟨h, p, hrun, hcheck⟩ := runs_of_replays (roomOf .normal [1, 2, 3])
    [.leave 7 1, .leave 7 2] [0, 0, 1, 1, 0, 0]
    (fun h p => Pool.settled h p && decide ((p.world.sessions 7).map
      (fun s => (s.hostUserId, userIds s.members, hosts s.members)) = some (2, [3], [])))
    (by decide +kernel)
  obtain ⟨hsettled, hroom⟩ := Bool.and_eq_true_iff.mp hcheck
  obtain ⟨session, hsession, hroom⟩ := Option.map_eq_some_iff.mp (of_decide_eq_true hroom)
  simp only [Prod.mk.injEq] at hroom
  obtain ⟨hhost, husers, hnone⟩ := hroom
  refine ⟨h, p, session, hrun, Pool.not_inFlight_of_settled hsettled, hsession, hhost, husers, ?_⟩
  rintro ⟨-, m, hm, -⟩
  rw [hnone] at hm
  cases hm

end Law

end Monopoly.Lobby
