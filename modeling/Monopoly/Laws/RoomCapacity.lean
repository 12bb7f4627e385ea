import Monopoly.Service.Rooms

/-!
# Monopoly.Laws.RoomCapacity

A room never holds a user twice and never more members than its mode
allows, and nobody is added once it has left `waiting`.  The lists that are
on their way to be written back by a host transfer are as good as the
stored ones.
-/

namespace Monopoly.Lobby

/-- The most members a room of this mode may have. -/
def capacity (mode : GameMode) : Nat := (getGameConfig mode).maxPlayers

/-- The mode of a room from the start on. -/
def World.modeOf (first : World) (sid : SessionId) : GameMode :=
  match first.sessions sid with
  | some session => session.gameMode
  | none => .normal

/-- A furnished room of this mode. -/
structure Seated (mode : GameMode) (sid : SessionId) (session : Session) : Prop extends
    Furnished sid session where
  mode : session.gameMode = mode

theorem Seated.maxPlayers {mode : GameMode} {sid : SessionId} {session : Session}
    (h : Seated mode sid session) : session.maxPlayers = capacity mode := by
  rw [Session.maxPlayers, h.mode, capacity]

/-! ## one operation -/

section Updates

variable {mode : GameMode} {sid : SessionId} {session : Session}

theorem Seated.push (h : Seated mode sid session) {member : SessionMember}
    (hadmits : session.admits member.userId (capacity mode) = true) :
    Seated mode sid (session.push member) := by
  simp only [Session.admits, Bool.and_eq_true, Bool.not_eq_true', decide_eq_true_eq] at hadmits
  obtain ⟨⟨-, hnew⟩, hroom⟩ := hadmits
  have hnew : member.userId ∉ userIds session.members := by
    intro hmem
    rw [Session.hasMember_iff.mpr hmem] at hnew
    cases hnew
  constructor
  · constructor
    · exact h.id
    · rw [userIds_push, List.nodup_append]
      refine ⟨h.distinct, List.nodup_singleton _, ?_⟩
      rintro a ha b hb rfl
      exact hnew (List.mem_singleton.mp hb ▸ ha)
    · have hmax : (session.push member).maxPlayers = capacity mode := h.maxPlayers
      rw [hmax]
      simp only [Session.push, List.length_append, List.length_singleton]
      omega
  · exact h.mode

theorem Seated.pull (h : Seated mode sid session) (userId : UserId) :
    Seated mode sid (session.pull userId) := by
  constructor
  · constructor
    · exact h.id
    · rw [userIds_pull]
      exact h.distinct.filter _
    · have hroom := h.room
      have hless : (session.pull userId).members.length ≤ session.members.length :=
        List.length_filter_le ..
      exact hless.trans hroom
  · exact h.mode

theorem Seated.rehost (h : Seated mode sid session) {host : UserId}
    {members : List SessionMember} (hdistinct : (userIds members).Nodup)
    (hroom : members.length ≤ capacity mode) : Seated mode sid (session.rehost host members) where
  id := h.id
  distinct := hdistinct
  room := by
    have hmax : (session.rehost host members).maxPlayers = capacity mode := h.maxPlayers
    rw [hmax]
    exact hroom
  mode := h.mode

end Updates

/-! ## the protocol -/

/-- Every stored room is furnished, and of the mode it has always had. -/
def Furniture (mode : SessionId → GameMode) (w : World) : Prop :=
  ∀ sid session, w.sessions sid = some session → Seated (mode sid) sid session

/-- A flow adds the user of its join under the room's own limit, writes back
lists that fit, and never turns the status back. -/
def Proper (mode : SessionId → GameMode) (req : Request) : Op → Prop
  | .addMember sid member maxMembers =>
      maxMembers = capacity (mode sid) ∧ req.Joins member.userId
  | .setHost sid _ members => (userIds members).Nodup ∧ members.length ≤ capacity (mode sid)
  | .setStatus _ status _ => status ≠ .waiting
  | _ => True

theorem Furniture.exec {mode : SessionId → GameMode} {req : Request} {i : FlowId} {w w' : World}
    {op : Op} {r : op.Ans} (h : Furniture mode w) (hproper : Proper mode req op)
    (hexec : exec i w op r w') : Furniture mode w' := by
  intro sid session hsession
  have htouched := exec_touched hexec sid
  rw [hsession] at htouched
  generalize hdoc : w.sessions sid = doc at htouched
  cases htouched with
  | kept => exact h sid session hdoc
  | added hadmits => exact (h sid _ hdoc).push (hproper.1 ▸ hadmits)
  | removed => exact (h sid _ hdoc).pull _
  | rehosted => exact (h sid _ hdoc).rehost hproper.1 hproper.2
  | restatused _ =>
      have hseated := h sid _ hdoc
      exact ⟨⟨hseated.id, hseated.distinct, hseated.room⟩, hseated.mode⟩

/-- Every flow keeps to `Proper`, and so the rooms stay furnished. -/
def seating (mode : SessionId → GameMode) (requests : FlowId → Request) : Protocol exec where
  inv := Furniture mode
  guar i _ op := Proper mode (requests i) op
  rely _ _ _ := True
  rely_refl _ _ := trivial
  rely_trans _ _ _ _ _ _ := trivial
  keeps _ _ _ _ _ hinv hproper hexec := hinv.exec hproper hexec
  spares _ _ _ _ _ _ _ _ _ _ := trivial

section Flows

variable {mode : SessionId → GameMode} {requests : FlowId → Request} {i : FlowId} {w : World}
  {userId : UserId} {sid : SessionId}

/-- The flow keeps to `Proper` from `w` on. -/
abbrev Behaves (mode : SessionId → GameMode) (requests : FlowId → Request) (i : FlowId)
    (c : Flow Outcome) (w : World) : Prop :=
  (seating mode requests).Holds i (fun _ _ => True) c w

theorem behaves_done (o : Outcome) : Behaves mode requests i (.done o) w := fun _ _ _ => trivial

theorem behaves_ask {op : Op} {k : op.Ans → Flow Outcome} (hop : Proper mode (requests i) op)
    (hk : ∀ w' r w'', Furniture mode w' → exec i w' op r w'' → Behaves mode requests i (k r) w'') :
    Behaves mode requests i (Co.await op >>= k) w :=
  fun w' hinv _ => ⟨hop, fun r w'' hexec => hk w' r w'' hinv hexec⟩

theorem joinSession_behaves {session : Session} (h : Seated (mode session.id) session.id session)
    (hjoins : (requests i).Joins userId) :
    Behaves mode requests i (joinSession session userId) w := by
  unfold joinSession
  repeat' split
  · exact behaves_done _
  · exact behaves_done _
  · exact behaves_done _
  · refine behaves_ask trivial fun _ user w₁ _ hexec => ?_
    cases user with
    | none => exact behaves_done _
    | some user =>
        obtain rfl := hexec.1 user rfl
        refine behaves_ask trivial fun _ joinedAt w₂ _ _ => ?_
        refine behaves_ask ⟨h.maxPlayers, hjoins⟩ fun _ updated w₃ _ _ => ?_
        cases updated with
        | some updated => exact behaves_done _
        | none =>
            refine behaves_ask trivial fun _ current w₄ _ _ => ?_
            cases current with
            | none => exact behaves_done _
            | some current =>
                simp only [refuseJoin]
                repeat' split
                all_goals exact behaves_done _

theorem join_behaves (hjoins : (requests i).Joins userId) :
    Behaves mode requests i (join sid userId) w := by
  refine behaves_ask trivial fun w' found w'' hinv hexec => ?_
  obtain ⟨rfl, rfl⟩ := hexec
  cases hfound : w''.sessions sid with
  | none => exact behaves_done _
  | some session =>
      have hseated := hinv sid session hfound
      exact joinSession_behaves (hseated.id.symm ▸ hseated) hjoins

theorem joinByCode_behaves {normalize : String → String} {code : String}
    (hjoins : (requests i).Joins userId) :
    Behaves mode requests i (joinByCode normalize code userId) w := by
  refine behaves_ask trivial fun w' found w'' hinv hexec => ?_
  obtain ⟨rfl, hfound⟩ := hexec
  cases found with
  | none => exact behaves_done _
  | some session => exact joinSession_behaves (hinv _ _ hfound.1) hjoins

/-- The list that is written back is that of a furnished room. -/
theorem handOver_behaves {heir : UserId} {updated : Session} :
    Behaves mode requests i (handOver sid heir updated) w := by
  refine behaves_ask trivial fun w' found w'' hinv hexec => ?_
  obtain ⟨rfl, rfl⟩ := hexec
  cases hfound : w''.sessions sid with
  | none => exact behaves_done _
  | some session =>
      have hseated := hinv sid session hfound
      have hproper : Proper mode (requests i)
          (.setHost sid heir (promote heir session.members)) := by
        constructor
        · rw [userIds_promote]
          exact hseated.distinct
        · rw [promote, List.length_map, ← hseated.maxPlayers]
          exact hseated.room
      exact behaves_ask hproper fun _ _ _ _ _ => behaves_done _

theorem leave_behaves : Behaves mode requests i (leave sid userId) w := by
  refine behaves_ask trivial fun _ found w₁ _ _ => ?_
  cases found with
  | none => exact behaves_done _
  | some session =>
      simp only [leaveFound]
      split
      · refine behaves_ask trivial fun _ updated w₂ _ _ => ?_
        cases updated with
        | none => exact behaves_done _
        | some updated =>
            simp only [leaveRemoved]
            cases hheir : earliest updated.members with
            | none => exact behaves_ask trivial fun _ _ _ _ _ => behaves_done _
            | some heir =>
                simp only
                split
                · exact handOver_behaves
                · exact behaves_done _
      · exact behaves_done _

theorem kick_behaves {host target : UserId} : Behaves mode requests i (kick sid host target) w := by
  refine behaves_ask trivial fun _ found w₁ _ _ => ?_
  cases found with
  | none => exact behaves_done _
  | some session =>
      simp only [kickFound]
      repeat' split
      · exact behaves_done _
      · exact behaves_done _
      · exact behaves_done _
      · exact behaves_done _
      · refine behaves_ask trivial fun _ updated w₂ _ _ => ?_
        cases updated <;> exact behaves_done _

theorem start_behaves {host : UserId} : Behaves mode requests i (start sid host) w := by
  refine behaves_ask trivial fun _ found w₁ _ _ => ?_
  cases found with
  | none => exact behaves_done _
  | some session =>
      simp only [startFound]
      repeat' split
      · exact behaves_done _
      · exact behaves_done _
      · refine behaves_ask (by simp [Proper]) fun _ updated w₂ _ _ => ?_
        cases updated <;> exact behaves_done _

theorem cleanup_behaves : Behaves mode requests i (removeIfStillGone sid userId) w := by
  refine behaves_ask trivial fun _ back w₁ _ _ => ?_
  cases back with
  | true => exact behaves_done _
  | false =>
      refine behaves_ask trivial fun _ found w₂ _ _ => ?_
      cases found with
      | none => exact behaves_done _
      | some session =>
          simp only [cleanupFound]
          repeat' split
          · exact behaves_done _
          · exact behaves_done _
          · exact leave_behaves

theorem serve_behaves (normalize : String → String) (i : FlowId) :
    Behaves mode requests i (serve normalize (requests i)) w := by
  cases hreq : requests i with
  | join sid userId => exact join_behaves (.inl ⟨sid, hreq⟩)
  | joinByCode code userId => exact joinByCode_behaves (.inr ⟨code, hreq⟩)
  | leave sid userId => exact leave_behaves
  | kick sid host target => exact kick_behaves
  | start sid host => exact start_behaves
  | finish sid =>
      refine behaves_ask (by simp [Proper]) fun _ updated w₁ _ _ => ?_
      cases updated <;> exact behaves_done _
  | cleanup sid userId => exact cleanup_behaves

end Flows

/-! ## the law -/

section Law

variable {normalize : String → String} {requests : FlowId → Request} {first : World}
  {h : List Step} {p : Rooms}

theorem furniture_of_furnished
    (hfirst : ∀ sid session, first.sessions sid = some session → Furnished sid session) :
    Furniture first.modeOf first := by
  intro sid session hsession
  refine ⟨hfirst sid session hsession, ?_⟩
  rw [World.modeOf, hsession]

/-- The rooms stay furnished. -/
theorem Runs.furnished
    (hfirst : ∀ sid session, first.sessions sid = some session → Furnished sid session)
    (hrun : Runs normalize requests first h p) : Furniture first.modeOf p.world :=
  ((seating first.modeOf requests).sound (by rintro _ rfl; exact furniture_of_furnished hfirst)
    (fun _ _ _ => serve_behaves normalize _) hrun).1

/-- Every operation of a run is a proper one. -/
theorem Runs.proper
    (hfirst : ∀ sid session, first.sessions sid = some session → Furnished sid session)
    (hrun : Runs normalize requests first h p) {t : Step} (ht : t ∈ h) :
    Proper first.modeOf (requests t.label.flow) t.label.op :=
  ((seating first.modeOf requests).guaranteed (by rintro _ rfl; exact furniture_of_furnished hfirst)
    (fun _ _ _ => serve_behaves normalize _) hrun ht).2

/-- The room, if it exists, has left `waiting`. -/
def HasLeftWaiting (sid : SessionId) (p : Rooms) : Prop :=
  ∀ session, p.world.sessions sid = some session → session.status ≠ .waiting

/-- No proper operation turns the status back. -/
theorem HasLeftWaiting.touched {sid : SessionId} {p p' : Rooms} {op : Op} {req : Request}
    {mode : SessionId → GameMode} (h : HasLeftWaiting sid p) (hproper : Proper mode req op)
    (htouched : Touched sid op (p.world.sessions sid) (p'.world.sessions sid)) :
    HasLeftWaiting sid p' := by
  intro session hsession
  rw [hsession] at htouched
  generalize hdoc : p.world.sessions sid = doc at htouched
  have hbefore : ∀ s, doc = some s → s.status ≠ .waiting := fun s hs => h s (hdoc.trans hs)
  cases htouched with
  | kept => exact hbefore session rfl
  | restatused _ => exact hproper
  | added _ | removed | rehosted =>
      have hstatus := hbefore _ rfl
      exact hstatus

/-- The step adds a member to the room. -/
def Inserts (sid : SessionId) (t : Step) : Prop :=
  (∃ member maxMembers, t.label.op = .addMember sid member maxMembers) ∧
    t.after.world.sessions sid ≠ t.before.world.sessions sid

/-- A member is only added to a room that is waiting. -/
theorem Inserts.waiting {sid : SessionId} {t : Step}
    (htouched : Touched sid t.label.op (t.before.world.sessions sid) (t.after.world.sessions sid))
    (h : Inserts sid t) : ¬HasLeftWaiting sid t.before := by
  obtain ⟨⟨member, maxMembers, hop⟩, hchanged⟩ := h
  rw [hop] at htouched
  intro hleft
  generalize hdoc : t.before.world.sessions sid = doc at htouched hchanged
  generalize t.after.world.sessions sid = doc' at htouched hchanged
  cases htouched with
  | kept => exact hchanged rfl
  | added hadmits =>
      simp only [Session.admits, Bool.and_eq_true, decide_eq_true_eq] at hadmits
      exact hleft _ hdoc hadmits.1.1

/-- Whatever the interleaving of requests: no stored room ever has a user
twice or more members than its mode allows; and from any state on in which a
room has left `waiting`, no step adds a member to it. -/
theorem room_capacity
    (hfirst : ∀ sid session, first.sessions sid = some session → Furnished sid session)
    (hrun : Runs normalize requests first h p) :
    (∀ sid session, p.world.sessions sid = some session →
      (userIds session.members).Nodup ∧ session.members.length ≤ session.maxPlayers) ∧
    ∀ sid later t earlier session, h = later ++ t :: earlier →
      t.before.world.sessions sid = some session → session.status ≠ .waiting →
      ∀ t' ∈ later ++ [t], ¬Inserts sid t' := by
  constructor
  · intro sid session hsession
    have hseated := hrun.furnished hfirst sid session hsession
    exact ⟨hseated.distinct, hseated.room⟩
  · intro sid later t earlier session hsplit hsession hstatus
    have htouched : ∀ t' ∈ h, Touched sid t'.label.op (t'.before.world.sessions sid)
        (t'.after.world.sessions sid) :=
      fun t' ht' => exec_touched (hrun.step_of_mem ht').exec sid
    have hkeeps : ∀ t' ∈ h, HasLeftWaiting sid t'.before → HasLeftWaiting sid t'.after :=
      fun t' ht' hleft => hleft.touched (hrun.proper hfirst ht') (htouched t' ht')
    have hbefore : HasLeftWaiting sid t.before := by
      intro s hs
      obtain rfl := Option.some.inj (hs.symm.trans hsession)
      exact hstatus
    subst hsplit
    have hafter := hkeeps t (by simp) hbefore
    have hlater := (hrun.since (fun t' ht' => hkeeps t' (by simp [ht'])) hafter).2
    intro t' ht' hinserts
    rcases List.mem_append.mp ht' with ht' | ht'
    · exact hinserts.waiting (htouched t' (by simp [ht'])) (hlater t' ht')
    · obtain rfl := List.mem_singleton.mp ht'
      exact hinserts.waiting (htouched t' (by simp)) hbefore

/-- Two users find the last seat of a duel free; one of them gets it. -/
theorem room_capacity_last_seat :
    ∃ h p session, Runs id (requestsOf [.join 7 2, .join 7 3]) (house (roomOf .duel [1])) h p ∧
      p.world.sessions 7 = some session ∧ userIds session.members = [1, 2] ∧
      p.flow 1 = .done (.raised (.sessionFull 7)) ∧
      (userIds session.members).Nodup ∧ session.members.length ≤ session.maxPlayers := by
  obtain ⟨h, p, hrun, hcheck⟩ := runs_of_replays (roomOf .duel [1]) [.join 7 2, .join 7 3]
    [0, 1, 0, 1, 0, 1, 0, 1, 1]
    (fun _ p => decide (seats p = some [1, 2]) && ended p 1 (.raised (.sessionFull 7)))
    (by decide +kernel)
  obtain ⟨hseats, hended⟩ := Bool.and_eq_true_iff.mp hcheck
  obtain ⟨session, hsession, husers⟩ := seats_iff.mp (of_decide_eq_true hseats)
  have hroom : Furnished (roomOf .duel [1]).id (roomOf .duel [1]) := ⟨rfl, by decide, by decide⟩
  have hfirst := house_furnished hroom
  exact ⟨h, p, session, hrun, hsession, husers, ended_iff.mp hended,
    (room_capacity hfirst hrun).1 7 session hsession⟩

end Law

end Monopoly.Lobby
