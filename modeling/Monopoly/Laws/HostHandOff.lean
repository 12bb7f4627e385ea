import Monopoly.Laws.RoomHost

/-!
# Monopoly.Laws.HostHandOff

What a room is when its host has left it.  The earliest member becomes the
host; what the rebuilt members do not name falls back to its default, so the
rest is kept exactly where it was the default.
-/

namespace Monopoly.Lobby

/-- A member, the role left out. -/
def apartFromRole (member : SessionMember) : SessionMember := { member with role := .player }

/-- The members that remain are as they were, but for the role: the earliest
of them is the host, whom the room names, and the only one. -/
structure HandedOver (members : List SessionMember) (after : Session) : Prop where
  kept : after.members.map apartFromRole = members.map apartFromRole
  heir : ∃ heir, hosts after.members = [heir] ∧ after.hostUserId = heir.userId ∧
    ∀ m ∈ members, heir.joinedAt ≤ m.joinedAt

section Heirs

variable {members : List SessionMember} {heir : SessionMember}

/-- The rebuilt members lose what they have beyond the defaults. -/
theorem promote_keeps_iff (heir : UserId) (members : List SessionMember) :
    (promote heir members).map apartFromRole = members.map apartFromRole ↔
      ∀ m ∈ members, m.rating = 800 ∧ m.calibrationComplete = false := by
  rw [promote, List.map_map, List.map_inj_left]
  refine forall_congr' fun m => imp_congr_right fun _ => ?_
  have hrebuilt : apartFromRole (if m.userId = heir then
        { userId := m.userId, displayName := m.displayName, role := .host, joinedAt := m.joinedAt }
      else if m.role = .host then
        { userId := m.userId, displayName := m.displayName, role := .player,
          joinedAt := m.joinedAt }
      else
        { userId := m.userId, displayName := m.displayName, role := m.role,
          joinedAt := m.joinedAt }) =
      { apartFromRole m with rating := 800, calibrationComplete := false } := by
    split
    · rfl
    · split <;> rfl
  rw [Function.comp_apply, hrebuilt]
  constructor
  · intro h
    have hrating := congrArg SessionMember.rating h
    have hcalibrated := congrArg SessionMember.calibrationComplete h
    exact ⟨hrating.symm, hcalibrated.symm⟩
  · rintro ⟨hrating, hcalibrated⟩
    simp only [apartFromRole, ← hrating, ← hcalibrated]

/-- A rebuilt member joined when they did. -/
theorem joinedAt_of_mem_promote {m : SessionMember} {user : UserId}
    (hm : m ∈ promote user members) :
    ∃ m₀ ∈ members, m₀.userId = m.userId ∧ m₀.joinedAt = m.joinedAt := by
  obtain ⟨m₀, hm₀, rfl⟩ := List.mem_map.mp hm
  refine ⟨m₀, hm₀, ?_⟩
  split
  · exact ⟨rfl, rfl⟩
  · split <;> exact ⟨rfl, rfl⟩

/-- The room after the hand-over, whatever its members were. -/
theorem handedOver_iff {session : Session} (hdistinct : (userIds members).Nodup)
    (hheir : earliest members = some heir) :
    HandedOver members (session.rehost heir.userId (promote heir.userId members)) ↔
      ∀ m ∈ members, m.rating = 800 ∧ m.calibrationComplete = false := by
  obtain ⟨hmem, hfirst⟩ := pyMinBy_spec hheir
  refine ⟨fun h => (promote_keeps_iff _ _).mp h.kept, fun h => ⟨(promote_keeps_iff _ _).mpr h, ?_⟩⟩
  obtain ⟨host, hhosts, hhost⟩ := HostedBy.promote hdistinct (List.mem_map_of_mem hmem)
  obtain ⟨m₀, hm₀, hid, hjoined⟩ :=
    joinedAt_of_mem_promote (List.mem_of_mem_filter (hhosts ▸ List.mem_singleton_self host))
  obtain rfl : m₀ = heir := List.inj_on_of_nodup_map hdistinct hm₀ hmem (hid.trans hhost)
  exact ⟨host, hhosts, hhost.symm, fun m hm => hjoined ▸ hfirst m hm⟩

end Heirs

/-! ## the law -/

section Law

variable {normalize : String → String} {requests : FlowId → Request} {first w w' : World}
  {h : List Step} {p : Rooms} {i : FlowId} {sid : SessionId} {userId : UserId}
  {session : Session} {heir : SessionMember} {outcome : Outcome}

/-- The room as it is handed over to `heir`. -/
def handedTo (heir : UserId) (session : Session) (userId : UserId) : Session :=
  (session.pull userId).rehost heir (promote heir (session.pull userId).members)

/-- A host who leaves alone, with members behind. -/
theorem leave_alone (hsession : w.sessions sid = some session)
    (hmember : userId ∈ userIds session.members) (hhost : session.hostUserId = userId)
    (hheir : earliest (session.pull userId).members = some heir)
    (halone : (leave sid userId).Alone exec i w outcome w') :
    outcome = .returned (handedTo heir.userId session userId) ∧
      w'.sessions sid = some (handedTo heir.userId session userId) := by
  obtain ⟨found, w₁, ⟨rfl, rfl⟩, halone⟩ := Co.alone_await.mp halone
  simp only [hsession, leaveFound, Session.hasMember_iff.mpr hmember, if_true] at halone
  obtain ⟨updated, w₂, hremoved, halone⟩ := Co.alone_await.mp halone
  obtain ⟨rfl, hw₂⟩ := exec_removeMember hremoved
  have hstill : (session.pull userId).hostUserId = userId := hhost
  simp only [hsession, Option.map_some, leaveRemoved, hheir, hstill, if_true] at hw₂ halone
  obtain ⟨found, w₃, ⟨rfl, rfl⟩, halone⟩ := Co.alone_await.mp halone
  simp only [hw₂, handOverFound] at halone
  obtain ⟨rehosted, w₄, hset, halone⟩ := Co.alone_await.mp halone
  rcases findOneAndUpdate_cases hset with ⟨s, hs, -, rfl, rfl⟩ | ⟨-, -, hnone⟩
  · obtain rfl : session.pull userId = s := Option.some.inj (hw₂.symm.trans hs)
    obtain ⟨rfl, rfl⟩ := halone
    exact ⟨rfl, store_self ..⟩
  · exact absurd (hnone _ hw₂) (by simp)

/-- A host who leaves with nobody in between leaves the room as it should be
exactly if every other member has the rating and the calibration of a new
user. -/
theorem host_hand_off_iff (hsession : first.sessions sid = some session)
    (hdistinct : (userIds session.members).Nodup) (hmember : userId ∈ userIds session.members)
    (hhost : session.hostUserId = userId) (hremains : (session.pull userId).members ≠ [])
    (hrun : Runs normalize requests first h p) (hleaves : requests i = .leave sid userId)
    (halone : ∀ t ∈ h, t.label.flow = i) (hdone : p.flow i = .done outcome) :
    (∃ after, outcome = .returned after ∧ p.world.sessions sid = some after ∧
      HandedOver (session.pull userId).members after) ↔
      ∀ m ∈ (session.pull userId).members, m.rating = 800 ∧ m.calibrationComplete = false := by
  obtain ⟨w, rfl, hflow⟩ := Pool.Runs.alone hrun halone hdone
  rw [hleaves] at hflow
  cases hheir : earliest (session.pull userId).members with
  | none => exact absurd (pyMinBy_eq_none.mp hheir) hremains
  | some heir =>
      obtain ⟨rfl, hafter⟩ := leave_alone hsession hmember hhost hheir hflow
      have hdistinct' : (userIds (session.pull userId).members).Nodup := by
        rw [userIds_pull]
        exact hdistinct.filter _
      have hiff : HandedOver (session.pull userId).members ((session.pull userId).rehost
          heir.userId (promote heir.userId (session.pull userId).members)) ↔ _ :=
        handedOver_iff hdistinct' hheir
      rw [← hiff]
      constructor
      · rintro ⟨after, hreturned, -, hover⟩
        obtain rfl := Outcome.returned.inj hreturned
        exact hover
      · exact fun hover => ⟨_, rfl, hafter, hover⟩

/-- The host of a room of new users leaves. -/
theorem host_hand_off_new : ∃ h p after, Runs id (requestsOf [.leave 7 1])
      (house (roomOf .normal [1, 2, 3])) h p ∧ p.flow 0 = .done (.returned after) ∧
      after.hostUserId = 2 ∧ HandedOver ((roomOf .normal [1, 2, 3]).pull 1).members after := by
  obtain ⟨h, p, hrun, hcheck⟩ := runs_of_replays (roomOf .normal [1, 2, 3]) [.leave 7 1]
    [0, 0, 0, 0] (fun h p => h.all (fun t => decide (t.label.flow = 0)) &&
      ended p 0 (.returned (handedTo 2 (roomOf .normal [1, 2, 3]) 1))) (by decide +kernel)
  obtain ⟨honly, hended⟩ := Bool.and_eq_true_iff.mp hcheck
  have hdone := ended_iff.mp hended
  have hroom : (house (roomOf .normal [1, 2, 3])).sessions 7 = some (roomOf .normal [1, 2, 3]) :=
    rfl
  have halone : ∀ t ∈ h, t.label.flow = 0 := fun t ht =>
    of_decide_eq_true (List.all_eq_true.mp honly t ht)
  obtain ⟨after, hafter, -, hover⟩ := (host_hand_off_iff hroom (by decide)
    (show 1 ∈ _ by decide) rfl (by decide) hrun rfl halone hdone).mpr (by decide)
  obtain rfl := Outcome.returned.inj hafter
  exact ⟨h, p, _, hrun, hdone, rfl, hover⟩

/-- A room of two users who have played before, the second rated 1200. -/
def ratedRoom : Session :=
  { roomOf .normal [] with
    hostUserId := 1
    members := [⟨1, "", .host, 0, 900, true⟩, ⟨2, "", .player, 1, 1200, true⟩] }

/-- The host leaves, and the other member's record is that of a new user. -/
theorem host_hand_off_resets : ∃ h p after, Runs id (requestsOf [.leave 7 1])
      (house ratedRoom) h p ∧ (∀ t ∈ h, t.label.flow = 0) ∧
      p.flow 0 = .done (.returned after) ∧ p.world.sessions 7 = some after ∧
      after.members = [⟨2, "", .host, 1, 800, false⟩] ∧
      ¬HandedOver (ratedRoom.pull 1).members after := by
  obtain ⟨h, p, hrun, hcheck⟩ := runs_of_replays ratedRoom [.leave 7 1] [0, 0, 0, 0]
    (fun h p => h.all (fun t => decide (t.label.flow = 0)) &&
      ended p 0 (.returned (handedTo 2 ratedRoom 1)) &&
      decide (p.world.sessions 7 = some (handedTo 2 ratedRoom 1))) (by decide +kernel)
  simp only [Bool.and_eq_true] at hcheck
  obtain ⟨⟨honly, hended⟩, hstored⟩ := hcheck
  refine ⟨h, p, _, hrun, fun t ht => of_decide_eq_true (List.all_eq_true.mp honly t ht),
    ended_iff.mp hended, of_decide_eq_true hstored, by decide, fun hover => ?_⟩
  exact absurd hover.kept (by decide)

end Law

end Monopoly.Lobby
