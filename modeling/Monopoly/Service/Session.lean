import Monopoly.Game.Modes
import Monopoly.Game.State

/-!
# Monopoly.Service.Session

The room a game is played in (`domain/session/schemas.py`), with what the
updates of its document do (`infra/mongo/sessions/repository.py`).

A room is a record in the database.  An update is one `find_one_and_update`:
a filter, which is a test of the record here (`Session.admits` and the like),
and a change of fields (`Session.push`, `Session.pull`, `Session.rehost`,
`Session.withStatus`).  That a filter and its change are one step is what the
rules about rooms rest on; a read and a later update are two.
-/

namespace Monopoly

/-- The id of a room, new for every room. -/
abbrev SessionId := Nat

/-- A room waits for its members, has a game, or has had one. -/
inductive SessionStatus where
  | waiting
  | inProgress
  | finished
  deriving DecidableEq, Repr

/-- Whether the room is listed. -/
inductive SessionVisibility where
  | publicRoom
  | privateRoom
  deriving DecidableEq, Repr

/-- One member is the host. -/
inductive MemberRole where
  | host
  | player
  deriving DecidableEq, Repr

/-- `SessionMember`, stored as it is (`SessionMemberDocument`). -/
structure SessionMember where
  userId : UserId
  displayName : String
  role : MemberRole
  joinedAt : Int
  rating : Int := 800
  calibrationComplete : Bool := false
  deriving DecidableEq, Repr

/-- The record of a room. -/
structure Session where
  id : SessionId
  inviteCode : String
  hostUserId : UserId
  status : SessionStatus
  visibility : SessionVisibility
  gameMode : GameMode := .normal
  ranked : Bool := true
  members : List SessionMember
  deriving DecidableEq, Repr

/-! ## reading a session -/

/-- The users in a list of members. -/
def userIds (members : List SessionMember) : List UserId := members.map (·.userId)

/-- Whether the user is in the room. -/
def Session.hasMember (session : Session) (userId : UserId) : Bool :=
  session.members.any fun member => decide (member.userId = userId)

/-- How many are in the room. -/
def Session.memberCount (session : Session) : Nat := session.members.length

/-- How many the mode allows. -/
def Session.maxPlayers (session : Session) : Nat := (getGameConfig session.gameMode).maxPlayers

/-- Whether the mode allows nobody else. -/
def Session.isFull (session : Session) : Bool :=
  decide (session.maxPlayers ≤ session.memberCount)

/-- The first member record of the user. -/
def Session.getMember (session : Session) (userId : UserId) : Option SessionMember :=
  session.members.find? fun member => decide (member.userId = userId)

/-- A user who is not in the room is no host. -/
def Session.isHost (session : Session) (userId : UserId) : Bool :=
  match session.getMember userId with
  | some member => decide (member.role = .host)
  | none => false

/-- Being in the room is being among the users of its members. -/
@[simp] theorem Session.hasMember_iff {session : Session} {userId : UserId} :
    session.hasMember userId = true ↔ userId ∈ userIds session.members := by
  simp [Session.hasMember, userIds]

/-- Every member has one user. -/
@[simp] theorem Session.length_userIds (session : Session) :
    (userIds session.members).length = session.memberCount := by
  simp [userIds, Session.memberCount]

/-! ## updating a session -/

/-- The filter of `add_member`. -/
def Session.admits (session : Session) (userId : UserId) (maxMembers : Nat) : Bool :=
  decide (session.status = .waiting) && !session.hasMember userId &&
    decide (session.members.length < maxMembers)

/-- `$push` of a member. -/
def Session.push (session : Session) (member : SessionMember) : Session :=
  { session with members := session.members ++ [member] }

/-- `$pull` of the members of a user. -/
def Session.pull (session : Session) (userId : UserId) : Session :=
  { session with members := session.members.filter fun m => !decide (m.userId = userId) }

/-- `$set` of the host and the members. -/
def Session.rehost (session : Session) (hostUserId : UserId) (members : List SessionMember) :
    Session :=
  { session with hostUserId, members }

/-- `$set` of the status. -/
def Session.withStatus (session : Session) (status : SessionStatus) : Session :=
  { session with status }

/-- The members as `update_host_and_member_role` rebuilds them: what it does
not name falls back to its default. -/
def promote (newHostUserId : UserId) (members : List SessionMember) : List SessionMember :=
  members.map fun m =>
    if m.userId = newHostUserId then
      { userId := m.userId, displayName := m.displayName, role := .host, joinedAt := m.joinedAt }
    else if m.role = .host then
      { userId := m.userId, displayName := m.displayName, role := .player, joinedAt := m.joinedAt }
    else
      { userId := m.userId, displayName := m.displayName, role := m.role, joinedAt := m.joinedAt }

/-- `min(members, key=joined_at)`, if there are any. -/
def earliest (members : List SessionMember) : Option SessionMember :=
  pyMinBy (·.joinedAt) members

/-- A push puts one user at the end. -/
@[simp] theorem userIds_push (session : Session) (member : SessionMember) :
    userIds (session.push member).members = userIds session.members ++ [member.userId] := by
  simp [userIds, Session.push]

/-- A pull takes out every record of one user. -/
@[simp] theorem userIds_pull (session : Session) (userId : UserId) :
    userIds (session.pull userId).members =
      (userIds session.members).filter fun id => !decide (id = userId) := by
  simp only [userIds, Session.pull, List.filter_map, Function.comp_def]

/-- A new host is a matter of roles. -/
@[simp] theorem userIds_promote (newHostUserId : UserId) (members : List SessionMember) :
    userIds (promote newHostUserId members) = userIds members := by
  simp only [userIds, promote, List.map_map]
  refine List.map_congr_left fun m _ => ?_
  simp only [Function.comp_apply]
  split
  · rfl
  · split <;> rfl

end Monopoly
