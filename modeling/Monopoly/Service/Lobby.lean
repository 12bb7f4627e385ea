import Monopoly.Lib.Coroutine
import Monopoly.Service.Session

/-!
# Monopoly.Service.Lobby

The rooms in Mongo and the coroutines that act on them: the reads and the
atomic updates of `infra/mongo/sessions/repository.py`, the requests of
`application/services/session_service.py`, and the cleanup after a
disconnect of `gateway/router.py`.
-/

namespace Monopoly.Lobby

abbrev FlowId := Nat

/-- What a user's record shows in a room. -/
structure User where
  id : UserId
  displayName : String
  rating : Int
  calibrationComplete : Bool
  deriving DecidableEq, Repr

/-! ## the collection -/

/-- `db.sessions`, by `_id`. -/
structure World where
  sessions : SessionId → Option Session

inductive Op where
  | findById (sessionId : SessionId)
  | findByInviteCode (inviteCode : String)
  | delete (sessionId : SessionId)
  | addMember (sessionId : SessionId) (member : SessionMember) (maxMembers : Nat)
  | removeMember (sessionId : SessionId) (userId : UserId)
  /-- The update of `update_host_and_member_role`. -/
  | setHost (sessionId : SessionId) (newHostUserId : UserId) (members : List SessionMember)
  | setStatus (sessionId : SessionId) (status : SessionStatus)
      (expectedStatus : Option SessionStatus)
  /-- `UserRepository.find_by_id`. -/
  | findUser (userId : UserId)
  | now
  /-- Whether the user has a connection to this node. -/
  | connected (sessionId : SessionId) (userId : UserId)
  deriving DecidableEq

abbrev Op.Ans : Op → Type
  | .delete _ | .connected .. => Bool
  | .findUser _ => Option User
  | .now => Int
  | _ => Option Session

def World.store (w : World) (sessionId : SessionId) (session : Option Session) : World where
  sessions := Function.update w.sessions sessionId session

/-- `find_one_and_update`, of the document with this `_id` if it passes the
filter; the answer is the document after the update. -/
def World.findOneAndUpdate (w : World) (sessionId : SessionId) (filter : Session → Bool)
    (update : Session → Session) : Option Session × World :=
  match w.sessions sessionId with
  | none => (none, w)
  | some session =>
      if filter session then (some (update session), w.store sessionId (some (update session)))
      else (none, w)

/-- `set_status` looks at the status when it is told to. -/
def Session.expects (session : Session) (expectedStatus : Option SessionStatus) : Bool :=
  match expectedStatus with
  | some status => decide (session.status = status)
  | none => true

/-- What the operation may answer and leave.  The users' records and the
connections are not of this world: about them every answer is possible. -/
def exec (_ : FlowId) (w : World) : (op : Op) → op.Ans → World → Prop
  | .findById sessionId, found, w' => found = w.sessions sessionId ∧ w' = w
  | .findByInviteCode inviteCode, found, w' =>
      w' = w ∧ match found with
        | some session => w.sessions session.id = some session ∧ session.inviteCode = inviteCode
        | none => ∀ sessionId session, w.sessions sessionId = some session →
            session.inviteCode ≠ inviteCode
  | .delete sessionId, deleted, w' =>
      deleted = (w.sessions sessionId).isSome ∧ w' = w.store sessionId none
  | .addMember sessionId member maxMembers, updated, w' =>
      (updated, w') = w.findOneAndUpdate sessionId (·.admits member.userId maxMembers)
        (·.push member)
  | .removeMember sessionId userId, updated, w' =>
      (updated, w') = w.findOneAndUpdate sessionId (fun _ => true) (·.pull userId)
  | .setHost sessionId newHostUserId members, updated, w' =>
      (updated, w') = w.findOneAndUpdate sessionId (fun _ => true) (·.rehost newHostUserId members)
  | .setStatus sessionId status expectedStatus, updated, w' =>
      (updated, w') = w.findOneAndUpdate sessionId (Session.expects · expectedStatus)
        (·.withStatus status)
  | .findUser userId, found, w' => (∀ user ∈ found, user.id = userId) ∧ w' = w
  | .now, _, w' => w' = w
  | .connected .., _, w' => w' = w

/-! ## the service -/

/-- The room that `create` inserts. -/
def createdSession (id : SessionId) (inviteCode : String) (user : User) (now : Int)
    (visibility : SessionVisibility) (ranked : Bool) (gameMode : GameMode) : Session where
  id := id
  inviteCode := inviteCode
  hostUserId := user.id
  status := .waiting
  visibility := visibility
  gameMode := gameMode
  ranked := ranked
  members := [{ userId := user.id, displayName := user.displayName, role := .host, joinedAt := now
                rating := user.rating, calibrationComplete := user.calibrationComplete }]

inductive SessionError where
  | sessionNotFound
  | userNotFound
  | notMember (sessionId : SessionId) (userId : UserId)
  | forbiddenHostAction
  | cannotKickSelf
  | sessionFull (sessionId : SessionId)
  | sessionNotJoinable (sessionId : SessionId) (status : SessionStatus)
  deriving DecidableEq, Repr

/-- How a request ends. -/
inductive Outcome where
  | returned (session : Session)
  /-- `None`: the room was deleted, the game is not in progress, or there was
  nothing to clean up. -/
  | returnedNone
  | raised (error : SessionError)
  deriving DecidableEq, Repr

abbrev Flow := Co Op Op.Ans

/-- `await`, of one operation. -/
abbrev ask (op : Op) : Flow op.Ans := Co.await op

/-- The room was read again, since the update did not take place. -/
def refuseJoin (sessionId : SessionId) (userId : UserId) : Option Session → Flow Outcome
  | none => return .raised .sessionNotFound
  | some current =>
      if current.hasMember userId then return .returned current
      else if current.status ≠ .waiting then
        return .raised (.sessionNotJoinable sessionId current.status)
      else if current.isFull then return .raised (.sessionFull sessionId)
      else return .raised (.sessionNotJoinable sessionId current.status)

/-- What `add_member` answered. -/
def joinAdded (sessionId : SessionId) (userId : UserId) : Option Session → Flow Outcome
  | some updated => return .returned updated
  | none => do
      let current ← ask (.findById sessionId)
      refuseJoin sessionId userId current

/-- The user's record was read. -/
def joinAs (session : Session) (userId : UserId) : Option User → Flow Outcome
  | none => return .raised .userNotFound
  | some user => do
      let joinedAt : Int ← ask .now
      let member : SessionMember :=
        { userId := user.id, displayName := user.displayName, role := .player, joinedAt
          rating := user.rating, calibrationComplete := user.calibrationComplete }
      let updated ← ask (.addMember session.id member session.maxPlayers)
      joinAdded session.id userId updated

/-- `_join_session`. -/
def joinSession (session : Session) (userId : UserId) : Flow Outcome :=
  if session.hasMember userId then return .returned session
  else if session.status ≠ .waiting then
    return .raised (.sessionNotJoinable session.id session.status)
  else if session.isFull then return .raised (.sessionFull session.id)
  else do
    let user ← ask (.findUser userId)
    joinAs session userId user

/-- The room was read, for a join. -/
def joinFound (userId : UserId) : Option Session → Flow Outcome
  | none => return .raised .sessionNotFound
  | some session => joinSession session userId

def join (sessionId : SessionId) (userId : UserId) : Flow Outcome := do
  let session ← ask (.findById sessionId)
  joinFound userId session

/-- `normalize` is `normalize_invite_code`. -/
def joinByCode (normalize : String → String) (inviteCode : String) (userId : UserId) :
    Flow Outcome := do
  let session ← ask (.findByInviteCode (normalize inviteCode))
  joinFound userId session

/-- The room was read again, to hand it over to the heir. -/
def handOverFound (sessionId : SessionId) (heir : UserId) (updated : Session) :
    Option Session → Flow Outcome
  | none => return .returned updated
  | some session => do
      let rehosted ← ask (.setHost sessionId heir (promote heir session.members))
      return .returned (rehosted.getD updated)

/-- `update_host_and_member_role`, and what `leave` returns after it. -/
def handOver (sessionId : SessionId) (heir : UserId) (updated : Session) : Flow Outcome := do
  let session ← ask (.findById sessionId)
  handOverFound sessionId heir updated session

/-- The room is empty. -/
def deleteRoom (sessionId : SessionId) : Flow Outcome := do
  let _ ← ask (.delete sessionId)
  return .returnedNone

/-- What `remove_member` answered, to a leave. -/
def leaveRemoved (sessionId : SessionId) (userId : UserId) : Option Session → Flow Outcome
  | none => return .raised .sessionNotFound
  | some updated =>
      match earliest updated.members with
      | none => deleteRoom sessionId
      | some newHost =>
          if updated.hostUserId = userId then handOver sessionId newHost.userId updated
          else return .returned updated

/-- The room was read, for a leave. -/
def leaveFound (sessionId : SessionId) (userId : UserId) : Option Session → Flow Outcome
  | none => return .raised .sessionNotFound
  | some session =>
      if session.hasMember userId then do
        let updated ← ask (.removeMember sessionId userId)
        leaveRemoved sessionId userId updated
      else return .raised (.notMember sessionId userId)

def leave (sessionId : SessionId) (userId : UserId) : Flow Outcome := do
  let session ← ask (.findById sessionId)
  leaveFound sessionId userId session

/-- What `remove_member` answered, to a kick. -/
def kickRemoved : Option Session → Flow Outcome
  | none => return .raised .sessionNotFound
  | some updated => return .returned updated

/-- The room was read, for a kick. -/
def kickFound (sessionId : SessionId) (hostUserId targetUserId : UserId) :
    Option Session → Flow Outcome
  | none => return .raised .sessionNotFound
  | some session =>
      if !session.isHost hostUserId then return .raised .forbiddenHostAction
      else if hostUserId = targetUserId then return .raised .cannotKickSelf
      else if !session.hasMember targetUserId then
        return .raised (.notMember sessionId targetUserId)
      else if session.status ≠ .waiting then
        return .raised (.sessionNotJoinable sessionId session.status)
      else do
        let updated ← ask (.removeMember sessionId targetUserId)
        kickRemoved updated

def kick (sessionId : SessionId) (hostUserId targetUserId : UserId) : Flow Outcome := do
  let session ← ask (.findById sessionId)
  kickFound sessionId hostUserId targetUserId session

/-- What `set_status` answered, to a start. -/
def startUpdated (sessionId : SessionId) (session : Session) : Option Session → Flow Outcome
  | none => return .raised (.sessionNotJoinable sessionId session.status)
  | some updated => return .returned updated

/-- The room was read, for a start. -/
def startFound (sessionId : SessionId) (hostUserId : UserId) : Option Session → Flow Outcome
  | none => return .raised .sessionNotFound
  | some session =>
      if !session.isHost hostUserId then return .raised .forbiddenHostAction
      else if session.status ≠ .waiting then
        return .raised (.sessionNotJoinable sessionId session.status)
      else do
        let updated ← ask (.setStatus sessionId .inProgress (some .waiting))
        startUpdated sessionId session updated

def start (sessionId : SessionId) (hostUserId : UserId) : Flow Outcome := do
  let session ← ask (.findById sessionId)
  startFound sessionId hostUserId session

def markFinished (sessionId : SessionId) : Flow Outcome := do
  let updated ← ask (.setStatus sessionId .finished (some .inProgress))
  match updated with
  | none => return .returnedNone
  | some session => return .returned session

/-- The room was read, for a cleanup (`assert_member`). -/
def cleanupFound (sessionId : SessionId) (userId : UserId) : Option Session → Flow Outcome
  | none => return .returnedNone
  | some session =>
      if !session.hasMember userId then return .returnedNone
      else if session.status ≠ .waiting then return .returnedNone
      else leave sessionId userId

/-- The cleanup of a user who has come back or not. -/
def cleanupGone (sessionId : SessionId) (userId : UserId) : Bool → Flow Outcome
  | true => return .returnedNone
  | false => do
      let session ← ask (.findById sessionId)
      cleanupFound sessionId userId session

/-- `_remove_if_still_gone`. -/
def removeIfStillGone (sessionId : SessionId) (userId : UserId) : Flow Outcome := do
  let back ← ask (.connected sessionId userId)
  cleanupGone sessionId userId back

/-! ## requests -/

inductive Request where
  | join (sessionId : SessionId) (userId : UserId)
  | joinByCode (inviteCode : String) (userId : UserId)
  | leave (sessionId : SessionId) (userId : UserId)
  | kick (sessionId : SessionId) (hostUserId targetUserId : UserId)
  | start (sessionId : SessionId) (hostUserId : UserId)
  | finish (sessionId : SessionId)
  | cleanup (sessionId : SessionId) (userId : UserId)

/-- The coroutine that serves a request. -/
def serve (normalize : String → String) : Request → Flow Outcome
  | .join sessionId userId => join sessionId userId
  | .joinByCode inviteCode userId => joinByCode normalize inviteCode userId
  | .leave sessionId userId => leave sessionId userId
  | .kick sessionId hostUserId targetUserId => kick sessionId hostUserId targetUserId
  | .start sessionId hostUserId => start sessionId hostUserId
  | .finish sessionId => markFinished sessionId
  | .cleanup sessionId userId => removeIfStillGone sessionId userId

/-- The rooms, and any number of flows that serve their requests on them. -/
abbrev Rooms := Pool FlowId World Op Op.Ans Outcome

/-- One step of the rooms. -/
abbrev Step := Taken Rooms (Event FlowId Op Op.Ans)

end Monopoly.Lobby
