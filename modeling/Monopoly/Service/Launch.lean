import Monopoly.Engine.Setup
import Monopoly.Service.Rooms
import Monopoly.Service.World

/-!
# Monopoly.Service.Launch

From a room to its game: `create` of `application/services/session_service.py`,
`start_session` of `api/sessions/router.py` and `start_game` of
`application/services/game_service.py`, beside all the other requests on the
rooms.
-/

namespace Monopoly.Launch

/-- The document of a game, with its session. -/
structure Game where
  sessionId : SessionId
  document : GameDocument

inductive Message where
  | sessionUpdated (session : Session)
  | gameState (state : GameState)

/-- A flow has turned a room from waiting to in progress; the room as it was
then. -/
structure Start where
  flow : FlowId
  sessionId : SessionId
  session : Session

/-- `db.sessions`, with the ids of all rooms that were inserted, and
`db.games`, as they were inserted; which rooms were started, and what the
starts published. -/
structure World where
  rooms : Lobby.World
  inserted : List SessionId
  games : List Game
  started : List Start
  published : List (SessionId × Message)

inductive Op where
  | lobby (op : Lobby.Op)
  | uuid4
  /-- `generate_invite_code`. -/
  | generateInviteCode
  | insertSession (session : Session)
  | findGame (sessionId : SessionId)
  /-- `random.Random(seed)`, of a random seed. -/
  | seed
  | clock
  /-- `UserRepository.find_by_ids`. -/
  | findUsers (userIds : List UserId)
  /-- The ids `new_game` is going to draw. -/
  | playerIds
  | insertGame (game : Game)
  | publish (sessionId : SessionId) (msg : Message)

/-- An insert answers whether there was no `DuplicateKeyError`. -/
abbrev Op.Ans : Op → Type
  | .lobby op => op.Ans
  | .uuid4 => Nat
  | .generateInviteCode => String
  | .insertSession _ | .insertGame _ => Bool
  | .findGame _ => Option GameState
  | .seed => Rng
  | .clock => Clock
  | .findUsers _ => UserId → Option Lobby.User
  | .playerIds => Nat → PlayerId
  | .publish .. => Unit

def inviteCodePrefix : String := "TYC-"

def inviteCodeSuffixLength : Nat := 4

def inviteCodeAlphabet : String := "ABCDEFGHIJKLMNOPQRSTUVWXYZ0123456789"

/-- What `generate_invite_code` may return. -/
def InviteCode (code : String) : Prop :=
  ∃ suffix : List Char, suffix.length = inviteCodeSuffixLength ∧
    (∀ c ∈ suffix, c ∈ inviteCodeAlphabet.toList) ∧
    code = inviteCodePrefix ++ String.ofList suffix

/-- The indexes on `_id` and on `invite_code` have an entry already. -/
def World.TakenRoom (w : World) (session : Session) : Prop :=
  ∃ sid ∈ w.inserted, ∃ s ∈ w.rooms.sessions sid,
    sid = session.id ∨ s.inviteCode = session.inviteCode

instance (w : World) (session : Session) : Decidable (w.TakenRoom session) :=
  inferInstanceAs (Decidable (∃ sid ∈ w.inserted, ∃ s ∈ w.rooms.sessions sid, _))

/-- The indexes on `_id` and on `session_id` have an entry already. -/
def World.TakenGame (w : World) (game : Game) : Prop :=
  ∃ g ∈ w.games, g.document.id = game.document.id ∨ g.sessionId = game.sessionId

instance (w : World) (game : Game) : Decidable (w.TakenGame game) :=
  inferInstanceAs (Decidable (∃ g ∈ w.games, _))

/-- The starts, after this flow had its operation answered. -/
def World.startedBy (w : World) (flow : FlowId) : (op : Lobby.Op) → op.Ans → List Start
  | .setStatus sessionId .inProgress _, some session => ⟨flow, sessionId, session⟩ :: w.started
  | _, _ => w.started

/-- The room is stored. -/
def World.insertRoom (w : World) (session : Session) : World :=
  { w with
    rooms := w.rooms.store session.id (some session)
    inserted := session.id :: w.inserted }

/-- What the operation may answer and leave.  Games go on after they were
inserted: a read tells whether there is one, and shows any state. -/
def exec (flow : FlowId) (w : World) : (op : Op) → op.Ans → World → Prop
  | .lobby op, r, w' =>
      ∃ rooms, Lobby.exec flow w.rooms op r rooms ∧
        w' = { w with rooms, started := w.startedBy flow op r }
  | .generateInviteCode, code, w' => InviteCode code ∧ w' = w
  | .insertSession session, inserted, w' =>
      if w.TakenRoom session then inserted = false ∧ w' = w
      else inserted = true ∧ w' = w.insertRoom session
  | .findGame sessionId, found, w' =>
      (found = none ↔ ∀ g ∈ w.games, g.sessionId ≠ sessionId) ∧ w' = w
  | .findUsers userIds, found, w' =>
      (∀ userId user, found userId = some user → user.id = userId ∧ userId ∈ userIds) ∧ w' = w
  | .playerIds, ids, w' => Function.Injective ids ∧ w' = w
  | .insertGame game, inserted, w' =>
      if w.TakenGame game then inserted = false ∧ w' = w
      else inserted = true ∧ w' = { w with games := game :: w.games }
  | .publish sessionId msg, _, w' => w' = { w with published := (sessionId, msg) :: w.published }
  | .uuid4, _, w' | .seed, _, w' | .clock, _, w' => w' = w

/-- How a request ends. -/
inductive Outcome where
  /-- As the service of the rooms has it. -/
  | answered (outcome : Lobby.Outcome)
  | created (session : Session)
  /-- `NotFoundError`. -/
  | userNotFound
  /-- `RuntimeError`: every code that was tried was taken. -/
  | outOfCodes
  /-- The game was there already, or was inserted. -/
  | launched (session : Session) (existing : Bool)
  | duplicateGame
  | raised (e : PyError)
  deriving DecidableEq

abbrev Flow := Co Op Op.Ans

/-- `await`, of one operation. -/
abbrev ask (op : Op) : Flow op.Ans := Co.await op

/-- A coroutine on the rooms. -/
abbrev onRooms {α : Type} (c : Lobby.Flow α) : Flow α := c.lift Op.lobby fun _ r => r

/-! ## creating a room -/

/-- `SESSION_INVITE_CODE_MAX_RETRIES`. -/
def sessionInviteCodeMaxRetries : Nat := 5

/-- What the caller asks for in a new room. -/
structure NewRoom where
  visibility : SessionVisibility
  ranked : Bool
  gameMode : GameMode

/-- The loop of `create`, with so many attempts left. -/
def insertRoom (user : Lobby.User) (now : Int) (room : NewRoom) : Nat → Flow Outcome
  | 0 => return .outOfCodes
  | attempts + 1 => do
      let inviteCode : String ← ask .generateInviteCode
      let id : Nat ← ask .uuid4
      let session := Lobby.createdSession id inviteCode user now room.visibility room.ranked
        room.gameMode
      let inserted : Bool ← ask (.insertSession session)
      if inserted then return .created session
      else insertRoom user now room attempts

/-- The user's record was read. -/
def createAs (room : NewRoom) : Option Lobby.User → Flow Outcome
  | none => return .userNotFound
  | some user => do
      let now : Int ← ask (.lobby .now)
      insertRoom user now room sessionInviteCodeMaxRetries

def create (userId : UserId) (room : NewRoom) : Flow Outcome := do
  let user ← ask (.lobby (.findUser userId))
  createAs room user

/-! ## starting a game -/

/-- `INITIAL_RATING`. -/
def initialRating : Int := 800

/-- The members of the game, with the ratings of the users that were found. -/
def gameMembers (session : Session) (ratings : UserId → Option Lobby.User) : List GameMember :=
  session.members.map fun m =>
    { userId := m.userId, displayName := m.displayName
      rating := ((ratings m.userId).map (·.rating)).getD initialRating }

/-- How `start_game` ends. -/
inductive StartGame where
  | existing (state : GameState)
  | inserted (state : GameState)
  | duplicateKey
  | raised (e : PyError)

/-- `new_game` and `with_actions`. -/
def openGame (uuid4 : Nat → PlayerId) (args : NewGame) : Py (GameState × Rng) := do
  let (state, rng) ← newGame uuid4 args
  let state ← withActions state
  return (state, rng)

/-- `insert`, of the game that was set up. -/
def storeGame (session : Session) (gameId : Nat) : Py (GameState × Rng) → Flow StartGame
  | .error e => return .raised e
  | .ok (state, rngState) => do
      let inserted : Bool ←
        ask (.insertGame ⟨session.id, { id := gameId, rngState, version := 0, state }⟩)
      if inserted then return .inserted state
      else return .duplicateKey

/-- There is no game yet. -/
def setUpGame (startingBalance : Int) (session : Session) : Flow StartGame := do
  let gameId : Nat ← ask .uuid4
  let rng : Rng ← ask .seed
  let clock : Clock ← ask .clock
  let ratings : UserId → Option Lobby.User ← ask (.findUsers (userIds session.members))
  let uuid4 : Nat → PlayerId ← ask .playerIds
  storeGame session gameId (openGame uuid4
    { gameId, sessionCode := session.inviteCode, members := gameMembers session ratings, rng, clock
      startingBalance, gameMode := session.gameMode })

/-- The games were searched for one of this session. -/
def startFoundGame (startingBalance : Int) (session : Session) : Option GameState → Flow StartGame
  | none => setUpGame startingBalance session
  | some state => return match withActions state with
      | .error e => .raised e
      | .ok state => .existing state

def startGame (startingBalance : Int) (session : Session) : Flow StartGame := do
  let existing ← ask (.findGame session.id)
  startFoundGame startingBalance session existing

/-- `_to_detail`, which wants a first member in case there is no host. -/
def toDetail (session : Session) : Py Session := do
  let _ ← pyGet session.members 0
  return session

/-- `snapshot_message`, for nobody in particular. -/
def snapshotMessage (state : GameState) : Py GameState := do
  let snapshot ← withActions state
  return withoutDecks snapshot

/-- The game is shown to the room, and the request is answered. -/
def announce (sessionId : SessionId) (session : Session) (existing : Bool) (state : GameState) :
    Flow Outcome :=
  match snapshotMessage state with
  | .error e => return .raised e
  | .ok frame => do
      ask (.publish sessionId (.gameState frame))
      return .launched session existing

/-- The game was started, or not. -/
def startedGame (sessionId : SessionId) (session : Session) : StartGame → Flow Outcome
  | .existing state => announce sessionId session true state
  | .inserted state => announce sessionId session false state
  | .duplicateKey => return .duplicateGame
  | .raised e => return .raised e

/-- The room was started, or not. -/
def startedRoom (startingBalance : Int) (sessionId : SessionId) : Lobby.Outcome → Flow Outcome
  | .returned session =>
      match toDetail session with
      | .error e => return .raised e
      | .ok detail => do
          ask (.publish session.id (.sessionUpdated detail))
          let game ← startGame startingBalance session
          startedGame sessionId session game
  | outcome => return .answered outcome

def startSession (startingBalance : Int) (sessionId : SessionId) (userId : UserId) :
    Flow Outcome := do
  let started ← onRooms (Lobby.start sessionId userId)
  startedRoom startingBalance sessionId started

/-! ## requests -/

inductive Request where
  | create (userId : UserId) (room : NewRoom)
  | lobby (req : Lobby.Request)

/-- `Settings.game_starting_balance`, and `normalize_invite_code`. -/
structure Config where
  startingBalance : Int
  normalize : String → String

/-- The coroutine that serves a request.  What the other requests on the
rooms publish is left out. -/
def serve (config : Config) : Request → Flow Outcome
  | .create userId room => create userId room
  | .lobby (.start sessionId userId) => startSession config.startingBalance sessionId userId
  | .lobby req => do
      let outcome ← onRooms (Lobby.serve config.normalize req)
      return .answered outcome

/-- An empty database. -/
def empty : World := ⟨⟨fun _ => none⟩, [], [], [], []⟩

/-- Any number of flows that serve their requests. -/
abbrev Lobbies := Pool FlowId World Op Op.Ans Outcome

abbrev Step := Taken Lobbies (Event FlowId Op Op.Ans)

/-- `Runs config requests h p`: from an empty database on, the flows serve
these requests, and have come to `p`. -/
abbrev Runs (config : Config) (requests : FlowId → Request) :=
  Pool.Runs exec (· = empty) fun i => serve config (requests i)

/-! ## replays -/

/-- Users exist, the hint is the time or an id, and it settles which of two
codes is generated. -/
def perform : Performer FlowId World Op Nat Op.Ans
  | i, hint, w, .lobby op => (Lobby.perform i hint w.rooms op).map fun r =>
      (r.1, { w with rooms := r.2, started := w.startedBy i op r.1 })
  | _, hint, w, .uuid4 => some (hint, w)
  | _, hint, w, .generateInviteCode => some (if hint = 0 then "TYC-AAAA" else "TYC-BBBB", w)
  | _, _, w, .insertSession session =>
      some (if w.TakenRoom session then (false, w) else (true, w.insertRoom session))
  | _, _, w, .findGame sid =>
      some ((w.games.find? fun g => decide (g.sessionId = sid)).map (·.document.state), w)
  | _, _, w, .seed => some (⟨[]⟩, w)
  | _, hint, w, .clock => some (⟨hint, hint⟩, w)
  | _, _, w, .findUsers _ => some (fun _ => none, w)
  | _, _, w, .playerIds => some ((· + 1), w)
  | _, _, w, .insertGame game =>
      some (if w.TakenGame game then (false, w) else (true, { w with games := game :: w.games }))
  | _, _, w, .publish sid msg => some ((), { w with published := (sid, msg) :: w.published })

theorem perform_exec (i : FlowId) (hint : Nat) (w : World) (op : Op) (r : op.Ans) (w' : World)
    (h : perform i hint w op = some (r, w')) : exec i w op r w' := by
  cases op with
  | lobby op =>
      obtain ⟨⟨r', rooms⟩, hrooms, heq⟩ := Option.map_eq_some_iff.mp h
      obtain ⟨rfl, rfl⟩ := Prod.mk.inj heq
      exact ⟨rooms, Lobby.perform_exec i hint w.rooms op _ rooms hrooms, rfl⟩
  | generateInviteCode =>
      obtain ⟨rfl, rfl⟩ := Prod.mk.inj (Option.some.inj h)
      refine ⟨?_, rfl⟩
      split
      · exact ⟨['A', 'A', 'A', 'A'], rfl, by simp [inviteCodeAlphabet], by decide⟩
      · exact ⟨['B', 'B', 'B', 'B'], rfl, by simp [inviteCodeAlphabet], by decide⟩
  | insertSession session =>
      have hanswer := Option.some.inj h
      simp only [exec]
      split at hanswer <;> rename_i htaken
      · rw [if_pos htaken]
        exact ⟨(Prod.mk.inj hanswer).1.symm, (Prod.mk.inj hanswer).2.symm⟩
      · rw [if_neg htaken]
        exact ⟨(Prod.mk.inj hanswer).1.symm, (Prod.mk.inj hanswer).2.symm⟩
  | insertGame game =>
      have hanswer := Option.some.inj h
      simp only [exec]
      split at hanswer <;> rename_i htaken
      · rw [if_pos htaken]
        exact ⟨(Prod.mk.inj hanswer).1.symm, (Prod.mk.inj hanswer).2.symm⟩
      · rw [if_neg htaken]
        exact ⟨(Prod.mk.inj hanswer).1.symm, (Prod.mk.inj hanswer).2.symm⟩
  | findGame sid =>
      obtain ⟨rfl, rfl⟩ := Prod.mk.inj (Option.some.inj h)
      exact ⟨by simp, rfl⟩
  | findUsers users =>
      obtain ⟨rfl, rfl⟩ := Prod.mk.inj (Option.some.inj h)
      exact ⟨by simp, rfl⟩
  | playerIds =>
      obtain ⟨rfl, rfl⟩ := Prod.mk.inj (Option.some.inj h)
      exact ⟨fun _ _ heq => Nat.add_right_cancel heq, rfl⟩
  | publish sid msg => exact (Prod.mk.inj (Option.some.inj h)).2.symm
  | uuid4 => exact (Prod.mk.inj (Option.some.inj h)).2.symm
  | seed => exact (Prod.mk.inj (Option.some.inj h)).2.symm
  | clock => exact (Prod.mk.inj (Option.some.inj h)).2.symm

theorem runs_of_replays (requests : FlowId → Request) (turns : List (FlowId × Nat))
    (check : List Step → Lobbies → Bool)
    (hreplays : Pool.Replays perform ⟨empty, fun i => serve ⟨1500, id⟩ (requests i)⟩ turns check =
      true) :
    ∃ h p, Runs ⟨1500, id⟩ requests h p ∧ check h p = true :=
  Pool.runs_of_replays perform_exec rfl rfl hreplays

end Monopoly.Launch
