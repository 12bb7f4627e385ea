import Monopoly.Engine.Apply
import Monopoly.Service.World

/-!
# Monopoly.Service.Flows

The coroutines that act on the world: a player's intent
(`application/services/game_service.py`, `gateway/handlers/game.py`), a tick
of the scheduler (`application/services/game_scheduler.py`), the end of the
game that either may bring, the publishing and receiving side of the
backplane (`gateway/backplane.py`) and a client's connection
(`gateway/router.py`).

The flows run once `start_session` has stored the game and published it: its
own message, which is for no viewer, is none of theirs.
-/

namespace Monopoly

abbrev Flow := Co Op Op.Ans

/-- `await`, of one operation. -/
abbrev ask (op : Op) : Flow op.Ans := Co.await op

structure Settings where
  goSalary : Int
  jailFine : Int

/-! ## intents -/

/-- What `apply_intent` may raise. -/
inductive Failure where
  | gameNotFound
  | notMember
  | versionConflict
  | engine (e : PyError)

def resolvePlayerId (state : GameState) (userId : UserId) : Except Failure PlayerId :=
  match state.players.find? fun p => decide (p.userId = userId) with
  | some p => .ok p.id
  | none => .error .notMember

/-- `authorize_continue`, on the game that was found. -/
def authorizeContinue (stored : Option StoredGame) (userId : UserId) : Bool :=
  match stored with
  | none => false
  | some stored =>
      if stored.state.activeCard = none then false
      else match resolvePlayerId stored.state userId with
        | .error _ => false
        | .ok playerId => decide (playerId = stored.state.turn.currentPlayerId)

/-- `_with_player_id`. -/
def GameCommand.withPlayerId (pid : PlayerId) : GameCommand → GameCommand
  | .rollDice _ => .rollDice pid
  | .buyProperty _ position => .buyProperty pid position
  | .passBuy _ => .passBuy pid
  | .endTurn _ => .endTurn pid
  | .payJailFine _ => .payJailFine pid
  | .useJailCard _ => .useJailCard pid
  | .buildHouse _ position => .buildHouse pid position
  | .sellHouse _ position => .sellHouse pid position
  | .mortgage _ position => .mortgage pid position
  | .unmortgage _ position => .unmortgage pid position
  | .proposeTrade _ target offer request => .proposeTrade pid target offer request
  | .respondTrade _ tradeId response counter => .respondTrade pid tradeId response counter
  | .placeBid _ amount => .placeBid pid amount
  | .declareBankruptcy _ => .declareBankruptcy pid
  | .surrender _ => .surrender pid
  | .advanceAuction => .advanceAuction
  | .expireTrade => .expireTrade
  | .turnTimeout => .turnTimeout

/-- The command as its sender's player gives it; a system command is left as
it is. -/
def resolveCommand (state : GameState) (userId : UserId) (command : GameCommand) :
    Except Failure GameCommand :=
  match command.player with
  | none => .ok command
  | some _ => (resolvePlayerId state userId).map (command.withPlayerId ·)

/-- What `engine.apply` is given beside the stored state and the command. -/
def applyEnv (settings : Settings) (stored : StoredGame) (clock : Clock) (tradeId : Nat) : Env where
  rng := stored.rngState
  clock := clock
  goSalary := settings.goSalary
  jailFine := settings.jailFine
  tradeId := tradeId

/-- A new state is stored if nobody stored one since `stored` was read. -/
def storeApplied (stored : StoredGame) (command : GameCommand) : Py (Handled × Rng) →
    Flow (Except Failure (StoredGame × List AnimationInstruction))
  | .error e => return .error (.engine e)
  | .ok ((newState, events), rng) => do
      let updated ← ask (.updateWithVersion stored.gameId newState stored.version rng)
      match updated with
      | none => return .error .versionConflict
      | some updated => return .ok (updated, buildTimeline command updated.state events)

/-- The command is applied to the stored game. -/
def applyCommand (settings : Settings) (stored : StoredGame) (resolved : GameCommand) :
    Flow (Except Failure (StoredGame × List AnimationInstruction)) := do
  let clock ← ask .now
  let tradeId ← ask .uuid4
  storeApplied stored resolved
    (apply stored.state resolved (applyEnv settings stored clock tradeId))

/-- The command is applied if its sender plays in the game. -/
def applyResolved (settings : Settings) (stored : StoredGame) : Except Failure GameCommand →
    Flow (Except Failure (StoredGame × List AnimationInstruction))
  | .error e => return .error e
  | .ok resolved => applyCommand settings stored resolved

/-- The body of `apply_intent` once the game was read. -/
def applyRead (settings : Settings) (userId : UserId) (command : GameCommand) :
    Option StoredGame → Flow (Except Failure (StoredGame × List AnimationInstruction))
  | none => return .error .gameNotFound
  | some stored => applyResolved settings stored (resolveCommand stored.state userId command)

def applyIntent (settings : Settings) (process : Process) (userId : UserId)
    (command : GameCommand) : Flow (Except Failure (StoredGame × List AnimationInstruction)) := do
  ask (.lock process)
  let stored ← ask .findBySessionId
  let result ← applyRead settings userId command stored
  ask (.unlock process)
  return result

/-! ## publishing -/

/-- The next number is drawn, and the message published under it. -/
def broadcast (body : Body) : Flow Unit := do
  let seq ← ask (.incr body.subject)
  ask (.publish { seq, body })

/-- `Backplane.publish`, of a message that is no game state. -/
def publish : Flow Unit := broadcast .other

def publishGameState (game : StoredGame) (timeline : List AnimationInstruction) : Flow Unit :=
  broadcast (.gameState { state := game.state, timeline, version := game.version })

/-! ## the end of the game -/

/-- `_broadcast_session_updated`, with what it raises: `_to_summary` looks at
the first member, even if it does not need them. -/
def broadcastSessionUpdated (session : Session) : Flow (Option PyError) :=
  if session.members = [] then return some .indexError
  else do
    publish
    return none

/-- The room is shown to everybody, if this flow has marked it. -/
def announceFinished : Option Session → Flow (Option PyError)
  | none => return none
  | some session => broadcastSessionUpdated session

/-- What the ratings have raised ends the flow. -/
def unlessFailed (rest : Flow (Option PyError)) : Option PyError → Flow (Option PyError)
  | some e => return some e
  | none => rest

/-- The room was marked, or had been before. -/
def rateMarked : Option Session → Flow (Option PyError)
  | none => return none
  | some session =>
      if session.ranked then do
        let failed : Option PyError ← ask .applyRatings
        unlessFailed (broadcastSessionUpdated session) failed
      else broadcastSessionUpdated session

/-- `_finish_session`, after a player's command, with what it raises. -/
def finishSession : Flow (Option PyError) := do
  let session : Option Session ← ask .markFinished
  rateMarked session

/-- The room is marked, once the ratings are applied. -/
def markRated : Flow (Option PyError) := do
  let session : Option Session ← ask .markFinished
  announceFinished session

/-- `GameScheduler._finish_session`: the other order, and every game is
rated. -/
def finishTicked : Flow (Option PyError) := do
  let failed : Option PyError ← ask .applyRatings
  unlessFailed markRated failed

/-! ## the flows -/

/-- How a flow ends. -/
inductive Outcome where
  /-- The command was applied, and the new state published. -/
  | applied (game : StoredGame) (timeline : List AnimationInstruction)
  /-- `apply_intent` raised. -/
  | refused (failure : Failure)
  /-- No timer was due. -/
  | idle
  /-- The scheduler lost the race. -/
  | overtaken
  /-- The exception was logged. -/
  | raised (e : PyError)
  /-- The timer's command was applied, and the new state published. -/
  | ticked (game : StoredGame)
  /-- The new state was stored and published, and `_finish_session` raised. -/
  | brokeOff (game : StoredGame) (e : PyError)
  /-- Every other flow. -/
  | ended

/-- How a flow with this outcome ends if `_finish_session` raises. -/
def Outcome.unless (outcome : Outcome) (game : StoredGame) : Option PyError → Outcome
  | none => outcome
  | some e => .brokeOff game e

/-- A game that is over is finished off. -/
def finishIfOver (game : StoredGame) (outcome : Outcome) (finish : Flow (Option PyError)) :
    Flow Outcome :=
  if game.state.status = .finished then do
    let failed ← finish
    return outcome.unless game failed
  else return outcome

/-- What `apply_intent` returned is published; what it raised is reported to
the sender. -/
def publishApplied :
    Except Failure (StoredGame × List AnimationInstruction) → Flow Outcome
  | .error failure => return .refused failure
  | .ok (game, timeline) => do
      publishGameState game timeline
      finishIfOver game (.applied game timeline) finishSession

/-- `_apply_and_publish`. -/
def applyAndPublish (settings : Settings) (process : Process) (userId : UserId)
    (command : GameCommand) : Flow Outcome := do
  let result ← applyIntent settings process userId command
  publishApplied result

/-- The command of the timer that is due: auction, trade or turn. -/
def dueCommand (state : GameState) (clock : Clock) : Option GameCommand :=
  if state.auction.isSome ∧ isAuctionExpired state clock.nowMs then some .advanceAuction
  else if ∃ trade ∈ state.trade, trade.expiresAt ≤ clock.now then some .expireTrade
  else if isTurnExpired state clock.nowMs then some .turnTimeout
  else none

/-- The scheduler stores and publishes what its command made of the game. -/
def storeTick (stored : StoredGame) : Py (Handled × Rng) → Flow Outcome
  | .error e => return .raised e
  | .ok ((newState, _), rng) => do
      let updated ← ask (.updateWithVersion stored.gameId newState stored.version rng)
      match updated with
      | none => return .overtaken
      | some updated => do
          publishGameState updated []
          finishIfOver updated (.ticked updated) finishTicked

/-- The timer's command is applied to the stored game. -/
def tickCommand (settings : Settings) (stored : StoredGame) (clock : Clock)
    (command : GameCommand) : Flow Outcome := do
  let tradeId ← ask .uuid4
  storeTick stored (apply stored.state command (applyEnv settings stored clock tradeId))

/-- The command of the timer that is due, if any. -/
def tickDue (settings : Settings) (stored : StoredGame) (clock : Clock) :
    Option GameCommand → Flow Outcome
  | none => return .idle
  | some command => tickCommand settings stored clock command

/-- The body of `_tick_one` once the game was read. -/
def tickRead (settings : Settings) : Option StoredGame → Flow Outcome
  | none => return .idle
  | some stored => do
      let clock ← ask .now
      tickDue settings stored clock (dueCommand stored.state clock)

/-- `_tick_one`. -/
def tickOne (settings : Settings) : Flow Outcome := do
  let stored ← ask .findBySessionId
  tickRead settings stored

/-- `Backplane.subscribe`. -/
def subscribe (node : NodeId) : Flow Unit := do
  let count : Nat ← ask (.getSubscriptions node)
  if count = 0 then ask (.redisSubscribe node)
  ask (.setSubscriptions node (count + 1))

/-- `get_active_game` and `snapshot_message`. -/
def snapshotMessage (stored : StoredGame) (userId : UserId) : Py GameFrame := do
  let state ← withActionsFor stored.state none
  buildGameStateMessage state stored.version userId [] none

/-- The snapshot is put in the queue; whether there was room is not looked
at. -/
def enqueueSnapshot (conn : ConnectionId) : Py GameFrame → Flow Outcome
  | .error e => return .raised e
  | .ok frame => do
      let _ ← ask (.enqueue conn (.gameState frame))
      return .ended

/-- The snapshot a connection starts with, if there is a game. -/
def sendSnapshot (conn : ConnectionId) (userId : UserId) : Option StoredGame → Flow Outcome
  | none => return .ended
  | some stored => enqueueSnapshot conn (snapshotMessage stored userId)

/-- The frames a connection starts with. -/
def greet (conn : ConnectionId) (userId : UserId) : Flow Outcome := do
  let seqStart : Nat ← ask .getSeq
  let _ ← ask (.enqueue conn (.welcome seqStart))
  let stored ← ask .findBySessionId
  sendSnapshot conn userId stored

/-- `ws_endpoint`, from the registration of the connection to its start. -/
def wsEndpoint (conn : ConnectionId) (node : NodeId) (userId : UserId) : Flow Outcome := do
  ask (.register conn node userId)
  subscribe node
  greet conn userId

/-- What a flow is started for. -/
inductive Request where
  | intent (process : Process) (userId : UserId) (command : GameCommand)
  | tick
  /-- Chat, a lobby update or the end of a pause. -/
  | message
  | connect (conn : ConnectionId) (node : NodeId) (userId : UserId)
  /-- One turn of a reader loop. -/
  | reader (node : NodeId)
  /-- One turn of a send loop. -/
  | sender (conn : ConnectionId)

/-- The coroutine that serves a request. -/
def serve (settings : Settings) : Request → Flow Outcome
  | .intent process userId command => applyAndPublish settings process userId command
  | .tick => tickOne settings
  | .message => do
      publish
      return .ended
  | .connect conn node userId => wsEndpoint conn node userId
  | .reader node => do
      ask (.getMessage node)
      return .ended
  | .sender conn => do
      ask (.take conn)
      return .ended

/-- The server: any number of flows, each serving its request. -/
abbrev Server := Pool FlowId World Op Op.Ans Outcome

/-- A session with this stored game, before any of the flows starts. -/
structure Opened (first : GameDocument) (w : World) : Prop where
  commits : w.commits = [⟨first, none⟩]
  drawn : ∀ v ∈ w.drawn, v = none
  channel : w.channel = []
  nodes : ∀ node, (w.nodes node).received = [] ∧
    ((w.nodes node).cursor = none ∨ (w.nodes node).cursor = some 0)
  subscribed : ∀ node, (w.nodes node).subscriptions ≠ 0 → (w.nodes node).cursor = some 0
  connections : ∀ conn, w.connections conn = none

/-- `Served settings requests first h p`: the flows serve these requests on
the session with this game, and have come to `p`. -/
abbrev Served (settings : Settings) (requests : FlowId → Request) (first : GameDocument) :=
  Pool.Runs exec (Opened first) (fun i => serve settings (requests i))

end Monopoly
