import Mathlib.Logic.Function.Basic
import Monopoly.Game.Animation
import Monopoly.Game.Rng
import Monopoly.Lib.Coroutine
import Monopoly.Rules.Actions
import Monopoly.Service.Session

/-!
# Monopoly.Service.World

What the processes of the server share for one session, and the operations
they await: the game's document in Mongo (`infra/mongo/games`), the `seq`
counter and the channel in Redis (`gateway/backplane.py`), the session lock
of each process, and the connections of each node (`gateway/manager.py`,
`gateway/connection.py`, `gateway/backpressure.py`).
-/

namespace Monopoly

abbrev Process := Nat
abbrev FlowId := Nat
abbrev NodeId := Nat
abbrev ConnectionId := Nat

/-! ## the stored game -/

/-- `GameDocument`.  The state and the generator's state are stored
verbatim: `model_dump` and `getstate` lose nothing that `model_validate` and
`setstate` would need. -/
structure GameDocument where
  id : Nat
  rngState : Rng
  version : Nat
  state : GameState

structure StoredGame where
  gameId : Nat
  rngState : Rng
  version : Nat
  state : GameState
  deriving DecidableEq

/-- `to_domain`, on a document that was read. -/
def GameDocument.toDomain (doc : GameDocument) : StoredGame where
  gameId := doc.id
  rngState := doc.rngState
  version := doc.version
  state := doc.state

/-- A document that was stored, with the flow that stored it: none for the
first one. -/
structure Commit where
  document : GameDocument
  writer : Option FlowId

/-! ## messages -/

/-- A game state on the channel.  The version is not on the wire: it is that
of the document the state was returned from. -/
structure GameBroadcast where
  state : GameState
  timeline : List AnimationInstruction
  version : Nat

inductive Body where
  | gameState (broadcast : GameBroadcast)
  | other

structure Envelope where
  seq : Nat
  body : Body

/-- The version a message is about, if it carries a game state. -/
def Body.subject : Body → Option Nat
  | .gameState b => some b.version
  | .other => none

/-- A `game.state` frame for one viewer.  A snapshot has no `seq`; the
version is not on the wire. -/
structure GameFrame where
  seq : Option Nat
  viewerId : Option PlayerId
  state : GameState
  timeline : List AnimationInstruction
  version : Nat

inductive Frame where
  | welcome (seqStart : Nat)
  | gameState (frame : GameFrame)
  | other

/-- `_SERVER_ONLY_FIELDS` are taken out of the payload. -/
def withoutDecks (state : GameState) : GameState :=
  { state with chanceDeck := [], chestDeck := [] }

/-- The player of a user, if any. -/
def viewerOf (state : GameState) (userId : UserId) : Option PlayerId :=
  (state.players.find? fun p => decide (p.userId = userId)).map (·.id)

/-- `with_actions`, for a viewer. -/
def withActionsFor (state : GameState) (viewer : Option PlayerId) : Py GameState := do
  let actions ← computeActions state (viewer.getD state.turn.currentPlayerId)
  return { state with turn := { state.turn with actionsAvailable := actions } }

def buildGameStateMessage (state : GameState) (version : Nat) (userId : UserId)
    (timeline : List AnimationInstruction) (seq : Option Nat) : Py GameFrame := do
  let viewerId := viewerOf state userId
  let snapshot ← withActionsFor state viewerId
  return { seq, viewerId, state := withoutDecks snapshot, timeline, version }

/-! ## connections -/

/-- `WS_SEND_QUEUE_MAX_SIZE`. -/
def wsSendQueueMaxSize : Nat := 256

/-- `Connection` with its `SendQueue`: `queue` holds every frame that was
ever put, the oldest first, of which the send loop has taken `sent`. -/
structure Connection where
  node : NodeId
  userId : UserId
  queue : List Frame := []
  sent : Nat := 0
  closing : Bool := false

/-- The queue is not full. -/
def Connection.HasRoom (conn : Connection) : Prop :=
  conn.queue.length - conn.sent < wsSendQueueMaxSize

instance (conn : Connection) : Decidable conn.HasRoom := Nat.decLt _ _

/-- `conn.enqueue(frame)`. -/
def Connection.enqueue (conn : Connection) (frame : Frame) : Bool × Connection :=
  if conn.HasRoom then
    (true, { conn with queue := conn.queue ++ [frame] })
  else (false, conn)

/-- `_enqueue_or_close`. -/
def Connection.enqueueOrClose (conn : Connection) (frame : Frame) : Connection :=
  let (ok, conn) := conn.enqueue frame
  if ok then conn else { conn with closing := true }

/-- `_dispatch_to_local` for one connection; a frame that cannot be rendered
is skipped. -/
def Connection.dispatch (conn : Connection) (msg : Envelope) : Connection :=
  match msg.body with
  | .other => conn.enqueueOrClose .other
  | .gameState b =>
      match buildGameStateMessage b.state b.version conn.userId b.timeline (some msg.seq) with
      | .error _ => conn
      | .ok frame => conn.enqueueOrClose (.gameState frame)

/-! ## the world -/

/-- One backplane: its refcount, the index of the channel's next message for
it (if Redis has it subscribed), and what its reader loop has been given. -/
structure Node where
  subscriptions : Nat := 0
  cursor : Option Nat := none
  received : List Envelope := []

structure World where
  /-- Every document stored so far, the current one first. -/
  commits : List Commit
  /-- The holder of each process's session lock. -/
  locks : Process → Option FlowId
  /-- One entry for each `INCR` so far: the version it numbers, if any. -/
  drawn : List (Option Nat)
  /-- What has been published, in that order. -/
  channel : List Envelope
  nodes : NodeId → Node
  /-- The registered connections. -/
  connections : ConnectionId → Option Connection

/-- The current document. -/
def World.current (w : World) : Option GameDocument := w.commits.head?.map (·.document)

/-! ## operations -/

inductive Op where
  /-- `async with _lock_for(session_id)`, entered and left. -/
  | lock (process : Process)
  | unlock (process : Process)
  /-- `datetime.now(UTC)`. -/
  | now
  | uuid4
  | findBySessionId
  | updateWithVersion (gameId : Nat) (state : GameState) (expectedVersion : Nat) (rngState : Rng)
  /-- `INCR seq:{session_id}`; the version tells what the number is for. -/
  | incr (version : Option Nat)
  | publish (msg : Envelope)
  | getSeq
  | getSubscriptions (node : NodeId)
  | setSubscriptions (node : NodeId) (count : Nat)
  /-- `SUBSCRIBE session:{session_id}`. -/
  | redisSubscribe (node : NodeId)
  | register (conn : ConnectionId) (node : NodeId) (userId : UserId)
  | enqueue (conn : ConnectionId) (frame : Frame)
  /-- One message for the reader loop, dispatched to the local connections. -/
  | getMessage (node : NodeId)
  /-- The send loop takes a frame from the queue. -/
  | take (conn : ConnectionId)
  /-- `SessionService.mark_finished`, on the record of the room. -/
  | markFinished
  /-- `RatingService.apply_for_finished_game`; the answer is what it raises, if
  anything. -/
  | applyRatings

abbrev Op.Ans : Op → Type
  | .now => Clock
  | .uuid4 | .incr _ | .getSeq | .getSubscriptions _ => Nat
  | .findBySessionId | .updateWithVersion .. => Option StoredGame
  | .enqueue .. => Bool
  | .markFinished => Option Session
  | .applyRatings => Option PyError
  | _ => Unit

/-- `find_one_and_update` with the filter `{_id, version}`. -/
def World.updateWithVersion (w : World) (flow : FlowId) (gameId : Nat) (state : GameState)
    (expectedVersion : Nat) (rngState : Rng) : Option StoredGame × World :=
  match w.current with
  | none => (none, w)
  | some doc =>
      if doc.id = gameId ∧ doc.version = expectedVersion then
        let doc := { doc with state, rngState, version := doc.version + 1 }
        (some doc.toDomain, { w with commits := ⟨doc, some flow⟩ :: w.commits })
      else (none, w)

def World.updateNode (w : World) (node : NodeId) (f : Node → Node) : World :=
  { w with nodes := Function.update w.nodes node (f (w.nodes node)) }

/-- The node's reader loop is given `msg`. -/
def World.dispatch (w : World) (node : NodeId) (next : Nat) (msg : Envelope) : World :=
  { w.updateNode node fun n => { n with cursor := some (next + 1), received := n.received ++ [msg] }
    with connections := fun id => (w.connections id).map fun conn =>
      if conn.node = node then conn.dispatch msg else conn }

/-- What the operation may answer and leave.  A read returns some document
that was stored, or none.  The rooms and the ratings are not of this world:
about them every answer is possible.  Everything else is determined. -/
def exec (flow : FlowId) (w : World) : (op : Op) → op.Ans → World → Prop
  | .lock process, _, w' =>
      w.locks process = none ∧
        w' = { w with locks := Function.update w.locks process (some flow) }
  | .unlock process, _, w' => w' = { w with locks := Function.update w.locks process none }
  | .now, _, w' => w' = w
  | .uuid4, _, w' => w' = w
  | .findBySessionId, found, w' =>
      w' = w ∧ (found = none ∨ ∃ c ∈ w.commits, found = some c.document.toDomain)
  | .updateWithVersion gameId state expectedVersion rngState, updated, w' =>
      (updated, w') = w.updateWithVersion flow gameId state expectedVersion rngState
  | .incr version, seq, w' =>
      seq = w.drawn.length + 1 ∧ w' = { w with drawn := w.drawn ++ [version] }
  | .publish msg, _, w' => w' = { w with channel := w.channel ++ [msg] }
  | .getSeq, seq, w' => seq = w.drawn.length ∧ w' = w
  | .getSubscriptions node, count, w' => count = (w.nodes node).subscriptions ∧ w' = w
  | .setSubscriptions node count, _, w' =>
      w' = w.updateNode node fun n => { n with subscriptions := count }
  | .redisSubscribe node, _, w' =>
      w' = w.updateNode node fun n => { n with cursor := some (n.cursor.getD w.channel.length) }
  | .register conn node userId, _, w' =>
      w' = { w with connections := Function.update w.connections conn (some { node, userId }) }
  | .enqueue id frame, ok, w' =>
      ∃ conn, w.connections id = some conn ∧ ok = (conn.enqueue frame).1 ∧
        w' = { w with
          connections := Function.update w.connections id (some (conn.enqueue frame).2) }
  | .getMessage node, _, w' =>
      ∃ next msg, (w.nodes node).cursor = some next ∧ w.channel[next]? = some msg ∧
        w' = w.dispatch node next msg
  | .take id, _, w' =>
      ∃ conn, w.connections id = some conn ∧ conn.sent < conn.queue.length ∧
        w' = { w with
          connections := Function.update w.connections id
            (some { conn with sent := conn.sent + 1 }) }
  | .markFinished, updated, w' => (∀ session ∈ updated, session.status = .finished) ∧ w' = w
  | .applyRatings, _, w' => w' = w

end Monopoly
