import Monopoly.Service.Flows

/-!
# Monopoly.Service.Effects

What one operation can do to each part of the world.
-/

namespace Monopoly

section Exec

variable {i j : FlowId} {w w' : World} {op : Op} {r : op.Ans}

/-- The operations that leave the documents, the numbers and the channel
alone. -/
def Op.Free : Op → Prop
  | .updateWithVersion .. | .incr _ | .publish _ => False
  | _ => True

/-- The operations that touch the order of broadcasts: the write of a game, the
counter, and the channel. -/
theorem Op.free_or (op : Op) : op.Free ∨
    (∃ gameId state version rng, op = .updateWithVersion gameId state version rng) ∨
    (∃ version, op = .incr version) ∨ ∃ msg, op = .publish msg := by
  cases op with
  | updateWithVersion gameId state version rng => exact .inr (.inl ⟨_, _, _, _, rfl⟩)
  | incr version => exact .inr (.inr (.inl ⟨_, rfl⟩))
  | publish msg => exact .inr (.inr (.inr ⟨_, rfl⟩))
  | _ => exact .inl trivial

/-- All the others leave commits, numbers and channel alone. -/
theorem exec_free (hop : op.Free) (h : exec i w op r w') :
    w'.commits = w.commits ∧ w'.drawn = w.drawn ∧ w'.channel = w.channel := by
  cases op with
  | updateWithVersion => exact hop.elim
  | incr => exact hop.elim
  | publish => exact hop.elim
  | lock => obtain ⟨-, rfl⟩ := h; exact ⟨rfl, rfl, rfl⟩
  | unlock => cases h; exact ⟨rfl, rfl, rfl⟩
  | now => cases h; exact ⟨rfl, rfl, rfl⟩
  | uuid4 => cases h; exact ⟨rfl, rfl, rfl⟩
  | findBySessionId => obtain ⟨rfl, -⟩ := h; exact ⟨rfl, rfl, rfl⟩
  | getSeq => obtain ⟨-, rfl⟩ := h; exact ⟨rfl, rfl, rfl⟩
  | getSubscriptions => obtain ⟨-, rfl⟩ := h; exact ⟨rfl, rfl, rfl⟩
  | setSubscriptions => cases h; exact ⟨rfl, rfl, rfl⟩
  | redisSubscribe => cases h; exact ⟨rfl, rfl, rfl⟩
  | register => cases h; exact ⟨rfl, rfl, rfl⟩
  | enqueue => obtain ⟨-, -, -, rfl⟩ := h; exact ⟨rfl, rfl, rfl⟩
  | getMessage => obtain ⟨-, -, -, -, rfl⟩ := h; exact ⟨rfl, rfl, rfl⟩
  | take => obtain ⟨-, -, -, rfl⟩ := h; exact ⟨rfl, rfl, rfl⟩
  | markFinished => obtain ⟨-, rfl⟩ := h; exact ⟨rfl, rfl, rfl⟩
  | applyRatings => cases h; exact ⟨rfl, rfl, rfl⟩

/-- A write takes effect on the current document, or not at all. -/
theorem exec_update {gameId : Nat} {state : GameState} {version : Nat} {rng : Rng}
    {updated : Option StoredGame}
    (h : exec i w (.updateWithVersion gameId state version rng) updated w') :
    (updated = none ∧ w' = w) ∨
    ∃ doc, w.current = some doc ∧ doc.id = gameId ∧ doc.version = version ∧
      updated = some { gameId := doc.id, rngState := rng, version := version + 1, state } ∧
      w' = { w with commits :=
        ⟨{ doc with state, rngState := rng, version := version + 1 }, some i⟩ :: w.commits } := by
  simp only [exec, World.updateWithVersion] at h
  cases hcurrent : w.current with
  | none =>
      simp only [hcurrent] at h
      exact .inl (Prod.mk.inj h)
  | some doc =>
      simp only [hcurrent] at h
      by_cases hmatch : doc.id = gameId ∧ doc.version = version
      · simp only [if_pos hmatch] at h
        obtain ⟨hid, rfl⟩ := hmatch
        obtain ⟨hupdated, hw'⟩ := Prod.mk.inj h
        exact .inr ⟨doc, rfl, hid, rfl, hupdated, hw'⟩
      · simp only [if_neg hmatch] at h
        exact .inl (Prod.mk.inj h)

/-- Every step leaves the commits, or adds one of its own flow's. -/
theorem exec_commits (h : exec i w op r w') :
    w'.commits = w.commits ∨ ∃ doc, w'.commits = ⟨doc, some i⟩ :: w.commits := by
  rcases op.free_or with hop | ⟨_, _, _, _, rfl⟩ | ⟨_, rfl⟩ | ⟨_, rfl⟩
  · exact .inl (exec_free hop h).1
  · rcases exec_update h with ⟨-, rfl⟩ | ⟨doc, -, -, -, -, rfl⟩
    · exact .inl rfl
    · exact .inr ⟨_, rfl⟩
  · obtain ⟨-, rfl⟩ := h
    exact .inl rfl
  · cases h
    exact .inl rfl

/-- Every step leaves the channel, or publishes one message on it. -/
theorem exec_channel (h : exec i w op r w') :
    w'.channel = w.channel ∨ ∃ msg, op = .publish msg ∧ w'.channel = w.channel ++ [msg] := by
  rcases op.free_or with hop | ⟨_, _, _, _, rfl⟩ | ⟨_, rfl⟩ | ⟨msg, rfl⟩
  · exact .inl (exec_free hop h).2.2
  · rcases exec_update h with ⟨-, rfl⟩ | ⟨doc, -, -, -, -, rfl⟩
    · exact .inl rfl
    · exact .inl rfl
  · obtain ⟨-, rfl⟩ := h
    exact .inl rfl
  · cases h
    exact .inr ⟨msg, rfl, rfl⟩

/-- Every step leaves the numbers, or draws the next one. -/
theorem exec_drawn (h : exec i w op r w') :
    w'.drawn = w.drawn ∨ ∃ version, op = .incr version ∧ w'.drawn = w.drawn ++ [version] := by
  rcases op.free_or with hop | ⟨_, _, _, _, rfl⟩ | ⟨version, rfl⟩ | ⟨_, rfl⟩
  · exact .inl (exec_free hop h).2.1
  · rcases exec_update h with ⟨-, rfl⟩ | ⟨doc, -, -, -, -, rfl⟩
    · exact .inl rfl
    · exact .inl rfl
  · obtain ⟨-, rfl⟩ := h
    exact .inr ⟨version, rfl, rfl⟩
  · cases h
    exact .inl rfl

theorem updateNode_nodes (node n : NodeId) (f : Node → Node) :
    (w.updateNode n f).nodes node = if node = n then f (w.nodes node) else w.nodes node := by
  simp only [World.updateNode, Function.update_apply]
  split
  · subst_vars; rfl
  · rfl

/-- What a step may do to a node: change its refcount, subscribe it, or give
its reader loop the next message. -/
inductive NodeStep (w : World) (op : Op) (node : NodeId) : Node → Prop
  | same : NodeStep w op node (w.nodes node)
  | counted (count : Nat) : NodeStep w op node { w.nodes node with subscriptions := count }
  | subscribed (hop : op = .redisSubscribe node) : NodeStep w op node
      { w.nodes node with cursor := some ((w.nodes node).cursor.getD w.channel.length) }
  | given (next : Nat) (msg : Envelope) (hop : op = .getMessage node)
      (hnext : (w.nodes node).cursor = some next) (hmsg : w.channel[next]? = some msg) :
      NodeStep w op node
        { w.nodes node with
          cursor := some (next + 1), received := (w.nodes node).received ++ [msg] }

/-- What an operation can do to a node of the backplane. -/
theorem exec_nodes (h : exec i w op r w') (node : NodeId) : NodeStep w op node (w'.nodes node) := by
  cases op with
  | lock => obtain ⟨-, rfl⟩ := h; exact .same
  | unlock => cases h; exact .same
  | now => cases h; exact .same
  | uuid4 => cases h; exact .same
  | findBySessionId => obtain ⟨rfl, -⟩ := h; exact .same
  | updateWithVersion =>
      rcases exec_update h with ⟨-, rfl⟩ | ⟨doc, -, -, -, -, rfl⟩
      · exact .same
      · exact .same
  | incr => obtain ⟨-, rfl⟩ := h; exact .same
  | publish => cases h; exact .same
  | getSeq => obtain ⟨-, rfl⟩ := h; exact .same
  | getSubscriptions => obtain ⟨-, rfl⟩ := h; exact .same
  | setSubscriptions n count =>
      cases h
      rw [updateNode_nodes]
      split
      · exact .counted count
      · exact .same
  | redisSubscribe n =>
      cases h
      rw [updateNode_nodes]
      split
      · subst_vars; exact .subscribed rfl
      · exact .same
  | register => cases h; exact .same
  | enqueue => obtain ⟨-, -, -, rfl⟩ := h; exact .same
  | getMessage n =>
      obtain ⟨next, msg, hnext, hmsg, rfl⟩ := h
      simp only [World.dispatch, updateNode_nodes]
      split
      · subst_vars; exact .given next msg rfl hnext hmsg
      · exact .same
  | take => obtain ⟨-, -, -, rfl⟩ := h; exact .same
  | markFinished => obtain ⟨-, rfl⟩ := h; exact .same
  | applyRatings => cases h; exact .same

/-- What a step may do to the entry of a connection: create it, put a frame
in its queue, dispatch a message to it, or take a frame out. -/
inductive ConnectionStep (w : World) (op : Op) (id : ConnectionId) : Option Connection → Prop
  | same : ConnectionStep w op id (w.connections id)
  | registered (node : NodeId) (userId : UserId) (hop : op = .register id node userId) :
      ConnectionStep w op id (some { node, userId })
  | enqueued (frame : Frame) (conn : Connection) (hop : op = .enqueue id frame)
      (hconn : w.connections id = some conn) : ConnectionStep w op id (some (conn.enqueue frame).2)
  | dispatched (next : Nat) (msg : Envelope) (conn : Connection) (hop : op = .getMessage conn.node)
      (hnext : (w.nodes conn.node).cursor = some next) (hmsg : w.channel[next]? = some msg)
      (hconn : w.connections id = some conn) : ConnectionStep w op id (some (conn.dispatch msg))
  | taken (conn : Connection) (hop : op = .take id) (hconn : w.connections id = some conn) :
      ConnectionStep w op id (some { conn with sent := conn.sent + 1 })

/-- What an operation can do to a connection. -/
theorem exec_connections (h : exec i w op r w') (id : ConnectionId) :
    ConnectionStep w op id (w'.connections id) := by
  cases op with
  | lock => obtain ⟨-, rfl⟩ := h; exact .same
  | unlock => cases h; exact .same
  | now => cases h; exact .same
  | uuid4 => cases h; exact .same
  | findBySessionId => obtain ⟨rfl, -⟩ := h; exact .same
  | updateWithVersion =>
      rcases exec_update h with ⟨-, rfl⟩ | ⟨doc, -, -, -, -, rfl⟩
      · exact .same
      · exact .same
  | incr => obtain ⟨-, rfl⟩ := h; exact .same
  | publish => cases h; exact .same
  | getSeq => obtain ⟨-, rfl⟩ := h; exact .same
  | getSubscriptions => obtain ⟨-, rfl⟩ := h; exact .same
  | setSubscriptions => cases h; exact .same
  | redisSubscribe => cases h; exact .same
  | register c node userId =>
      cases h
      by_cases hid : id = c
      · subst hid
        simpa using .registered node userId rfl
      · simpa [Function.update_of_ne hid] using .same
  | enqueue c frame =>
      obtain ⟨conn, hconn, -, rfl⟩ := h
      by_cases hid : id = c
      · subst hid
        simpa using .enqueued frame conn rfl hconn
      · simpa [Function.update_of_ne hid] using .same
  | getMessage n =>
      obtain ⟨next, msg, hnext, hmsg, rfl⟩ := h
      simp only [World.dispatch]
      have hsame : ConnectionStep w (.getMessage n) id (w.connections id) := .same
      cases hconn : w.connections id with
      | none => simpa [hconn] using hsame
      | some conn =>
          by_cases hnode : conn.node = n
          · subst hnode
            simpa using .dispatched next msg conn rfl hnext hmsg hconn
          · simpa [hconn, hnode] using hsame
  | take c =>
      obtain ⟨conn, hconn, -, rfl⟩ := h
      by_cases hid : id = c
      · subst hid
        simpa using .taken conn rfl hconn
      · simpa [Function.update_of_ne hid] using .same
  | markFinished => obtain ⟨-, rfl⟩ := h; exact .same
  | applyRatings => cases h; exact .same

end Exec

/-! ## the operations of the flows -/

section Uses

variable {ok : Op → Prop}

/-- What `subscribe` uses. -/
theorem subscribe_uses {node : NodeId} (hget : ok (.getSubscriptions node))
    (hredis : ok (.redisSubscribe node)) (hset : ∀ count, ok (.setSubscriptions node count)) :
    (subscribe node).Uses ok := by
  refine ⟨hget, fun (count : Nat) => ?_⟩
  show (if count = 0 then (Co.call (.redisSubscribe node) fun _ =>
      ask (.setSubscriptions node (count + 1)) : Flow Unit)
    else ask (.setSubscriptions node (count + 1))).Uses ok
  split
  · exact ⟨hredis, fun _ => ⟨hset _, fun _ => trivial⟩⟩
  · exact ⟨hset _, fun _ => trivial⟩

/-- What greeting a connection uses. -/
theorem greet_uses {conn : ConnectionId} (hseq : ok .getSeq)
    (henqueue : ∀ frame, ok (.enqueue conn frame)) (hfind : ok .findBySessionId)
    (userId : UserId) : (greet conn userId).Uses ok := by
  refine ⟨hseq, fun seqStart => ⟨henqueue _, fun _ => ⟨hfind, fun (stored : Option StoredGame) =>
    ?_⟩⟩⟩
  cases stored with
  | none => trivial
  | some stored =>
      show (enqueueSnapshot conn (snapshotMessage stored userId)).Uses ok
      cases snapshotMessage stored userId with
      | error e => trivial
      | ok frame => exact ⟨henqueue _, fun _ => trivial⟩

theorem broadcastSessionUpdated_uses (hincr : ok (.incr none))
    (hpublish : ∀ seq, ok (.publish { seq, body := .other })) (session : Session) :
    (broadcastSessionUpdated session).Uses ok := by
  unfold broadcastSessionUpdated
  split
  · trivial
  · exact ⟨hincr, fun seq => ⟨hpublish seq, fun _ => trivial⟩⟩

theorem finishSession_uses (hmark : ok .markFinished) (hrate : ok .applyRatings)
    (hincr : ok (.incr none)) (hpublish : ∀ seq, ok (.publish { seq, body := .other })) :
    finishSession.Uses ok := by
  have hbroadcast := broadcastSessionUpdated_uses hincr hpublish
  refine ⟨hmark, fun (session : Option Session) => ?_⟩
  show (rateMarked session).Uses ok
  cases session with
  | none => trivial
  | some session =>
      simp only [rateMarked]
      split
      · refine ⟨hrate, fun (failed : Option PyError) => ?_⟩
        cases failed with
        | none => exact hbroadcast session
        | some e => trivial
      · exact hbroadcast session

theorem finishTicked_uses (hmark : ok .markFinished) (hrate : ok .applyRatings)
    (hincr : ok (.incr none)) (hpublish : ∀ seq, ok (.publish { seq, body := .other })) :
    finishTicked.Uses ok := by
  refine ⟨hrate, fun (failed : Option PyError) => ?_⟩
  cases failed with
  | some e => trivial
  | none =>
      refine ⟨hmark, fun (session : Option Session) => ?_⟩
      cases session with
      | none => trivial
      | some session => exact broadcastSessionUpdated_uses hincr hpublish session

theorem finishIfOver_uses {finish : Flow (Option PyError)} (hfinish : finish.Uses ok)
    (game : StoredGame) (outcome : Outcome) : (finishIfOver game outcome finish).Uses ok := by
  unfold finishIfOver
  split
  · exact hfinish.bind fun _ => trivial
  · trivial

end Uses

end Monopoly
