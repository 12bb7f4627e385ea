import Monopoly.Laws.BroadcastOrder
import Monopoly.Service.Greeting
import Monopoly.Spec.Play

/-!
# Monopoly.Laws.Snapshot

Does a client that connects end up with the current game?  Its connection is
registered before the snapshot is read and the snapshot queued after that, so
broadcasts may come in between.  The client never goes back to an older
version in the runs in which the snapshot is queued right when its node is
at that version.
-/

namespace Monopoly

/-! ## what is assumed -/

/-- What a read was answered. -/
def Event.found : Event FlowId Op Op.Ans → Option (Option StoredGame)
  | ⟨_, .findBySessionId, found⟩ => some found
  | _ => none

theorem Event.of_found {e : Event FlowId Op Op.Ans} {found : Option StoredGame}
    (h : e.found = some found) : ∃ i, e = ⟨i, .findBySessionId, found⟩ := by
  obtain ⟨i, op, r⟩ := e
  cases op with
  | findBySessionId => exact ⟨i, by rw [Option.some.inj h]⟩
  | _ => simp [Event.found] at h

/-- Reads return the current document. -/
def ReadsLatest (w : World) (e : Event FlowId Op Op.Ans) : Prop :=
  ∀ found ∈ e.found, found = w.current.map (·.toDomain)

/-- The versions the messages carry. -/
def versionsOf (msgs : List Envelope) : List Nat := msgs.filterMap (·.body.subject)

/-- Updates are published one at a time, in the order of their versions. -/
def PublishesNext (base : Nat) (w : World) (e : Event FlowId Op Op.Ans) : Prop :=
  ∀ msg ∈ e.op.message, ∀ v ∈ msg.body.subject, v = base + (versionsOf w.channel).length + 1

/-! ## the condition -/

/-- The version a node is at: that of the last update before its cursor. -/
def World.shown (base : Nat) (w : World) (node : NodeId) : Nat :=
  base + (versionsOf (w.channel.take ((w.nodes node).cursor.getD 0))).length

/-- The snapshot the operation puts in the connection's queue. -/
def Op.snapshot (id : ConnectionId) : Op → Option GameFrame
  | .enqueue conn (.gameState frame) => if conn = id then some frame else none
  | _ => none

/-- The operation dispatches a message on the node. -/
def Op.dispatches (node : NodeId) : Op → Bool
  | .getMessage n => n == node
  | _ => false

/-- The snapshot is queued when the last update of its node is the snapshot's
own version or the one before, and the queue never overflows. -/
structure OnTime (base : Nat) (id : ConnectionId) (node : NodeId) (w : World)
    (e : Event FlowId Op Op.Ans) : Prop where
  level : ∀ frame ∈ e.op.snapshot id,
    w.shown base node ≤ frame.version ∧ frame.version ≤ w.shown base node + 1
  room : e.op.dispatches node = true → ∀ conn ∈ w.connections id, conn.HasRoom

instance (w : World) (e : Event FlowId Op Op.Ans) : Decidable (ReadsLatest w e) :=
  inferInstanceAs (Decidable (∀ found ∈ e.found, _))

instance (base : Nat) (w : World) (e : Event FlowId Op Op.Ans) :
    Decidable (PublishesNext base w e) :=
  inferInstanceAs (Decidable (∀ msg ∈ e.op.message, ∀ v ∈ msg.body.subject, _))

instance (base : Nat) (id : ConnectionId) (node : NodeId) (w : World)
    (e : Event FlowId Op Op.Ans) : Decidable (OnTime base id node w e) :=
  decidable_of_iff ((∀ frame ∈ e.op.snapshot id,
      w.shown base node ≤ frame.version ∧ frame.version ≤ w.shown base node + 1) ∧
    (e.op.dispatches node = true → ∀ conn ∈ w.connections id, conn.HasRoom))
    ⟨fun h => ⟨h.1, h.2⟩, fun h => ⟨h.level, h.room⟩⟩

/-! ## the queue -/

/-- The versions of the game in the queue. -/
def Connection.versions (conn : Connection) : List Nat := conn.queue.filterMap Frame.version

/-- What a node that is at version `shown` has in the queue of a connection:
versions that do not go back, broadcasts up to `shown`, and a snapshot of
`shown + 1` at most. -/
structure Level (shown : Nat) (conn : Connection) : Prop where
  sorted : conn.versions.Pairwise (· ≤ ·)
  broadcasts : ∀ frame ∈ conn.queue, frame.isSnapshot = false → ∀ v ∈ frame.version, v ≤ shown
  snapshots : ∀ frame ∈ conn.queue, ∀ v ∈ frame.version, v ≤ shown + 1

section Queue

variable {shown shown' : Nat} {conn conn' : Connection} {frame : Frame}

theorem Level.mono (h : Level shown conn) (hle : shown ≤ shown') : Level shown' conn where
  sorted := h.sorted
  broadcasts frame hf hs v hv := Nat.le_trans (h.broadcasts frame hf hs v hv) hle
  snapshots frame hf v hv := Nat.le_trans (h.snapshots frame hf v hv) (by omega)

theorem Level.of_queue (h : Level shown conn) (hqueue : conn'.queue = conn.queue) :
    Level shown conn' where
  sorted := by simpa [Connection.versions, hqueue] using h.sorted
  broadcasts := by simpa [hqueue] using h.broadcasts
  snapshots := by simpa [hqueue] using h.snapshots

/-- One more frame, which shows nothing older. -/
theorem Level.push (h : Level shown conn) (hqueue : conn'.queue = conn.queue ++ [frame])
    (hnewest : ∀ v ∈ frame.version, ∀ f ∈ conn.queue, ∀ u ∈ f.version, u ≤ v)
    (hbroadcast : frame.isSnapshot = false → ∀ v ∈ frame.version, v ≤ shown)
    (hsnapshot : ∀ v ∈ frame.version, v ≤ shown + 1) : Level shown conn' where
  sorted := by
    rw [Connection.versions, hqueue, List.filterMap_append, List.pairwise_append]
    refine ⟨h.sorted, ?_, fun u hu v hv => ?_⟩
    · cases hversion : frame.version <;> simp [List.filterMap, hversion]
    · obtain ⟨f, hf, hfu⟩ := List.mem_filterMap.mp hu
      obtain ⟨g, hg, hgv⟩ := List.mem_filterMap.mp hv
      obtain rfl := List.mem_singleton.mp hg
      exact hnewest v hgv f hf u hfu
  broadcasts f hf hs v hv := by
    rw [hqueue] at hf
    rcases List.mem_append.mp hf with hf | hf
    · exact h.broadcasts f hf hs v hv
    · obtain rfl := List.mem_singleton.mp hf
      exact hbroadcast hs v hv
  snapshots f hf v hv := by
    rw [hqueue] at hf
    rcases List.mem_append.mp hf with hf | hf
    · exact h.snapshots f hf v hv
    · obtain rfl := List.mem_singleton.mp hf
      exact hsnapshot v hv

end Queue

/-! ## the channel -/

theorem versionsOf_append (xs ys : List Envelope) :
    versionsOf (xs ++ ys) = versionsOf xs ++ versionsOf ys := List.filterMap_append

/-- The updates on the channel are the versions after `base`, in order. -/
def Consecutive (base : Nat) (channel : List Envelope) : Prop :=
  versionsOf channel = List.range' (base + 1) (versionsOf channel).length

/-- The next message, if it is an update, is the next version. -/
theorem Consecutive.next {base next v : Nat} {channel : List Envelope} {msg : Envelope}
    (h : Consecutive base channel) (hmsg : channel[next]? = some msg) (hv : v ∈ msg.body.subject) :
    v = base + (versionsOf (channel.take next)).length + 1 := by
  obtain ⟨hlt, hget⟩ := List.getElem?_eq_some_iff.mp hmsg
  have hsplit : versionsOf channel = versionsOf (channel.take next) ++
      (v :: versionsOf (channel.drop (next + 1))) := by
    conv => lhs; rw [← List.take_append_drop next channel, List.drop_eq_getElem_cons hlt, hget]
    rw [versionsOf_append]
    have hcons : versionsOf (msg :: channel.drop (next + 1)) =
        v :: versionsOf (channel.drop (next + 1)) := by
      simp only [versionsOf]
      exact List.filterMap_cons_some hv
    rw [hcons]
  have hat : (versionsOf channel)[(versionsOf (channel.take next)).length]? = some v := by
    rw [hsplit, List.getElem?_append_right (Nat.le_refl _)]
    simp
  rw [h] at hat
  obtain ⟨hlt', hget'⟩ := List.getElem?_eq_some_iff.mp hat
  rw [List.getElem_range'] at hget'
  omega

theorem versionsOf_take_succ {next : Nat} {channel : List Envelope} {msg : Envelope}
    (hmsg : channel[next]? = some msg) :
    versionsOf (channel.take (next + 1)) =
      versionsOf (channel.take next) ++ msg.body.subject.toList := by
  obtain ⟨hlt, hget⟩ := List.getElem?_eq_some_iff.mp hmsg
  rw [List.take_succ_eq_append_getElem hlt, hget, versionsOf_append]
  rfl

/-- An update that is published next keeps the updates in order. -/
theorem Consecutive.push {base : Nat} {channel : List Envelope} {msg : Envelope}
    (h : Consecutive base channel)
    (hmsg : ∀ v ∈ msg.body.subject, v = base + (versionsOf channel).length + 1) :
    Consecutive base (channel ++ [msg]) := by
  have hone : versionsOf [msg] = msg.body.subject.toList := rfl
  rw [Consecutive, versionsOf_append, hone]
  cases hsubject : msg.body.subject with
  | none => simpa [Consecutive] using h
  | some v =>
      rw [hmsg v hsubject, Option.toList_some, List.length_append, List.length_singleton,
        List.range'_1_concat, ← h]
      congr 2
      omega

/-! ## one step -/

section Steps

variable {requests : FlowId → Request} {base : Nat} {i j : FlowId} {id : ConnectionId}
  {node : NodeId} {userId : UserId} {w w' : World} {op : Op} {r : op.Ans}

/-- The updates are on the channel in order, the cursor of the node is on the
channel, and the connection has what its node is at. -/
structure Steady (base : Nat) (id : ConnectionId) (node : NodeId) (w : World) : Prop where
  channel : Consecutive base w.channel
  cursor : (w.nodes node).cursor.getD 0 ≤ w.channel.length
  queue : ∀ conn ∈ w.connections id, conn.node = node ∧ Level (w.shown base node) conn

theorem exec_take (h : exec i w op r w') {n : Nat} (hn : n ≤ w.channel.length) :
    n ≤ w'.channel.length ∧ w'.channel.take n = w.channel.take n := by
  rcases exec_channel h with hchannel | ⟨msg, -, hchannel⟩
  · rw [hchannel]
    exact ⟨hn, rfl⟩
  · rw [hchannel, List.take_append_of_le_length hn, List.length_append]
    exact ⟨by omega, rfl⟩

/-- Nodes only go forward, and stay on the channel. -/
theorem exec_cursor (h : exec i w op r w')
    (hw : (w.nodes node).cursor.getD 0 ≤ w.channel.length) :
    (w.nodes node).cursor.getD 0 ≤ (w'.nodes node).cursor.getD 0 ∧
      (w'.nodes node).cursor.getD 0 ≤ w'.channel.length := by
  have hlater := (exec_take h hw).1
  have hstep := exec_nodes h node
  generalize w'.nodes node = n at hstep ⊢
  cases hstep with
  | same => exact ⟨Nat.le_refl _, hlater⟩
  | counted count => exact ⟨Nat.le_refl _, hlater⟩
  | subscribed hop =>
      have hfull := (exec_take h (Nat.le_refl w.channel.length)).1
      cases hcursor : (w.nodes node).cursor with
      | none => simpa using hfull
      | some next => simpa [hcursor] using hlater
  | given next msg hop hnext hmsg =>
      obtain ⟨hlt, -⟩ := List.getElem?_eq_some_iff.mp hmsg
      have hnew := (exec_take h (Nat.succ_le_of_lt hlt)).1
      rw [hnext]
      exact ⟨Nat.le_succ next, hnew⟩

theorem exec_shown (h : exec i w op r w')
    (hw : (w.nodes node).cursor.getD 0 ≤ w.channel.length) :
    w.shown base node ≤ w'.shown base node := by
  obtain ⟨hforward, -⟩ := exec_cursor h hw
  have htake : (w.channel.take ((w.nodes node).cursor.getD 0)).Sublist
      (w'.channel.take ((w'.nodes node).cursor.getD 0)) := by
    rw [← (exec_take h hw).2]
    exact (List.take_prefix_take_left hforward).sublist
  have hlen := (htake.filterMap (·.body.subject)).length_le
  simp only [World.shown, versionsOf]
  omega

/-- A node that dispatches a message is at what comes up to it. -/
theorem exec_getMessage_shown {next : Nat} (h : exec i w op r w') (hop : op = .getMessage node)
    (hnext : (w.nodes node).cursor = some next) :
    w'.shown base node = base + (versionsOf (w.channel.take (next + 1))).length := by
  subst hop
  obtain ⟨n, msg, hn, -, rfl⟩ := h
  obtain rfl := Option.some.inj (hnext.symm.trans hn)
  simp [World.shown, World.dispatch, World.updateNode]

/-- A frame the connecting flow enqueues on time goes on top of what the
queue has. -/
theorem Level.enqueue {conn : Connection} {frame : Frame} {ok : Bool}
    (hlevel : Level (w.shown base node) conn) (hconn : w.connections id = some conn)
    (hgreets : Greets requests i w (.enqueue id frame))
    (htime : OnTime base id node w ⟨i, .enqueue id frame, ok⟩) :
    Level (w.shown base node) (conn.enqueue frame).2 := by
  rcases enqueue_cases conn frame with henqueue | henqueue
  · rw [henqueue]
    exact hlevel
  · rw [henqueue]
    cases hversion : frame.version with
    | none => exact hlevel.push rfl (by simp [hversion]) (by simp [hversion]) (by simp [hversion])
    | some v =>
        obtain ⟨hsnapshot, hunread⟩ := hgreets.2 (by simp [hversion])
        have hshown : w.shown base node ≤ v ∧ v ≤ w.shown base node + 1 := by
          cases frame with
          | gameState f =>
              obtain rfl := Option.some.inj hversion
              exact htime.level f (by simp [Op.snapshot])
          | _ => simp [Frame.version] at hversion
        refine hlevel.push rfl ?_ (by simp [hsnapshot]) ?_
        · intro u hu f hf v' hv'
          obtain rfl := Option.some.inj (hversion.symm.trans hu)
          have := hlevel.broadcasts f hf (hunread conn hconn f hf) v' hv'
          omega
        · intro u hu
          obtain rfl := Option.some.inj (hversion.symm.trans hu)
          exact hshown.2

/-- A dispatched update goes on top of what the queue has. -/
theorem Level.dispatch {conn : Connection} {next : Nat} {msg : Envelope}
    (hlevel : Level (w.shown base node) conn) (hchannel : Consecutive base w.channel)
    (hnext : (w.nodes node).cursor = some next) (hmsg : w.channel[next]? = some msg) :
    Level (base + (versionsOf (w.channel.take (next + 1))).length) (conn.dispatch msg) := by
  have hshown : w.shown base node = base + (versionsOf (w.channel.take next)).length := by
    simp [World.shown, hnext]
  rw [hshown] at hlevel
  rw [versionsOf_take_succ hmsg, List.length_append]
  obtain ⟨-, hqueue | ⟨frame, hqueue, hversion, hbroadcast⟩⟩ := dispatch_cases conn msg
  · exact (hlevel.of_queue hqueue).mono (by omega)
  · have hnewest : ∀ v ∈ frame.version,
        v = base + (versionsOf (w.channel.take next)).length + 1 ∧
          msg.body.subject.toList.length = 1 := by
      intro v hv
      rw [hversion] at hv
      exact ⟨hchannel.next hmsg hv, by simp [Option.mem_def.mp hv]⟩
    refine (hlevel.mono (by omega)).push hqueue ?_ ?_ ?_
    · intro v hv f hf u hu
      have hold := hlevel.snapshots f hf u hu
      have hnew := hnewest v hv
      omega
    · intro _ v hv
      have hnew := hnewest v hv
      omega
    · intro v hv
      have hnew := hnewest v hv
      omega

theorem Steady.step (hw : Steady base id node w) (hown : OwnConnections requests)
    (hrequest : requests j = .connect id node userId) (hgreets : Greets requests i w op)
    (hpublish : PublishesNext base w ⟨i, op, r⟩) (htime : OnTime base id node w ⟨i, op, r⟩)
    (h : exec i w op r w') : Steady base id node w' where
  channel := by
    rcases exec_channel h with hchannel | ⟨msg, rfl, hchannel⟩
    · exact hchannel ▸ hw.channel
    · exact hchannel ▸ hw.channel.push (hpublish msg rfl)
  cursor := (exec_cursor h hw.cursor).2
  queue := by
    intro conn' hconn'
    have hshown : w.shown base node ≤ w'.shown base node := exec_shown h hw.cursor
    have hstep := exec_connections h id
    generalize hentry : w'.connections id = entry at hstep hconn'
    cases hstep with
    | same =>
        obtain ⟨hnode, hlevel⟩ := hw.queue conn' hconn'
        exact ⟨hnode, hlevel.mono hshown⟩
    | registered node' userId' hop =>
        obtain rfl := Option.some.inj hconn'
        subst hop
        obtain rfl := hown _ _ _ _ _ _ _ hgreets.1 hrequest
        obtain ⟨-, rfl, -⟩ := Request.connect.inj (hgreets.1.symm.trans hrequest)
        exact ⟨rfl, by constructor <;> simp [Connection.versions]⟩
    | enqueued frame conn hop hconn =>
        obtain rfl := Option.some.inj hconn'
        subst hop
        obtain ⟨hnode, hlevel⟩ := hw.queue conn hconn
        refine ⟨?_, (hlevel.enqueue hconn hgreets htime).mono hshown⟩
        rcases enqueue_cases conn frame with henqueue | henqueue <;> rw [henqueue] <;> exact hnode
    | dispatched next msg conn hop hnext hmsg hconn =>
        obtain rfl := Option.some.inj hconn'
        obtain ⟨rfl, hlevel⟩ := hw.queue conn hconn
        refine ⟨(dispatch_cases conn msg).1, ?_⟩
        rw [exec_getMessage_shown h hop hnext]
        exact hlevel.dispatch hw.channel hnext hmsg
    | taken conn hop hconn =>
        obtain rfl := Option.some.inj hconn'
        obtain ⟨hnode, hlevel⟩ := hw.queue conn hconn
        exact ⟨hnode, (hlevel.mono hshown).of_queue rfl⟩

/-- What a connection has in its queue stays in it. -/
theorem exec_versions (hgreets : Greets requests i w op) (h : exec i w op r w') {conn : Connection}
    (hconn : w.connections id = some conn) :
    ∃ conn', w'.connections id = some conn' ∧ conn'.node = conn.node ∧
      ∀ v ∈ conn.versions, v ∈ conn'.versions := by
  have hstep := exec_connections h id
  generalize hentry : w'.connections id = entry at hstep
  have hgrown : ∀ conn' : Connection, conn'.queue = conn.queue ∨
      (∃ frame, conn'.queue = conn.queue ++ [frame]) → ∀ v ∈ conn.versions, v ∈ conn'.versions := by
    rintro conn' (hqueue | ⟨frame, hqueue⟩) v hv
    · simpa [Connection.versions, hqueue] using hv
    · simp only [Connection.versions, hqueue, List.filterMap_append, List.mem_append]
      exact .inl hv
  cases hstep with
  | same => exact ⟨conn, hconn, rfl, fun _ hv => hv⟩
  | registered node' userId' hop =>
      subst hop
      exact absurd (hgreets.2.symm.trans hconn) (by simp)
  | enqueued frame c hop hc =>
      obtain rfl := Option.some.inj (hconn.symm.trans hc)
      rcases enqueue_cases conn frame with henqueue | henqueue
      · exact ⟨conn, by rw [henqueue], rfl, fun _ hv => hv⟩
      · exact ⟨_, rfl, by rw [henqueue], hgrown _ (.inr ⟨frame, by rw [henqueue]⟩)⟩
  | dispatched next msg c hop hnext hmsg hc =>
      obtain rfl := Option.some.inj (hconn.symm.trans hc)
      obtain ⟨hnode, hqueue⟩ := dispatch_cases conn msg
      refine ⟨_, rfl, hnode, hgrown _ (hqueue.imp_right ?_)⟩
      rintro ⟨frame, hqueue, -⟩
      exact ⟨frame, hqueue⟩
  | taken c hop hc =>
      obtain rfl := Option.some.inj (hconn.symm.trans hc)
      exact ⟨_, rfl, rfl, hgrown _ (.inl rfl)⟩

/-- The connection is in place, and has every update its node was given of a
version newer than `version`. -/
structure Kept (id : ConnectionId) (node : NodeId) (version : Nat) (w : World) : Prop where
  connected : w.Connected id node
  complete : ∀ v ∈ versionsOf (w.nodes node).received, version < v →
    ∃ conn ∈ w.connections id, v ∈ conn.versions

/-- Every game state on the channel can be rendered. -/
def Renderable (w : World) : Prop :=
  ∀ msg ∈ w.channel, ∀ b, msg.body = .gameState b → ∀ userId,
    ∃ frame, buildGameStateMessage b.state b.version userId b.timeline (some msg.seq) = .ok frame

theorem Kept.step {version : Nat} (hw : Kept id node version w) (hgreets : Greets requests i w op)
    (hrender : Renderable w) (htime : OnTime base id node w ⟨i, op, r⟩) (h : exec i w op r w') :
    Kept id node version w' := by
  obtain ⟨conn, hconn, hnode⟩ := hw.connected
  obtain ⟨conn', hconn', hnode', hgrown⟩ := exec_versions hgreets h hconn
  refine ⟨⟨conn', hconn', hnode'.trans hnode⟩, fun v hv hlt => ⟨conn', hconn', ?_⟩⟩
  have hold : v ∈ versionsOf (w.nodes node).received → v ∈ conn'.versions := by
    intro hreceived
    obtain ⟨c, hc, hmem⟩ := hw.complete v hreceived hlt
    obtain rfl := Option.some.inj (hconn.symm.trans hc)
    exact hgrown v hmem
  have hstep := exec_nodes h node
  generalize w'.nodes node = n at hstep hv
  cases hstep with
  | same => exact hold hv
  | counted count => exact hold hv
  | subscribed hop => exact hold hv
  | given next msg hop hnext hmsg =>
      rw [versionsOf_append] at hv
      rcases List.mem_append.mp hv with hv | hv
      · exact hold hv
      -- the message that is dispatched gets into the queue
      · subst hop
        have hdispatched : w'.connections id = some (conn.dispatch msg) := by
          obtain ⟨n, m, hn, hm, rfl⟩ := h
          obtain rfl := Option.some.inj (hnext.symm.trans hn)
          obtain rfl := Option.some.inj (hmsg.symm.trans hm)
          simp [World.dispatch, hconn, hnode]
        obtain rfl := Option.some.inj (hconn'.symm.trans hdispatched)
        obtain ⟨frame, hqueue, hversion⟩ := dispatch_of_room
          (htime.room (by simp [Op.dispatches]) conn hconn)
          fun b hb => hrender msg (List.mem_of_getElem? hmsg) b hb conn.userId
        have hsubject : msg.body.subject = some v := by
          simpa [versionsOf] using hv
        simp [Connection.versions, hqueue, hversion, hsubject]

end Steps

/-! ## what is stored can be shown -/

section Rendering

variable {settings : Settings} {requests : FlowId → Request} {first : GameDocument} {w : World}

theorem WellFormed.renders {s : GameState} (hw : WellFormed s) (version : Nat) (userId : UserId)
    (timeline : List AnimationInstruction) (seq : Option Nat) :
    ∃ frame, buildGameStateMessage s version userId timeline seq = .ok frame := by
  have hseated : Seated s ((viewerOf s userId).getD s.turn.currentPlayerId) := by
    unfold viewerOf
    cases hfind : s.players.find? (fun p => decide (p.userId = userId)) with
    | none => exact hw.current
    | some p => exact seated_of_mem (List.mem_of_find?_eq_some hfind)
  obtain ⟨actions, hactions⟩ :=
    computeActions_ok hw.laid hseated fun _ q hq => (hw.pending q hq).onBoard
  simp only [buildGameStateMessage, withActionsFor, hactions, ok_bind]
  exact ⟨_, rfl⟩

/-- Every stored document is that of a game. -/
theorem History.played (h : History settings requests first w)
    {before : List (Taken GameState Call)} (hfirst : Play before first.state) :
    ∀ c ∈ w.commits, ∃ played, Play played c.document.state := by
  refine h.chain.forall_mem ?_ ?_
  · intro c hc
    obtain rfl := Option.some.inj (h.first.symm.trans hc)
    exact ⟨before, hfirst⟩
  · rintro older newer ⟨played, hplay⟩ ⟨flow, -, -, clock, tradeId, command, events, -, happly⟩
    exact ⟨_, hplay.next (l := ⟨command, _⟩) ⟨events, _, happly⟩⟩

theorem Sane.renderable (hw : Sane settings requests first w)
    {before : List (Taken GameState Call)} (hfirst : Play before first.state) : Renderable w := by
  intro msg hmsg b hb userId
  obtain ⟨c, hc, -, hstate⟩ := hw.carried msg hmsg b hb
  obtain ⟨played, hplay⟩ := hw.toHistory.played hfirst c hc
  rw [← hstate]
  exact hplay.formed.1.renders _ _ _ _

end Rendering

/-! ## the law -/

/-- The game in the connection's queue never goes back, and every version
committed after the connecting flow `i` has read the game is in it once the
node was given its broadcast. -/
structure Resynced (h : List (Taken Server (Event FlowId Op Op.Ans))) (i : FlowId)
    (id : ConnectionId) (node : NodeId) (w : World) : Prop where
  order : ∀ conn ∈ w.connections id, conn.versions.Pairwise (· ≤ ·)
  complete : ∀ t ∈ h, t.label.flow = i → ∀ game, t.label.found = some (some game) →
    ∀ c ∈ w.commits, game.version < c.document.version →
      c.document.version ∈ versionsOf (w.nodes node).received →
        ∃ conn ∈ w.connections id, c.document.version ∈ conn.versions

section Law

variable {settings : Settings} {requests : FlowId → Request} {first : GameDocument}
  {h : List (Taken Server (Event FlowId Op Op.Ans))} {p : Server} {i : FlowId} {id : ConnectionId}
  {node : NodeId} {userId : UserId} {base : Nat} {w w' : World}

/-- What is known of a step: the flow's promises, and what is assumed of the
run. -/
structure Smooth (settings : Settings) (requests : FlowId → Request) (first : GameDocument)
    (id : ConnectionId) (node : NodeId) (w : World) (e : Event FlowId Op Op.Ans) : Prop where
  sane : Sane settings requests first w
  greets : Greets requests e.flow w e.op
  reads : ReadsLatest w e
  publishes : PublishesNext first.version w e
  onTime : OnTime first.version id node w e

theorem Served.smooth (hserved : Served settings requests first h p)
    (hown : OwnConnections requests) (hredis : ∀ t ∈ h, ReadsLatest t.before.world t.label ∧
      PublishesNext first.version t.before.world t.label)
    (htime : ∀ t ∈ h, OnTime first.version id node t.before.world t.label) :
    ∀ t ∈ h, Smooth settings requests first id node t.before.world t.label := by
  intro t ht
  have hholds : ∀ i w, Opened first w →
      (greeting requests hown).Holds i (fun _ _ => True) (serve settings (requests i)) w :=
    fun _ _ hw => serve_greets hw.connections
  have hgreets := (greeting requests hown).guaranteed (fun _ _ => trivial) hholds hserved ht
  have hsane := (serving settings requests first).guaranteed (fun _ hw => hw.sane)
    (fun i _ hw => hw.holds i) hserved ht
  exact ⟨hsane.1, hgreets.2, (hredis t ht).1, (hredis t ht).2, htime t ht⟩

theorem Opened.steady (hw : Opened first w) : Steady base id node w where
  channel := by simp [Consecutive, hw.channel, versionsOf]
  cursor := by
    rcases (hw.nodes node).2 with hcursor | hcursor <;> simp [hcursor]
  queue conn hconn := by simp [hw.connections id] at hconn

/-- Everything a node was given by the time of a read is read. -/
theorem Sane.received_le (hw : Sane settings requests first w) (hdelivered : Delivered w)
    {doc : GameDocument} (hcurrent : w.current = some doc) {v : Nat}
    (hv : v ∈ versionsOf (w.nodes node).received) : v ≤ doc.version := by
  obtain ⟨msg, hmsg, hsubject⟩ := List.mem_filterMap.mp hv
  have hchannel : msg ∈ w.channel :=
    (List.take_sublist _ _).subset ((hdelivered node).subset hmsg)
  cases hbody : msg.body with
  | other => simp [hbody, Body.subject] at hsubject
  | gameState b =>
      obtain ⟨c, hc, hversion, -⟩ := hw.carried msg hchannel b hbody
      have hchain := hw.chain
      cases hcommits : w.commits with
      | nil => simp [hcommits] at hc
      | cons top rest =>
          rw [hcommits] at hchain hc
          have hle := hchain.version_le hc
          have htop : top.document = doc := by simpa [World.current, hcommits] using hcurrent
          simp only [hbody, Body.subject, Option.some.injEq] at hsubject
          rw [htop] at hle
          omega

theorem Served.delivered (hserved : Served settings requests first h p) : Delivered p.world := by
  refine Run.invariant (I := fun p : Server => Delivered p.world) (fun p hp node => ?_)
    (fun p e p' hp hstep => exec_delivered hp hstep.exec) hserved
  simp [(hp.1.nodes node).1]

/-- After the connecting flow has read the game, the connection is in place
and the node was given nothing newer. -/
theorem Smooth.kept_of_read {e : Event FlowId Op Op.Ans} {game : StoredGame}
    (hsmooth : Smooth settings requests first id node w e) (hdelivered : Delivered w)
    (hrequest : requests e.flow = .connect id node userId) (hgame : e.found = some (some game))
    (h : exec e.flow w e.op e.answer w') : Kept id node game.version w' := by
  obtain ⟨j, rfl⟩ := Event.of_found hgame
  obtain ⟨rfl, -⟩ := h
  have hread := hsmooth.reads _ hgame
  obtain ⟨doc, hcurrent, rfl⟩ := Option.map_eq_some_iff.mp hread.symm
  refine ⟨hsmooth.greets id node userId hrequest, fun v hv hlt => ?_⟩
  have hle := hsmooth.sane.received_le hdelivered hcurrent hv
  exact absurd hlt (Nat.not_lt.mpr hle)

/-- When the snapshot is queued with its node at its version or the one
before, and the queue never overflows, the client never goes back and misses
nothing. -/
theorem snapshot_never_stale {before : List (Taken GameState Call)}
    (hfirst : Play before first.state) (hserved : Served settings requests first h p)
    (hown : OwnConnections requests) (hrequest : requests i = .connect id node userId)
    (hredis : ∀ t ∈ h, ReadsLatest t.before.world t.label ∧
      PublishesNext first.version t.before.world t.label)
    (htime : ∀ t ∈ h, OnTime first.version id node t.before.world t.label) :
    Resynced h i id node p.world := by
  have hrun := Pool.Runs.under hserved (hserved.smooth hown hredis htime)
  constructor
  · have hsteady : Steady first.version id node p.world := by
      refine Run.invariant (I := fun p : Server => Steady first.version id node p.world)
        (fun p hp => hp.1.steady) (fun p e p' hp hstep => ?_) hrun
      obtain ⟨hsmooth, hexec⟩ := hstep.exec
      exact hp.step hown hrequest hsmooth.greets hsmooth.publishes hsmooth.onTime hexec
    exact fun conn hconn => (hsteady.queue conn hconn).2.sorted
  · intro t ht hflow game hgame c _ hlt hreceived
    have hkept : Kept id node game.version t.after.world := by
      obtain ⟨earlier, hbefore⟩ := hserved.reached_of_mem ht
      obtain ⟨hsmooth, hexec⟩ := (hrun.step_of_mem ht).exec
      exact hsmooth.kept_of_read (Served.delivered hbefore) (hflow ▸ hrequest) hgame hexec
    refine (Run.persists_after (P := fun p : Server => Kept id node game.version p.world)
      (fun p e p' hp hstep => ?_) hrun ht hkept).complete _ hreceived hlt
    obtain ⟨hsmooth, hexec⟩ := hstep.exec
    exact hp.step hsmooth.greets (hsmooth.sane.renderable hfirst) hsmooth.onTime hexec

theorem rollAndBuy_own : OwnConnections rollAndBuy := by
  have hconnect : ∀ i conn node user, rollAndBuy i = .connect conn node user → i = 2 := by
    intro i conn node user h
    rcases i with _ | _ | _ | n <;> simp [rollAndBuy] at h ⊢
  intro i j conn node node' user user' hi hj
  rw [hconnect i _ _ _ hi, hconnect j _ _ _ hj]

/-- The client connects, and a roll is published after its snapshot. -/
theorem snapshot_never_stale_roll :
    ∃ first h p, Served defaultSettings rollAndBuy first h p ∧
      (p.world.connections 0).map (·.versions) = some [0, 1] ∧ Resynced h 2 0 0 p.world := by
  obtain ⟨first, h, p, hopens, hversion, hserved, hpassed, hcheck⟩ := served_of_schedules (duo 1500)
    [0, 1] rollAndBuy (turnsOf [2, 2, 2, 2, 2, 2, 2, 2, 0, 0, 0, 0, 0, 0, 0, 0, 3])
    (fun w e => decide (ReadsLatest w e ∧ PublishesNext 0 w e ∧ OnTime 0 0 0 w e))
    (fun p => decide ((p.world.connections 0).map (·.versions) = some [0, 1]))
    (by decide) (by decide +kernel)
  have hpassed : ∀ t ∈ h, ReadsLatest t.before.world t.label ∧
      PublishesNext first.version t.before.world t.label ∧
        OnTime first.version 0 0 t.before.world t.label :=
    fun t ht => by rw [hversion]; exact of_decide_eq_true (hpassed t ht)
  exact ⟨first, h, p, hserved, of_decide_eq_true hcheck,
    snapshot_never_stale (.start ⟨_, hopens⟩) hserved rollAndBuy_own (i := 2) rfl
      (fun t ht => ⟨(hpassed t ht).1, (hpassed t ht).2.1⟩) fun t ht => (hpassed t ht).2.2⟩

/-- The snapshot is read before the roll is stored, and queued after the
roll's broadcast: the client ends on the game before the roll. -/
theorem late_snapshot_is_stale :
    ∃ first h p, Opens (duo 1500) first.state ∧ Served defaultSettings rollAndBuy first h p ∧
      (∀ t ∈ h, ReadsLatest t.before.world t.label ∧
        PublishesNext first.version t.before.world t.label) ∧
      (p.world.connections 0).map (·.versions) = some [1, 0] ∧ ¬ Resynced h 2 0 0 p.world := by
  obtain ⟨first, h, p, hopens, hversion, hserved, hpassed, hcheck⟩ := served_of_schedules (duo 1500)
    [0, 1] rollAndBuy (turnsOf [2, 2, 2, 2, 2, 2, 2, 0, 0, 0, 0, 0, 0, 0, 0, 3, 2])
    (fun w e => decide (ReadsLatest w e ∧ PublishesNext 0 w e))
    (fun p => decide ((p.world.connections 0).map (·.versions) = some [1, 0]))
    (by decide) (by decide +kernel)
  have hversions := of_decide_eq_true hcheck
  refine ⟨first, h, p, hopens, hserved, fun t ht => ?_, hversions, fun hresynced => ?_⟩
  · rw [hversion]
    exact of_decide_eq_true (hpassed t ht)
  obtain ⟨conn, hconn, hqueue⟩ := Option.map_eq_some_iff.mp hversions
  have hsorted := hresynced.order conn hconn
  rw [hqueue] at hsorted
  simp at hsorted

end Law

end Monopoly
