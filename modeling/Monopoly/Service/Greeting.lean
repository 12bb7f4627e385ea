import Monopoly.Lib.Checked
import Monopoly.Service.Effects

/-!
# Monopoly.Service.Greeting

How a client's connection starts: its flow alone creates the connection, it
reads the game with the connection in place, and it puts one snapshot in the
queue.
-/

namespace Monopoly

/-! ## frames -/

/-- The version of the game a frame shows. -/
def Frame.version : Frame → Option Nat
  | .gameState frame => some frame.version
  | _ => none

/-- A snapshot is a game state without a number. -/
def Frame.isSnapshot : Frame → Bool
  | .gameState frame => frame.seq.isNone
  | _ => false

theorem buildGameStateMessage_ok {state : GameState} {version : Nat} {userId : UserId}
    {timeline : List AnimationInstruction} {seq : Option Nat} {frame : GameFrame}
    (h : buildGameStateMessage state version userId timeline seq = .ok frame) :
    frame.version = version ∧ frame.seq = seq := by
  simp only [buildGameStateMessage] at h
  cases hactions : withActionsFor state (viewerOf state userId) with
  | error e => simp [hactions] at h
  | ok snapshot =>
      simp only [hactions, ok_bind] at h
      obtain rfl := Except.ok.inj h
      exact ⟨rfl, rfl⟩

theorem enqueue_cases (conn : Connection) (frame : Frame) :
    (conn.enqueue frame).2 = conn ∨
    (conn.enqueue frame).2 = { conn with queue := conn.queue ++ [frame] } := by
  unfold Connection.enqueue
  split
  · exact .inr rfl
  · exact .inl rfl

/-- A dispatched message adds at most one frame, which shows what the message
is about and is no snapshot. -/
theorem dispatch_cases (conn : Connection) (msg : Envelope) :
    (conn.dispatch msg).node = conn.node ∧
    ((conn.dispatch msg).queue = conn.queue ∨
      ∃ frame, (conn.dispatch msg).queue = conn.queue ++ [frame] ∧
        frame.version = msg.body.subject ∧ frame.isSnapshot = false) := by
  have hput : ∀ frame : Frame, (conn.enqueueOrClose frame).node = conn.node ∧
      ((conn.enqueueOrClose frame).queue = conn.queue ∨
        (conn.enqueueOrClose frame).queue = conn.queue ++ [frame]) := by
    intro frame
    by_cases hroom : conn.HasRoom
    · simp [Connection.enqueueOrClose, Connection.enqueue, hroom]
    · simp [Connection.enqueueOrClose, Connection.enqueue, hroom]
  cases hbody : msg.body with
  | other =>
      obtain ⟨hnode, hqueue⟩ := hput .other
      simp only [Connection.dispatch, hbody]
      refine ⟨hnode, hqueue.imp_right fun h => ⟨_, h, rfl, rfl⟩⟩
  | gameState b =>
      simp only [Connection.dispatch, hbody]
      cases hframe : buildGameStateMessage b.state b.version conn.userId b.timeline
          (some msg.seq) with
      | error e => exact ⟨rfl, .inl rfl⟩
      | ok frame =>
          obtain ⟨hversion, hseq⟩ := buildGameStateMessage_ok hframe
          obtain ⟨hnode, hqueue⟩ := hput (.gameState frame)
          refine ⟨hnode, hqueue.imp_right fun h => ⟨_, h, ?_, ?_⟩⟩
          · simp [Frame.version, Body.subject, hversion]
          · simp [Frame.isSnapshot, hseq]

/-- With room, and a state that can be rendered, the frame is added. -/
theorem dispatch_of_room {conn : Connection} {msg : Envelope} (hroom : conn.HasRoom)
    (hrender : ∀ b, msg.body = .gameState b →
      ∃ frame, buildGameStateMessage b.state b.version conn.userId b.timeline (some msg.seq) =
        .ok frame) :
    ∃ frame, (conn.dispatch msg).queue = conn.queue ++ [frame] ∧
      frame.version = msg.body.subject := by
  have hput : ∀ frame : Frame, (conn.enqueueOrClose frame).queue = conn.queue ++ [frame] := by
    intro frame
    simp [Connection.enqueueOrClose, Connection.enqueue, hroom]
  cases hbody : msg.body with
  | other =>
      simp only [Connection.dispatch, hbody]
      exact ⟨_, hput .other, rfl⟩
  | gameState b =>
      obtain ⟨frame, hframe⟩ := hrender b hbody
      obtain ⟨hversion, -⟩ := buildGameStateMessage_ok hframe
      simp only [Connection.dispatch, hbody, hframe]
      exact ⟨_, hput (.gameState frame), by simp [Frame.version, Body.subject, hversion]⟩

/-! ## the connecting flow -/

/-- Connections have their own ids, as `uuid4` gives them. -/
def OwnConnections (requests : FlowId → Request) : Prop :=
  ∀ i j conn node node' user user', requests i = .connect conn node user →
    requests j = .connect conn node' user' → i = j

/-- The connection is in place on its node. -/
def World.Connected (w : World) (id : ConnectionId) (node : NodeId) : Prop :=
  ∃ conn, w.connections id = some conn ∧ conn.node = node

/-- No snapshot was put in the connection's queue. -/
def World.Unread (w : World) (id : ConnectionId) : Prop :=
  ∀ conn, w.connections id = some conn → ∀ frame ∈ conn.queue, frame.isSnapshot = false

/-- Only the connecting flow creates its connection and puts a snapshot in
its queue, one; and it reads with the connection in place. -/
def Greets (requests : FlowId → Request) (i : FlowId) (w : World) : Op → Prop
  | .register id node userId => requests i = .connect id node userId ∧ w.connections id = none
  | .enqueue id frame => (∃ node userId, requests i = .connect id node userId) ∧
      (frame.version ≠ none → frame.isSnapshot = true ∧ w.Unread id)
  | .findBySessionId => ∀ id node userId, requests i = .connect id node userId →
      w.Connected id node
  | _ => True

/-- What the others leave of a connecting flow's connection. -/
structure Spared (w w' : World) (id : ConnectionId) : Prop where
  absent : w.connections id = none → w'.connections id = none
  connected : ∀ node, w.Connected id node → w'.Connected id node
  unread : w.Unread id → w'.Unread id

theorem Spared.refl (w : World) (id : ConnectionId) : Spared w w id :=
  ⟨fun h => h, fun _ h => h, fun h => h⟩

theorem Spared.trans {w w' w'' : World} {id : ConnectionId} (h : Spared w w' id)
    (h' : Spared w' w'' id) : Spared w w'' id :=
  ⟨fun ha => h'.absent (h.absent ha), fun node hc => h'.connected node (h.connected node hc),
    fun hu => h'.unread (h.unread hu)⟩

section Greeting

variable {requests : FlowId → Request} {i j : FlowId} {w w' : World} {op : Op} {r : op.Ans}
  {id : ConnectionId} {node : NodeId} {userId : UserId}

/-- A step that neither creates the connection nor puts a frame in its queue
itself spares it. -/
theorem exec_spared (h : exec i w op r w')
    (hregister : ∀ node userId, op ≠ .register id node userId)
    (henqueue : ∀ frame, op ≠ .enqueue id frame) : Spared w w' id := by
  have hstep := exec_connections h id
  generalize hentry : w'.connections id = entry at hstep
  cases hstep with
  | same =>
      refine ⟨fun ha => hentry.trans ha, fun node hc => ?_, fun hu conn hconn => ?_⟩
      · obtain ⟨conn, hconn, hnode⟩ := hc
        exact ⟨conn, hentry.trans hconn, hnode⟩
      · exact hu conn (hentry.symm.trans hconn)
  | registered node userId hop => exact absurd hop (hregister node userId)
  | enqueued frame conn hop _ => exact absurd hop (henqueue frame)
  | dispatched next msg conn hop hnext hmsg hconn =>
      obtain ⟨hnode, hqueue⟩ := dispatch_cases conn msg
      refine ⟨fun ha => by simp [hconn] at ha, fun node hc => ?_, fun hu conn' hconn' => ?_⟩
      · obtain ⟨c, hc, rfl⟩ := hc
        obtain rfl := Option.some.inj (hconn.symm.trans hc)
        exact ⟨_, hentry, hnode⟩
      · obtain rfl := Option.some.inj (hentry.symm.trans hconn')
        intro frame hframe
        rcases hqueue with hqueue | ⟨new, hqueue, -, hsnapshot⟩
        · exact hu conn hconn frame (hqueue ▸ hframe)
        · rcases List.mem_append.mp (hqueue ▸ hframe) with hframe | hframe
          · exact hu conn hconn frame hframe
          · exact List.mem_singleton.mp hframe ▸ hsnapshot
  | taken conn hop hconn =>
      refine ⟨fun ha => by simp [hconn] at ha, fun node hc => ?_, fun hu conn' hconn' => ?_⟩
      · obtain ⟨c, hc, rfl⟩ := hc
        obtain rfl := Option.some.inj (hconn.symm.trans hc)
        exact ⟨_, hentry, rfl⟩
      · obtain rfl := Option.some.inj (hentry.symm.trans hconn')
        exact hu conn hconn

/-- Each connecting flow is promised that the others spare its
connection. -/
def greeting (requests : FlowId → Request) (hown : OwnConnections requests) : Protocol exec where
  inv _ := True
  guar := Greets requests
  rely i w w' := ∀ id node userId, requests i = .connect id node userId → Spared w w' id
  rely_refl _ w id _ _ _ := .refl w id
  rely_trans _ _ _ _ h h' id node userId hrequest :=
    (h id node userId hrequest).trans (h' id node userId hrequest)
  keeps _ _ _ _ _ _ _ _ := trivial
  spares i j w op r w' hij _ hop hexec id node userId hrequest := by
    refine exec_spared hexec ?_ ?_
    · rintro node' userId' rfl
      exact hij (hown j i id node node' userId userId' hrequest hop.1)
    · rintro frame rfl
      obtain ⟨⟨node', userId', hrequest'⟩, -⟩ := hop
      exact hij (hown j i id node node' userId userId' hrequest hrequest')

/-! ## each flow keeps its promises -/

/-- The operations that leave every connection in place and put no frame in a
queue themselves. -/
def Op.Plain : Op → Prop
  | .register .. | .enqueue .. => False
  | _ => True

theorem broadcast_plain (body : Body) : (broadcast body).Uses Op.Plain :=
  ⟨trivial, fun _ => ⟨trivial, fun _ => trivial⟩⟩

theorem applyRead_plain (settings : Settings) (userId : UserId) (command : GameCommand)
    (stored : Option StoredGame) : (applyRead settings userId command stored).Uses Op.Plain := by
  cases stored with
  | none => trivial
  | some stored =>
      simp only [applyRead]
      cases resolveCommand stored.state userId command with
      | error e => trivial
      | ok resolved =>
          refine ⟨trivial, fun clock => ⟨trivial, fun tradeId => ?_⟩⟩
          show (storeApplied stored resolved
            (apply stored.state resolved (applyEnv settings stored clock tradeId))).Uses Op.Plain
          cases apply stored.state resolved (applyEnv settings stored clock tradeId) with
          | error e => trivial
          | ok applied =>
              refine ⟨trivial, fun updated => ?_⟩
              cases updated with
              | none => trivial
              | some game => trivial

theorem applyAndPublish_plain (settings : Settings) (process : Process) (userId : UserId)
    (command : GameCommand) : (applyAndPublish settings process userId command).Uses Op.Plain := by
  have hintent : (applyIntent settings process userId command).Uses Op.Plain :=
    ⟨trivial, fun _ => ⟨trivial, fun stored =>
      (applyRead_plain settings userId command stored).bind fun _ => ⟨trivial, fun _ => trivial⟩⟩⟩
  refine hintent.bind fun result => ?_
  cases result with
  | error failure => trivial
  | ok answer =>
      exact (broadcast_plain _).bind fun _ => finishIfOver_uses
        (finishSession_uses trivial trivial trivial fun _ => trivial) _ _

theorem tickOne_plain (settings : Settings) : (tickOne settings).Uses Op.Plain := by
  refine ⟨trivial, fun (stored : Option StoredGame) => ?_⟩
  cases stored with
  | none => trivial
  | some stored =>
      refine ⟨trivial, fun (clock : Clock) => ?_⟩
      show (tickDue settings stored clock (dueCommand stored.state clock)).Uses Op.Plain
      cases dueCommand stored.state clock with
      | none => trivial
      | some command =>
          refine ⟨trivial, fun (tradeId : Nat) => ?_⟩
          show (storeTick stored
            (apply stored.state command (applyEnv settings stored clock tradeId))).Uses Op.Plain
          cases apply stored.state command (applyEnv settings stored clock tradeId) with
          | error e => trivial
          | ok applied =>
              refine ⟨trivial, fun (updated : Option StoredGame) => ?_⟩
              cases updated with
              | none => trivial
              | some game =>
                  exact (broadcast_plain _).bind fun _ => finishIfOver_uses
                    (finishTicked_uses trivial trivial trivial fun _ => trivial) _ _

theorem subscribe_plain (node : NodeId) : (subscribe node).Uses Op.Plain :=
  subscribe_uses trivial trivial fun _ => trivial

theorem serve_plain (settings : Settings) {request : Request}
    (hrequest : ∀ id node userId, request ≠ .connect id node userId) :
    (serve settings request).Uses Op.Plain := by
  cases request with
  | intent process userId command => exact applyAndPublish_plain settings process userId command
  | tick => exact tickOne_plain settings
  | message => exact (broadcast_plain .other).bind fun _ => trivial
  | connect id node userId => exact absurd rfl (hrequest id node userId)
  | reader node => exact ⟨trivial, fun _ => trivial⟩
  | sender conn => exact ⟨trivial, fun _ => trivial⟩

variable {hown : OwnConnections requests} {settings : Settings}

/-- The connection is in place, and no snapshot was sent on it. -/
def World.Waiting (w : World) (id : ConnectionId) (node : NodeId) : Prop :=
  w.Connected id node ∧ w.Unread id

theorem Spared.waiting (h : Spared w w' id) (hw : w.Waiting id node) : w'.Waiting id node :=
  ⟨h.connected node hw.1, h.unread hw.2⟩

/-- The frames of the connecting flow's own, the welcome, keep it waiting. -/
theorem enqueue_waiting {frame : Frame} {ok : Bool} (hsnapshot : frame.isSnapshot = false)
    (hw : w.Waiting id node) (h : exec i w (.enqueue id frame) ok w') : w'.Waiting id node := by
  obtain ⟨conn, hconn, -, hw'⟩ := h
  have hentry : w'.connections id = some (conn.enqueue frame).2 := by simp [hw']
  obtain ⟨⟨c, hc, hnode⟩, hunread⟩ := hw
  obtain rfl := Option.some.inj (hconn.symm.trans hc)
  rcases enqueue_cases conn frame with henqueue | henqueue
  · rw [henqueue] at hentry
    refine ⟨⟨conn, hentry, hnode⟩, fun c' hc' => ?_⟩
    obtain rfl := Option.some.inj (hentry.symm.trans hc')
    exact hunread conn hconn
  · rw [henqueue] at hentry
    refine ⟨⟨_, hentry, hnode⟩, fun c' hc' f hf => ?_⟩
    obtain rfl := Option.some.inj (hentry.symm.trans hc')
    rcases List.mem_append.mp hf with hf | hf
    · exact hunread conn hconn f hf
    · exact List.mem_singleton.mp hf ▸ hsnapshot

theorem exec_waiting (hplain : op.Plain) (hw : w.Waiting id node) (h : exec i w op r w') :
    w'.Waiting id node := by
  refine (exec_spared h ?_ ?_).waiting hw
  · rintro node' userId' rfl
    exact hplain.elim
  · rintro frame rfl
    exact hplain.elim

theorem greets_of_plain (hrequest : requests i = .connect id node userId) (hplain : op.Plain)
    (hw : w.Waiting id node) : Greets requests i w op := by
  cases op with
  | register => exact hplain.elim
  | enqueue => exact hplain.elim
  | findBySessionId =>
      intro id' node' userId' hrequest'
      obtain ⟨rfl, rfl, rfl⟩ := Request.connect.inj (hrequest.symm.trans hrequest')
      exact hw.1
  | _ => trivial

/-- A plain operation of the connecting flow keeps it waiting. -/
theorem plain_holds (op : Op) {k : op.Ans → Flow α} {Q : α → World → Prop}
    (hrequest : requests i = .connect id node userId) (hplain : op.Plain)
    (hw : w.Waiting id node)
    (hnext : ∀ r w', w'.Waiting id node → (greeting requests hown).Holds i Q (k r) w') :
    (greeting requests hown).Holds i Q (.call op k) w := by
  intro w₁ _ hrely
  have hw₁ := (hrely id node userId hrequest).waiting hw
  exact ⟨greets_of_plain hrequest hplain hw₁, fun r w₂ hexec =>
    hnext r w₂ (exec_waiting hplain hw₁ hexec)⟩

/-- A plain part of the connecting flow keeps it waiting. -/
theorem part_holds {c : Flow α} (hrequest : requests i = .connect id node userId)
    (hplain : c.Uses Op.Plain) (hw : w.Waiting id node) :
    (greeting requests hown).Holds i (fun _ w => w.Waiting id node) c w := by
  refine Protocol.Holds.of_uses ?_ ?_ ?_ hplain hw
  · exact fun w w' hrely hw => (hrely id node userId hrequest).waiting hw
  · exact fun w op _ hop hw => greets_of_plain hrequest hop hw
  · exact fun w op r w' _ hop hw hexec => exec_waiting hop hw hexec

theorem greet_greets (hrequest : requests i = .connect id node userId) (hw : w.Waiting id node) :
    (greeting requests hown).Holds i (fun _ _ => True) (greet id userId) w := by
  refine plain_holds .getSeq hrequest trivial hw fun seqStart w₁ hw₁ => ?_
  intro w₂ _ hrely₂
  refine ⟨⟨⟨node, userId, hrequest⟩, fun hversion => absurd rfl hversion⟩, fun _ w₃ hexec => ?_⟩
  have hw₂ := (hrely₂ id node userId hrequest).waiting hw₁
  have hw₃ := enqueue_waiting rfl hw₂ hexec
  refine plain_holds .findBySessionId hrequest trivial hw₃
    fun (stored : Option StoredGame) w₄ hw₄ => ?_
  cases stored with
  | none => exact fun _ _ _ => trivial
  | some stored =>
      show (greeting requests hown).Holds i (fun _ _ => True)
        (enqueueSnapshot id (snapshotMessage stored userId)) w₄
      cases hmessage : snapshotMessage stored userId with
      | error e => exact fun _ _ _ => trivial
      | ok frame =>
          intro w₅ _ hrely₅
          have hw₅ := (hrely₅ id node userId hrequest).waiting hw₄
          refine ⟨⟨⟨node, userId, hrequest⟩, fun _ => ⟨?_, hw₅.2⟩⟩, fun _ _ _ _ _ _ => trivial⟩
          simp only [snapshotMessage] at hmessage
          cases hactions : withActionsFor stored.state none with
          | error e => simp [hactions] at hmessage
          | ok state =>
              simp only [hactions, ok_bind] at hmessage
              simp [Frame.isSnapshot, (buildGameStateMessage_ok hmessage).2]

theorem connect_holds (hrequest : requests i = .connect id node userId)
    (hw : w.connections id = none) :
    (greeting requests hown).Holds i (fun _ _ => True) (wsEndpoint id node userId) w := by
  intro w₁ _ hrely
  have habsent := (hrely id node userId hrequest).absent hw
  refine ⟨⟨hrequest, habsent⟩, fun _ w₂ hexec => ?_⟩
  have hw₂ : w₂.Waiting id node := by
    cases hexec
    refine ⟨⟨{ node, userId }, by simp, rfl⟩, fun conn hconn frame hframe => ?_⟩
    obtain rfl : { node, userId } = conn := by simpa using hconn
    simp at hframe
  exact (part_holds hrequest (subscribe_plain node) hw₂).bind trivial fun _ w₃ _ hw₃ =>
    greet_greets hrequest hw₃

theorem serve_greets (hw : ∀ id, w.connections id = none) :
    (greeting requests hown).Holds i (fun _ _ => True) (serve settings (requests i)) w := by
  by_cases hconnect : ∃ id node userId, requests i = .connect id node userId
  · obtain ⟨id, node, userId, hrequest⟩ := hconnect
    rw [hrequest]
    exact connect_holds hrequest (hw id)
  · have hother : ∀ id node userId, requests i ≠ .connect id node userId :=
      fun id node userId h => hconnect ⟨id, node, userId, h⟩
    refine Protocol.Holds.of_uses (A := fun _ => True) (fun _ _ _ h => h) ?_
      (fun _ _ _ _ _ _ h _ => h) (serve_plain settings hother) trivial
    intro w op _ hop _
    cases op with
    | register => exact hop.elim
    | enqueue => exact hop.elim
    | findBySessionId => exact fun id node userId h => absurd h (hother id node userId)
    | _ => trivial

end Greeting

end Monopoly
