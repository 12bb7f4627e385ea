import Monopoly.Service.Greeting
import Monopoly.Service.Promises

/-!
# Monopoly.Service.Telling

What the frames in a client's queue tell: each game state among them is that
of a stored document, as the client's own user gets to see it.
-/

namespace Monopoly

/-- The frame shows this state to this user: without the decks, and with the
actions the user's player has. -/
structure ShownTo (userId : UserId) (frame : GameFrame) (s : GameState) : Prop where
  viewer : frame.viewerId = viewerOf s userId
  state : ∃ actions,
    computeActions s ((viewerOf s userId).getD s.turn.currentPlayerId) = .ok actions ∧
      frame.state = withoutDecks { s with turn := { s.turn with actionsAvailable := actions } }

/-- The frame shows a document that was stored, to this user. -/
def Told (w : World) (userId : UserId) (frame : GameFrame) : Prop :=
  ∃ c ∈ w.commits, c.document.version = frame.version ∧ ShownTo userId frame c.document.state

/-- Every game state in the queue of a connection is told to its user. -/
def Truthful (w : World) : Prop :=
  ∀ id conn frame, w.connections id = some conn → .gameState frame ∈ conn.queue →
    Told w conn.userId frame

theorem Told.since {w w' : World} {userId : UserId} {frame : GameFrame}
    (h : Told w userId frame) (hs : Since w w') : Told w' userId frame := by
  obtain ⟨c, hc, hshows⟩ := h
  exact ⟨c, hs.commits c hc, hshows⟩

/-! ## the frames -/

section Frames

variable {s : GameState} {version : Nat} {userId : UserId} {timeline : List AnimationInstruction}
  {seq : Option Nat} {frame : GameFrame} {stored : StoredGame}

theorem withActionsFor_ok {viewer : Option PlayerId} {s' : GameState}
    (h : withActionsFor s viewer = .ok s') :
    ∃ actions, computeActions s (viewer.getD s.turn.currentPlayerId) = .ok actions ∧
      s' = { s with turn := { s.turn with actionsAvailable := actions } } := by
  simp only [withActionsFor] at h
  cases hactions : computeActions s (viewer.getD s.turn.currentPlayerId) with
  | error e => simp [hactions] at h
  | ok actions =>
      rw [hactions, ok_bind] at h
      exact ⟨actions, rfl, (Except.ok.inj h).symm⟩

theorem buildGameStateMessage_shows
    (h : buildGameStateMessage s version userId timeline seq = .ok frame) :
    ShownTo userId frame s := by
  simp only [buildGameStateMessage] at h
  cases hsnapshot : withActionsFor s (viewerOf s userId) with
  | error e => simp [hsnapshot] at h
  | ok snapshot =>
      rw [hsnapshot, ok_bind] at h
      obtain rfl := Except.ok.inj h
      obtain ⟨actions, hactions, rfl⟩ := withActionsFor_ok hsnapshot
      exact ⟨rfl, actions, hactions, rfl⟩

/-- A dispatched message adds at most one frame, and it shows what the message
carries to the user of the connection. -/
theorem dispatch_shows (conn : Connection) (msg : Envelope) :
    (conn.dispatch msg).userId = conn.userId ∧
    ∀ frame, .gameState frame ∈ (conn.dispatch msg).queue → .gameState frame ∈ conn.queue ∨
      ∃ b, msg.body = .gameState b ∧ frame.version = b.version ∧
        ShownTo conn.userId frame b.state := by
  have hput : ∀ new : Frame, (conn.enqueueOrClose new).userId = conn.userId ∧
      ((conn.enqueueOrClose new).queue = conn.queue ∨
        (conn.enqueueOrClose new).queue = conn.queue ++ [new]) := by
    intro new
    by_cases hroom : conn.HasRoom
    · simp [Connection.enqueueOrClose, Connection.enqueue, hroom]
    · simp [Connection.enqueueOrClose, Connection.enqueue, hroom]
  cases hbody : msg.body with
  | other =>
      obtain ⟨huser, hqueue⟩ := hput .other
      simp only [Connection.dispatch, hbody]
      refine ⟨huser, fun frame hframe => .inl ?_⟩
      rcases hqueue with hqueue | hqueue <;> rw [hqueue] at hframe
      · exact hframe
      · simpa using hframe
  | gameState b =>
      simp only [Connection.dispatch, hbody]
      cases hmessage : buildGameStateMessage b.state b.version conn.userId b.timeline
          (some msg.seq) with
      | error e => exact ⟨rfl, fun frame hframe => .inl hframe⟩
      | ok new =>
          obtain ⟨huser, hqueue⟩ := hput (.gameState new)
          refine ⟨huser, fun frame hframe => ?_⟩
          rcases hqueue with hqueue | hqueue <;> rw [hqueue] at hframe
          · exact .inl hframe
          · rcases List.mem_append.mp hframe with hframe | hframe
            · exact .inl hframe
            · obtain rfl : frame = new := by simpa using hframe
              exact .inr ⟨b, rfl, (buildGameStateMessage_ok hmessage).1,
                buildGameStateMessage_shows hmessage⟩

end Frames

/-! ## the protocol -/

section Telling

variable {settings : Settings} {requests : FlowId → Request} {first : GameDocument}
  {i j : FlowId} {w w' : World} {op : Op} {r : op.Ans} {id : ConnectionId} {node : NodeId}
  {userId : UserId}

/-- A connection is created by its own flow, which puts into its queue only
what it may tell the connection's user. -/
def Speaks (requests : FlowId → Request) (i : FlowId) (w : World) : Op → Prop
  | .register id node userId => requests i = .connect id node userId
  | .enqueue id frame => ∀ shown, frame = .gameState shown →
      ∀ conn, w.connections id = some conn → Told w conn.userId shown
  | _ => True

theorem Truthful.step (hw : Truthful w) (hsane : Sane settings requests first w)
    (hspeaks : Speaks requests i w op) (h : exec i w op r w') : Truthful w' := by
  intro id conn' frame hconn' hframe
  have hsince := exec_since h
  have hstep := exec_connections h id
  rw [hconn'] at hstep
  generalize hentry : some conn' = entry at hstep
  cases hstep with
  | same => exact (hw id conn' frame hentry.symm hframe).since hsince
  | registered node userId hop =>
      obtain rfl := Option.some.inj hentry
      simp at hframe
  | enqueued new conn hop hconn =>
      subst hop
      obtain rfl := Option.some.inj hentry
      rcases enqueue_cases conn new with henqueue | henqueue <;> rw [henqueue] at hframe ⊢
      · exact (hw id conn frame hconn hframe).since hsince
      · rcases List.mem_append.mp hframe with hframe | hframe
        · exact (hw id conn frame hconn hframe).since hsince
        · have hnew : new = .gameState frame := (List.mem_singleton.mp hframe).symm
          exact (hspeaks frame hnew conn hconn).since hsince
  | dispatched next msg conn hop hnext hmsg hconn =>
      obtain rfl := Option.some.inj hentry
      obtain ⟨huser, hframes⟩ := dispatch_shows conn msg
      rw [huser]
      rcases hframes frame hframe with hframe | ⟨b, hb, hversion, hshows⟩
      · exact (hw id conn frame hconn hframe).since hsince
      · obtain ⟨c, hc, hcversion, hcstate⟩ :=
          hsane.carried msg (List.mem_of_getElem? hmsg) b hb
        have htold : Told w conn.userId frame :=
          ⟨c, hc, hcversion.trans hversion.symm, hcstate ▸ hshows⟩
        exact htold.since hsince
  | taken conn hop hconn =>
      obtain rfl := Option.some.inj hentry
      exact (hw id conn frame hconn hframe).since hsince

variable {hown : OwnConnections requests}

/-! ## each flow tells the truth -/

end Telling

end Monopoly
