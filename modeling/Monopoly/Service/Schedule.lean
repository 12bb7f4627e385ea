import Monopoly.Service.Flows
import Monopoly.Spec.Replay

/-!
# Monopoly.Service.Schedule

Runs of the server replayed from a schedule: whose turn it is, and the
answers that are not determined by the world.
-/

namespace Monopoly

/-- A turn of a flow, with what the clock, `uuid4` and a read would answer:
a read sees the document `back` commits behind the current one.  The room
that is marked is `room`, and the ratings raise `failed`. -/
structure Turn where
  flow : FlowId
  clock : Clock := ⟨0, 0⟩
  id : Nat := 7
  back : Nat := 0
  room : Option Session := none
  failed : Option PyError := none

/-- The operation carried out as the turn says, if it can be. -/
def perform (turn : Turn) (w : World) : (op : Op) → Option (op.Ans × World)
  | .lock process =>
      if w.locks process = none then
        some ((), { w with locks := Function.update w.locks process (some turn.flow) })
      else none
  | .unlock process => some ((), { w with locks := Function.update w.locks process none })
  | .now => some (turn.clock, w)
  | .uuid4 => some (turn.id, w)
  | .findBySessionId => some (w.commits[turn.back]?.map (·.document.toDomain), w)
  | .updateWithVersion gameId state expectedVersion rngState =>
      some (w.updateWithVersion turn.flow gameId state expectedVersion rngState)
  | .incr version => some (w.drawn.length + 1, { w with drawn := w.drawn ++ [version] })
  | .publish msg => some ((), { w with channel := w.channel ++ [msg] })
  | .getSeq => some (w.drawn.length, w)
  | .getSubscriptions node => some ((w.nodes node).subscriptions, w)
  | .setSubscriptions node count =>
      some ((), w.updateNode node fun n => { n with subscriptions := count })
  | .redisSubscribe node =>
      some ((), w.updateNode node fun n =>
        { n with cursor := some (n.cursor.getD w.channel.length) })
  | .register conn node userId =>
      some ((), { w with
        connections := Function.update w.connections conn (some { node, userId }) })
  | .enqueue id frame =>
      (w.connections id).map fun conn => ((conn.enqueue frame).1, { w with
        connections := Function.update w.connections id (some (conn.enqueue frame).2) })
  | .getMessage node =>
      (w.nodes node).cursor.bind fun next =>
        w.channel[next]?.map fun msg => ((), w.dispatch node next msg)
  | .take id =>
      (w.connections id).bind fun conn =>
        if conn.sent < conn.queue.length then
          let taken := { conn with sent := conn.sent + 1 }
          some ((), { w with connections := Function.update w.connections id (some taken) })
        else none
  | .markFinished => some (turn.room.map (·.withStatus .finished), w)
  | .applyRatings => some (turn.failed, w)

theorem perform_exec {turn : Turn} {w w' : World} {op : Op} {r : op.Ans}
    (h : perform turn w op = some (r, w')) : exec turn.flow w op r w' := by
  cases op with
  | lock process =>
      simp only [perform] at h
      by_cases hfree : w.locks process = none
      · simp only [if_pos hfree, Option.some.injEq, Prod.mk.injEq] at h
        exact ⟨hfree, h.2.symm⟩
      · simp [hfree] at h
  | findBySessionId =>
      obtain ⟨rfl, rfl⟩ := Prod.mk.inj (Option.some.inj h)
      refine ⟨rfl, ?_⟩
      cases hfound : w.commits[turn.back]? with
      | none => exact .inl rfl
      | some c => exact .inr ⟨c, List.mem_of_getElem? hfound, rfl⟩
  | updateWithVersion gameId state version rng => exact (Option.some.inj h).symm
  | incr version =>
      obtain ⟨rfl, rfl⟩ := Prod.mk.inj (Option.some.inj h)
      exact ⟨rfl, rfl⟩
  | getSeq =>
      obtain ⟨rfl, rfl⟩ := Prod.mk.inj (Option.some.inj h)
      exact ⟨rfl, rfl⟩
  | getSubscriptions node =>
      obtain ⟨rfl, rfl⟩ := Prod.mk.inj (Option.some.inj h)
      exact ⟨rfl, rfl⟩
  | enqueue id frame =>
      obtain ⟨conn, hconn, heq⟩ := Option.map_eq_some_iff.mp h
      obtain ⟨rfl, rfl⟩ := Prod.mk.inj heq
      exact ⟨conn, hconn, rfl, rfl⟩
  | getMessage node =>
      obtain ⟨next, hnext, h⟩ := Option.bind_eq_some_iff.mp h
      obtain ⟨msg, hmsg, heq⟩ := Option.map_eq_some_iff.mp h
      obtain ⟨-, rfl⟩ := Prod.mk.inj heq
      exact ⟨next, msg, hnext, hmsg, rfl⟩
  | take id =>
      obtain ⟨conn, hconn, h⟩ := Option.bind_eq_some_iff.mp h
      by_cases hroom : conn.sent < conn.queue.length
      · simp only [if_pos hroom, Option.some.injEq, Prod.mk.injEq] at h
        exact ⟨conn, hconn, hroom, h.2.symm⟩
      · simp [hroom] at h
  | markFinished =>
      obtain ⟨rfl, rfl⟩ := Prod.mk.inj (Option.some.inj h)
      refine ⟨fun session hsession => ?_, rfl⟩
      obtain ⟨room, -, rfl⟩ := Option.map_eq_some_iff.mp hsession
      rfl
  | _ =>
      obtain ⟨-, rfl⟩ := Prod.mk.inj (Option.some.inj h)
      rfl

/-- The server after one turn of a waiting flow, if the step passes the
check. -/
def turnOf (ok : World → Event FlowId Op Op.Ans → Bool) (p : Server) (turn : Turn) :
    Option Server :=
  match p.flow turn.flow with
  | .done _ => none
  | .call op k =>
      (perform turn p.world op).bind fun answer =>
        if ok p.world ⟨turn.flow, op, answer.1⟩ then
          some ⟨answer.2, Function.update p.flow turn.flow (k answer.1)⟩
        else none

/-- The server after the turns, in their order. -/
def schedule (ok : World → Event FlowId Op Op.Ans → Bool) (p : Server) (turns : List Turn) :
    Option Server :=
  turns.foldlM (turnOf ok) p

section Runs

variable {ok : World → Event FlowId Op Op.Ans → Bool} {p p' : Server}

theorem turnOf_step {turn : Turn} (h : turnOf ok p turn = some p') :
    ∃ e, Pool.Step exec p e p' ∧ ok p.world e = true := by
  unfold turnOf at h
  cases hflow : p.flow turn.flow with
  | done a => simp [hflow] at h
  | call op k =>
      simp only [hflow] at h
      obtain ⟨answer, hanswer, h⟩ := Option.bind_eq_some_iff.mp h
      by_cases hok : ok p.world ⟨turn.flow, op, answer.1⟩ = true
      · rw [if_pos hok] at h
        obtain rfl := Option.some.inj h
        exact ⟨_, .step hflow (perform_exec hanswer), hok⟩
      · simp [hok] at h

theorem schedule_run {init : Server → Prop} {h : List (Taken Server (Event FlowId Op Op.Ans))}
    {turns : List Turn} (hrun : Run init (Pool.Step exec) h p)
    (hpassed : ∀ t ∈ h, ok t.before.world t.label = true) (hturns : schedule ok p turns = some p') :
    ∃ h', Run init (Pool.Step exec) h' p' ∧ ∀ t ∈ h', ok t.before.world t.label = true := by
  induction turns generalizing h p with
  | nil =>
      obtain rfl := Option.some.inj hturns
      exact ⟨h, hrun, hpassed⟩
  | cons turn rest ih =>
      simp only [schedule, List.foldlM_cons, Option.bind_eq_bind] at hturns
      obtain ⟨middle, hmiddle, hrest⟩ := Option.bind_eq_some_iff.mp hturns
      obtain ⟨e, hstep, hok⟩ := turnOf_step hmiddle
      exact ih (hrun.next hstep) (List.forall_mem_cons.mpr ⟨hok, hpassed⟩) hrest

end Runs

/-! ## sample servers -/

/-- The world of a session before anybody is connected. -/
def quietWorld (first : GameDocument) : World where
  commits := [⟨first, none⟩]
  locks _ := none
  drawn := []
  channel := []
  nodes _ := {}
  connections _ := none

theorem quietWorld_opened (first : GameDocument) : Opened first (quietWorld first) where
  commits := rfl
  drawn _ hv := by simp [quietWorld] at hv
  channel := rfl
  nodes _ := ⟨rfl, .inl rfl⟩
  subscribed _ h := absurd rfl h
  connections _ := rfl

/-- The flow has returned, with a passing outcome. -/
def returns (c : Flow Outcome) (ok : Outcome → Bool) : Bool :=
  match c with
  | .done outcome => ok outcome
  | .call .. => false

theorem of_returns {c : Flow Outcome} {ok : Outcome → Bool} (h : returns c ok = true) :
    ∃ outcome, c = .done outcome ∧ ok outcome = true := by
  cases c with
  | done outcome => exact ⟨outcome, rfl, h⟩
  | call op k => simp [returns] at h

def Outcome.isApplied : Outcome → Bool
  | .applied .. => true
  | _ => false

def Outcome.isConflict : Outcome → Bool
  | .refused .versionConflict => true
  | _ => false

theorem Outcome.eq_of_isConflict {outcome : Outcome} (h : outcome.isConflict = true) :
    outcome = .refused .versionConflict := by
  unfold Outcome.isConflict at h
  split at h
  · rfl
  · cases h

/-- One turn after the other, of these flows. -/
def turnsOf (flows : List FlowId) : List Turn := flows.map fun flow => { flow }

def defaultSettings : Settings where
  goSalary := 200
  jailFine := 50

/-- The server before its first step. -/
def quietServer (first : GameDocument) (requests : FlowId → Request) : Server where
  world := quietWorld first
  flow i := serve defaultSettings (requests i)

/-- The server of the new game `args`, where the ids are handed out from `1`
on and the generator is going to draw `draws`, passes the checks: `ok` at
each of the turns, `check` after them. -/
def Schedules (args : NewGame) (draws : List Nat) (requests : FlowId → Request)
    (turns : List Turn) (ok : World → Event FlowId Op Op.Ans → Bool) (check : Server → Bool) :
    Bool :=
  match newGame (· + 1) args with
  | .error _ => false
  | .ok (state, _) =>
      let first : GameDocument := { id := args.gameId, rngState := ⟨draws⟩, version := 0, state }
      match schedule ok (quietServer first requests) turns with
      | none => false
      | some p => check p

theorem served_of_schedules (args : NewGame) (draws : List Nat) (requests : FlowId → Request)
    (turns : List Turn) (ok : World → Event FlowId Op Op.Ans → Bool) (check : Server → Bool)
    (htwo : 2 ≤ args.members.length) (h : Schedules args draws requests turns ok check = true) :
    ∃ first history p, Opens args first.state ∧ first.version = 0 ∧
      Served defaultSettings requests first history p ∧
      (∀ t ∈ history, ok t.before.world t.label = true) ∧ check p = true := by
  unfold Schedules at h
  cases hnew : newGame (· + 1) args with
  | error e => simp [hnew] at h
  | ok r =>
      obtain ⟨state, rng⟩ := r
      simp only [hnew] at h
      set first : GameDocument := { id := args.gameId, rngState := ⟨draws⟩, version := 0, state }
      cases hturns : schedule ok (quietServer first requests) turns with
      | none => simp [hturns] at h
      | some p =>
          simp only [hturns] at h
          have hopens : Opens args state :=
            ⟨htwo, (· + 1), fun _ _ h => Nat.add_right_cancel h, rng, hnew⟩
          have hstart : Served defaultSettings requests first [] (quietServer first requests) :=
            .start ⟨quietWorld_opened first, rfl⟩
          obtain ⟨history, hrun, hpassed⟩ := schedule_run hstart (by simp) hturns
          exact ⟨first, history, p, hopens, rfl, hrun, hpassed, h⟩

/-- Every step passes. -/
def anyStep (_ : World) (_ : Event FlowId Op Op.Ans) : Bool := true

/-- A roll sent by the same user through two processes. -/
def twoTabs : FlowId → Request
  | 0 => .intent 0 1 (.rollDice 0)
  | 1 => .intent 1 1 (.rollDice 0)
  | _ => .message

/-- A roll and the purchase after it, and a client that reads on. -/
def rollAndBuy : FlowId → Request
  | 0 => .intent 0 1 (.rollDice 0)
  | 1 => .intent 0 1 (.buyProperty 0 4)
  | 2 => .connect 0 0 2
  | _ => .reader 0

end Monopoly
