import Mathlib.Data.Finset.Card
import Monopoly.Lib.Coroutine
import Monopoly.Service.World

/-!
# Monopoly.Service.Fanout

A node's subscription to the channel of one session
(`gateway/backplane.py`), as the connections of `gateway/router.py` take and
leave it.  A coroutine runs undisturbed from one of its awaits to the next,
so an operation here is such a stretch, or what Redis does during an await.
-/

namespace Monopoly.Fanout

/-- The node, after `start()`. -/
structure World where
  /-- `self._subscriptions.get(session_id, 0)`. -/
  subscriptions : Nat
  /-- Redis sends the session's messages to the node. -/
  subscribed : Bool

inductive Op where
  /-- `subscribe` up to its await: the count is read, and raised at once
  unless it is zero. -/
  | enterSubscribe
  /-- `self._pubsub.subscribe(..)`. -/
  | redisSubscribe
  | setSubscriptions (count : Nat)
  /-- `unsubscribe` up to its await: the count is read, and lowered at once
  if it is more than one. -/
  | enterUnsubscribe
  /-- `self._pubsub.unsubscribe(..)`. -/
  | redisUnsubscribe
  /-- `self._subscriptions.pop(session_id, None)`. -/
  | popSubscriptions

abbrev Op.Ans : Op → Type
  | .enterSubscribe | .enterUnsubscribe => Nat
  | _ => Unit

def exec (_ : ConnectionId) (w : World) : (op : Op) → op.Ans → World → Prop
  | .enterSubscribe, count, w' =>
      count = w.subscriptions ∧
        w' = if count = 0 then w else { w with subscriptions := count + 1 }
  | .redisSubscribe, _, w' => w' = { w with subscribed := true }
  | .setSubscriptions count, _, w' => w' = { w with subscriptions := count }
  | .enterUnsubscribe, count, w' =>
      count = w.subscriptions ∧
        w' = if count ≤ 1 then w else { w with subscriptions := count - 1 }
  | .redisUnsubscribe, _, w' => w' = { w with subscribed := false }
  | .popSubscriptions, _, w' => w' = { w with subscriptions := 0 }

abbrev Flow := Co Op Op.Ans

/-- `await`, of one operation. -/
abbrev ask (op : Op) : Flow op.Ans := Co.await op

/-- The rest of `subscribe`, once the count was read. -/
def subscribeRead (count : Nat) : Flow Unit :=
  if count = 0 then do
    ask .redisSubscribe
    ask (.setSubscriptions (count + 1))
  else return ()

def subscribe : Flow Unit := do
  let count : Nat ← ask .enterSubscribe
  subscribeRead count

/-- The rest of `unsubscribe`, once the count was read. -/
def unsubscribeRead (count : Nat) : Flow Unit :=
  if count ≤ 1 then do
    ask .redisUnsubscribe
    ask .popSubscriptions
  else return ()

def unsubscribe : Flow Unit := do
  let count : Nat ← ask .enterUnsubscribe
  unsubscribeRead count

/-- A connection subscribes once, and later unsubscribes once. -/
def connection : Flow Unit := do
  subscribe
  unsubscribe

/-- The node and its connections. -/
abbrev Node := Pool ConnectionId World Op Op.Ans Unit

/-- One step of the node. -/
abbrev Step := Taken Node (Event ConnectionId Op Op.Ans)

/-- The runs of a node without connections. -/
abbrev Runs := Pool.Runs exec (· = ⟨0, false⟩) (fun _ : ConnectionId => connection)

/-- The connection is not inside a call: it has not subscribed, listens, or
has unsubscribed. -/
def isResting (c : Flow Unit) : Bool :=
  match c with
  | .done _ | .call .enterSubscribe _ | .call .enterUnsubscribe _ => true
  | _ => false

/-- A call of the connection is in flight. -/
def InCall (p : Node) (i : ConnectionId) : Prop := isResting (p.flow i) = false

/-- The connection has subscribed, and has not yet called `unsubscribe`. -/
def Listens (p : Node) (i : ConnectionId) : Prop := p.flow i = unsubscribe

/-! ## the places of a connection -/

/-- During the first await of `subscribe`, and after it. -/
def opening : Flow Unit := do
  ask .redisSubscribe
  ask (.setSubscriptions 1)
  unsubscribe

def opened : Flow Unit := do
  ask (.setSubscriptions 1)
  unsubscribe

/-- During the await of `unsubscribe`, and after it. -/
def closing : Flow Unit := do
  ask .redisUnsubscribe
  ask .popSubscriptions

/-- How a connection goes on after each of its calls. -/
def Goes : (op : Op) → (op.Ans → Flow Unit) → Prop
  | .enterSubscribe, k => ∀ count, k count = if count = 0 then opening else unsubscribe
  | .redisSubscribe, k => ∀ u, k u = opened
  | .setSubscriptions count, k => count = 1 ∧ ∀ u, k u = unsubscribe
  | .enterUnsubscribe, k =>
      Co.call .enterUnsubscribe k = unsubscribe ∧
        ∀ count, k count = if count ≤ 1 then closing else .done ()
  | .redisUnsubscribe, k => ∀ u, k u = ask .popSubscriptions
  | .popSubscriptions, k => ∀ u, k u = .done ()

theorem unsubscribe_goes : unsubscribe.Every Goes := by
  refine Co.every_await.mpr ⟨⟨rfl, fun count => rfl⟩, fun count => ?_⟩
  unfold unsubscribeRead
  split
  · exact Co.every_await.mpr ⟨fun _ => rfl, fun _ => ⟨fun _ => rfl, fun _ => trivial⟩⟩
  · trivial

theorem connection_goes : connection.Every Goes := by
  have hread : ∀ count : Nat, (subscribeRead count >>= fun _ => unsubscribe) =
      if count = 0 then opening else unsubscribe := by
    intro count
    unfold subscribeRead
    split
    · rename_i hzero
      subst hzero
      rfl
    · rfl
  refine ⟨hread, fun count => ?_⟩
  change (subscribeRead count >>= fun _ => unsubscribe).Every Goes
  rw [hread]
  split
  · exact ⟨fun _ => rfl, fun _ => ⟨⟨rfl, fun _ => rfl⟩, fun _ => unsubscribe_goes⟩⟩
  · exact unsubscribe_goes

/-- A waiting connection makes a call of its code. -/
theorem Runs.goes {h : List Step} {p : Node} (hrun : Runs h p) {i : ConnectionId} {op : Op}
    {k : op.Ans → Flow Unit} (hflow : p.flow i = .call op k) : Goes op k := by
  have hevery := Pool.Runs.every hrun (i := i) connection_goes
  rw [hflow] at hevery
  exact hevery.1

/-! ## replays -/

def perform : Performer ConnectionId World Op Unit Op.Ans
  | _, _, w, .enterSubscribe =>
      some (w.subscriptions, if w.subscriptions = 0 then w else
        { w with subscriptions := w.subscriptions + 1 })
  | _, _, w, .redisSubscribe => some ((), { w with subscribed := true })
  | _, _, w, .setSubscriptions count => some ((), { w with subscriptions := count })
  | _, _, w, .enterUnsubscribe =>
      some (w.subscriptions, if w.subscriptions ≤ 1 then w else
        { w with subscriptions := w.subscriptions - 1 })
  | _, _, w, .redisUnsubscribe => some ((), { w with subscribed := false })
  | _, _, w, .popSubscriptions => some ((), { w with subscriptions := 0 })

theorem perform_exec (i : ConnectionId) (hint : Unit) (w : World) (op : Op) (r : op.Ans)
    (w' : World) (h : perform i hint w op = some (r, w')) : exec i w op r w' := by
  cases op with
  | enterSubscribe | enterUnsubscribe =>
      obtain ⟨rfl, rfl⟩ := Prod.mk.inj (Option.some.inj h)
      exact ⟨rfl, rfl⟩
  | _ =>
      obtain ⟨-, rfl⟩ := Prod.mk.inj (Option.some.inj h)
      rfl

theorem runs_of_replays (turns : List ConnectionId) (check : List Step → Node → Bool)
    (hreplays : Pool.Replays perform ⟨⟨0, false⟩, fun _ => connection⟩ (turns.map (·, ())) check =
      true) : ∃ h p, Runs h p ∧ check h p = true :=
  Pool.runs_of_replays perform_exec rfl rfl hreplays

end Monopoly.Fanout
