import Monopoly.Service.Effects

/-!
# Monopoly.Service.Announcements

What the flows owe their listeners.  A flow that has stored a game draws a
number for its version and publishes the game under that number
(`Backplane.publish`); until then it owes the number, and then the message.
The code says at each operation what will be owed after it: nothing stands
between the store and the publication but the return of the lock.
-/

namespace Monopoly

/-- What is left to do of an announcement: to draw the number of a version
that was stored, or to publish under a number that was drawn. -/
inductive Owed where
  | number (version : Nat)
  | message (seq : Nat)

/-- What a flow owes, by the operation it waits for. -/
def owes {α : Type} : Flow α → Option Owed
  | .call (.incr (some version)) _ => some (.number version)
  | .call (.publish msg) _ => some (.message msg.seq)
  | .call (.unlock _) k => owes (k ())
  | _ => none

/-- What a flow owes when it goes on from an answer. -/
def Op.leaves : (op : Op) → op.Ans → Option Owed
  | .updateWithVersion .., updated => updated.map fun game => .number game.version
  | .incr _, seq => some (.message seq)
  | _, _ => none

/-- The code goes on to number what it has stored and to publish under the
number it is given, and does nothing in between but return its lock. -/
def OwesNext {α : Type} (op : Op) (k : op.Ans → Flow α) : Prop :=
  (∀ process, op ≠ .unlock process) → ∀ r, owes (k r) = op.leaves r

section Code

variable {α β : Type} {c : Flow α} {f : α → Flow β}

/-- Code that owes nothing at its end leaves the debt of what comes before as
it is. -/
theorem owes_bind (hf : ∀ a, owes (f a) = none) : owes (c >>= f) = owes c := by
  induction c with
  | done a => exact hf a
  | call op k ih =>
      cases op with
      | unlock process => exact ih ()
      | incr version => cases version <;> rfl
      | _ => rfl

/-- Code in sequence keeps the rule when each part does and the second part
starts without a debt. -/
theorem owesNext_bind (hc : c.Every OwesNext) (hf : ∀ a, owes (f a) = none)
    (hrest : ∀ a, (f a).Every OwesNext) : (c >>= f).Every OwesNext := by
  induction c with
  | done a => exact hrest a
  | call op k ih =>
      exact ⟨fun hop r => (owes_bind hf).trans (hc.1 hop r), fun r => ih r (hc.2 r)⟩

/-- A broadcast draws its number and publishes under it, with nothing between.
-/
theorem broadcast_owes (body : Body) : (broadcast body).Every OwesNext :=
  ⟨fun _ _ => rfl, fun _ => ⟨fun _ _ => rfl, fun _ => trivial⟩⟩

theorem broadcastSessionUpdated_owes (session : Session) :
    owes (broadcastSessionUpdated session) = none ∧
      (broadcastSessionUpdated session).Every OwesNext := by
  unfold broadcastSessionUpdated
  split
  · exact ⟨rfl, trivial⟩
  · exact ⟨rfl, owesNext_bind (broadcast_owes _) (fun _ => rfl) fun _ => trivial⟩

theorem rateMarked_owes (found : Option Session) :
    owes (rateMarked found) = none ∧ (rateMarked found).Every OwesNext := by
  cases found with
  | none => exact ⟨rfl, trivial⟩
  | some session =>
      obtain ⟨hnone, hevery⟩ := broadcastSessionUpdated_owes session
      simp only [rateMarked]
      split
      · refine ⟨rfl, fun _ (failed : Option PyError) => ?_, fun (failed : Option PyError) => ?_⟩
        · cases failed with
          | none => exact hnone
          | some e => rfl
        · cases failed with
          | none => exact hevery
          | some e => trivial
      · exact ⟨hnone, hevery⟩

/-- Finishing the session publishes no game, so it owes nothing. -/
theorem finishSession_owes : owes finishSession = none ∧ finishSession.Every OwesNext :=
  ⟨rfl, fun _ found => (rateMarked_owes found).1, fun found => (rateMarked_owes found).2⟩

/-- Nor does marking the ratings as applied. -/
theorem markRated_owes : owes markRated = none ∧ markRated.Every OwesNext := by
  have hfound : ∀ found, owes (announceFinished found) = none ∧
      (announceFinished found).Every OwesNext := by
    intro found
    cases found with
    | none => exact ⟨rfl, trivial⟩
    | some session => exact broadcastSessionUpdated_owes session
  exact ⟨rfl, fun _ found => (hfound found).1, fun found => (hfound found).2⟩

theorem finishTicked_owes : owes finishTicked = none ∧ finishTicked.Every OwesNext := by
  have hfailed : ∀ failed, owes (unlessFailed markRated failed) = none ∧
      (unlessFailed markRated failed).Every OwesNext := by
    intro failed
    cases failed with
    | none => exact markRated_owes
    | some e => exact ⟨rfl, trivial⟩
  exact ⟨rfl, fun _ failed => (hfailed failed).1, fun failed => (hfailed failed).2⟩

/-- A stored game is announced before the end of the game is looked at. -/
theorem announced_owes {finish : Flow (Option PyError)} (game : StoredGame)
    (timeline : List AnimationInstruction) (outcome : Outcome)
    (hfinish : owes finish = none ∧ finish.Every OwesNext) :
    (publishGameState game timeline >>= fun _ => finishIfOver game outcome finish).Every
      OwesNext := by
  have hover : owes (finishIfOver game outcome finish) = none ∧
      (finishIfOver game outcome finish).Every OwesNext := by
    unfold finishIfOver
    split
    · exact ⟨(owes_bind fun _ => rfl).trans hfinish.1,
        owesNext_bind hfinish.2 (fun _ => rfl) fun _ => trivial⟩
    · exact ⟨rfl, trivial⟩
  exact owesNext_bind (broadcast_owes _) (fun _ => hover.1) fun _ => hover.2

/-- A tick owes a number from the moment it stores until its broadcast draws
one. -/
theorem storeTick_owes (stored : StoredGame) (applied : Py (Handled × Rng)) :
    owes (storeTick stored applied) = none ∧ (storeTick stored applied).Every OwesNext := by
  cases applied with
  | error e => exact ⟨rfl, trivial⟩
  | ok applied =>
      refine ⟨rfl, fun _ (updated : Option StoredGame) => ?_,
        fun (updated : Option StoredGame) => ?_⟩
      · cases updated <;> rfl
      · cases updated with
        | none => trivial
        | some game => exact announced_owes game [] _ finishTicked_owes

/-- The whole tick keeps the rule. -/
theorem tickOne_owes (settings : Settings) : (tickOne settings).Every OwesNext := by
  have hdue (stored : StoredGame) (clock : Clock) (due : Option GameCommand) :
      owes (tickDue settings stored clock due) = none ∧
        (tickDue settings stored clock due).Every OwesNext := by
    cases due with
    | none => exact ⟨rfl, trivial⟩
    | some command =>
        exact ⟨rfl, fun _ _ => (storeTick_owes _ _).1, fun _ => (storeTick_owes _ _).2⟩
  have hread (stored : Option StoredGame) : owes (tickRead settings stored) = none ∧
      (tickRead settings stored).Every OwesNext := by
    cases stored with
    | none => exact ⟨rfl, trivial⟩
    | some stored => exact ⟨rfl, fun _ _ => (hdue _ _ _).1, fun _ => (hdue _ _ _).2⟩
  exact ⟨fun _ stored => (hread stored).1, fun stored => (hread stored).2⟩

/-- What is left of an intent when its lock is to be returned. -/
def unlockAndPublish (process : Process)
    (result : Except Failure (StoredGame × List AnimationInstruction)) : Flow Outcome := do
  let result ← (do
    ask (.unlock process)
    return result)
  publishApplied result

/-- After the lock is returned the stored game is what is published first. -/
theorem unlockAndPublish_owes (process : Process)
    (result : Except Failure (StoredGame × List AnimationInstruction)) :
    (unlockAndPublish process result).Every OwesNext := by
  refine ⟨fun hop => absurd rfl (hop process), fun _ => ?_⟩
  cases result with
  | error failure => trivial
  | ok answer =>
      exact announced_owes answer.1 answer.2 _ finishSession_owes

theorem storeApplied_owes (process : Process) (stored : StoredGame) (command : GameCommand)
    (applied : Py (Handled × Rng)) :
    owes (storeApplied stored command applied >>= unlockAndPublish process) = none ∧
      (storeApplied stored command applied >>= unlockAndPublish process).Every OwesNext := by
  cases applied with
  | error e => exact ⟨rfl, unlockAndPublish_owes _ _⟩
  | ok applied =>
      refine ⟨rfl, fun _ (updated : Option StoredGame) => ?_,
        fun (updated : Option StoredGame) => ?_⟩
      · cases updated <;> rfl
      · cases updated with
        | none => exact unlockAndPublish_owes _ _
        | some game => exact unlockAndPublish_owes _ _

/-- An intent owes nothing before it has stored a game. -/
theorem applyRead_owes (settings : Settings) (process : Process) (userId : UserId)
    (command : GameCommand) (stored : Option StoredGame) :
    owes (applyRead settings userId command stored >>= unlockAndPublish process) = none ∧
      (applyRead settings userId command stored >>= unlockAndPublish process).Every
        OwesNext := by
  have hunlock failure : owes (unlockAndPublish process (.error failure)) = none ∧
      (unlockAndPublish process (.error failure)).Every OwesNext :=
    ⟨rfl, unlockAndPublish_owes _ _⟩
  cases stored with
  | none => exact hunlock _
  | some stored =>
      simp only [applyRead]
      cases resolveCommand stored.state userId command with
      | error e => exact hunlock e
      | ok resolved =>
          refine ⟨rfl, fun _ _ => rfl, fun clock => ⟨fun _ tradeId => ?_, fun tradeId => ?_⟩⟩
          · exact (storeApplied_owes process _ _ _).1
          · exact (storeApplied_owes process _ _ _).2

/-- The whole intent keeps the rule. -/
theorem applyAndPublish_owes (settings : Settings) (process : Process) (userId : UserId)
    (command : GameCommand) :
    (applyAndPublish settings process userId command).Every OwesNext := by
  have hrest (stored : Option StoredGame) :
      (applyRead settings userId command stored >>= fun result =>
        (ask (.unlock process) >>= fun _ => pure result)) >>= publishApplied =
      applyRead settings userId command stored >>= unlockAndPublish process := Co.bind_assoc _ _ _
  refine ⟨fun _ _ => rfl, fun _ => ⟨fun _ (stored : Option StoredGame) => ?_,
    fun (stored : Option StoredGame) => ?_⟩⟩
  · exact (congrArg owes (hrest stored)).trans (applyRead_owes _ _ _ _ stored).1
  · exact (congrArg (Co.Every OwesNext) (hrest stored)).mpr (applyRead_owes _ _ _ _ stored).2

/-- Operations after which nothing is owed, wherever the code stands. -/
def Op.Quiet (op : Op) : Prop := op.Free ∧ ∀ process, op ≠ .unlock process

/-- Code of quiet operations owes nothing. -/
theorem quiet_owes (hc : c.Uses Op.Quiet) : owes c = none ∧ c.Every OwesNext := by
  induction c with
  | done a => exact ⟨rfl, trivial⟩
  | call op k ih =>
      have hleaves : ∀ r, op.leaves r = none := by
        intro r
        cases op with
        | updateWithVersion => exact hc.1.1.elim
        | incr => exact hc.1.1.elim
        | _ => rfl
      refine ⟨?_, fun _ r => ?_, fun r => (ih r (hc.2 r)).2⟩
      · cases op with
        | incr => exact hc.1.1.elim
        | publish => exact hc.1.1.elim
        | unlock process => exact absurd rfl (hc.1.2 process)
        | _ => rfl
      · exact (ih r (hc.2 r)).1.trans (hleaves r).symm

/-- A connection stores and publishes no game. -/
theorem wsEndpoint_quiet (conn : ConnectionId) (node : NodeId) (userId : UserId) :
    (wsEndpoint conn node userId).Uses Op.Quiet := by
  have hsubscribe : (subscribe node).Uses Op.Quiet :=
    subscribe_uses ⟨trivial, by simp⟩ ⟨trivial, by simp⟩ fun _ => ⟨trivial, by simp⟩
  exact ⟨⟨trivial, by simp⟩, fun _ => hsubscribe.bind fun _ =>
    greet_uses ⟨trivial, by simp⟩ (fun _ => ⟨trivial, by simp⟩) ⟨trivial, by simp⟩ userId⟩

/-- No flow owes anything when it starts, and each announces what it stores. -/
theorem serve_owes (settings : Settings) (request : Request) :
    owes (serve settings request) = none ∧ (serve settings request).Every OwesNext := by
  cases request with
  | intent process userId command => exact ⟨rfl, applyAndPublish_owes _ _ _ _⟩
  | tick => exact ⟨rfl, tickOne_owes settings⟩
  | message => exact ⟨rfl, owesNext_bind (broadcast_owes _) (fun _ => rfl) fun _ => trivial⟩
  | connect conn node userId => exact quiet_owes (wsEndpoint_quiet conn node userId)
  | reader node => exact ⟨rfl, fun _ _ => rfl, fun _ => trivial⟩
  | sender conn => exact ⟨rfl, fun _ _ => rfl, fun _ => trivial⟩

end Code

end Monopoly
