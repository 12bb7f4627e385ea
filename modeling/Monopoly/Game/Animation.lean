import Monopoly.Game.State

/-!
# Monopoly.Game.Animation

The animation timeline of a command (`domain/game/animation.py`).
-/

namespace Monopoly

/-- How fast a move is shown. -/
inductive MoveSpeed where
  | normal
  | fast
  deriving DecidableEq, Repr

/-- `card_interaction_id`: the string is made of these two. -/
structure InteractionId where
  turnNumber : Nat
  cardId : CardId
  deriving DecidableEq, Repr

/-- One step of the replay a client shows. -/
inductive AnimationInstruction where
  | rollDice (playerId : PlayerId) (die1 die2 : Nat) (isDoubles : Bool)
  | move (playerId : PlayerId) (fromPosition toPosition : Nat) (speed : MoveSpeed)
      (reason : MoveReason)
  | showCard (card : ActiveCard)
  | waitForPlayer (interactionId : InteractionId)
  deriving DecidableEq, Repr

/-- The dice of a roll, shown first. -/
def rollInstructions (command : GameCommand) (stateAfter : GameState) :
    List AnimationInstruction :=
  match command, stateAfter.turn.diceRoll with
  | .rollDice pid, some d => [.rollDice pid d.die1 d.die2 d.isDoubles]
  | _, _ => []

/-- The players a `SentToJail` event names. -/
def jailedPlayers (events : List GameEvent) : List PlayerId :=
  events.filterMap fun
    | .sentToJail pid _ _ => some pid
    | _ => none

/-- What one event adds to the timeline: nobody is seen walking to jail, and a
card stops the replay until its player goes on. -/
def eventInstructions (stateAfter : GameState) (jailed : List PlayerId) :
    GameEvent → List AnimationInstruction
  | .playerMoved pid _ _ fromPosition toPosition _ reason =>
      if pid ∈ jailed then []
      else
        let speed : MoveSpeed := if reason = .card then .fast else .normal
        [.move pid fromPosition toPosition speed reason]
  | .cardDrawn pid _ cardId _ =>
      match allCards.find? fun card => decide (card.id = cardId) with
      | none => []
      | some card =>
          [.showCard { id := card.id, kind := card.kind, effect := card.effect, drawerId := pid },
            .waitForPlayer { turnNumber := stateAfter.turn.turnNumber, cardId }]
  | _ => []

/-- The dice first, then the events in their order. -/
def buildTimeline (command : GameCommand) (stateAfter : GameState) (events : List GameEvent) :
    List AnimationInstruction :=
  rollInstructions command stateAfter ++
    events.flatMap (eventInstructions stateAfter (jailedPlayers events))

end Monopoly
