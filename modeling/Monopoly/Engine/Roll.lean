import Monopoly.Rules.Landing

/-!
# Monopoly.Engine.Roll

The `RollDice` handler (`_handle_roll_dice`, `_execute_move` of
`domain/game/engine.py`).
-/

namespace Monopoly

/-- What a player command's handler returns. -/
abbrev Handled := GameState × List GameEvent

/-- The turn record once the landing is resolved: whether the extra roll of
a doubles is granted, deferred behind a purchase, or lost. -/
def turnAfterMove (working : GameState) (diceRoll : DiceRoll) (extraRoll sentToJail : Bool)
    (newStreak : Nat) : TurnState :=
  if sentToJail ∨ working.bankruptcy.isSome then
    { working.turn with
      diceRoll := some diceRoll
      doublesStreak := 0
      phase := if sentToJail then .postRoll else working.turn.phase }
  else if extraRoll then
    match working.turn.pendingBuyPosition with
    | some pending => { working.turn with
        diceRoll := some diceRoll
        doublesStreak := newStreak
        phase := .postRoll
        pendingBuyPosition := some pending }
    | none => { working.turn with
        diceRoll := some diceRoll
        doublesStreak := newStreak
        phase := .preRoll
        pendingBuyPosition := none }
  else
    { working.turn with diceRoll := some diceRoll, doublesStreak := 0 }

/-- The walk: the player moves by the dice and collects the salary where the
walk passes GO. -/
def walk (state : GameState) (player : PlayerState) (steps : Nat) (goSalary : Int) :
    Py (GameState × PlayerState × List GameEvent) := do
  let (newPos, passedGo) ← advancePosition player.position steps state.gameMode
  let moved := { player with position := newPos }
  let event := .playerMoved player.id player.displayName player.token player.position newPos steps
    .dice
  let players ← assignPlayer state.players player.id moved
  let (working, moved, goEvents) ← collectGoBonus { state with players } moved goSalary passedGo
  return (working, moved, event :: goEvents)

def executeMove (state : GameState) (player : PlayerState) (diceRoll : DiceRoll)
    (extraRollAllowed : Bool) (rng : Rng) (goSalary : Int) : Py (Handled × Rng) := do
  let steps := diceRoll.die1 + diceRoll.die2
  let (working, moved, walkEvents) ← walk state player steps goSalary
  let newStreak := if diceRoll.isDoubles then state.turn.doublesStreak + 1 else 0
  let extraRoll := diceRoll.isDoubles && extraRollAllowed
  let doublesEvents :=
    if extraRoll then [.rolledDoubles player.id player.displayName newStreak] else []
  let landing ← resolveLanding diceRoll goSalary landingFuel working moved 0 1 rng
  let turn := turnAfterMove landing.state diceRoll extraRoll landing.sentToJail newStreak
  return (({ landing.state with turn }, walkEvents ++ doublesEvents ++ landing.events),
    landing.rng)

/-- The turn record of a roll that ends where the player stands. -/
def stayTurn (turn : TurnState) (diceRoll : DiceRoll) : TurnState :=
  { turn with
    diceRoll := some diceRoll
    doublesStreak := 0
    phase := .postRoll
    pendingBuyPosition := none }

/-- `players[idx] = update_player_net_worth(player, ..)`. -/
def storePlayer (state : GameState) (player : PlayerState) : Py GameState := do
  let updated ← updatePlayerNetWorth player state.spaces state.gameMode
  let players ← assignPlayer state.players player.id updated
  return { state with players }

/-- A roll out of jail. -/
def rollInJail (state : GameState) (player : PlayerState) (jail : JailStatus)
    (diceRoll : DiceRoll) (rng : Rng) (goSalary jailFine : Int) : Py (Handled × Rng) := do
  if diceRoll.isDoubles then
    executeMove state { player with jailStatus := none } diceRoll false rng goSalary
  else
    let remaining := jail.turnsRemaining - 1
    if remaining > 0 then
      let state ← storePlayer state { player with
        jailStatus := some { turnsRemaining := remaining } }
      return (({ state with turn := stayTurn state.turn diceRoll }, []), rng)
    else
      -- the third failed roll: the bail is deducted and the roll moves the player
      let freed := { player with jailStatus := none, balance := player.balance - jailFine }
      let state ← storePlayer state freed
      executeMove state freed diceRoll false rng goSalary

/-- A roll of a player who is not jailed. -/
def rollFree (state : GameState) (player : PlayerState) (diceRoll : DiceRoll) (rng : Rng)
    (goSalary : Int) : Py (Handled × Rng) := do
  let newStreak := if diceRoll.isDoubles then state.turn.doublesStreak + 1 else 0
  if diceRoll.isDoubles ∧ newStreak ≥ doublesJailThreshold then
    let state ← storePlayer state (sendToJail player state.gameMode)
    return (({ state with turn := stayTurn state.turn diceRoll },
      [.sentToJail player.id player.displayName .doubles]), rng)
  else
    executeMove state player diceRoll diceRoll.isDoubles rng goSalary

def handleRollDice (state : GameState) (playerId : PlayerId) (rng : Rng)
    (goSalary jailFine : Int) : Py (Handled × Rng) := do
  illegalIf (state.turn.phase ≠ .preRoll ∧ state.turn.phase ≠ .jailDecision)
    "cannot roll dice in current phase"
  let player ← getPlayerByIdFromState state playerId
  illegalIf (player.jailStatus.isSome ∧ state.turn.phase = .preRoll)
    "must resolve jail decision before rolling"
  let ((die1, die2), rng) := rollDiceCount rng (getGameConfig state.gameMode).diceCount
  let diceRoll := { die1, die2, isDoubles := decide (die1 = die2) }
  match player.jailStatus with
  | some jail => rollInJail state player jail diceRoll rng goSalary jailFine
  | none => rollFree state player diceRoll rng goSalary

end Monopoly
