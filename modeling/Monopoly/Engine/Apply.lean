import Monopoly.Engine.Roll
import Monopoly.Rules.Auction
import Monopoly.Rules.Trade
import Monopoly.Rules.Bankruptcy
import Monopoly.Rules.Actions

/-!
# Monopoly.Engine.Apply

The command handlers and `apply` (`domain/game/engine.py`).

`apply` asks whether the player may act, hands the command to its handler and
finishes the call: the strikes of whoever acted are cleared, the card on
display is taken down, a debt that has become payable is settled, the winner
is looked for, the deadline of the turn is renewed, the events are logged and
the flags computed.  After a reply, which need not be the current player's,
only the strikes, the deadline and the flags are.  A handler checks in the
order of the source and refuses with its texts; what it returns is the new
state and the events, and the roll returns the generator as well.
-/

namespace Monopoly

/-- What one `apply` call is given besides the state and the command: `tradeId`
is the `uuid4` it would draw. -/
structure Env where
  rng : Rng
  clock : Clock
  goSalary : Int
  jailFine : Int
  tradeId : Nat
  deriving DecidableEq, Repr

/-! ## jail -/

/-- The bail by choice.  It is refused if it is not covered. -/
def handlePayJailFine (state : GameState) (playerId : PlayerId) (jailFine : Int) : Py Handled := do
  illegalIf (state.turn.phase ≠ .jailDecision) "cannot pay jail fine in current phase"
  let player ← getPlayerByIdFromState state playerId
  illegalIf (player.jailStatus = none) "not in jail"
  illegalIf (player.balance < jailFine) "insufficient funds for jail fine"
  let state ← storePlayer state { player with
    jailStatus := none, balance := player.balance - jailFine }
  return ({ state with turn := { state.turn with phase := .preRoll } }, [])

/-- A jail card is played, and put back into the Chance deck, whichever deck it
came from. -/
def handleUseJailCard (state : GameState) (playerId : PlayerId) : Py Handled := do
  illegalIf (state.turn.phase ≠ .jailDecision) "cannot use jail card in current phase"
  let player ← getPlayerByIdFromState state playerId
  illegalIf (player.jailStatus = none) "not in jail"
  illegalIf (player.getOutOfJailCards ≤ 0) "no get out of jail free cards"
  let state := returnJailCardToDeck state .chance chanceJailCard
  let state ← storePlayer state { player with
    jailStatus := none, getOutOfJailCards := player.getOutOfJailCards - 1 }
  return ({ state with turn := { state.turn with phase := .preRoll } }, [])

/-! ## purchases -/

/-- The purchase the roll has offered, at the printed price. -/
def handleBuyProperty (state : GameState) (playerId : PlayerId) (position : Nat) :
    Py Handled := do
  illegalIf (state.turn.phase ≠ .postRoll ∧ state.turn.phase ≠ .mustPayRent)
    "cannot buy property in current phase"
  illegalIf (state.turn.pendingBuyPosition ≠ some position) "property is not available to buy"
  let purchasable ← isPurchasable position state.gameMode
  illegalIf (¬ purchasable) "space is not purchasable"
  let ownership ← spaceAt state.spaces position
  illegalIf (ownership.ownerId ≠ none) "property already owned"
  let player ← getPlayerByIdFromState state playerId
  let boardSpace ← getBoardSpace position state.gameMode
  let price ← orRaise boardSpace.price (.illegalMove "space has no price")
  illegalIf (player.balance < price) "insufficient funds"
  let spaces ← replaceSpace state.spaces position { ownership with ownerId := some player.id }
  let updated ← updatePlayerNetWorth { player with
      balance := player.balance - price
      ownedPositions := pySorted (player.ownedPositions ++ [position]) } spaces state.gameMode
  let players ← assignPlayer state.players player.id updated
  -- the extra roll of a doubles was deferred until the purchase was resolved
  let phase := if state.turn.doublesStreak > 0 then .preRoll else state.turn.phase
  return ({ state with players, spaces, turn := { state.turn with
      pendingBuyPosition := none, phase } },
    [.propertyBought player.id player.displayName position boardSpace.name price])

/-- The purchase is turned down, and the space put up for auction. -/
def handlePassBuy (state : GameState) (playerId : PlayerId) (nowMs : Int) : Py Handled := do
  illegalIf (state.turn.phase ≠ .postRoll ∧ state.turn.phase ≠ .mustPayRent)
    "cannot pass buy in current phase"
  let pending ← orRaise state.turn.pendingBuyPosition (.illegalMove "no property to pass on")
  let player ← getPlayerByIdFromState state playerId
  let boardSpace ← getBoardSpace pending state.gameMode
  return (startAuction state pending nowMs,
    [.buyDeclined player.id player.displayName pending boardSpace.name])

/-! ## end of turn -/

/-- The turn passes to the next player who is in the game.  A pending purchase
or debt has to be dealt with first. -/
def handleEndTurn (state : GameState) (playerId : PlayerId) : Py Handled := do
  illegalIf (state.turn.phase ≠ .postRoll ∧ state.turn.phase ≠ .mustPayRent ∧
    state.turn.phase ≠ .bankruptResolution) "cannot end turn in current phase"
  illegalIf (state.turn.pendingBuyPosition ≠ none)
    "must buy or pass on property before ending turn"
  illegalIf state.bankruptcy.isSome "must resolve bankruptcy before ending turn"
  let activePlayers := survivors state.players
  let currentIdx ← nextPlayerIdx activePlayers state.turn.currentPlayerId
  let nextIdx ← pyMod (currentIdx + 1) activePlayers.length
  let nextPlayer ← pyGet activePlayers nextIdx
  let player ← getPlayerByIdFromState state playerId
  return ({ state with turn := { state.turn with
      phase := openingPhase nextPlayer
      currentPlayerId := nextPlayer.id
      turnNumber := state.turn.turnNumber + 1
      roundNumber := state.turn.roundNumber + (if nextIdx ≤ currentIdx then 1 else 0)
      diceRoll := none
      doublesStreak := 0
      tradeOffersMade := 0
      pendingBuyPosition := none } },
    [.turnEnded playerId player.displayName nextPlayer.id nextPlayer.displayName])

/-! ## building and mortgages -/

/-- The phases in which the building commands are accepted. -/
def buildPhases : List TurnPhase := [.preRoll, .postRoll, .bankruptResolution]

/-- `_handle_build_house`. -/
def handleBuildHouse (state : GameState) (playerId : PlayerId) (position : Nat) : Py Handled := do
  illegalIf (state.turn.phase ∉ buildPhases) "cannot build in current phase"
  return (← buildHouse state playerId position, [])

/-- `_handle_sell_house`. -/
def handleSellHouse (state : GameState) (playerId : PlayerId) (position : Nat) : Py Handled := do
  illegalIf (state.turn.phase ∉ buildPhases) "cannot sell in current phase"
  return (← sellHouse state playerId position, [])

/-- `_handle_mortgage`. -/
def handleMortgage (state : GameState) (playerId : PlayerId) (position : Nat) : Py Handled := do
  illegalIf (state.turn.phase ∉ buildPhases) "cannot mortgage in current phase"
  return (← mortgageProperty state playerId position, [])

/-- `_handle_unmortgage`. -/
def handleUnmortgage (state : GameState) (playerId : PlayerId) (position : Nat) : Py Handled := do
  illegalIf (state.turn.phase ∉ buildPhases) "cannot unmortgage in current phase"
  return (← unmortgageProperty state playerId position, [])

/-! ## elimination -/

/-- The debtor gives up.  Nobody else may declare the debt. -/
def handleDeclareBankruptcy (state : GameState) (playerId : PlayerId) : Py Handled :=
  match state.bankruptcy with
  | none => .error (.illegalMove "not in bankruptcy resolution")
  | some debt => do
      illegalIf (debt.debtorId ≠ playerId) "not the debtor"
      return (← resolveBankruptcy state playerId, [])

/-- The player leaves the game with what they have. -/
def handleSurrender (state : GameState) (playerId : PlayerId) : Py Handled := do
  let player ← getPlayerByIdFromState state playerId
  illegalIf player.isBankrupt "player is already out of the game"
  return (← resolveSurrender state playerId,
    [.playerSurrendered player.id player.displayName "voluntary"])

/-- A timer that is not due does nothing; one that is strikes the player,
passes the turn on, and forces out who has collected too many. -/
def handleTurnTimeout (state : GameState) (nowMs : Int) : Py Handled := do
  if !isTurnExpired state nowMs then return (state, [])
  let currentId := state.turn.currentPlayerId
  let player ← getPlayerByIdFromState state currentId
  let strikes := player.afkStrikes + 1
  let players ← assignPlayer state.players currentId { player with afkStrikes := strikes }
  let state := { state with players }
  if strikes ≥ maxAfkStrikes then
    return (← resolveSurrender state currentId,
      [.playerSurrendered currentId player.displayName "afk"])
  else
    return (← advanceTurnOffPlayer state currentId,
      [.turnTimedOut currentId player.displayName strikes])

/-! ## dispatch -/

/-- `command.player_id`; a system command has none. -/
def GameCommand.player : GameCommand → Option PlayerId
  | .rollDice pid | .buyProperty pid _ | .passBuy pid | .endTurn pid | .payJailFine pid
  | .useJailCard pid | .buildHouse pid _ | .sellHouse pid _ | .mortgage pid _
  | .unmortgage pid _ | .proposeTrade pid _ _ _ | .respondTrade pid _ _ _ | .placeBid pid _
  | .declareBankruptcy pid | .surrender pid => some pid
  | .advanceAuction | .expireTrade | .turnTimeout => none

/-- `isinstance(command, (RespondTrade, PlaceBid))`: accepted from any player,
and spared the common tail. -/
def GameCommand.isReply : GameCommand → Bool
  | .respondTrade .. | .placeBid .. => true
  | _ => false

/-- `_dispatch_player_command` and `_handle_system`, with the generator the
handler leaves behind. -/
def dispatch (state : GameState) (command : GameCommand) (env : Env) : Py (Handled × Rng) :=
  let keepRng (handled : Py Handled) : Py (Handled × Rng) := handled.map (·, env.rng)
  match command with
  | .rollDice pid => handleRollDice state pid env.rng env.goSalary env.jailFine
  | .buyProperty pid position => keepRng (handleBuyProperty state pid position)
  | .passBuy pid => keepRng (handlePassBuy state pid env.clock.nowMs)
  | .endTurn pid => keepRng (handleEndTurn state pid)
  | .payJailFine pid => keepRng (handlePayJailFine state pid env.jailFine)
  | .useJailCard pid => keepRng (handleUseJailCard state pid)
  | .buildHouse pid position => keepRng (handleBuildHouse state pid position)
  | .sellHouse pid position => keepRng (handleSellHouse state pid position)
  | .mortgage pid position => keepRng (handleMortgage state pid position)
  | .unmortgage pid position => keepRng (handleUnmortgage state pid position)
  | .proposeTrade pid target offer request => keepRng do
      return (← proposeTrade state pid target offer request env.clock.now env.tradeId, [])
  | .respondTrade pid tradeId response counter => keepRng do
      return (← respondTrade state pid tradeId response counter env.clock.now, [])
  | .placeBid pid amount => keepRng do return (← placeBid state pid amount, [])
  | .declareBankruptcy pid => keepRng (handleDeclareBankruptcy state pid)
  | .surrender pid => keepRng (handleSurrender state pid)
  | .advanceAuction => keepRng do
      if !isAuctionExpired state env.clock.nowMs then return (state, [])
      else return (← resolveAuction state, [])
  | .expireTrade => keepRng do
      match state.trade with
      | none => return (state, [])
      | some trade =>
          if trade.expiresAt > env.clock.now then return (state, [])
          else return (expireTrade state, [])
  | .turnTimeout => keepRng (handleTurnTimeout state env.clock.nowMs)

/-! ## the common tail -/

/-- The loop of `_reset_actor_strikes`: the first matching seat with strikes is
cleared. -/
def resetStrikes (playerId : PlayerId) : List PlayerState → List PlayerState
  | [] => []
  | p :: rest =>
      if p.id = playerId ∧ p.afkStrikes ≠ 0 then { p with afkStrikes := 0 } :: rest
      else p :: resetStrikes playerId rest

/-- Who acts is no longer away. -/
def resetActorStrikes (state : GameState) (playerId : PlayerId) : GameState :=
  { state with players := resetStrikes playerId state.players }

/-- The card on display is taken down, except by the auction and trade timers.
-/
def clearActiveCard (state newState : GameState) (command : GameCommand) : GameState :=
  if state.activeCard.isSome ∧ command ≠ .advanceAuction ∧ command ≠ .expireTrade then
    { newState with activeCard := none }
  else newState

/-- The events of a call, with the time of the call. -/
def appendLog (state : GameState) (events : List GameEvent) (clock : Clock) : GameState :=
  { state with log := state.log ++ events.map (eventToLogEntry · clock.now) }

/-- The one check of whose turn it is. -/
def assertCurrentPlayer (state : GameState) (playerId : PlayerId) : Py Unit :=
  illegalIf (state.turn.currentPlayerId ≠ playerId) "not your turn"

/-- The strikes of the player a command is from are cleared. -/
def resetActor (state : GameState) (command : GameCommand) : GameState :=
  match command.player with
  | some pid => resetActorStrikes state pid
  | none => state

/-- What `apply` does once the handler has returned: a reply only refreshes the
deadline and the actions. -/
def finishCommand (state : GameState) (command : GameCommand) (env : Env)
    (newState : GameState) (events : List GameEvent) : Py GameState := do
  let newState := resetActor newState command
  if command.isReply then
    withActions (withTurnDeadline newState env.clock.nowMs)
  else
    let newState ← trySettleDebt (clearActiveCard state newState command)
    let newState := withTurnDeadline (checkWinCondition newState) env.clock.nowMs
    withActions (appendLog newState events env.clock)

/-- Only the current player may act, replies and timers apart. -/
def assertMayAct (state : GameState) (command : GameCommand) : Py Unit :=
  match command.player with
  | some pid => if command.isReply then return () else assertCurrentPlayer state pid
  | none => return ()

/-- `engine.apply`, with the generator it leaves behind. -/
def apply (state : GameState) (command : GameCommand) (env : Env) : Py (Handled × Rng) := do
  assertMayAct state command
  let ((newState, events), rng) ← dispatch state command env
  let newState ← finishCommand state command env newState events
  return ((newState, events), rng)

end Monopoly
