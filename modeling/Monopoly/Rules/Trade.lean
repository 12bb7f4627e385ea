import Monopoly.Rules.Helpers

/-!
# Monopoly.Rules.Trade

Trades (`domain/game/rules/trade.py`).

There is one trade on the table at most.  A proposal validates both sides,
and so does the acceptance, since cash and titles may have changed in
between.  A counter-offer takes the place of what is asked of the target, and
is validated against the proposer.
-/

namespace Monopoly

/-- The loop of `validate_trade_offer`. -/
def validatePositions (spaces : List SpaceOwnership) (playerId : PlayerId) : List Nat → Py Unit
  | [] => return ()
  | pos :: rest => do
      let ownership ← spaceAt spaces pos
      illegalIf (ownership.ownerId ≠ some playerId) "cannot trade property you do not own"
      illegalIf (ownership.houses > 0 ∨ ownership.hasHotel)
        "must sell buildings before trading property"
      validatePositions spaces playerId rest

/-- The player has the money, the cards and the properties that the offer
names. -/
def validateTradeOffer (state : GameState) (playerId : PlayerId) (offer : TradeOffer) :
    Py Unit := do
  let player ← getPlayerByIdFromState state playerId
  illegalIf (offer.money > player.balance) "insufficient money in trade offer"
  illegalIf (offer.getOutOfJailCards > player.getOutOfJailCards)
    "insufficient jail cards in trade offer"
  validatePositions state.spaces playerId offer.positions

/-- `clock_now + timedelta(milliseconds=TRADE_DURATION_MS)`. -/
def tradeExpiry (now : Int) : Int := now + tradeDurationMs * 1000

/-- The phase is not looked at, nor whether the game is still on. -/
def proposeTrade (state : GameState) (proposerId targetId : PlayerId)
    (proposerOffer targetRequest : TradeOffer) (now : Int) (tradeId : Nat) : Py GameState := do
  illegalIf (proposerId = targetId) "cannot trade with yourself"
  illegalIf state.trade.isSome "a trade is already in progress"
  illegalIf (state.turn.tradeOffersMade ≥ maxTradeOffersPerTurn)
    "trade offer limit reached for this turn"
  let _ ← getPlayerByIdFromState state targetId
  validateTradeOffer state proposerId proposerOffer
  validateTradeOffer state targetId targetRequest
  return { state with
    trade := some
      { id := tradeId, proposerId, targetId, proposerOffer, targetRequest,
        status := .pending, expiresAt := tradeExpiry now }
    turn := { state.turn with
      phase := .tradeNegotiation
      tradeOffersMade := state.turn.tradeOffersMade + 1 } }

/-- The loop of `_transfer_offer`. -/
def transferPositions (receiverId : PlayerId) : List Nat → List Nat → List Nat →
    List SpaceOwnership → Py (List Nat × List Nat × List SpaceOwnership)
  | [], giverOwned, receiverOwned, spaces => return (giverOwned, receiverOwned, spaces)
  | pos :: rest, giverOwned, receiverOwned, spaces => do
      let ownership ← spaceAt spaces pos
      let spaces ← replaceSpace spaces pos { ownership with ownerId := some receiverId }
      transferPositions receiverId rest (giverOwned.filter (· ≠ pos)) (pos :: receiverOwned) spaces

/-- The properties of one side change hands; money and cards are moved by
`executeTrade`. -/
def transferOffer (giver receiver : PlayerState) (spaces : List SpaceOwnership)
    (offer : TradeOffer) (receiverId : PlayerId) :
    Py (PlayerState × PlayerState × List SpaceOwnership) := do
  let (giverOwned, receiverOwned, spaces) ←
    transferPositions receiverId offer.positions giver.ownedPositions receiver.ownedPositions spaces
  return ({ giver with ownedPositions := pySortedSet giverOwned },
    { receiver with ownedPositions := pySortedSet receiverOwned }, spaces)

/-- Both sides are validated once more, and then exchanged. -/
def executeTrade (state : GameState) (trade : TradeState) : Py GameState := do
  validateTradeOffer state trade.proposerId trade.proposerOffer
  validateTradeOffer state trade.targetId trade.targetRequest
  let proposer ← getPlayerByIdFromState state trade.proposerId
  let target ← getPlayerByIdFromState state trade.targetId
  let pIdx ← nextPlayerIdx state.players proposer.id
  let tIdx ← nextPlayerIdx state.players target.id
  let (proposer, target, spaces) ←
    transferOffer proposer target state.spaces trade.proposerOffer trade.targetId
  let (target, proposer, spaces) ←
    transferOffer target proposer spaces trade.targetRequest trade.proposerId
  let netDelta := trade.targetRequest.money - trade.proposerOffer.money
  let jailDelta := trade.targetRequest.getOutOfJailCards - trade.proposerOffer.getOutOfJailCards
  let proposer := { proposer with
    balance := proposer.balance + netDelta
    getOutOfJailCards := proposer.getOutOfJailCards + jailDelta }
  let target := { target with
    balance := target.balance - netDelta
    getOutOfJailCards := target.getOutOfJailCards - jailDelta }
  let players := (state.players.set pIdx proposer).set tIdx target
  let players ← refreshAllNetWorth players spaces state.gameMode
  return { state with
    players, spaces, trade := none, turn := { state.turn with phase := .postRoll } }

/-- The pending trade is dropped, with no asset moved. -/
def dropTrade (state : GameState) : GameState :=
  { state with trade := none, turn := { state.turn with phase := .postRoll } }

/-- The answer names the trade.  A counter-offer is the target's, an acceptance
a party's; who rejects is not looked at. -/
def respondTrade (state : GameState) (playerId : PlayerId) (tradeId : Nat)
    (response : TradeResponse) (counterOffer : Option TradeOffer) (now : Int) : Py GameState :=
  match state.trade with
  | none => .error (.illegalMove "trade not found")
  | some trade => do
      illegalIf (trade.id ≠ tradeId) "trade not found"
      match response with
      | .reject => return dropTrade state
      | .counter =>
          match counterOffer with
          | none => .error (.illegalMove "invalid counter offer")
          | some counterOffer => do
              illegalIf (playerId ≠ trade.targetId) "invalid counter offer"
              validateTradeOffer state trade.proposerId counterOffer
              return { state with trade := some { trade with
                targetRequest := counterOffer
                status := .countered
                expiresAt := tradeExpiry now } }
      | .accept => do
          illegalIf (playerId ≠ trade.proposerId ∧ playerId ≠ trade.targetId)
            "not a party to this trade"
          executeTrade state trade

/-- The offer lapses; without one nothing happens. -/
def expireTrade (state : GameState) : GameState :=
  match state.trade with
  | none => state
  | some _ => dropTrade state

end Monopoly
