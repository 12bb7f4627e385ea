import Monopoly.Rules.Building

/-!
# Monopoly.Rules.Actions

The turn timer and the advertised actions
(`domain/game/rules/turn_timer.py`, `domain/game/rules/actions.py`).
-/

namespace Monopoly

/-! ## turn timer -/

/-- The phases in which the turn timer runs. -/
def activeTurnPhases : List TurnPhase := [.preRoll, .jailDecision, .postRoll, .mustPayRent]

def withTurnDeadline (state : GameState) (nowMs : Int) : GameState :=
  let timeoutMs := match (getGameConfig state.gameMode).turnTimeoutMs with
    | some t => if t = 0 then turnTimeoutMs else t
    | none => turnTimeoutMs
  { state with turn := { state.turn with turnDeadlineMs := some (nowMs + timeoutMs) } }

def isTurnExpired (state : GameState) (nowMs : Int) : Bool :=
  match state.turn.turnDeadlineMs with
  | none => false
  | some deadline => decide (nowMs ≥ deadline) && decide (state.turn.phase ∈ activeTurnPhases)

/-! ## actions -/

/-- `can_buy`: a purchase is pending and the space is unowned. -/
def canBuyPending (state : GameState) : Py Bool :=
  match state.turn.pendingBuyPosition with
  | none => return false
  | some pending => do
      let ownership ← spaceAt state.spaces pending
      return decide (ownership.ownerId = none)

/-- `compute_actions`, for an explicit viewer. -/
def computeActions (state : GameState) (pid : PlayerId) : Py ActionSet := do
  let player ← getPlayerByIdFromState state pid
  let isCurrent : Bool := pid = state.turn.currentPlayerId
  match state.turn.phase with
  | .auction =>
      match state.auction with
      | none => return {}
      | some auction => return {
          canBid := !player.isBankrupt && decide (auction.highestBidderId ≠ some pid) &&
            decide (player.balance > auction.highestBid) }
  | .tradeNegotiation => return {}
  | .jailDecision =>
      if !isCurrent then return {}
      else return {
        canRoll := true
        canPayJailFine := decide (player.balance ≥ jailFineAmount)
        canUseJailCard := decide (player.getOutOfJailCards > 0)
        canSurrender := true }
  | .preRoll =>
      if !isCurrent then return {}
      else
        let canBuild ← hasAnyBuildable state pid
        let canMortgage ← hasAnyMortgageable state pid
        let canUnmortgage ← hasAnyUnmortgageable state pid
        return {
          canRoll := true
          canBuild, canMortgage, canUnmortgage
          canTrade := state.trade.isNone && decide (state.status = .inProgress) &&
            decide (state.turn.tradeOffersMade < maxTradeOffersPerTurn)
          canSurrender := true }
  | .postRoll =>
      if !isCurrent then return {}
      else
        let canBuy ← canBuyPending state
        let canBuild ← hasAnyBuildable state pid
        let canMortgage ← hasAnyMortgageable state pid
        let canUnmortgage ← hasAnyUnmortgageable state pid
        return {
          canBuy, canBuild, canMortgage, canUnmortgage
          canTrade := state.trade.isNone &&
            decide (state.turn.tradeOffersMade < maxTradeOffersPerTurn)
          canEndTurn := state.turn.pendingBuyPosition.isNone
          canSurrender := true }
  | .mustPayRent =>
      if !isCurrent then return {}
      else return { canEndTurn := true, canSurrender := true }
  | .bankruptResolution =>
      if !isCurrent then return {}
      else
        let canBuild ← hasAnyBuildable state pid
        let canMortgage ← hasAnyMortgageable state pid
        let canUnmortgage ← hasAnyUnmortgageable state pid
        return {
          canBuild, canMortgage, canUnmortgage
          canDeclareBankruptcy := true
          canEndTurn := state.bankruptcy.isNone }
  | .drawingCard | .gameOver => return {}

/-- `with_actions`, for the current player. -/
def withActions (state : GameState) : Py GameState := do
  let actions ← computeActions state state.turn.currentPlayerId
  return { state with turn := { state.turn with actionsAvailable := actions } }

end Monopoly
