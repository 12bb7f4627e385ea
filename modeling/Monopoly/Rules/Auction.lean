import Monopoly.Rules.Helpers

/-!
# Monopoly.Rules.Auction

Auctions (`domain/game/rules/auction.py`).

An auction is opened by the player who turns a purchase down, and closed by
its timer only: a bid checks the bidder's balance when it is made, and the
winner pays when the auction is resolved, whatever their balance is by then.
-/

namespace Monopoly

/-- The pending purchase is up for bids. -/
def startAuction (state : GameState) (propertyPosition : Nat) (nowMs : Int) : GameState :=
  { state with
    auction := some
      { propertyPosition, timeRemainingMs := auctionDurationMs, startedAtMs := nowMs }
    turn := { state.turn with phase := .auction, pendingBuyPosition := none } }

/-- A bid is checked in this order: auction, phase, funds, amount.  It does not
touch the clock of the auction. -/
def placeBid (state : GameState) (playerId : PlayerId) (amount : Int) : Py GameState :=
  match state.auction with
  | none => .error (.illegalMove "no active auction")
  | some auction => do
      illegalIf (state.turn.phase ≠ .auction) "not in auction phase"
      let player ← getPlayerByIdFromState state playerId
      illegalIf (player.isBankrupt ∨ player.balance < amount) "insufficient funds for bid"
      illegalIf (amount ≤ auction.highestBid) "bid must exceed current highest bid"
      return { state with auction := some { auction with
        bids := auction.bids ++ [{ playerId, amount }]
        highestBid := amount
        highestBidderId := some playerId } }

/-- The property goes to the highest bidder, who pays the bid; without a bid
nothing changes hands. -/
def awardProperty (state : GameState) (auction : AuctionState) :
    Py (List PlayerState × List SpaceOwnership) :=
  match auction.highestBidderId with
  | none => return (state.players, state.spaces)
  | some bidderId => do
      let position := auction.propertyPosition
      let bidder ← getPlayerByIdFromState state bidderId
      let ownership ← spaceAt state.spaces position
      let spaces ← replaceSpace state.spaces position { ownership with ownerId := some bidder.id }
      let winner ← updatePlayerNetWorth { bidder with
          balance := bidder.balance - auction.highestBid
          ownedPositions := pySortedSet (bidder.ownedPositions ++ [position]) } spaces
        state.gameMode
      let players ← assignPlayer state.players bidder.id winner
      return (players, spaces)

/-- The end of an auction; without one nothing happens. -/
def resolveAuction (state : GameState) : Py GameState :=
  match state.auction with
  | none => return state
  | some auction => do
      let (players, spaces) ← awardProperty state auction
      -- a doubles roll deferred by the purchase is granted now
      let phase := if state.turn.doublesStreak > 0 then .preRoll else .postRoll
      let players ← refreshAllNetWorth players spaces state.gameMode
      return { state with players, spaces, auction := none, turn := { state.turn with phase } }

/-- What is left of the time at `nowMs`, never less than nothing. -/
def auctionTimeRemaining (auction : AuctionState) (nowMs : Int) : Int :=
  max 0 (auction.timeRemainingMs - (nowMs - auction.startedAtMs))

/-- An auction that is not there never expires. -/
def isAuctionExpired (state : GameState) (nowMs : Int) : Bool :=
  match state.auction with
  | none => false
  | some auction => decide (auctionTimeRemaining auction nowMs ≤ 0)

end Monopoly
