import Monopoly.Spec.Building
import Monopoly.Spec.Elimination

/-!
# Monopoly.Spec.WellFormed

The invariant that keeps every handler from raising: a sound table whose
pending records name seated players and purchasable spaces, and, while the
game is on, at least two active players with the turn on one of them.
-/

namespace Monopoly

/-- The parties and the positions of a trade are the game's. -/
structure TradeFormed (s : GameState) (trade : TradeState) : Prop where
  proposer : Seated s trade.proposerId
  target : Seated s trade.targetId
  distinct : trade.proposerId ≠ trade.targetId
  offer : ∀ q ∈ trade.proposerOffer.positions, OnBoard s.gameMode q
  request : ∀ q ∈ trade.targetRequest.positions, OnBoard s.gameMode q

/-- The parties of a debt are two players of the game, or a player and the
bank. -/
structure DebtFormed (s : GameState) (debt : BankruptcyState) : Prop where
  debtor : Seated s debt.debtorId
  creditor : ∀ c, debt.creditorId = some c → Seated s c ∧ c ≠ debt.debtorId
  owed : 0 < debt.amountOwed

/-- The property and the bidder of an auction are the game's. -/
structure AuctionFormed (s : GameState) (auction : AuctionState) : Prop where
  property : Purchasable s.gameMode auction.propertyPosition
  bidder : ∀ b, auction.highestBidderId = some b → Seated s b

structure WellFormed (s : GameState) : Prop extends Sound s where
  current : Seated s s.turn.currentPlayerId
  pending : ∀ q, s.turn.pendingBuyPosition = some q → Purchasable s.gameMode q
  auctions : ∀ a, s.auction = some a → AuctionFormed s a
  trades : ∀ t, s.trade = some t → TradeFormed s t
  debts : ∀ d, s.bankruptcy = some d → DebtFormed s d

/-- The player is seated and not eliminated. -/
def Active (s : GameState) (pid : PlayerId) : Prop :=
  ∃ p ∈ s.seats, p.id = pid ∧ p.isBankrupt = false

/-- While the game is on, two players are active and one of them has the
turn. -/
def Live (s : GameState) : Prop :=
  s.status = .inProgress → Active s s.turn.currentPlayerId ∧ 2 ≤ (survivors s.seats).length

end Monopoly
