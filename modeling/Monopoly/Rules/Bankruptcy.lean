import Monopoly.Lib.Binary64
import Monopoly.Rules.Helpers

/-!
# Monopoly.Rules.Bankruptcy

Elimination: bankruptcy, surrender, turn passing and the win condition
(`domain/game/rules/bankruptcy.py`, `domain/game/rules/surrender.py`).
-/

namespace Monopoly

def survivors (players : List PlayerState) : List PlayerState :=
  players.filter fun p => ¬ p.isBankrupt

def checkWinCondition (state : GameState) : GameState :=
  match survivors state.players, state.status with
  | [winner], .inProgress => { state with
      status := .finished
      winnerId := some winner.id
      turn := { state.turn with phase := .gameOver } }
  | _, _ => state

/-- The phase a turn starts in. -/
def openingPhase (player : PlayerState) : TurnPhase :=
  if player.jailStatus.isSome then .jailDecision else .preRoll

/-- The scan of `advance_turn_off_player`: the first active player after
seat `start`, and whether the scan wrapped around the table. -/
def nextActiveFrom (players : List PlayerState) (start : Nat) : Nat → Nat →
    Py (Option (PlayerState × Bool))
  | 0, _ => return none
  | n + 1, offset => do
      let idx := start + offset
      let seat ← pyMod idx players.length
      let candidate ← pyGet players seat
      if ¬ candidate.isBankrupt then return some (candidate, decide (idx ≥ players.length))
      else nextActiveFrom players start n (offset + 1)

def advanceTurnOffPlayer (state : GameState) (eliminatedId : PlayerId) : Py GameState := do
  let start ← nextPlayerIdx state.players eliminatedId
  match ← nextActiveFrom state.players start state.players.length 1 with
  | none => return state
  | some (nextPlayer, wrapped) =>
      return { state with turn := { state.turn with
        currentPlayerId := nextPlayer.id
        phase := openingPhase nextPlayer
        turnNumber := state.turn.turnNumber + 1
        roundNumber := state.turn.roundNumber + (if wrapped then 1 else 0)
        diceRoll := none
        doublesStreak := 0
        tradeOffersMade := 0
        pendingBuyPosition := none } }

/-- The end both eliminations share: the game is over, or the turn moves off
the eliminated player where it is theirs. -/
def afterElimination (state : GameState) (playerId : PlayerId) : Py GameState :=
  let resolved := checkWinCondition state
  if resolved.status = .finished then return resolved
  else advanceTurnOffPlayer resolved playerId

/-- The elimination record. -/
def eliminate (player : PlayerState) (turnNumber : Nat) : PlayerState :=
  { player with
    balance := 0
    ownedPositions := []
    getOutOfJailCards := 0
    jailStatus := none
    isBankrupt := true
    eliminatedAt := some turnNumber }

/-- A `for _ in range(cards)` loop: every card goes back to both decks. -/
def returnCards (cards : Int) (deck : List CardId) (card : CardId) : List CardId :=
  deck ++ List.replicate cards.toNat card

/-! ## bankruptcy -/

/-- `int((mortgage_value or 0) * MORTGAGE_INTEREST)`. -/
def mortgageInterest (mortgageValue : Nat) : Nat :=
  Binary64.floorMul mortgageValue Binary64.tenth 55

/-- The transfer loop towards a creditor: the spaces, and the creditor as
`players[creditor_idx]` holds them, charged for every mortgage received. -/
def transferToCreditor (mode : GameMode) (creditorId : PlayerId) : List Nat →
    List SpaceOwnership → PlayerState → Py (List SpaceOwnership × PlayerState)
  | [], spaces, creditor => return (spaces, creditor)
  | pos :: rest, spaces, creditor => do
      let ownership ← spaceAt spaces pos
      let spaces ← replaceSpace spaces pos { ownership with ownerId := some creditorId }
      if ownership.isMortgaged then
        let boardSpace ← getBoardSpace pos mode
        let cost : Int := mortgageInterest (boardSpace.mortgageValue.getD 0)
        transferToCreditor mode creditorId rest spaces
          { creditor with balance := creditor.balance - cost }
      else transferToCreditor mode creditorId rest spaces creditor

/-- The loop that hands the debtor's properties back to the bank. -/
def releaseSpaces : List Nat → List SpaceOwnership → Py (List SpaceOwnership)
  | [], spaces => return spaces
  | pos :: rest, spaces => do
      let ownership ← spaceAt spaces pos
      let spaces ← replaceSpace spaces pos { ownership with
        ownerId := none, isMortgaged := false, houses := 0, hasHotel := false }
      releaseSpaces rest spaces

/-- The players, spaces and decks once the debtor's assets have moved. -/
structure Settlement where
  players : List PlayerState
  spaces : List SpaceOwnership
  chanceDeck : List CardId
  chestDeck : List CardId

def settleToCreditor (state : GameState) (debtor : PlayerState) (debt : BankruptcyState)
    (creditorId : PlayerId) : Py Settlement := do
  let creditor ← getPlayerByIdFromState state creditorId
  let transferCash := min debtor.balance debt.amountOwed
  let (spaces, paid) ← transferToCreditor state.gameMode creditorId debtor.ownedPositions
    state.spaces { creditor with balance := creditor.balance + transferCash }
  let players ← assignPlayer state.players creditorId { paid with
    ownedPositions := pySortedSet (creditor.ownedPositions ++ debtor.ownedPositions)
    getOutOfJailCards := creditor.getOutOfJailCards + debtor.getOutOfJailCards }
  return ⟨players, spaces, state.chanceDeck, state.chestDeck⟩

def settleToBank (state : GameState) (debtor : PlayerState) : Py Settlement := do
  let spaces ← releaseSpaces debtor.ownedPositions state.spaces
  return ⟨state.players, spaces,
    returnCards debtor.getOutOfJailCards state.chanceDeck chanceJailCard,
    returnCards debtor.getOutOfJailCards state.chestDeck chestJailCard⟩

def settleAssets (state : GameState) (debtor : PlayerState) (debt : BankruptcyState) :
    Py Settlement :=
  match debt.creditorId with
  | some creditorId => settleToCreditor state debtor debt creditorId
  | none => settleToBank state debtor

def resolveBankruptcy (state : GameState) (debtorId : PlayerId) : Py GameState :=
  match state.bankruptcy with
  | none => return state
  | some debt =>
      if debt.debtorId ≠ debtorId then return state
      else do
        let debtor ← getPlayerByIdFromState state debtorId
        let debtorIdx ← nextPlayerIdx state.players debtorId
        let settled ← settleAssets state debtor debt
        let players := settled.players.set debtorIdx { eliminate debtor state.turn.turnNumber with
          position := (getGameConfig state.gameMode).startPosition }
        let players ← refreshAllNetWorth players settled.spaces state.gameMode
        afterElimination { state with
          players
          spaces := settled.spaces
          bankruptcy := none
          chanceDeck := settled.chanceDeck
          chestDeck := settled.chestDeck } debtorId

/-! ## surrender -/

/-- The property loop of `resolve_surrender`: the spaces cleared, and the
bank stock with their buildings back. -/
def clearSpaces : List Nat → List SpaceOwnership → Int → Int →
    Py (List SpaceOwnership × Int × Int)
  | [], spaces, bankHouses, bankHotels => return (spaces, bankHouses, bankHotels)
  | pos :: rest, spaces, bankHouses, bankHotels => do
      let ownership ← spaceAt spaces pos
      let spaces ← replaceSpace spaces pos { ownership with
        ownerId := none, houses := 0, hasHotel := false, isMortgaged := false }
      if ownership.hasHotel then clearSpaces rest spaces bankHouses (bankHotels + 1)
      else clearSpaces rest spaces (bankHouses + ownership.houses) bankHotels

/-- Whether a seat receives a share of the surrendered cash. -/
def isRecipient (playerId : PlayerId) (p : PlayerState) : Bool :=
  decide (p.id ≠ playerId) && !p.isBankrupt

/-- The distribution loop: the `n`-th recipient gets `share`, and one more
while `n` is below the remainder. -/
def distributeFrom (playerId : PlayerId) (share remainder : Int) : Nat → List PlayerState →
    List PlayerState
  | _, [] => []
  | n, p :: rest =>
      if isRecipient playerId p then
        { p with balance := p.balance + share + (if (n : Int) < remainder then 1 else 0) } ::
          distributeFrom playerId share remainder (n + 1) rest
      else p :: distributeFrom playerId share remainder n rest

/-- `if recipients and cash > 0: share, remainder = divmod(cash, len(recipients))`. -/
def splitCash (players : List PlayerState) (playerId : PlayerId) (cash : Int) :
    List PlayerState :=
  let recipients := (players.filter (isRecipient playerId)).length
  if recipients ≠ 0 ∧ cash > 0 then
    distributeFrom playerId (cash / recipients) (cash % recipients) 0 players
  else players

def resolveSurrender (state : GameState) (playerId : PlayerId) : Py GameState := do
  let player ← getPlayerByIdFromState state playerId
  if player.isBankrupt then return state
  let idx ← nextPlayerIdx state.players playerId
  let (spaces, bankHouses, bankHotels) ←
    clearSpaces player.ownedPositions state.spaces state.bankHouses state.bankHotels
  let players := splitCash state.players playerId player.balance
  let players := players.set idx (eliminate player state.turn.turnNumber)
  let players ← refreshAllNetWorth players spaces state.gameMode
  let resolved := checkWinCondition { state with
    players, spaces, bankHouses, bankHotels
    chanceDeck := returnCards player.getOutOfJailCards state.chanceDeck chanceJailCard
    chestDeck := returnCards player.getOutOfJailCards state.chestDeck chestJailCard }
  if resolved.status = .finished then return resolved
  else if resolved.turn.currentPlayerId = playerId then advanceTurnOffPlayer resolved playerId
  else return resolved

end Monopoly
