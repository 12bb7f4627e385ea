import Monopoly.Game.Cards

/-!
# Monopoly.Game.State

The game state, the commands and the events (`domain/game/schemas/state.py`,
`commands.py`, `events.py`).

Ids are opaque `uuid4` strings that the engine only compares, so they are
numbers here.  Money is an `Int`: the code subtracts from it freely.  So is a
stock of the bank and a player's number of jail cards, which the code lets go
below zero as well.  The records have the fields of the source with its
defaults, but for a player's avatar and connection, the end of the game and
the ids of log entries, which no modelled function reads.

`GameState.spaces` holds one record for every space of the board, those that
nobody can own included.
-/

namespace Monopoly

/-- The id of a player in a game, new for every game. -/
abbrev PlayerId := Nat

/-- The id of the user who plays; a user has one player in a game. -/
abbrev UserId := Nat

/-- The roll on display.  A single die is shown with a second one of zero and
is never doubles. -/
structure DiceRoll where
  die1 : Nat
  die2 : Nat
  isDoubles : Bool
  deriving DecidableEq, Repr

/-- How many rolls are left before the bail is taken.  Who is not in jail has
no such record. -/
structure JailStatus where
  turnsRemaining : Nat
  deriving DecidableEq, Repr

/-- The flags a client is shown; the engine does not read them. -/
structure ActionSet where
  canRoll : Bool := false
  canBuy : Bool := false
  canBuild : Bool := false
  canMortgage : Bool := false
  canUnmortgage : Bool := false
  canTrade : Bool := false
  canEndTurn : Bool := false
  canPayJailFine : Bool := false
  canUseJailCard : Bool := false
  canBid : Bool := false
  canDeclareBankruptcy : Bool := false
  canSurrender : Bool := false
  deriving DecidableEq, Repr

/-- One space of the board: its owner, what stands on it, and whether it is
mortgaged. -/
structure SpaceOwnership where
  position : Nat
  ownerId : Option PlayerId := none
  houses : Nat := 0
  hasHotel : Bool := false
  isMortgaged : Bool := false
  deriving DecidableEq, Repr

/-- A seat at the table.  An eliminated player keeps the seat, with
`isBankrupt` set. -/
structure PlayerState where
  id : PlayerId
  userId : UserId
  displayName : String
  token : TokenColor
  turnOrder : Nat
  position : Nat := 0
  balance : Int
  ownedPositions : List Nat := []
  getOutOfJailCards : Int := 0
  jailStatus : Option JailStatus := none
  isBankrupt : Bool := false
  netWorth : Int := 0
  /-- ELO rating at game start. -/
  rating : Int := 800
  /-- Consecutive turn-timer expirations. -/
  afkStrikes : Nat := 0
  /-- Turn number at which the player was eliminated. -/
  eliminatedAt : Option Nat := none
  deriving DecidableEq, Repr

/-- Whose turn it is and how far it has come.  The offers made and the pending
purchase belong to the turn and are reset with it. -/
structure TurnState where
  phase : TurnPhase
  currentPlayerId : PlayerId
  turnNumber : Nat := 1
  roundNumber : Nat := 1
  diceRoll : Option DiceRoll := none
  doublesStreak : Nat := 0
  tradeOffersMade : Nat := 0
  actionsAvailable : ActionSet := {}
  pendingBuyPosition : Option Nat := none
  turnDeadlineMs : Option Int := none
  deriving DecidableEq, Repr

/-- A bid that was accepted. -/
structure AuctionBid where
  playerId : PlayerId
  amount : Int
  deriving DecidableEq, Repr

/-- An open auction.  Its time runs from `startedAtMs`, whoever bids. -/
structure AuctionState where
  propertyPosition : Nat
  bids : List AuctionBid := []
  highestBid : Int := 0
  highestBidderId : Option PlayerId := none
  timeRemainingMs : Int := 0
  startedAtMs : Int := 0
  deriving DecidableEq, Repr

/-- One side of a trade. -/
structure TradeOffer where
  money : Int := 0
  positions : List Nat := []
  getOutOfJailCards : Int := 0
  deriving DecidableEq, Repr

/-- The trade on the table: what the proposer gives and what they ask of the
target. -/
structure TradeState where
  id : Nat
  proposerId : PlayerId
  targetId : PlayerId
  proposerOffer : TradeOffer
  targetRequest : TradeOffer
  status : TradeStatus
  expiresAt : Int
  deriving DecidableEq, Repr

/-- A debt that waits to be settled or declared; no creditor means the bank. -/
structure BankruptcyState where
  debtorId : PlayerId
  creditorId : Option PlayerId := none
  amountOwed : Int
  deriving DecidableEq, Repr

/-! ## events and the log -/

/-- How a player came to move; only a move by the dice is logged with its
total. -/
inductive MoveReason where
  | dice
  | card
  | teleport
  | jail
  deriving DecidableEq, Repr

/-- What sent a player to jail. -/
inductive JailReason where
  | doubles
  | goToJailSpace
  | card
  deriving DecidableEq, Repr

/-- What a call reports, for the log and for the replay. -/
inductive GameEvent where
  | playerMoved (playerId : PlayerId) (playerName : String) (playerToken : TokenColor)
      (fromPosition toPosition diceTotal : Nat) (reason : MoveReason)
  | passedGo (playerId : PlayerId) (playerName : String) (amount : Int)
  | rentPaid (payerId : PlayerId) (payerName : String) (ownerId : PlayerId) (ownerName : String)
      (position : Nat) (propertyName : String) (amount : Int)
  | propertyBought (playerId : PlayerId) (playerName : String) (position : Nat)
      (propertyName : String) (price : Int)
  | buyDeclined (playerId : PlayerId) (playerName : String) (position : Nat)
      (propertyName : String)
  | rolledDoubles (playerId : PlayerId) (playerName : String) (streak : Nat)
  | sentToJail (playerId : PlayerId) (playerName : String) (reason : JailReason)
  | taxPaid (playerId : PlayerId) (playerName : String) (position : Nat) (amount : Int)
  | turnEnded (playerId : PlayerId) (playerName : String) (nextPlayerId : PlayerId)
      (nextPlayerName : String)
  | cardDrawn (playerId : PlayerId) (playerName : String) (cardId : CardId) (kind : CardKind)
  | playerSurrendered (playerId : PlayerId) (playerName : String) (reason : String)
  | turnTimedOut (playerId : PlayerId) (playerName : String) (strikes : Nat)
  deriving DecidableEq, Repr

/-- A log entry of kind `event`. -/
structure LogEntry where
  ts : Int
  type : String
  playerId : PlayerId
  playerName : String
  playerToken : Option TokenColor := none
  opponentId : Option PlayerId := none
  tileId : Option Nat := none
  rolled : Option Nat := none
  spent : Option Int := none
  received : Option Int := none
  cardId : Option CardId := none
  cardKind : Option CardKind := none
  reason : Option String := none
  streak : Option Nat := none
  strikes : Option Nat := none
  deriving DecidableEq, Repr

/-- The text of the reason in the log. -/
def JailReason.code : JailReason → String
  | .doubles => "doubles"
  | .goToJailSpace => "go_to_jail_space"
  | .card => "card"

/-- What the log keeps of an event; the move is logged where it ends. -/
def eventToLogEntry (event : GameEvent) (ts : Int) : LogEntry :=
  match event with
  | .playerMoved pid name token _ toPosition diceTotal reason =>
      { ts, type := "player_moved", playerId := pid, playerName := name, playerToken := some token,
        tileId := some toPosition, rolled := if reason = .dice then some diceTotal else none }
  | .passedGo pid name amount =>
      { ts, type := "passed_go", playerId := pid, playerName := name, received := some amount }
  | .rentPaid payer name owner _ position _ amount =>
      { ts, type := "rent_paid", playerId := payer, playerName := name, opponentId := some owner,
        tileId := some position, spent := some amount }
  | .propertyBought pid name position _ price =>
      { ts, type := "property_bought", playerId := pid, playerName := name,
        tileId := some position, spent := some price }
  | .buyDeclined pid name position _ =>
      { ts, type := "buy_declined", playerId := pid, playerName := name, tileId := some position }
  | .rolledDoubles pid name streak =>
      { ts, type := "rolled_doubles", playerId := pid, playerName := name, streak := some streak }
  | .sentToJail pid name reason =>
      { ts, type := "sent_to_jail", playerId := pid, playerName := name,
        reason := some reason.code }
  | .taxPaid pid name position amount =>
      { ts, type := "tax_paid", playerId := pid, playerName := name, tileId := some position,
        spent := some amount }
  | .turnEnded _ _ nextPid nextName =>
      { ts, type := "turn_ended", playerId := nextPid, playerName := nextName }
  | .cardDrawn pid name cardId kind =>
      { ts, type := "card_drawn", playerId := pid, playerName := name, cardId := some cardId,
        cardKind := some kind }
  | .playerSurrendered pid name reason =>
      { ts, type := "player_surrendered", playerId := pid, playerName := name,
        reason := some reason }
  | .turnTimedOut pid name strikes =>
      { ts, type := "turn_timed_out", playerId := pid, playerName := name,
        strikes := some strikes }

/-! ## the game state -/

/-- The table: everything that is stored of a game but the generator. -/
structure GameState where
  gameId : Nat
  sessionCode : String
  gameMode : GameMode
  status : GameStatus
  createdAt : Int
  startedAt : Option Int
  winnerId : Option PlayerId := none
  players : List PlayerState
  turn : TurnState
  spaces : List SpaceOwnership
  auction : Option AuctionState := none
  trade : Option TradeState := none
  activeCard : Option ActiveCard := none
  bankruptcy : Option BankruptcyState := none
  bankHouses : Int
  bankHotels : Int
  chanceDeck : List CardId
  chestDeck : List CardId
  suddenDeathDeadlineMs : Option Int := none
  log : List LogEntry := []
  deriving DecidableEq, Repr

/-! ## commands -/

/-- `PlayerCommand | SystemCommand`. -/
inductive GameCommand where
  | rollDice (playerId : PlayerId)
  | buyProperty (playerId : PlayerId) (position : Nat)
  | passBuy (playerId : PlayerId)
  | endTurn (playerId : PlayerId)
  | payJailFine (playerId : PlayerId)
  | useJailCard (playerId : PlayerId)
  | buildHouse (playerId : PlayerId) (position : Nat)
  | sellHouse (playerId : PlayerId) (position : Nat)
  | mortgage (playerId : PlayerId) (position : Nat)
  | unmortgage (playerId : PlayerId) (position : Nat)
  | proposeTrade (playerId targetId : PlayerId) (proposerOffer targetRequest : TradeOffer)
  | respondTrade (playerId : PlayerId) (tradeId : Nat) (response : TradeResponse)
      (counterOffer : Option TradeOffer)
  | placeBid (playerId : PlayerId) (amount : Int)
  | declareBankruptcy (playerId : PlayerId)
  | surrender (playerId : PlayerId)
  /-- Applied when an auction timer expires. -/
  | advanceAuction
  /-- Applied when a trade offer expires. -/
  | expireTrade
  /-- Applied when the current player's turn timer expires. -/
  | turnTimeout
  deriving DecidableEq, Repr

end Monopoly
