/-!
# Monopoly.Game.Enums

The enumerations and numeric constants of the game (`domain/game/enums.py`,
`domain/game/constants.py`).

An enumeration of the source is a string enum; here it is an inductive type,
and the few places where its string value is read (a log entry, the id of a
card) spell that value out.  Amounts of money are integers, since the code
subtracts from them freely; prices and rents that stand on a board are
natural numbers.  Only the constants that some modelled function reads are
kept: the modes and the boards carry their positions themselves.
-/

namespace Monopoly

/-- The full game with two dice, and the short one for two players with one. -/
inductive GameMode where
  | normal
  | duel
  deriving DecidableEq, Repr

/-- What a landing on the space does; the corners differ by their variant. -/
inductive SpaceType where
  | corner
  | property
  | railroad
  | utility
  | chance
  | chest
  | tax
  deriving DecidableEq, Repr

/-- The four corners.  `jail` is the space of the visitors and of the jailed
alike. -/
inductive CornerVariant where
  | go
  | jail
  | parking
  | gotojail
  deriving DecidableEq, Repr

/-- The color groups of the streets; the duel board uses some of them only. -/
inductive PropertyColor where
  | brown
  | cyan
  | pink
  | orange
  | red
  | yellow
  | green
  | blue
  deriving DecidableEq, Repr

/-- A game is created in progress, and finished once; `lobby` is never stored.
-/
inductive GameStatus where
  | lobby
  | inProgress
  | finished
  deriving DecidableEq, Repr

/-- What the turn is waiting for.  No handler sets `drawingCard`. -/
inductive TurnPhase where
  | preRoll
  | jailDecision
  | postRoll
  | mustPayRent
  | drawingCard
  | auction
  | tradeNegotiation
  | bankruptResolution
  | gameOver
  deriving DecidableEq, Repr

/-- The tokens, handed out in the order of `tokenColors`. -/
inductive TokenColor where
  | blue
  | red
  | green
  | yellow
  | orange
  | pink
  | cyan
  | brown
  | gold
  | ink
  deriving DecidableEq, Repr

/-- The two decks. -/
inductive CardKind where
  | chance
  | communityChest
  deriving DecidableEq, Repr

/-- A trade on the table is `pending`, or `countered` by the other side. -/
inductive TradeStatus where
  | pending
  | countered
  | accepted
  | rejected
  | cancelled
  deriving DecidableEq, Repr

/-- What a player may answer to a trade. -/
inductive TradeResponse where
  | accept
  | reject
  | counter
  deriving DecidableEq, Repr

/-! ## constants -/

/-- The default cash of a player in a new game. -/
def startingBalance : Int := 1500

/-- The bail the flags of a turn are computed with; the bail that is taken is
an argument of `apply`. -/
def jailFineAmount : Int := 50

/-- The stock of houses the bank opens with. -/
def bankHousesInitial : Int := 32

/-- The stock of hotels the bank opens with. -/
def bankHotelsInitial : Int := 12

/-- How long an auction is open; a bid does not prolong it. -/
def auctionDurationMs : Int := 30000

/-- How long a trade stands without an answer. -/
def tradeDurationMs : Int := 60000

/-- Cap on the offers one player may propose during one of their turns. -/
def maxTradeOffersPerTurn : Nat := 3

/-- How many cards may follow one another in a landing. -/
def cardLandingRecursionLimit : Nat := 3

/-- The time for a turn, where the mode has none of its own. -/
def turnTimeoutMs : Int := 90000

/-- With this many timers in a row a player is forced out. -/
def maxAfkStrikes : Nat := 3

/-- The price of every railroad, on both boards. -/
def railroadPrice : Nat := 200
def railroadMortgageValue : Nat := 100

/-- The price of every utility, on both boards. -/
def utilityPrice : Nat := 150
def utilityMortgageValue : Nat := 75

/-- The income tax of the normal board. -/
def incomeTaxAmount : Nat := 200

/-- The luxury tax of the normal board. -/
def luxuryTaxAmount : Nat := 100

/-- The rent of a railroad by how many of them its owner has. -/
def railroadRents : List Int := [25, 50, 100, 200]

/-- More railroads than these do not raise the rent. -/
def maxRailroadsOwned : Nat := 4

/-- The factor on the dice total for the owner of one utility. -/
def utilityRentMultiplierOne : Int := 4

/-- The factor on the dice total for the owner of more than one. -/
def utilityRentMultiplierTwo : Int := 10

/-- The factor on the base rent of a street in a full group without buildings.
-/
def monopolyRentMultiplier : Int := 2

/-- A hotel counts as this many houses, in the building level and in the
repairs. -/
def hotelHouseCount : Nat := 5

/-- The doubles that sends its roller to jail. -/
def doublesJailThreshold : Nat := 3

/-- The rolls a player has for leaving the jail by doubles. -/
def jailTurnsInitial : Nat := 3

/-- The least number of a die. -/
def diceMin : Nat := 1

/-- The greatest number of a die. -/
def diceMax : Nat := 6

def houseCostBrownCyan : Nat := 50
def houseCostPinkOrange : Nat := 100
def houseCostRedYellow : Nat := 150
def houseCostGreenBlue : Nat := 200

/-- The spaces that can have an owner. -/
def purchasableTypes : List SpaceType := [.property, .railroad, .utility]

def tokenColors : List TokenColor :=
  [.blue, .red, .green, .yellow, .orange, .pink, .cyan, .brown, .gold, .ink]

end Monopoly
