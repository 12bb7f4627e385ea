import Monopoly.Lib.Python
import Monopoly.Game.Enums

/-!
# Monopoly.Game.Board

The two boards (`domain/game/schemas/board.py`, `domain/game/board_data.py`).
Positions are 1-based on both: the normal board is written down 0-based and
shifted, the duel board is written down as it is.

A board is a list of records in the order of their positions.  The source
looks a space up in a dictionary by mode and position, so that an unknown
position is a `KeyError`; here the lookup goes through the list and raises
the same.  No position occurs twice, so the first space with a position is
the only one.
-/

namespace Monopoly

/-- The rents of a street by what stands on it. -/
structure RentTable where
  base : Nat
  oneHouse : Nat
  twoHouses : Nat
  threeHouses : Nat
  fourHouses : Nat
  hotel : Nat
  deriving DecidableEq, Repr

/-- The hotel comes first; more than four houses count as none. -/
def RentTable.amountFor (t : RentTable) (houses : Nat) (hasHotel : Bool) : Nat :=
  if hasHotel then t.hotel
  else if houses = 4 then t.fourHouses
  else if houses = 3 then t.threeHouses
  else if houses = 2 then t.twoHouses
  else if houses = 1 then t.oneHouse
  else t.base

/-- One space as it is printed.  The fields that its type does not use stay
`none`. -/
structure BoardSpace where
  position : Nat
  type : SpaceType
  name : String
  colorGroup : Option PropertyColor := none
  price : Option Nat := none
  rent : Option RentTable := none
  houseCost : Option Nat := none
  mortgageValue : Option Nat := none
  corner : Option CornerVariant := none
  taxAmount : Option Nat := none
  deriving Repr

/-- A street; its mortgage value is half of its price, rounded down. -/
def street (position : Nat) (name : String) (price : Nat) (color : PropertyColor)
    (rent : RentTable) (houseCost : Nat) : BoardSpace :=
  { position, type := .property, name, colorGroup := some color, price := some price,
    rent := some rent, houseCost := some houseCost, mortgageValue := some (price / 2) }

/-- A railroad.  It has no rent table: its rent depends on how many its owner
has. -/
def railroad (position : Nat) (name : String) : BoardSpace :=
  { position, type := .railroad, name, price := some railroadPrice,
    mortgageValue := some railroadMortgageValue }

/-- A utility.  It has no rent table: its rent depends on the dice. -/
def utility (position : Nat) (name : String) : BoardSpace :=
  { position, type := .utility, name, price := some utilityPrice,
    mortgageValue := some utilityMortgageValue }

/-- The forty spaces of the full game, counted from zero. -/
def normalBoardZeroBased : List BoardSpace :=
  [ { position := 0, type := .corner, name := "TYCOON", corner := some .go },
    street 1 "Mediterranean Ave" 60 .brown ⟨2, 10, 30, 90, 160, 250⟩ houseCostBrownCyan,
    { position := 2, type := .chest, name := "Community Chest" },
    street 3 "Baltic Ave" 60 .brown ⟨4, 20, 60, 180, 320, 450⟩ houseCostBrownCyan,
    { position := 4, type := .tax, name := "Income Tax", taxAmount := some incomeTaxAmount },
    railroad 5 "Reading Railroad",
    street 6 "Oriental Ave" 100 .cyan ⟨6, 30, 90, 270, 400, 550⟩ houseCostBrownCyan,
    { position := 7, type := .chance, name := "Chance" },
    street 8 "Vermont Ave" 100 .cyan ⟨6, 30, 90, 270, 400, 550⟩ houseCostBrownCyan,
    street 9 "Connecticut Ave" 120 .cyan ⟨8, 40, 100, 300, 450, 600⟩ houseCostBrownCyan,
    { position := 10, type := .corner, name := "Just Visiting", corner := some .jail },
    street 11 "St. Charles Place" 140 .pink ⟨10, 50, 150, 450, 625, 750⟩ houseCostPinkOrange,
    utility 12 "Electric Company",
    street 13 "States Ave" 140 .pink ⟨10, 50, 150, 450, 625, 750⟩ houseCostPinkOrange,
    street 14 "Virginia Ave" 160 .pink ⟨12, 60, 180, 500, 700, 900⟩ houseCostPinkOrange,
    railroad 15 "Pennsylvania Railroad",
    street 16 "St. James Place" 180 .orange ⟨14, 70, 200, 550, 750, 950⟩ houseCostPinkOrange,
    { position := 17, type := .chest, name := "Community Chest" },
    street 18 "Tennessee Ave" 180 .orange ⟨14, 70, 200, 550, 750, 950⟩ houseCostPinkOrange,
    street 19 "New York Ave" 200 .orange ⟨16, 80, 220, 600, 800, 1000⟩ houseCostPinkOrange,
    { position := 20, type := .corner, name := "Free Parking", corner := some .parking },
    street 21 "Kentucky Ave" 220 .red ⟨18, 90, 250, 700, 875, 1050⟩ houseCostRedYellow,
    { position := 22, type := .chance, name := "Chance" },
    street 23 "Indiana Ave" 220 .red ⟨18, 90, 250, 700, 875, 1050⟩ houseCostRedYellow,
    street 24 "Illinois Ave" 240 .red ⟨20, 100, 300, 750, 925, 1100⟩ houseCostRedYellow,
    railroad 25 "B&O Railroad",
    street 26 "Atlantic Ave" 260 .yellow ⟨22, 110, 330, 800, 975, 1150⟩ houseCostRedYellow,
    street 27 "Ventnor Ave" 260 .yellow ⟨22, 110, 330, 800, 975, 1150⟩ houseCostRedYellow,
    utility 28 "Water Works",
    street 29 "Marvin Gardens" 280 .yellow ⟨24, 120, 360, 850, 1025, 1200⟩ houseCostRedYellow,
    { position := 30, type := .corner, name := "Go to Jail", corner := some .gotojail },
    street 31 "Pacific Ave" 300 .green ⟨26, 130, 390, 900, 1100, 1275⟩ houseCostGreenBlue,
    street 32 "North Carolina Ave" 300 .green ⟨26, 130, 390, 900, 1100, 1275⟩ houseCostGreenBlue,
    { position := 33, type := .chest, name := "Community Chest" },
    street 34 "Pennsylvania Ave" 320 .green ⟨28, 150, 450, 1000, 1200, 1400⟩ houseCostGreenBlue,
    railroad 35 "Short Line Railroad",
    { position := 36, type := .chance, name := "Chance" },
    street 37 "Park Place" 350 .blue ⟨35, 175, 500, 1100, 1300, 1500⟩ houseCostGreenBlue,
    { position := 38, type := .tax, name := "Luxury Tax", taxAmount := some luxuryTaxAmount },
    street 39 "Boardwalk" 400 .blue ⟨50, 200, 600, 1400, 1700, 2000⟩ houseCostGreenBlue ]

/-- Every position moved by the offset, nothing else. -/
def shiftBoardPositions (board : List BoardSpace) (offset : Nat) : List BoardSpace :=
  board.map fun space => { space with position := space.position + offset }

/-- The board of the full game, counted from one. -/
def normalBoard : List BoardSpace := shiftBoardPositions normalBoardZeroBased 1

/-- The twenty-four spaces of the duel, counted from one. -/
def duelBoard : List BoardSpace :=
  [ { position := 1, type := .corner, name := "Duel Start", corner := some .go },
    street 2 "Sparks Row" 60 .brown ⟨4, 20, 60, 180, 320, 450⟩ houseCostBrownCyan,
    { position := 3, type := .chance, name := "Duel Chance" },
    street 4 "Copper Lane" 80 .brown ⟨6, 30, 90, 270, 400, 550⟩ houseCostBrownCyan,
    { position := 5, type := .tax, name := "Duel Tax", taxAmount := some 100 },
    railroad 6 "North Shuttle",
    { position := 7, type := .corner, name := "Duel Jail", corner := some .jail },
    street 8 "Glass Street" 120 .cyan ⟨8, 40, 100, 300, 450, 600⟩ houseCostBrownCyan,
    { position := 9, type := .chance, name := "Duel Chance" },
    utility 10 "Power Grid",
    street 11 "Foundry Way" 140 .pink ⟨10, 50, 150, 450, 625, 750⟩ houseCostPinkOrange,
    { position := 12, type := .chance, name := "Duel Chance" },
    { position := 13, type := .corner, name := "Duel Parking", corner := some .parking },
    street 14 "Harbor Road" 160 .pink ⟨12, 60, 180, 500, 700, 900⟩ houseCostPinkOrange,
    railroad 15 "South Shuttle",
    street 16 "Market Street" 180 .orange ⟨14, 70, 200, 550, 750, 950⟩ houseCostPinkOrange,
    { position := 17, type := .chance, name := "Duel Chance" },
    street 18 "Crown Avenue" 200 .orange ⟨16, 80, 220, 600, 800, 1000⟩ houseCostPinkOrange,
    { position := 19, type := .corner, name := "Go to Duel Jail", corner := some .gotojail },
    street 20 "Redstone Plaza" 220 .red ⟨18, 90, 250, 700, 875, 1050⟩ houseCostRedYellow,
    { position := 21, type := .tax, name := "Luxury Toll", taxAmount := some 75 },
    utility 22 "Water Grid",
    street 23 "Victory Boulevard" 260 .red ⟨22, 110, 330, 800, 975, 1150⟩ houseCostRedYellow,
    street 24 "Summit Drive" 280 .yellow ⟨24, 120, 360, 850, 1025, 1200⟩ houseCostRedYellow ]

/-- The board a game of the mode is played on. -/
def boardForMode : GameMode → List BoardSpace
  | .normal => normalBoard
  | .duel => duelBoard

/-- `_BOARD_BY_MODE_AND_POSITION[game_mode][position]`. -/
def getBoardSpace (position : Nat) (mode : GameMode) : Py BoardSpace :=
  orRaise ((boardForMode mode).find? fun space => decide (space.position = position)) .keyError

/-- Whether the space can have an owner; an unknown position raises. -/
def isPurchasable (position : Nat) (mode : GameMode) : Py Bool := do
  let space ← getBoardSpace position mode
  return decide (space.type ∈ purchasableTypes)

end Monopoly
