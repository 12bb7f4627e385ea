import Monopoly.Lib.Binary64
import Monopoly.Rules.Helpers

/-!
# Monopoly.Rules.Building

Houses, hotels and mortgages (`domain/game/rules/building.py`).

Each operation asks its check first and refuses with one message if it says
no; the checks look at the spaces of the color group and answer, they do not
refuse.  The same checks, run over all properties of a player, make the flags
of the turn.  The four operations end alike, in `updateHolding`.
-/

namespace Monopoly

/-- Every street of the group is the player's, and none is mortgaged. -/
def playerOwnsMonopoly (player : PlayerState) (color : PropertyColor)
    (spaces : List SpaceOwnership) (mode : GameMode) : Py Bool :=
  match positionsInColorGroup color mode with
  | [] => return false
  | group => ownsAllUnmortgaged player.id spaces group

/-- A hotel is the fifth level. -/
def buildingLevel (ownership : SpaceOwnership) : Nat :=
  if ownership.hasHotel then 5 else ownership.houses

/-- The building levels of the spaces of a color group. -/
def groupLevels (spaces : List SpaceOwnership) : List Nat → Py (List Nat)
  | [] => return []
  | pos :: rest => do
      let ownership ← spaceAt spaces pos
      let levels ← groupLevels spaces rest
      return buildingLevel ownership :: levels

/-- The player's own unmortgaged street without a hotel, in a group that is
complete and built up evenly, with a building in the bank and the cash to pay
for it. -/
def canBuildOn (state : GameState) (playerId : PlayerId) (position : Nat) : Py Bool := do
  let player ← getPlayerByIdFromState state playerId
  let ownership ← spaceAt state.spaces position
  if ownership.ownerId ≠ some player.id then return false
  let boardSpace ← getBoardSpace position state.gameMode
  match boardSpace.type, boardSpace.colorGroup with
  | .property, some color => do
      if ownership.isMortgaged ∨ ownership.hasHotel then return false
      if ¬ (← playerOwnsMonopoly player color state.spaces state.gameMode) then return false
      let levels ← groupLevels state.spaces (positionsInColorGroup color state.gameMode)
      let minLevel ← pyMin levels
      if buildingLevel ownership > minLevel then return false
      let shortage : Bool :=
        if buildingLevel ownership ≥ 4 then state.bankHotels ≤ 0 else state.bankHouses ≤ 0
      if shortage then return false
      return decide (player.balance ≥ boardSpace.houseCost.getD 0)
  | _, _ => return false

/-- The player's own street with a building on it, at the top level of its
group. -/
def canSellOn (state : GameState) (playerId : PlayerId) (position : Nat) : Py Bool := do
  let player ← getPlayerByIdFromState state playerId
  let ownership ← spaceAt state.spaces position
  if ownership.ownerId ≠ some player.id then return false
  let boardSpace ← getBoardSpace position state.gameMode
  match boardSpace.type, boardSpace.colorGroup with
  | .property, some color => do
      if ownership.houses = 0 ∧ ¬ ownership.hasHotel then return false
      let levels ← groupLevels state.spaces (positionsInColorGroup color state.gameMode)
      let maxLevel ← pyMax levels
      return decide (buildingLevel ownership = maxLevel)
  | _, _ => return false

/-- The tail shared by the four operations: the player's balance moves by
`delta`, `ownership` replaces the space, and the net worths are refreshed. -/
def updateHolding (state : GameState) (playerId : PlayerId) (player : PlayerState)
    (position : Nat) (ownership : SpaceOwnership) (delta : Int) : Py GameState := do
  let spaces ← replaceSpace state.spaces position ownership
  let player ← updatePlayerNetWorth { player with balance := player.balance + delta } spaces
    state.gameMode
  let players ← assignPlayer state.players playerId player
  let players ← refreshAllNetWorth players spaces state.gameMode
  return { state with players, spaces }

/-- The fifth house is a hotel, for which four houses go back to the bank. -/
def buildHouse (state : GameState) (playerId : PlayerId) (position : Nat) : Py GameState := do
  let allowed ← canBuildOn state playerId position
  illegalIf (¬ allowed) "cannot build on this property"
  let player ← getPlayerByIdFromState state playerId
  let ownership ← spaceAt state.spaces position
  let boardSpace ← getBoardSpace position state.gameMode
  let houseCost : Int := boardSpace.houseCost.getD 0
  if ownership.houses = 4 then
    let state' ← updateHolding state playerId player position
      { ownership with houses := 0, hasHotel := true } (-houseCost)
    return { state' with
      bankHouses := state.bankHouses + 4, bankHotels := state.bankHotels - 1 }
  else
    let state' ← updateHolding state playerId player position
      { ownership with houses := ownership.houses + 1 } (-houseCost)
    return { state' with bankHouses := state.bankHouses - 1 }

/-- Half of the price is paid back.  A hotel leaves four houses, which the bank
is not asked for. -/
def sellHouse (state : GameState) (playerId : PlayerId) (position : Nat) : Py GameState := do
  let allowed ← canSellOn state playerId position
  illegalIf (¬ allowed) "cannot sell on this property"
  let player ← getPlayerByIdFromState state playerId
  let ownership ← spaceAt state.spaces position
  let boardSpace ← getBoardSpace position state.gameMode
  -- `int(house_cost * 0.5)` is exact: the product is representable
  let credit : Int := (boardSpace.houseCost.getD 0 / 2 : Nat)
  if ownership.hasHotel then
    let state' ← updateHolding state playerId player position
      { ownership with houses := 4, hasHotel := false } credit
    return { state' with
      bankHouses := state.bankHouses - 4, bankHotels := state.bankHotels + 1 }
  else
    let state' ← updateHolding state playerId player position
      { ownership with houses := ownership.houses - 1 } credit
    return { state' with bankHouses := state.bankHouses + 1 }

/-! ## mortgages -/

/-- No space of a color group carries a building. -/
def groupUnbuilt (spaces : List SpaceOwnership) : List Nat → Py Bool
  | [] => return true
  | pos :: rest => do
      let mate ← spaceAt spaces pos
      if mate.houses > 0 ∨ mate.hasHotel then return false
      else groupUnbuilt spaces rest

/-- A street's group must carry no building; other spaces have no group. -/
def groupAllowsMortgage (state : GameState) (boardSpace : BoardSpace) : Py Bool :=
  match boardSpace.type, boardSpace.colorGroup with
  | .property, some color =>
      groupUnbuilt state.spaces (positionsInColorGroup color state.gameMode)
  | _, _ => return true

/-- The player's own purchasable space without buildings, on it or in its
group. -/
def canMortgage (state : GameState) (playerId : PlayerId) (position : Nat) : Py Bool := do
  let player ← getPlayerByIdFromState state playerId
  let ownership ← spaceAt state.spaces position
  if ownership.ownerId ≠ some player.id ∨ ownership.isMortgaged then return false
  if ownership.houses > 0 ∨ ownership.hasHotel then return false
  let boardSpace ← getBoardSpace position state.gameMode
  let unbuilt ← groupAllowsMortgage state boardSpace
  if ¬ unbuilt then return false
  isPurchasable position state.gameMode

/-- `math.ceil(mortgage_value * (1 + MORTGAGE_INTEREST))`. -/
def unmortgageCost (mortgageValue : Nat) : Nat :=
  Binary64.ceilMul mortgageValue Binary64.oneAndTenth 52

/-- The player's own mortgaged space, if the cash is enough. -/
def canUnmortgage (state : GameState) (playerId : PlayerId) (position : Nat) : Py Bool := do
  let player ← getPlayerByIdFromState state playerId
  let ownership ← spaceAt state.spaces position
  if ownership.ownerId ≠ some player.id ∨ ¬ ownership.isMortgaged then return false
  let boardSpace ← getBoardSpace position state.gameMode
  return decide (player.balance ≥ unmortgageCost (boardSpace.mortgageValue.getD 0))

/-- The bank pays the mortgage value. -/
def mortgageProperty (state : GameState) (playerId : PlayerId) (position : Nat) :
    Py GameState := do
  let allowed ← canMortgage state playerId position
  illegalIf (¬ allowed) "cannot mortgage this property"
  let player ← getPlayerByIdFromState state playerId
  let boardSpace ← getBoardSpace position state.gameMode
  let ownership ← spaceAt state.spaces position
  updateHolding state playerId player position { ownership with isMortgaged := true }
    (boardSpace.mortgageValue.getD 0)

/-- The player pays it back with the interest. -/
def unmortgageProperty (state : GameState) (playerId : PlayerId) (position : Nat) :
    Py GameState := do
  let allowed ← canUnmortgage state playerId position
  illegalIf (¬ allowed) "cannot unmortgage this property"
  let player ← getPlayerByIdFromState state playerId
  let boardSpace ← getBoardSpace position state.gameMode
  let ownership ← spaceAt state.spaces position
  updateHolding state playerId player position { ownership with isMortgaged := false }
    (-(unmortgageCost (boardSpace.mortgageValue.getD 0) : Int))

/-! ## what a player could do -/

/-- The loop of `has_any_*`: some position passes the check. -/
def anyPosition (check : Nat → Py Bool) : List Nat → Py Bool
  | [] => return false
  | pos :: rest => do
      if ← check pos then return true
      else anyPosition check rest

/-- Some property of the player can be built on. -/
def hasAnyBuildable (state : GameState) (playerId : PlayerId) : Py Bool := do
  let player ← getPlayerByIdFromState state playerId
  anyPosition (canBuildOn state playerId) player.ownedPositions

/-- Some property of the player can be mortgaged. -/
def hasAnyMortgageable (state : GameState) (playerId : PlayerId) : Py Bool := do
  let player ← getPlayerByIdFromState state playerId
  anyPosition (canMortgage state playerId) player.ownedPositions

/-- Some property of the player can be redeemed. -/
def hasAnyUnmortgageable (state : GameState) (playerId : PlayerId) : Py Bool := do
  let player ← getPlayerByIdFromState state playerId
  anyPosition (canUnmortgage state playerId) player.ownedPositions

end Monopoly
