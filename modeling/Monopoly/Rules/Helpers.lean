import Monopoly.Game.Modes
import Monopoly.Game.State

/-!
# Monopoly.Rules.Helpers

Lookups into the state, and the net worth cache
(`domain/game/rules/helpers.py`).

A lookup raises `KeyError` when the key is not there; the handlers do not
catch it.  The generator expressions `next(i for i, p in enumerate(players)
..)` raise `StopIteration` in the same place, which is a different exception,
so they are definitions of their own.
-/

namespace Monopoly

/-! ## spaces -/

/-- `_space_index`: where the record of a position is. -/
def spaceIndex (spaces : List SpaceOwnership) (position : Nat) : Py Nat :=
  orRaise (spaces.findIdx? fun o => decide (o.position = position)) .keyError

/-- The record of a position. -/
def spaceAt (spaces : List SpaceOwnership) (position : Nat) : Py SpaceOwnership := do
  let index ← spaceIndex spaces position
  pyGet spaces index

/-- The record of a position is replaced. -/
def replaceSpace (spaces : List SpaceOwnership) (position : Nat) (ownership : SpaceOwnership) :
    Py (List SpaceOwnership) := do
  let index ← spaceIndex spaces position
  return spaces.set index ownership

/-! ## players -/

/-- The first player with the id. -/
def getPlayerById (players : List PlayerState) (playerId : PlayerId) : Py PlayerState :=
  orRaise (players.find? fun p => decide (p.id = playerId)) .keyError

/-- The same, of a state. -/
def getPlayerByIdFromState (state : GameState) (playerId : PlayerId) : Py PlayerState :=
  getPlayerById state.players playerId

/-- `idx = next(i for i, p in enumerate(players) if p.id == player_id)`. -/
def nextPlayerIdx (players : List PlayerState) (playerId : PlayerId) : Py Nat :=
  pyNextIdx (fun p => decide (p.id = playerId)) players

/-- `players[idx] = player` at the index `next(..)` finds for `playerId`. -/
def assignPlayer (players : List PlayerState) (playerId : PlayerId) (player : PlayerState) :
    Py (List PlayerState) := do
  let idx ← nextPlayerIdx players playerId
  return players.set idx player

/-- `_player_index`, the variant of the lookup that raises `KeyError`. -/
def playerIndex (players : List PlayerState) (playerId : PlayerId) : Py Nat :=
  orRaise (players.findIdx? fun p => decide (p.id = playerId)) .keyError

/-! ## net worth -/

/-- What one owned position adds to the net worth. -/
def positionWorth (spaces : List SpaceOwnership) (mode : GameMode) (pos : Nat) : Py Int := do
  let space ← getBoardSpace pos mode
  let ownership ← spaceAt spaces pos
  if ownership.isMortgaged then return 0
  let buildings := if ownership.hasHotel then hotelHouseCount else ownership.houses
  return (space.price.getD 0 : Int) + space.houseCost.getD 0 * buildings

/-- The loop of `compute_net_worth` over the owned positions. -/
def addWorth (spaces : List SpaceOwnership) (mode : GameMode) : List Nat → Int → Py Int
  | [], total => return total
  | pos :: rest, total => do
      let worth ← positionWorth spaces mode pos
      addWorth spaces mode rest (total + worth)

/-- The balance and the worth of every position owned. -/
def computeNetWorth (player : PlayerState) (spaces : List SpaceOwnership) (mode : GameMode) :
    Py Int :=
  addWorth spaces mode player.ownedPositions player.balance

/-- The cache of one player is renewed. -/
def updatePlayerNetWorth (player : PlayerState) (spaces : List SpaceOwnership) (mode : GameMode) :
    Py PlayerState := do
  let worth ← computeNetWorth player spaces mode
  return { player with netWorth := worth }

/-- `refresh_all_net_worth` over explicit players and spaces. -/
def refreshAllNetWorth (players : List PlayerState) (spaces : List SpaceOwnership)
    (mode : GameMode) : Py (List PlayerState) :=
  players.mapM fun p => updatePlayerNetWorth p spaces mode

/-! ## color groups -/

/-- The positions of a color on the board of the mode, in its order. -/
def positionsInColorGroup (color : PropertyColor) (mode : GameMode) : List Nat :=
  ((getGameConfig mode).board.filter fun space => decide (space.colorGroup = some color)).map
    (·.position)

/-- The loop shared by `player_owns_monopoly` and `player_has_rent_monopoly`:
every position is the player's and unmortgaged. -/
def ownsAllUnmortgaged (playerId : PlayerId) (spaces : List SpaceOwnership) :
    List Nat → Py Bool
  | [] => return true
  | pos :: rest => do
      let ownership ← spaceAt spaces pos
      if ownership.ownerId ≠ some playerId ∨ ownership.isMortgaged then return false
      else ownsAllUnmortgaged playerId spaces rest

/-- The same test as for building; the source has it twice. -/
def playerHasRentMonopoly (player : PlayerState) (color : PropertyColor)
    (spaces : List SpaceOwnership) (mode : GameMode) : Py Bool :=
  match positionsInColorGroup color mode with
  | [] => return false
  | group => ownsAllUnmortgaged player.id spaces group

/-- The sum shared by `count_owned_railroads` and `count_owned_utilities`. -/
def countOwned (player : PlayerState) (spaces : List SpaceOwnership) : List Nat → Py Nat
  | [] => return 0
  | pos :: rest => do
      let ownership ← spaceAt spaces pos
      let others ← countOwned player spaces rest
      if ownership.ownerId = some player.id ∧ ¬ ownership.isMortgaged then return others + 1
      else return others

/-- The railroads of the mode that the player owns and has not mortgaged. -/
def countOwnedRailroads (player : PlayerState) (spaces : List SpaceOwnership) (mode : GameMode) :
    Py Nat :=
  countOwned player spaces (getGameConfig mode).railroadPositions

/-- The utilities of the mode that the player owns and has not mortgaged. -/
def countOwnedUtilities (player : PlayerState) (spaces : List SpaceOwnership) (mode : GameMode) :
    Py Nat :=
  countOwned player spaces (getGameConfig mode).utilityPositions

end Monopoly
