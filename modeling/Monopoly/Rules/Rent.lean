import Monopoly.Rules.Helpers

/-!
# Monopoly.Rules.Rent

Rent (`domain/game/rules/rent.py`).

The rent of a street is read off its table, that of a railroad off the number
of railroads, and that of a utility off the dice.  The multiplier of a card
applies to railroads and streets; it is 1 for every landing by the dice.
-/

namespace Monopoly

/-- Whether the rent of an unbuilt street is doubled. -/
def monopolyDoubles (owner : PlayerState) (ownership : SpaceOwnership)
    (color : Option PropertyColor) (state : GameState) : Py Bool :=
  match color with
  | some color =>
      if ownership.houses = 0 ∧ ¬ ownership.hasHotel then
        playerHasRentMonopoly owner color state.spaces state.gameMode
      else return false
  | none => return false

/-- Nothing is due where nobody owns the space or it is mortgaged. -/
def calculateRent (state : GameState) (position diceTotal : Nat) (rentMultiplier : Nat) :
    Py Int := do
  let ownership ← spaceAt state.spaces position
  match ownership.ownerId, ownership.isMortgaged with
  | none, _ | _, true => return 0
  | some ownerId, false => do
    let owner ← getPlayerById state.players ownerId
    let boardSpace ← getBoardSpace position state.gameMode
    match boardSpace.type, boardSpace.rent with
    | .railroad, _ => do
        let count ← countOwnedRailroads owner state.spaces state.gameMode
        let base ← pyGet railroadRents ((min count maxRailroadsOwned : Nat) - 1)
        return base * rentMultiplier
    | .utility, _ => do
        let count ← countOwnedUtilities owner state.spaces state.gameMode
        let multiplier := if count = 1 then utilityRentMultiplierOne else utilityRentMultiplierTwo
        return multiplier * diceTotal
    | .property, some rent => do
        let amount : Int := rent.amountFor ownership.houses ownership.hasHotel
        let monopoly ← monopolyDoubles owner ownership boardSpace.colorGroup state
        if monopoly then return amount * monopolyRentMultiplier
        else return amount * rentMultiplier
    | _, _ => return 0

end Monopoly
