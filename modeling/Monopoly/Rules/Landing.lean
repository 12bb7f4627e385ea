import Monopoly.Game.Rng
import Monopoly.Rules.Payments
import Monopoly.Rules.Rent

/-!
# Monopoly.Rules.Landing

Movement, landing and cards (`domain/game/rules/movement.py`,
`domain/game/rules/cards.py`).  A landing may draw a card, whose effect may
land again; the card rules take the landing they recurse into as an
argument.
-/

namespace Monopoly

/-! ## movement -/

/-- `(new_position, passed_go)`. -/
def advancePosition (fromPos steps : Nat) (mode : GameMode) : Py (Nat × Bool) := do
  let positions := (getGameConfig mode).boardPositions
  let currentIndex ← pyIndex positions fromPos
  let newIndex ← pyMod (currentIndex + steps) positions.length
  let newPos ← pyGet positions newIndex
  return (newPos, decide (currentIndex + steps ≥ positions.length))

def stepsTo (fromPos toPos : Nat) (mode : GameMode) : Py Nat := do
  let positions := (getGameConfig mode).boardPositions
  let fromIndex ← pyIndex positions fromPos
  let toIndex ← pyIndex positions toPos
  if toIndex ≥ fromIndex then return toIndex - fromIndex
  else return positions.length - fromIndex + toIndex

/-- The scan of `nearest_position`: `steps` counts up for `n` rounds. -/
def nearestFrom (positions targets : List Nat) (currentIndex : Nat) : Nat → Nat → Py Nat
  | 0, _ => .error (.runtimeError "no nearest position found")
  | n + 1, steps => do
      let index ← pyMod (currentIndex + steps) positions.length
      let pos ← pyGet positions index
      if pos ∈ targets then return pos
      else nearestFrom positions targets currentIndex n (steps + 1)

def nearestPosition (fromPos : Nat) (targets : List Nat) (mode : GameMode) : Py Nat := do
  let positions := (getGameConfig mode).boardPositions
  let currentIndex ← pyIndex positions fromPos
  nearestFrom positions targets currentIndex positions.length 1

def sendToJail (player : PlayerState) (mode : GameMode) : PlayerState :=
  { player with
    position := (getGameConfig mode).jailPosition
    jailStatus := some { turnsRemaining := jailTurnsInitial } }

/-- `players[_player_index(players, player.id)] = player`. -/
def putPlayer (players : List PlayerState) (player : PlayerState) : Py (List PlayerState) := do
  let idx ← playerIndex players player.id
  return players.set idx player

/-- `_set_player`. -/
def setPlayer (state : GameState) (player : PlayerState) : Py GameState := do
  let player ← updatePlayerNetWorth player state.spaces state.gameMode
  let players ← putPlayer state.players player
  let players ← refreshAllNetWorth players state.spaces state.gameMode
  return { state with players }

def applyGoSalary (state : GameState) (player : PlayerState) (amount : Int) :
    Py (GameState × GameEvent) := do
  let updated ← updatePlayerNetWorth { player with balance := player.balance + amount }
    state.spaces state.gameMode
  let players ← putPlayer state.players updated
  return ({ state with players }, .passedGo player.id player.displayName amount)

/-- `_finalize`, for the spaces the state has (the landing changes none). -/
def finalize (state : GameState) (players : List PlayerState) (turn : TurnState) :
    Py GameState := do
  let players ← refreshAllNetWorth players state.spaces state.gameMode
  return { state with players, turn }

/-! ## decks -/

def CardKind.value : CardKind → String
  | .chance => "chance"
  | .communityChest => "community_chest"

def GameMode.value : GameMode → String
  | .normal => "normal"
  | .duel => "duel"

def GameState.deck (state : GameState) : CardKind → List CardId
  | .chance => state.chanceDeck
  | .communityChest => state.chestDeck

def GameState.setDeck (state : GameState) (kind : CardKind) (deck : List CardId) : GameState :=
  match kind with
  | .chance => { state with chanceDeck := deck }
  | .communityChest => { state with chestDeck := deck }

/-- The deck to draw from: an empty one is refilled and shuffled. -/
def deckToDraw (state : GameState) (kind : CardKind) (rng : Rng) : Py (List CardId × Rng) :=
  match state.deck kind with
  | [] =>
      match fullDeck kind state.gameMode with
      | [] => .error (.runtimeError
          (kind.value ++ " deck is not available for " ++ state.gameMode.value))
      | full => .ok (rng.shuffle full)
  | deck => .ok (deck, rng)

def drawCard (state : GameState) (kind : CardKind) (rng : Rng) :
    Py (GameState × CardDef × Rng) := do
  let (deck, rng) ← deckToDraw state kind rng
  match deck with
  | [] => .error .indexError
  | cardId :: rest => do
      let card ← getCard cardId
      let newDeck := if card.effect = .getOutOfJailFree then rest else rest ++ [cardId]
      return (state.setDeck kind newDeck, card, rng)

def returnJailCardToDeck (state : GameState) (kind : CardKind) (cardId : CardId) : GameState :=
  state.setDeck kind (state.deck kind ++ [cardId])

/-! ## card effects -/

/-- What a landing or a card effect returns. -/
structure Landing where
  state : GameState
  events : List GameEvent
  sentToJail : Bool
  rng : Rng

/-- `resolve_landing` with the roll and the salary fixed: the state, the
landing player, `recursion_depth`, `rent_multiplier` and the generator. -/
abbrev Lander := GameState → PlayerState → Nat → Nat → Rng → Py Landing

def cardMoveEvent (player : PlayerState) (toPos : Nat) : GameEvent :=
  .playerMoved player.id player.displayName player.token player.position toPos 0 .card

/-- The salary of a card move that passes GO: the state, the player as the
state has them then, and the event. -/
def collectGoBonus (state : GameState) (player : PlayerState) (goSalary : Int) (due : Bool) :
    Py (GameState × PlayerState × List GameEvent) :=
  if due then do
    let (state, goEvent) ← applyGoSalary state player goSalary
    let player ← getPlayerByIdFromState state player.id
    return (state, player, [goEvent])
  else return (state, player, [])

/-- The tail shared by the advance effects: move by `steps`, collect the
salary where the card grants it, land. -/
def advanceAndLand (land : Lander) (goSalary : Int) (state : GameState) (player : PlayerState)
    (steps : Nat) (bonus : Bool) (depth rentMultiplier : Nat) (rng : Rng) : Py Landing := do
  let (newPos, passedGo) ← advancePosition player.position steps state.gameMode
  let moved := { player with position := newPos }
  let state ← setPlayer state moved
  let (state, moved, goEvents) ← collectGoBonus state moved goSalary (passedGo && bonus)
  let result ← land state moved depth rentMultiplier rng
  return { result with events := cardMoveEvent player newPos :: goEvents ++ result.events }

/-- The loop of `CollectFromEachPlayerEffect`: what every other active
player has up to `amount`, and the total. -/
def takeFromOthers (playerId : PlayerId) (amount : Int) (spaces : List SpaceOwnership)
    (mode : GameMode) : List PlayerState → Py (List PlayerState × Int)
  | [] => return ([], 0)
  | other :: rest => do
      if other.id = playerId ∨ other.isBankrupt then
        let (rest, total) ← takeFromOthers playerId amount spaces mode rest
        return (other :: rest, total)
      else
        let pay := min amount other.balance
        let other ← updatePlayerNetWorth { other with balance := other.balance - pay } spaces mode
        let (rest, total) ← takeFromOthers playerId amount spaces mode rest
        return (other :: rest, pay + total)

/-- The second loop of `PayEachPlayerEffect`. -/
def giveToOthers (playerId : PlayerId) (amount : Int) (spaces : List SpaceOwnership)
    (mode : GameMode) : List PlayerState → Py (List PlayerState)
  | [] => return []
  | other :: rest => do
      if other.id = playerId ∨ other.isBankrupt then
        let rest ← giveToOthers playerId amount spaces mode rest
        return other :: rest
      else
        let other ← updatePlayerNetWorth { other with balance := other.balance + amount }
          spaces mode
        let rest ← giveToOthers playerId amount spaces mode rest
        return other :: rest

/-- How many players an each-player card is about. -/
def otherActive (players : List PlayerState) (playerId : PlayerId) : Nat :=
  (players.filter fun p => ¬ (p.id = playerId ∨ p.isBankrupt)).length

/-- The loop of `RepairsEffect`. -/
def repairsCost (perHouse perHotel : Nat) (spaces : List SpaceOwnership) : List Nat → Py Nat
  | [] => return 0
  | pos :: rest => do
      let ownership ← spaceAt spaces pos
      let others ← repairsCost perHouse perHotel spaces rest
      if ownership.hasHotel then return perHotel + others
      else return perHouse * ownership.houses + others

def applyCardEffect (land : Lander) (goSalary : Int) (state : GameState) (player : PlayerState)
    (card : CardDef) (depth : Nat) (rng : Rng) : Py Landing :=
  match card.effect with
  | .advanceTo position collectGoBonus => do
      let steps ← stepsTo player.position position state.gameMode
      advanceAndLand land goSalary state player steps collectGoBonus depth 1 rng
  | .advanceToNearest spaceType payDouble => do
      let config := getGameConfig state.gameMode
      let targets := match spaceType with
        | .railroad => config.railroadPositions
        | .utility => config.utilityPositions
      let target ← nearestPosition player.position targets state.gameMode
      let steps ← stepsTo player.position target state.gameMode
      advanceAndLand land goSalary state player steps true depth (if payDouble then 2 else 1) rng
  | .goToJail => do
      let state ← setPlayer state (sendToJail player state.gameMode)
      return ⟨state, [.sentToJail player.id player.displayName .card], true, rng⟩
  | .goBack spaces => do
      let positions := (getGameConfig state.gameMode).boardPositions
      let currentIndex ← pyIndex positions player.position
      let newIndex ← pyMod ((currentIndex : Int) - spaces) positions.length
      let newPos ← pyGet positions newIndex
      let moved := { player with position := newPos }
      let state ← setPlayer state moved
      if depth ≥ cardLandingRecursionLimit then
        return ⟨state, [cardMoveEvent player newPos], false, rng⟩
      else
        let result ← land state moved (depth + 1) 1 rng
        return { result with events := cardMoveEvent player newPos :: result.events }
  | .collect amount => do
      let state ← setPlayer state { player with balance := player.balance + amount }
      return ⟨state, [], false, rng⟩
  | .pay amount => do
      let state ← attemptPayment state player.id amount none
      return ⟨state, [], false, rng⟩
  | .collectFromEachPlayer amount => do
      let (players, total) ←
        takeFromOthers player.id amount state.spaces state.gameMode state.players
      let receiver ← getPlayerById players player.id
      let receiver ← updatePlayerNetWorth { receiver with balance := receiver.balance + total }
        state.spaces state.gameMode
      let players ← putPlayer players receiver
      return ⟨{ state with players }, [], false, rng⟩
  | .payEachPlayer amount => do
      let total : Int := amount * otherActive state.players player.id
      let payer ← updatePlayerNetWorth { player with balance := player.balance - total }
        state.spaces state.gameMode
      let players ← putPlayer state.players payer
      let players ← giveToOthers player.id amount state.spaces state.gameMode players
      let players ← refreshAllNetWorth players state.spaces state.gameMode
      return ⟨{ state with players }, [], false, rng⟩
  | .getOutOfJailFree => do
      let state ← setPlayer state
        { player with getOutOfJailCards := player.getOutOfJailCards + 1 }
      return ⟨state, [], false, rng⟩
  | .repairs perHouse perHotel => do
      let cost ← repairsCost perHouse perHotel state.spaces player.ownedPositions
      let state ← attemptPayment state player.id cost none
      return ⟨state, [], false, rng⟩

/-- `draw_and_apply`, with the card that was drawn. -/
def drawAndApply (land : Lander) (goSalary : Int) (state : GameState) (player : PlayerState)
    (kind : CardKind) (depth : Nat) (rng : Rng) : Py (Landing × ActiveCard) := do
  let (state, card, rng) ← drawCard state kind rng
  let player' ← getPlayerByIdFromState state player.id
  let result ← applyCardEffect land goSalary state player' card depth rng
  return ({ result with
      events := .cardDrawn player.id player.displayName card.id card.kind :: result.events },
    { id := card.id, kind := card.kind, effect := card.effect, drawerId := player.id })

/-! ## landing -/

/-- The go-to-jail corner. -/
def landOnGoToJail (state : GameState) (player : PlayerState) (rng : Rng) : Py Landing := do
  let jailed ← updatePlayerNetWorth (sendToJail player state.gameMode) state.spaces state.gameMode
  let players ← putPlayer state.players jailed
  let turn := { state.turn with pendingBuyPosition := none, phase := .postRoll }
  let state ← finalize state players turn
  return ⟨state, [.sentToJail player.id player.displayName .goToJailSpace], true, rng⟩

/-- A tax space. -/
def landOnTax (state : GameState) (player : PlayerState) (taxAmount : Nat) (rng : Rng) :
    Py Landing := do
  let turn := state.turn
  let state ← finalize state state.players turn
  let state ← attemptPayment state player.id taxAmount none
  if state.bankruptcy.isSome then
    return ⟨{ state with turn := { state.turn with phase := .bankruptResolution } }, [], false,
      rng⟩
  else
    let turn := { turn with pendingBuyPosition := none, phase := .postRoll }
    let state ← finalize state state.players turn
    return ⟨state, [.taxPaid player.id player.displayName player.position taxAmount], false, rng⟩

/-- A Chance or Community Chest space. -/
def landOnCard (land : Lander) (goSalary : Int) (state : GameState) (player : PlayerState)
    (kind : CardKind) (depth : Nat) (rng : Rng) : Py Landing := do
  let state ← finalize state state.players state.turn
  let player' ← getPlayerByIdFromState state player.id
  let (result, activeCard) ← drawAndApply land goSalary state player' kind depth rng
  if result.sentToJail then
    return { result with state := { result.state with
      activeCard := some activeCard
      turn := { result.state.turn with phase := .postRoll, doublesStreak := 0 } } }
  else
    return { result with state := { result.state with activeCard := some activeCard } }

/-- Somebody else's unmortgaged property. -/
def landOnRent (state : GameState) (player : PlayerState) (diceRoll : DiceRoll)
    (boardSpace : BoardSpace) (ownerId : PlayerId) (rentMultiplier : Nat) (rng : Rng) :
    Py Landing := do
  let owner ← getPlayerByIdFromState state ownerId
  let rent ← calculateRent state player.position (diceRoll.die1 + diceRoll.die2) rentMultiplier
  let state ← finalize state state.players state.turn
  let state ← attemptPayment state player.id rent (some owner.id)
  if state.bankruptcy.isSome then
    return ⟨{ state with turn := { state.turn with phase := .bankruptResolution } }, [], false,
      rng⟩
  else
    return ⟨{ state with
        turn := { state.turn with pendingBuyPosition := none, phase := .mustPayRent } },
      [.rentPaid player.id player.displayName owner.id owner.displayName player.position
        boardSpace.name rent], false, rng⟩

/-- Every other space: an unowned property is offered for purchase. -/
def landOnRest (state : GameState) (player : PlayerState) (purchasable : Bool)
    (ownership : SpaceOwnership) (rng : Rng) : Py Landing := do
  let pendingBuy :=
    if purchasable ∧ ownership.ownerId = none then some player.position else none
  let turn := { state.turn with pendingBuyPosition := pendingBuy, phase := .postRoll }
  let state ← finalize state state.players turn
  return ⟨state, [], false, rng⟩

/-- A space that draws no card and charges no tax. -/
def landOnSpace (state : GameState) (player : PlayerState) (diceRoll : DiceRoll)
    (boardSpace : BoardSpace) (rentMultiplier : Nat) (rng : Rng) : Py Landing := do
  let ownership ← spaceAt state.spaces player.position
  let purchasable ← isPurchasable player.position state.gameMode
  match ownership.ownerId with
  | some ownerId =>
      if purchasable ∧ ownerId ≠ player.id ∧ ¬ ownership.isMortgaged then
        landOnRent state player diceRoll boardSpace ownerId rentMultiplier rng
      else landOnRest state player purchasable ownership rng
  | none => landOnRest state player purchasable ownership rng

/-- The deck a space draws from. -/
def SpaceType.cardKind : SpaceType → Option CardKind
  | .chance => some .chance
  | .chest => some .communityChest
  | _ => none

/-- The tax a space charges: `type == TAX and tax_amount is not None`. -/
def BoardSpace.tax (space : BoardSpace) : Option Nat :=
  if space.type = .tax then space.taxAmount else none

/-- `resolve_landing`.  The first argument bounds the recursion; running out
of it is Python's `RecursionError`. -/
def resolveLanding (diceRoll : DiceRoll) (goSalary : Int) : Nat → Lander
  | 0, _, _, _, _, _ => .error .recursionError
  | fuel + 1, state, player, depth, rentMultiplier, rng => do
      let boardSpace ← getBoardSpace player.position state.gameMode
      if boardSpace.corner = some .gotojail then landOnGoToJail state player rng
      else match boardSpace.tax, boardSpace.type.cardKind with
      | some amount, _ => landOnTax state player amount rng
      | none, some kind =>
          landOnCard (resolveLanding diceRoll goSalary fuel) goSalary state player kind depth rng
      | none, none => landOnSpace state player diceRoll boardSpace rentMultiplier rng

/-- How deep landings may nest: three Python frames each, out of the
default limit of 1000. -/
def landingFuel : Nat := 300

end Monopoly
