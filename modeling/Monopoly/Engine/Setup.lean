import Monopoly.Game.Rng
import Monopoly.Game.Modes
import Monopoly.Game.State

/-!
# Monopoly.Engine.Setup

A new game (`domain/game/setup.py`).
-/

namespace Monopoly

/-- A member of the room, as the game needs them. -/
structure GameMember where
  userId : UserId
  displayName : String
  rating : Int := 800
  deriving DecidableEq, Repr

/-- The caller's arguments of `new_game`. -/
structure NewGame where
  gameId : Nat
  sessionCode : String
  members : List GameMember
  rng : Rng
  clock : Clock
  startingBalance : Int
  gameMode : GameMode
  deriving DecidableEq, Repr

/-- `config.starting_balance or starting_balance`. -/
def playerStartingBalance (config : GameConfig) (startingBalance : Int) : Int :=
  match config.startingBalance with
  | some b => if b = 0 then startingBalance else b
  | none => startingBalance

/-- The seat of the member who drew `turnOrder`; `uuid4` is the sequence of ids
the generator hands out. -/
def newPlayer (uuid4 : Nat → PlayerId) (config : GameConfig) (balance : Int) (turnOrder : Nat)
    (member : GameMember) : PlayerState where
  id := uuid4 turnOrder
  userId := member.userId
  displayName := member.displayName
  token := tokenColors.getD (turnOrder % tokenColors.length) .blue
  turnOrder := turnOrder
  position := config.startPosition
  balance := balance
  netWorth := balance
  rating := member.rating

/-- The seats are drawn, then the two decks are shuffled; the first seat opens
the game. -/
def newGame (uuid4 : Nat → PlayerId) (args : NewGame) : Py (GameState × Rng) := do
  let config := getGameConfig args.gameMode
  let balance := playerStartingBalance config args.startingBalance
  let (memberOrder, rng) := args.rng.shuffle args.members
  let players := memberOrder.mapIdx (newPlayer uuid4 config balance)
  let spaces : List SpaceOwnership := config.board.map fun space => { position := space.position }
  let (chanceDeck, rng) := rng.shuffle (fullDeck .chance args.gameMode)
  let (chestDeck, rng) := rng.shuffle (fullDeck .communityChest args.gameMode)
  let currentPlayer ← pyGet players 0
  let timeoutMs := match config.turnTimeoutMs with
    | some t => if t = 0 then turnTimeoutMs else t
    | none => turnTimeoutMs
  return ({
    gameId := args.gameId
    sessionCode := args.sessionCode
    gameMode := args.gameMode
    status := .inProgress
    createdAt := args.clock.now
    startedAt := some args.clock.now
    players
    turn :=
      { phase := .preRoll, currentPlayerId := currentPlayer.id
        turnDeadlineMs := some (args.clock.nowMs + timeoutMs) }
    spaces
    bankHouses := bankHousesInitial
    bankHotels := bankHotelsInitial
    chanceDeck
    chestDeck
    suddenDeathDeadlineMs := config.suddenDeathDurationMs.map (args.clock.nowMs + ·) }, rng)

end Monopoly
