import Monopoly.Game.Board
import Monopoly.Game.Cards

/-!
# Monopoly.Game.Modes

The per-mode configuration (`domain/game/modes.py`).

A field that is `none` leaves the matter to the general constant: the
starting balance, the time for a turn and the two decks.  The rules ask the
configuration for the jail and for the number of dice, and go through the
lists of railroads and utilities when they count what a player has; the lists
are those of the source and are not computed from the board.
-/

namespace Monopoly

/-- What the rules ask of a mode.  `none` stands for the general constant. -/
structure GameConfig where
  mode : GameMode
  board : List BoardSpace
  maxPlayers : Nat
  diceCount : Nat
  startPosition : Nat
  jailPosition : Nat
  railroadPositions : List Nat
  utilityPositions : List Nat
  startingBalance : Option Int := none
  chanceDeck : Option (List CardId) := none
  chestDeck : Option (List CardId) := none
  suddenDeathDurationMs : Option Int := none
  turnTimeoutMs : Option Int := none

/-- The positions of the board, in its order. -/
def GameConfig.boardPositions (config : GameConfig) : List Nat :=
  config.board.map (·.position)

/-- The full game, for up to eight players. -/
def normalConfig : GameConfig where
  mode := .normal
  board := boardForMode .normal
  maxPlayers := 8
  diceCount := 2
  startPosition := 1
  jailPosition := 11
  railroadPositions := [6, 16, 26, 36]
  utilityPositions := [13, 29]

/-- The duel: two players, one die, less cash and less time, and a deck of its
own for both kinds (the second one empty). -/
def duelConfig : GameConfig where
  mode := .duel
  board := boardForMode .duel
  maxPlayers := 2
  diceCount := 1
  startPosition := 1
  jailPosition := 7
  railroadPositions := [6, 14]
  utilityPositions := [10, 21]
  startingBalance := some 1000
  chanceDeck := some ((List.range 8).map fun i => ⟨.duelChance, i + 1⟩)
  chestDeck := some []
  suddenDeathDurationMs := some (20 * 60 * 1000)
  turnTimeoutMs := some 30000

/-- The configuration of a mode; every mode has one. -/
def getGameConfig : GameMode → GameConfig
  | .normal => normalConfig
  | .duel => duelConfig

/-- The mode's deck of one kind before any draw: `config.chance_deck` (or
`config.chest_deck`) where the mode has one, else the default deck. -/
def fullDeck (kind : CardKind) (mode : GameMode) : List CardId :=
  match kind with
  | .chance => (getGameConfig mode).chanceDeck.getD defaultChanceDeck
  | .communityChest => (getGameConfig mode).chestDeck.getD defaultChestDeck

end Monopoly
