import Monopoly.Lib.Python
import Monopoly.Game.Enums

/-!
# Monopoly.Game.Cards

Chance and Community Chest cards (`domain/game/schemas/cards.py`,
`domain/game/cards_data.py`).

A card is its id, its deck and its effect; the texts on it are not modelled.
Decks are lists of ids, the next card first, and a lookup turns the id that
was drawn into the card.  A deck may hold an id that names no card as far as
its type goes; no deck of a game does.
-/

namespace Monopoly

/-- The prefix of a card's id. -/
inductive CardFamily where
  | chance
  | chest
  | duelChance
  deriving DecidableEq, Repr

/-- A card id: `chance_08` is `⟨.chance, 8⟩`.  Not every id names a card. -/
structure CardId where
  family : CardFamily
  number : Nat
  deriving DecidableEq, Repr

/-- What an advance to the nearest space may look for. -/
inductive NearestTarget where
  | railroad
  | utility
  deriving DecidableEq, Repr

/-- What a card does.  Amounts are printed on it and not negative. -/
inductive CardEffect where
  | advanceTo (position : Nat) (collectGoBonus : Bool)
  | advanceToNearest (spaceType : NearestTarget) (payDouble : Bool)
  | goToJail
  | goBack (spaces : Nat)
  | collect (amount : Nat)
  | pay (amount : Nat)
  | collectFromEachPlayer (amount : Nat)
  | payEachPlayer (amount : Nat)
  | getOutOfJailFree
  | repairs (perHouse perHotel : Nat)
  deriving DecidableEq, Repr

/-- A card. -/
structure CardDef where
  id : CardId
  kind : CardKind
  effect : CardEffect
  deriving DecidableEq, Repr

/-- The card on display after a draw. -/
structure ActiveCard where
  id : CardId
  kind : CardKind
  effect : CardEffect
  drawerId : Nat
  deriving DecidableEq, Repr

/-- The sixteen Chance cards of the full game. -/
def chanceCards : List CardDef :=
  [ ⟨⟨.chance, 1⟩, .chance, .advanceTo 1 true⟩,
    ⟨⟨.chance, 2⟩, .chance, .advanceTo 25 true⟩,
    ⟨⟨.chance, 3⟩, .chance, .advanceTo 12 true⟩,
    ⟨⟨.chance, 4⟩, .chance, .advanceToNearest .utility false⟩,
    ⟨⟨.chance, 5⟩, .chance, .advanceToNearest .railroad true⟩,
    ⟨⟨.chance, 6⟩, .chance, .advanceToNearest .railroad true⟩,
    ⟨⟨.chance, 7⟩, .chance, .collect 50⟩,
    ⟨⟨.chance, 8⟩, .chance, .getOutOfJailFree⟩,
    ⟨⟨.chance, 9⟩, .chance, .goBack 3⟩,
    ⟨⟨.chance, 10⟩, .chance, .goToJail⟩,
    ⟨⟨.chance, 11⟩, .chance, .repairs 25 100⟩,
    ⟨⟨.chance, 12⟩, .chance, .pay 15⟩,
    ⟨⟨.chance, 13⟩, .chance, .advanceTo 6 true⟩,
    ⟨⟨.chance, 14⟩, .chance, .advanceTo 40 false⟩,
    ⟨⟨.chance, 15⟩, .chance, .payEachPlayer 50⟩,
    ⟨⟨.chance, 16⟩, .chance, .collect 150⟩ ]

/-- The sixteen Community Chest cards of the full game. -/
def communityChestCards : List CardDef :=
  [ ⟨⟨.chest, 1⟩, .communityChest, .advanceTo 1 true⟩,
    ⟨⟨.chest, 2⟩, .communityChest, .collect 200⟩,
    ⟨⟨.chest, 3⟩, .communityChest, .pay 50⟩,
    ⟨⟨.chest, 4⟩, .communityChest, .collect 50⟩,
    ⟨⟨.chest, 5⟩, .communityChest, .getOutOfJailFree⟩,
    ⟨⟨.chest, 6⟩, .communityChest, .goToJail⟩,
    ⟨⟨.chest, 7⟩, .communityChest, .collect 100⟩,
    ⟨⟨.chest, 8⟩, .communityChest, .collect 20⟩,
    ⟨⟨.chest, 9⟩, .communityChest, .collectFromEachPlayer 10⟩,
    ⟨⟨.chest, 10⟩, .communityChest, .collect 100⟩,
    ⟨⟨.chest, 11⟩, .communityChest, .pay 100⟩,
    ⟨⟨.chest, 12⟩, .communityChest, .pay 150⟩,
    ⟨⟨.chest, 13⟩, .communityChest, .collect 25⟩,
    ⟨⟨.chest, 14⟩, .communityChest, .repairs 40 115⟩,
    ⟨⟨.chest, 15⟩, .communityChest, .collect 10⟩,
    ⟨⟨.chest, 16⟩, .communityChest, .collect 100⟩ ]

/-- The eight cards of the duel, drawn on its Chance spaces. -/
def duelChanceCards : List CardDef :=
  [ ⟨⟨.duelChance, 1⟩, .chance, .advanceTo 1 true⟩,
    ⟨⟨.duelChance, 2⟩, .chance, .advanceTo 23 false⟩,
    ⟨⟨.duelChance, 3⟩, .chance, .advanceToNearest .railroad true⟩,
    ⟨⟨.duelChance, 4⟩, .chance, .advanceToNearest .utility false⟩,
    ⟨⟨.duelChance, 5⟩, .chance, .collect 75⟩,
    ⟨⟨.duelChance, 6⟩, .chance, .pay 50⟩,
    ⟨⟨.duelChance, 7⟩, .chance, .goBack 2⟩,
    ⟨⟨.duelChance, 8⟩, .chance, .goToJail⟩ ]

/-- Every card there is, of all three families. -/
def allCards : List CardDef := chanceCards ++ communityChestCards ++ duelChanceCards

/-- `ALL_CARDS[card_id]`. -/
def getCard (cardId : CardId) : Py CardDef :=
  orRaise (allCards.find? fun card => decide (card.id = cardId)) .keyError

/-- The Chance deck before it is shuffled. -/
def defaultChanceDeck : List CardId := chanceCards.map (·.id)

/-- The Community Chest deck before it is shuffled. -/
def defaultChestDeck : List CardId := communityChestCards.map (·.id)

/-- `chance_08`, the Get Out of Jail Free card of the Chance deck. -/
def chanceJailCard : CardId := ⟨.chance, 8⟩

/-- `chest_05`, the Get Out of Jail Free card of the Community Chest deck. -/
def chestJailCard : CardId := ⟨.chest, 5⟩

end Monopoly
