import Mathlib.Algebra.Ring.Int.Defs
import Monopoly.Spec.Payments

/-!
# Monopoly.Spec.Landing

Where a move ends, and what happens there.  A landing follows the cards it
draws (`follow`) until the player comes to rest, on a space or on a card
that is carried out in place, and only then acts on the table
(`Touchdown`).
-/

namespace Monopoly

/-! ## following the cards -/

/-- A player on the move, with the decks and the generator as they are.  The
total of the dice and the multiplier of the last card are what a rent is
reckoned from. -/
structure Leg where
  mode : GameMode
  decks : CardKind → List CardId
  position : Nat
  cash : Int
  diceTotal : Nat
  multiplier : Nat
  rng : Rng

/-- The draw of `drawCard`, on the deck alone. -/
def drawFrom (mode : GameMode) (kind : CardKind) (deck : List CardId) (rng : Rng) :
    Option (List CardId × CardDef × Rng) :=
  let (deck, rng) := if deck = [] then rng.shuffle (fullDeck kind mode) else (deck, rng)
  match deck with
  | [] => none
  | cardId :: rest =>
      match getCard cardId with
      | .error _ => none
      | .ok card =>
          some (if card.effect = .getOutOfJailFree then rest else rest ++ [cardId], card, rng)

/-- The walk from card to card: where the player comes to rest, and the card
that is carried out there, if any. -/
def follow (goSalary : Int) : Nat → Leg → Leg × Option CardDef
  | 0, leg => (leg, none)
  | n + 1, leg =>
      match (squareAt leg.mode leg.position).type.cardKind with
      | none => (leg, none)
      | some kind =>
          match drawFrom leg.mode kind (leg.decks kind) leg.rng with
          | none => (leg, none)
          | some (deck, card, rng) =>
              let decks := Function.update leg.decks kind deck
              match cardMove leg.mode leg.position card.effect with
              | none => ({ leg with decks, rng }, some card)
              | some move => follow goSalary n { leg with
                  decks, rng
                  position := move.dest
                  cash := if move.salaryDue then leg.cash + goSalary else leg.cash
                  multiplier := move.multiplier }

/-- The player `p` about to land, on the table `s`. -/
def legOf (s : GameState) (p : PlayerState) (diceTotal multiplier : Nat) (rng : Rng) : Leg where
  mode := s.gameMode
  decks := s.deck
  position := p.position
  cash := p.balance
  diceTotal := diceTotal
  multiplier := multiplier
  rng := rng

/-- The player's record at the end of a leg. -/
def atLeg (leg : Leg) (p : PlayerState) : PlayerState :=
  { p with position := leg.position, balance := leg.cash }

/-- The table when the player `r` has come to rest. -/
def arrive (s : GameState) (r : PlayerId) (leg : Leg) : GameState :=
  { s with
    players := editSeat r (atLeg leg) s.players
    chanceDeck := leg.decks .chance
    chestDeck := leg.decks .communityChest }

/-! ## acting on the table -/

/-- What every player but `r` gives to `r` under a collect-from-each card. -/
def givenBy (r : PlayerId) (amount : Int) (p : PlayerState) : Int :=
  if p.id = r ∨ p.isBankrupt then 0 else min amount p.balance

/-- A seat after a collect-from-each card of `r`. -/
def collectEach (r : PlayerId) (amount total : Int) (p : PlayerState) : PlayerState :=
  if p.id = r then credit total p else debit (givenBy r amount p) p

/-- A seat after a pay-each card of `r`. -/
def payEach (r : PlayerId) (amount total : Int) (p : PlayerState) : PlayerState :=
  if p.id = r then debit total p else if p.isBankrupt then p else credit amount p

@[simp] theorem collectEach_position (r : PlayerId) (amount total : Int) (p : PlayerState) :
    (collectEach r amount total p).position = p.position := by
  unfold collectEach; split <;> rfl

@[simp] theorem payEach_position (r : PlayerId) (amount total : Int) (p : PlayerState) :
    (payEach r amount total p).position = p.position := by
  unfold payEach; split <;> [rfl; split <;> rfl]

/-- What a charge card of `r` asks for. -/
def cardCharge (s : GameState) (r : PlayerId) : CardEffect → Option Int
  | .pay amount => some amount
  | .repairs perHouse perHotel =>
      some ((repairsCost perHouse perHotel s.spaces (s.holdings r)).toOption.getD 0 : Nat)
  | _ => none

/-- The rent that the player `r` owes for the property at the end of the leg,
and to whom. -/
def rentCharge (a : GameState) (r : PlayerId) (leg : Leg) : Option (Option PlayerId × Int) :=
  let ownership := ownershipAt a.spaces leg.position
  match ownership.ownerId with
  | none => none
  | some owner =>
      if Purchasable a.gameMode leg.position ∧ owner ≠ r ∧ ¬ ownership.isMortgaged then
        (calculateRent a leg.position leg.diceTotal leg.multiplier).toOption.map (some owner, ·)
      else none

/-- What the player `r` is charged at the end of the leg, and in whose favour:
a tax, the rent of somebody else's property, or what the card asks for. -/
def restCharge (a : GameState) (r : PlayerId) (leg : Leg) :
    Option CardDef → Option (Option PlayerId × Int)
  | some card => (cardCharge a r card.effect).map (none, ·)
  | none =>
      let square := squareAt leg.mode leg.position
      if square.corner = some .gotojail then none
      else match square.tax with
        | some amount => some (none, amount)
        | none => rentCharge a r leg

/-- What happens where the player `r` comes to rest, on the table `a`: the
resulting table, and whether `r` was sent to jail. -/
inductive Touchdown (r : PlayerId) (a : GameState) (leg : Leg) :
    Option CardDef → GameState → Bool → Prop
  | jailSpace {ps : List PlayerState} {streak : Nat} :
      (squareAt leg.mode leg.position).corner = some .gotojail →
      seatsOf ps = editSeat r (sendToJail · a.gameMode) a.seats →
      Touchdown r a leg none { a with players := ps, turn := { a.turn with
        phase := .postRoll, pendingBuyPosition := none, doublesStreak := streak } } true
  | jailCard {card : CardDef} {ps : List PlayerState} {streak : Nat} :
      card.effect = .goToJail →
      seatsOf ps = editSeat r (sendToJail · a.gameMode) a.seats →
      Touchdown r a leg (some card) { a with players := ps, turn := { a.turn with
        phase := .postRoll, doublesStreak := streak } } true
  | taxed {amount : Int} {c : GameState} {ps : List PlayerState} :
      restCharge a r leg none = some (none, amount) →
      Charged r amount none a c → c.bankruptcy = none → seatsOf ps = c.seats →
      Touchdown r a leg none { c with players := ps, turn := { c.turn with
        phase := .postRoll, pendingBuyPosition := none } } false
  | taxOwed {amount : Int} {c : GameState} :
      restCharge a r leg none = some (none, amount) →
      Charged r amount none a c → c.bankruptcy ≠ none →
      Touchdown r a leg none { c with turn := { c.turn with phase := .bankruptResolution } } false
  | rented {owner : PlayerId} {rent : Int} {c : GameState} :
      restCharge a r leg none = some (some owner, rent) →
      Charged r rent (some owner) a c → c.bankruptcy = none →
      Touchdown r a leg none { c with turn := { c.turn with
        phase := .mustPayRent, pendingBuyPosition := none } } false
  | rentOwed {owner : PlayerId} {rent : Int} {c : GameState} :
      restCharge a r leg none = some (some owner, rent) →
      Charged r rent (some owner) a c → c.bankruptcy ≠ none →
      Touchdown r a leg none { c with turn := { c.turn with phase := .bankruptResolution } } false
  | rested {ps : List PlayerState} {pending : Option Nat} :
      restCharge a r leg none = none →
      (∀ pos, pending = some pos →
        Purchasable a.gameMode pos ∧ (ownershipAt a.spaces pos).ownerId = none) →
      seatsOf ps = a.seats →
      Touchdown r a leg none { a with players := ps, turn := { a.turn with
        phase := .postRoll, pendingBuyPosition := pending } } false
  | collected {card : CardDef} {amount : Nat} {ps : List PlayerState} :
      card.effect = .collect amount → seatsOf ps = editSeat r (credit amount) a.seats →
      Touchdown r a leg (some card) { a with players := ps } false
  | charged {card : CardDef} {amount : Int} {c : GameState} :
      cardCharge a r card.effect = some amount → Charged r amount none a c →
      Touchdown r a leg (some card) c false
  | collectedFromEach {card : CardDef} {amount : Nat} {total : Int} {ps : List PlayerState} :
      card.effect = .collectFromEachPlayer amount →
      total = (a.seats.map (givenBy r amount)).sum →
      seatsOf ps = a.seats.map (collectEach r amount total) →
      Touchdown r a leg (some card) { a with players := ps } false
  | paidEach {card : CardDef} {amount : Nat} {ps : List PlayerState} :
      card.effect = .payEachPlayer amount →
      seatsOf ps = a.seats.map (payEach r amount (amount * otherActive a.seats r)) →
      Touchdown r a leg (some card) { a with players := ps } false
  | keptJailCard {card : CardDef} {ps : List PlayerState} :
      card.effect = .getOutOfJailFree →
      seatsOf ps = editSeat r (fun p => { p with getOutOfJailCards := p.getOutOfJailCards + 1 })
        a.seats →
      Touchdown r a leg (some card) { a with players := ps } false

/-- A rent is owed for somebody else's property that is not mortgaged. -/
theorem restCharge_owner {a : GameState} {r owner : PlayerId} {leg : Leg} {rent : Int}
    (h : restCharge a r leg none = some (some owner, rent)) :
    (ownershipAt a.spaces leg.position).ownerId = some owner ∧ owner ≠ r ∧
      (ownershipAt a.spaces leg.position).isMortgaged = false := by
  have hrent : rentCharge a r leg = some (some owner, rent) := by
    simp only [restCharge] at h
    split at h
    · cases h
    · split at h
      · cases h
      · exact h
  simp only [rentCharge] at hrent
  split at hrent
  · cases hrent
  · rename_i howner
    split at hrent
    · rename_i hlet
      obtain ⟨x, -, hx⟩ := Option.map_eq_some_iff.mp hrent
      cases hx
      exact ⟨howner, hlet.2.1, by simpa using hlet.2.2⟩
    · cases hrent

end Monopoly
