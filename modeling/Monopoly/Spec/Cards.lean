import Monopoly.Spec.Landing

/-!
# Monopoly.Spec.Cards

Drawing a card: a draw never fails on a space of the board that draws, the
deck keeps holding cards of its kind, and shuffling only reorders.
-/

namespace Monopoly

/-! ## shuffling -/

/-- An exchange of two cards reorders the deck. -/
theorem swapAt_perm (xs : List α) (i j : Nat) : (swapAt xs i j).Perm xs := by
  unfold swapAt
  split
  · rename_i a b ha hb
    obtain ⟨hi, rfl⟩ := List.getElem?_eq_some_iff.mp ha
    obtain ⟨hj, rfl⟩ := List.getElem?_eq_some_iff.mp hb
    exact List.set_set_perm hi hj
  · exact List.Perm.refl xs

/-- So does the whole shuffle, by induction on the cards left to place. -/
theorem shuffleFrom_perm (n : Nat) (xs : List α) (rng : Rng) :
    (Rng.shuffleFrom n xs rng).1.Perm xs := by
  induction n generalizing xs rng with
  | zero => exact List.Perm.refl xs
  | succ n ih => exact (ih _ _).trans (swapAt_perm xs _ _)

/-- A shuffle is a reordering. -/
theorem shuffle_perm (rng : Rng) (xs : List α) : (rng.shuffle xs).1.Perm xs :=
  shuffleFrom_perm _ _ _

/-! ## drawing -/

@[simp] theorem deck_setDeck (s : GameState) (kind : CardKind) (deck : List CardId) :
    (s.setDeck kind deck).deck = Function.update s.deck kind deck := by
  funext k
  cases kind <;> cases k <;> rfl

theorem setDeck_eq (s : GameState) (kind : CardKind) (deck : List CardId) :
    s.setDeck kind deck = { s with
      chanceDeck := Function.update s.deck kind deck .chance
      chestDeck := Function.update s.deck kind deck .communityChest } := by
  cases kind <;> rfl

theorem fullDeck_ne_nil {mode : GameMode} {pos : Nat} {kind : CardKind} (h : OnBoard mode pos)
    (hkind : (squareAt mode pos).type.cardKind = some kind) : fullDeck kind mode ≠ [] := by
  have hall : ∀ mode pos, OnBoard mode pos →
      ∀ kind ∈ (squareAt mode pos).type.cardKind, fullDeck kind mode ≠ [] :=
    fun _ _ hb => forall_onBoard (P := fun mode pos =>
      ∀ kind ∈ (squareAt mode pos).type.cardKind, fullDeck kind mode ≠ [])
      (by decide) (by decide) hb
  exact hall mode pos h kind hkind

/-- The deck a draw is made from: its top card, and the cards below. -/
theorem replenish {mode : GameMode} {kind : CardKind} {deck : List CardId} (rng : Rng)
    (hfull : fullDeck kind mode ≠ []) (hdeck : ∀ id ∈ deck, DeckCard mode kind id) :
    ∃ top rest rng', (if deck = [] then rng.shuffle (fullDeck kind mode) else (deck, rng)) =
        (top :: rest, rng') ∧ ∀ id ∈ top :: rest, DeckCard mode kind id := by
  cases deck with
  | cons top rest => exact ⟨top, rest, rng, by simp, hdeck⟩
  | nil =>
      have hperm := shuffle_perm rng (fullDeck kind mode)
      cases hsh : rng.shuffle (fullDeck kind mode) with
      | mk shuffled rng' =>
          rw [hsh] at hperm
          cases shuffled with
          | nil => exact absurd hperm.symm.eq_nil hfull
          | cons top rest =>
              exact ⟨top, rest, rng', by simp, fun id hid =>
                List.mem_cons_of_mem _ (hperm.subset hid)⟩

theorem deckToDraw_eq {s : GameState} {kind : CardKind} (rng : Rng)
    (hfull : fullDeck kind s.gameMode ≠ []) :
    deckToDraw s kind rng = .ok (if s.deck kind = [] then rng.shuffle (fullDeck kind s.gameMode)
      else (s.deck kind, rng)) := by
  unfold deckToDraw
  cases hd : s.deck kind with
  | cons top rest => rfl
  | nil =>
      cases hf : fullDeck kind s.gameMode with
      | nil => exact absurd hf hfull
      | cons c cs => rfl

/-- A draw at a space that draws: the card leads on to spaces with fewer
cards ahead. -/
theorem drawFrom_spec {mode : GameMode} {pos : Nat} {kind : CardKind} {deck : List CardId}
    (rng : Rng) (hpos : OnBoard mode pos) (hkind : (squareAt mode pos).type.cardKind = some kind)
    (hdeck : ∀ id ∈ deck, DeckCard mode kind id) :
    ∃ deck' card rng', drawFrom mode kind deck rng = some (deck', card, rng') ∧
      (∀ id ∈ deck', DeckCard mode kind id) ∧
      ∀ move ∈ cardMove mode pos card.effect, OnBoard mode move.dest ∧
        cardsAhead mode move.dest < cardsAhead mode pos := by
  obtain ⟨top, rest, rng', hif, hmem⟩ := replenish rng (fullDeck_ne_nil hpos hkind) hdeck
  obtain ⟨card, hcard, hlead⟩ :=
    getCard_of_leadsOn (leadsOn_of_deckCard hpos hkind (hmem top List.mem_cons_self))
  refine ⟨if card.effect = .getOutOfJailFree then rest else rest ++ [top], card, rng',
    by simp only [drawFrom, hif, hcard], ?_, hlead⟩
  intro id hid
  split at hid
  · exact hmem id (List.mem_cons_of_mem _ hid)
  · rcases List.mem_append.mp hid with hid | hid
    · exact hmem id (List.mem_cons_of_mem _ hid)
    · exact hmem id (by rw [List.mem_singleton.mp hid]; exact List.mem_cons_self)

theorem drawCard_eq {s : GameState} {kind : CardKind} {rng rng' : Rng} {deck : List CardId}
    {card : CardDef} (hfull : fullDeck kind s.gameMode ≠ [])
    (h : drawFrom s.gameMode kind (s.deck kind) rng = some (deck, card, rng')) :
    drawCard s kind rng = .ok (s.setDeck kind deck, card, rng') := by
  rw [drawCard, deckToDraw_eq rng hfull, ok_bind]
  unfold drawFrom at h
  generalize (if s.deck kind = [] then rng.shuffle (fullDeck kind s.gameMode)
    else (s.deck kind, rng)) = drawn at h
  obtain ⟨cards, rng₁⟩ := drawn
  cases cards with
  | nil => simp at h
  | cons top rest =>
      cases hcard : getCard top with
      | error e => simp [hcard] at h
      | ok found =>
          simp only [hcard, Option.some.injEq, Prod.mk.injEq] at h
          obtain ⟨rfl, rfl, rfl⟩ := h
          simp only [hcard, ok_bind]
          rfl

/-! ## the walk from card to card -/

/-- A leg on the board, with decks of cards that exist. -/
structure LegFormed (leg : Leg) : Prop where
  onBoard : OnBoard leg.mode leg.position
  decks : ∀ kind, ∀ id ∈ leg.decks kind, DeckCard leg.mode kind id

theorem deckCard_update {mode : GameMode} {decks : CardKind → List CardId} {kind : CardKind}
    {deck : List CardId} (h : ∀ k, ∀ id ∈ decks k, DeckCard mode k id)
    (hdeck : ∀ id ∈ deck, DeckCard mode kind id) :
    ∀ k, ∀ id ∈ Function.update decks kind deck k, DeckCard mode k id := by
  intro k id hid
  by_cases hk : k = kind
  · subst hk
    rw [Function.update_self] at hid
    exact hdeck id hid
  · rw [Function.update_of_ne hk] at hid
    exact h k id hid

/-- The walk stays on the board, and collects salaries only. -/
theorem follow_spec (goSalary : Int) (n : Nat) {leg : Leg} (h : LegFormed leg) :
    LegFormed (follow goSalary n leg).1 ∧ (follow goSalary n leg).1.mode = leg.mode ∧
      (0 ≤ goSalary → leg.cash ≤ (follow goSalary n leg).1.cash) := by
  induction n generalizing leg with
  | zero => exact ⟨h, rfl, fun _ => Int.le_refl _⟩
  | succ n ih =>
      cases hkind : (squareAt leg.mode leg.position).type.cardKind with
      | none =>
          simp only [follow, hkind]
          exact ⟨h, trivial, fun _ => Int.le_refl _⟩
      | some kind =>
          obtain ⟨deck, card, rng, hdraw, hdeck, hlead⟩ :=
            drawFrom_spec leg.rng h.onBoard hkind (h.decks kind)
          have hdecks := deckCard_update h.decks hdeck
          cases hmove : cardMove leg.mode leg.position card.effect with
          | none =>
              simp only [follow, hkind, hdraw, hmove]
              exact ⟨⟨h.onBoard, hdecks⟩, trivial, fun _ => Int.le_refl _⟩
          | some move =>
              simp only [follow, hkind, hdraw, hmove]
              set leg' : Leg := { leg with
                decks := Function.update leg.decks kind deck
                rng := rng
                position := move.dest
                cash := if move.salaryDue then leg.cash + goSalary else leg.cash
                multiplier := move.multiplier } with hleg'
              have hleg : LegFormed leg' := ⟨(hlead move hmove).1, hdecks⟩
              obtain ⟨hformed, hmode, hcash⟩ := ih hleg
              refine ⟨hformed, hmode, fun hsalary => Int.le_trans ?_ (hcash hsalary)⟩
              simp only [hleg']
              split <;> omega

end Monopoly
