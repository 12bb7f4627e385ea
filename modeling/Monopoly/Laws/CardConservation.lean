import Monopoly.Spec.Replay

/-!
# Monopoly.Laws.CardConservation

The cards of a NORMAL game: every ordinary card is in its deck once, and the
two Get Out of Jail Free cards are in their decks or in a player's hand.
-/

namespace Monopoly

/-- The Get Out of Jail Free cards in the players' hands. -/
def GameState.cardsHeld (s : GameState) : Int := (s.players.map (·.getOutOfJailCards)).sum

/-- Every card of a NORMAL game is in one place. -/
structure CardsConserved (s : GameState) : Prop where
  ordinary : ∀ kind, ∀ id ∈ fullDeck kind .normal, id ≠ jailCard kind → (s.deck kind).count id = 1
  single : ∀ kind, (s.deck kind).count (jailCard kind) ≤ 1
  two : s.chanceDeck.count chanceJailCard + s.chestDeck.count chestJailCard + s.cardsHeld = 2

/-! ## where cards are -/

section Places

variable {s m : GameState} {kind : CardKind} {d c : PlayerState} {f : PlayerState → PlayerState}

theorem cardsHeld_eq (s : GameState) :
    s.cardsHeld = (s.seats.map (·.getOutOfJailCards)).sum := by
  simp [GameState.cardsHeld, GameState.seats, seatsOf, Function.comp_def]

theorem cardsHeld_congr (hseats : m.seats = s.seats) : m.cardsHeld = s.cardsHeld := by
  rw [cardsHeld_eq, cardsHeld_eq, hseats]

/-- Nobody's hand changes. -/
theorem cardsHeld_map (hseats : m.seats = s.seats.map f)
    (hf : ∀ p, (f p).getOutOfJailCards = p.getOutOfJailCards) : m.cardsHeld = s.cardsHeld := by
  rw [cardsHeld_eq, cardsHeld_eq, hseats, List.map_map, Function.comp_def]
  simp only [hf]

/-- One hand changes by `n` cards. -/
theorem cardsHeld_edit (hs : Sound s) (hd : d ∈ s.seats) {n : Int}
    (hseats : m.seats = editSeat d.id f s.seats)
    (hf : (f d).getOutOfJailCards = d.getOutOfJailCards + n) :
    m.cardsHeld = s.cardsHeld + n := by
  rw [cardsHeld_eq, cardsHeld_eq, hseats]
  exact sum_editAt PlayerState.id hs.ids hd hf

/-- A player leaves without cards, and everybody else keeps theirs. -/
theorem cardsHeld_leave (hs : Sound s) (hd : d ∈ s.seats) {g : PlayerState → PlayerState}
    (hseats : m.seats = s.seats.map fun p => if p.id = d.id then f p else g p)
    (hf : ∀ p, (f p).getOutOfJailCards = 0)
    (hg : ∀ p, (g p).getOutOfJailCards = p.getOutOfJailCards) :
    m.cardsHeld = s.cardsHeld + -d.getOutOfJailCards := by
  rw [cardsHeld_eq, cardsHeld_eq]
  refine Eq.trans ?_ (sum_editAt PlayerState.id hs.ids hd (f := f) (by rw [hf]; omega))
  rw [hseats, editAt, List.map_map, List.map_map]
  congr 1
  refine List.map_congr_left fun p _ => ?_
  simp only [Function.comp_apply]
  split
  · rfl
  · exact hg p

/-- The conservation of cards is about the decks as collections and the
number of cards held. -/
theorem conserved_congr (hdecks : ∀ kind, (m.deck kind).Perm (s.deck kind))
    (hheld : m.cardsHeld = s.cardsHeld) : CardsConserved m ↔ CardsConserved s := by
  have hcount : ∀ kind id, (m.deck kind).count id = (s.deck kind).count id :=
    fun kind id => (hdecks kind).count_eq id
  have hchance : m.chanceDeck.count chanceJailCard = s.chanceDeck.count chanceJailCard :=
    hcount .chance _
  have hchest : m.chestDeck.count chestJailCard = s.chestDeck.count chestJailCard :=
    hcount .communityChest _
  constructor
  · rintro ⟨hord, hone, htwo⟩
    exact ⟨by simpa only [hcount] using hord, by simpa only [hcount] using hone,
      by rwa [← hchance, ← hchest, ← hheld]⟩
  · rintro ⟨hord, hone, htwo⟩
    exact ⟨by simpa only [hcount] using hord, by simpa only [hcount] using hone,
      by rwa [hchance, hchest, hheld]⟩

theorem CardsConserved.keep (h : CardsConserved s)
    (hdecks : ∀ kind, (m.deck kind).Perm (s.deck kind)) (hheld : m.cardsHeld = s.cardsHeld) :
    CardsConserved m :=
  (conserved_congr hdecks hheld).mpr h

/-- The jail card on top of a deck goes to a player. -/
theorem CardsConserved.drawn (h : CardsConserved s)
    (hdeck : (jailCard kind :: m.deck kind).Perm (s.deck kind))
    (hothers : ∀ k ≠ kind, (m.deck k).Perm (s.deck k))
    (hheld : m.cardsHeld = s.cardsHeld + 1) : CardsConserved m := by
  have hcount : ∀ k id, (m.deck k).count id + (if k = kind ∧ id = jailCard kind then 1 else 0) =
      (s.deck k).count id := by
    intro k id
    by_cases hk : k = kind
    · subst hk
      rw [← hdeck.count_eq, List.count_cons]
      by_cases hid : id = jailCard k
      · simp [hid]
      · simp [hid, Ne.symm hid]
    · simp [hk, (hothers k hk).count_eq]
  refine ⟨fun k id hid hne => ?_, fun k => ?_, ?_⟩
  · have := hcount k id
    rw [h.ordinary k id hid hne] at this
    rw [← this]
    split
    · rename_i hboth
      obtain ⟨rfl, hjail⟩ := hboth
      exact absurd hjail hne
    · rfl
  · have := hcount k (jailCard k)
    have := h.single k
    omega
  · have hchance := hcount .chance chanceJailCard
    have hchest := hcount .communityChest chestJailCard
    have htwo := h.two
    simp only [GameState.deck] at hchance hchest
    cases kind with
    | chance => simp [jailCard] at hchance hchest; omega
    | communityChest => simp [jailCard] at hchance hchest; omega

/-- A card spent goes to the Chance deck: that is where it came from only if
the Chance card is not there. -/
theorem conserved_spent_iff (h : CardsConserved s)
    (hchance : m.chanceDeck = s.chanceDeck ++ [chanceJailCard]) (hchest : m.chestDeck = s.chestDeck)
    (hheld : m.cardsHeld = s.cardsHeld + -1) :
    CardsConserved m ↔ chanceJailCard ∉ s.chanceDeck := by
  have hcount : m.chanceDeck.count chanceJailCard = s.chanceDeck.count chanceJailCard + 1 := by
    simp [hchance]
  constructor
  · intro hm hmem
    have := hm.single .chance
    have := List.one_le_count_iff.mpr hmem
    simp only [GameState.deck, jailCard] at *
    omega
  · intro hnot
    have hzero := List.count_eq_zero.mpr hnot
    refine ⟨fun kind id hid hne => ?_, fun kind => ?_, ?_⟩
    · have hord := h.ordinary kind id hid hne
      cases kind with
      | chance =>
          have hne' : chanceJailCard ≠ id := fun h => hne h.symm
          simpa [GameState.deck, hchance, hne'] using hord
      | communityChest => simpa [GameState.deck, hchest] using hord
    · have hone := h.single kind
      cases kind with
      | chance => simp only [GameState.deck, jailCard]; omega
      | communityChest => simpa [GameState.deck, hchest] using hone
    · have htwo := h.two
      rw [hchest, hcount, hheld]
      push_cast
      omega

/-- The cards of a player who leaves go back to both decks: nothing is lost
or gained only if there were none. -/
theorem conserved_returned_iff (h : CardsConserved s) {n : Int}
    (hchance : m.chanceDeck = returnCards n s.chanceDeck chanceJailCard)
    (hchest : m.chestDeck = returnCards n s.chestDeck chestJailCard)
    (hheld : m.cardsHeld = s.cardsHeld + -n) : CardsConserved m ↔ n = 0 := by
  have hcount : ∀ (deck : List CardId) card,
      (returnCards n deck card).count card = deck.count card + n.toNat := by
    intro deck card
    simp [returnCards]
  constructor
  · intro hm
    have htwo := h.two
    have htwo' := hm.two
    rw [hchance, hchest, hheld, hcount, hcount] at htwo'
    push_cast at htwo'
    omega
  · rintro rfl
    refine (conserved_congr (fun kind => ?_) (by omega)).mpr h
    cases kind with
    | chance => simp [GameState.deck, hchance, returnCards]
    | communityChest => simp [GameState.deck, hchest, returnCards]

end Places

/-! ## draws -/

/-- What the cards followed to the `stop` do to the decks: they are put back,
but for a Get Out of Jail Free card, which is kept. -/
inductive Draws (before after : CardKind → List CardId) (stop : Option CardDef) : Prop
  | putBack : (∀ card, stop = some card → card.effect ≠ .getOutOfJailFree) →
      (∀ kind, (after kind).Perm (before kind)) → Draws before after stop
  | kept {card : CardDef} (kind : CardKind) : stop = some card → card.effect = .getOutOfJailFree →
      (jailCard kind :: after kind).Perm (before kind) →
      (∀ k ≠ kind, (after k).Perm (before k)) → Draws before after stop

section Draws

variable {before middle after : CardKind → List CardId} {stop : Option CardDef}

theorem Draws.after_perm (hperm : ∀ kind, (middle kind).Perm (before kind))
    (h : Draws middle after stop) : Draws before after stop := by
  cases h with
  | putBack hstop hback => exact .putBack hstop fun kind => (hback kind).trans (hperm kind)
  | kept kind hstop heffect hkept hothers =>
      exact .kept kind hstop heffect (hkept.trans (hperm kind))
        fun k hk => (hothers k hk).trans (hperm k)

set_option maxRecDepth 10000 in
/-- The one card of a NORMAL deck that is kept is its jail card. -/
theorem eq_jailCard {kind : CardKind} {id : CardId} {card : CardDef}
    (hid : DeckCard .normal kind id) (hcard : getCard id = .ok card)
    (heffect : card.effect = .getOutOfJailFree) : id = jailCard kind := by
  have hall : ∀ kind ∈ [CardKind.chance, .communityChest],
      ∀ id ∈ jailCard kind :: fullDeck kind .normal,
        (getCard id).toOption.any (fun card => decide (card.effect = .getOutOfJailFree)) = true →
          id = jailCard kind := by decide
  refine hall kind (by cases kind <;> simp) id hid ?_
  simp [hcard, Except.toOption, heffect]

/-- A draw from a NORMAL deck that is not empty. -/
theorem drawFrom_perm {kind : CardKind} {deck deck' : List CardId} {card : CardDef} {rng rng' : Rng}
    (hne : deck ≠ []) (hdeck : ∀ id ∈ deck, DeckCard .normal kind id)
    (hdraw : drawFrom .normal kind deck rng = some (deck', card, rng')) :
    if card.effect = .getOutOfJailFree then (jailCard kind :: deck').Perm deck
    else deck'.Perm deck := by
  cases deck with
  | nil => exact absurd rfl hne
  | cons top rest =>
      cases hcard : getCard top with
      | error e => simp [drawFrom, hcard] at hdraw
      | ok found =>
          simp only [drawFrom, reduceCtorEq, if_false, hcard, Option.some.injEq,
            Prod.mk.injEq] at hdraw
          obtain ⟨rfl, rfl, rfl⟩ := hdraw
          split
          · rename_i heffect
            rw [← eq_jailCard (hdeck top List.mem_cons_self) hcard heffect]
          · exact List.perm_append_singleton top rest

/-- By induction on how many cards may follow: every card but the last is put
back, and the last is unless it is kept. -/
theorem follow_draws (goSalary : Int) (n : Nat) {leg : Leg} (hleg : LegFormed leg)
    (hmode : leg.mode = .normal) (hne : ∀ kind, leg.decks kind ≠ []) :
    Draws leg.decks (follow goSalary n leg).1.decks (follow goSalary n leg).2 := by
  induction n generalizing leg with
  | zero => exact .putBack (by simp [follow]) fun _ => .refl _
  | succ n ih =>
      cases hkind : (squareAt leg.mode leg.position).type.cardKind with
      | none =>
          simp only [follow, hkind]
          exact .putBack (by simp) fun _ => .refl _
      | some kind =>
          obtain ⟨deck, card, rng, hdraw, hdeck, hlead⟩ :=
            drawFrom_spec leg.rng hleg.onBoard hkind (hleg.decks kind)
          have hperm := drawFrom_perm (hne kind) (hmode ▸ hleg.decks kind) (hmode ▸ hdraw)
          have hothers : ∀ k ≠ kind, (Function.update leg.decks kind deck k).Perm (leg.decks k) :=
            fun k hk => by rw [Function.update_of_ne hk]
          cases hmove : cardMove leg.mode leg.position card.effect with
          | none =>
              simp only [follow, hkind, hdraw, hmove]
              by_cases heffect : card.effect = .getOutOfJailFree
              · rw [if_pos heffect] at hperm
                exact .kept kind rfl heffect (by simpa using hperm) hothers
              · rw [if_neg heffect] at hperm
                refine .putBack (fun c hc => Option.some.inj hc ▸ heffect) fun k => ?_
                by_cases hk : k = kind
                · subst hk; simpa using hperm
                · exact hothers k hk
          | some move =>
              have heffect : card.effect ≠ .getOutOfJailFree := by
                intro h
                simp [h, cardMove] at hmove
              rw [if_neg heffect] at hperm
              have hback : ∀ k, (Function.update leg.decks kind deck k).Perm (leg.decks k) := by
                intro k
                by_cases hk : k = kind
                · subst hk; simpa using hperm
                · exact hothers k hk
              simp only [follow, hkind, hdraw, hmove]
              set leg' : Leg := { leg with
                decks := Function.update leg.decks kind deck
                rng := rng
                position := move.dest
                cash := if move.salaryDue then leg.cash + goSalary else leg.cash
                multiplier := move.multiplier }
              have hleg' : LegFormed leg' :=
                ⟨(hlead move hmove).1, deckCard_update hleg.decks hdeck⟩
              have hne' : ∀ k, leg'.decks k ≠ [] := fun k hempty =>
                hne k (List.Perm.eq_nil (by rw [← hempty]; exact (hback k).symm))
              exact (ih hleg' hmode hne').after_perm hback

end Draws

/-! ## rolls -/

section Rolls

variable {a s m : GameState} {r : PlayerId} {leg : Leg} {stop : Option CardDef} {jailed : Bool}

theorem Charged.cardsHeld {amount : Int} {creditor : Option PlayerId}
    (h : Charged r amount creditor a m) : m.cardsHeld = a.cardsHeld := by
  cases h with
  | nothing _ hps | dropped _ _ _ hps | indebted _ _ _ hps => exact cardsHeld_congr hps
  | paid _ _ hps => exact cardsHeld_map hps fun _ => rfl

theorem Charged.deck {amount : Int} {creditor : Option PlayerId}
    (h : Charged r amount creditor a m) : m.deck = a.deck := by
  cases h <;> rfl

theorem collectEach_cards (r : PlayerId) (amount total : Int) (p : PlayerState) :
    (collectEach r amount total p).getOutOfJailCards = p.getOutOfJailCards := by
  unfold collectEach; split <;> rfl

theorem payEach_cards (r : PlayerId) (amount total : Int) (p : PlayerState) :
    (payEach r amount total p).getOutOfJailCards = p.getOutOfJailCards := by
  unfold payEach; split <;> [rfl; split <;> rfl]

/-- An edit that leaves the hands alone. -/
theorem cardsHeld_editSeat {f : PlayerState → PlayerState} (hseats : m.seats = editSeat r f a.seats)
    (hf : ∀ p, (f p).getOutOfJailCards = p.getOutOfJailCards) : m.cardsHeld = a.cardsHeld :=
  cardsHeld_map hseats fun p => by split <;> simp [hf]

theorem Touchdown.deck (h : Touchdown r a leg stop m jailed) : m.deck = a.deck := by
  cases h with
  | taxed _ hc _ _ | taxOwed _ hc _ | rented _ hc _ | rentOwed _ hc _ | charged _ hc =>
      exact hc.deck
  | _ => rfl

/-- The player on a kept card has one card more, and otherwise no hand
changes. -/
theorem Touchdown.cardsHeld (hs : Sound a) (hr : Seated a r)
    (h : Touchdown r a leg stop m jailed) : m.cardsHeld = a.cardsHeld +
      if ∃ card, stop = some card ∧ card.effect = .getOutOfJailFree then 1 else 0 := by
  have hkeep : (¬ ∃ card, stop = some card ∧ card.effect = .getOutOfJailFree) →
      m.cardsHeld = a.cardsHeld → m.cardsHeld = a.cardsHeld +
        if ∃ card, stop = some card ∧ card.effect = .getOutOfJailFree then 1 else 0 := by
    intro hnot hheld
    rw [if_neg hnot, hheld, Int.add_zero]
  cases h with
  | jailSpace _ hps => exact hkeep (by simp) (cardsHeld_editSeat hps fun _ => rfl)
  | jailCard he hps => exact hkeep (by simp [he]) (cardsHeld_editSeat hps fun _ => rfl)
  | taxed _ hc _ hps =>
      refine hkeep (by simp) ?_
      rw [← hc.cardsHeld]
      exact cardsHeld_congr hps
  | taxOwed _ hc _ | rented _ hc _ | rentOwed _ hc _ => exact hkeep (by simp) hc.cardsHeld
  | rested _ _ hps => exact hkeep (by simp) (cardsHeld_congr hps)
  | collected he hps => exact hkeep (by simp [he]) (cardsHeld_editSeat hps fun _ => rfl)
  | @charged card _ _ hcharge hc =>
      refine hkeep ?_ hc.cardsHeld
      rintro ⟨_, hcard, he⟩
      rw [Option.some.inj hcard, he] at hcharge
      simp [cardCharge] at hcharge
  | collectedFromEach he _ hps =>
      exact hkeep (by simp [he]) (cardsHeld_map hps (collectEach_cards _ _ _))
  | paidEach he hps => exact hkeep (by simp [he]) (cardsHeld_map hps (payEach_cards _ _ _))
  | keptJailCard he hps =>
      obtain ⟨p, hp, rfl⟩ := hr
      rw [if_pos ⟨_, rfl, he⟩]
      exact cardsHeld_edit hs hp hps rfl

theorem CardsConserved.deck_ne_nil (h : CardsConserved s) (kind : CardKind) : s.deck kind ≠ [] := by
  intro hempty
  have hone : ∀ id ∈ fullDeck kind .normal, id ≠ jailCard kind → False := by
    intro id hid hne
    have := h.ordinary kind id hid hne
    rw [hempty] at this
    simp at this
  cases kind with
  | chance => exact hone ⟨.chance, 1⟩ (by decide) (by decide)
  | communityChest => exact hone ⟨.chest, 1⟩ (by decide) (by decide)

/-- A roll keeps the cards, whatever it draws. -/
theorem CardsConserved.rolled {p : PlayerState} {rng : Rng} {goSalary jailFine : Int} (hs : Sound s)
    (hmode : s.gameMode = .normal) (hp : p ∈ s.seats) (h : CardsConserved s)
    (hr : Rolled s p rng goSalary jailFine m) : CardsConserved m := by
  cases hr with
  | jailed _ _ _ hps | stayed _ _ _ hps =>
      exact h.keep (fun _ => .refl _) (cardsHeld_editSeat hps fun _ => rfl)
  | @moved leg stop m₁ sentToJail activeCard newStreak _ hrest ht _ =>
      have hdraws : Draws s.deck leg.decks stop := by
        have hfollow := follow_draws goSalary landingFuel
          (legFormed_rollLeg hs.decks p rng goSalary jailFine) hmode h.deck_ne_nil
        rwa [show follow goSalary landingFuel _ = (leg, stop) from hrest] at hfollow
      obtain ⟨hleg, hlegMode, -⟩ := restOf_spec hs hrest
      have hframe := comeToRest_rollFrame (r := p.id) hleg hlegMode
      have hrestHeld : (comeToRest s p.id leg).cardsHeld = s.cardsHeld :=
        cardsHeld_editSeat (seats_comeToRest s p.id leg) fun _ => rfl
      have hdeck : m₁.deck = leg.decks := by
        rw [ht.deck]
        funext kind
        cases kind <;> rfl
      have hseat : Seated (comeToRest s p.id leg) p.id := by
        refine ⟨settleAt leg p, ?_, rfl⟩
        rw [seats_comeToRest]
        exact mem_editSeat.mpr ⟨p, hp, if_pos rfl⟩
      have hheld := ht.cardsHeld (hframe.sound hs) hseat
      cases hdraws with
      | putBack hstop hback =>
          have hnot : ¬ ∃ card, stop = some card ∧ card.effect = .getOutOfJailFree :=
            fun ⟨card, hcard, he⟩ => hstop card hcard he
          rw [if_neg hnot, Int.add_zero] at hheld
          refine h.keep (fun kind => ?_) (hheld.trans hrestHeld)
          show (m₁.deck kind).Perm _
          exact hdeck ▸ hback kind
      | kept kind hstop he hkept hothers =>
          rw [if_pos ⟨_, hstop, he⟩, hrestHeld] at hheld
          have htop : (jailCard kind :: m₁.deck kind).Perm (s.deck kind) := hdeck ▸ hkept
          refine h.drawn htop (fun k hk => ?_) hheld
          show (m₁.deck k).Perm _
          exact hdeck ▸ hothers k hk

end Rolls

/-! ## the calls -/

/-- The call puts no Get Out of Jail Free card where it did not come from: a
card is used while the Chance deck is without its own, and nobody leaves to
the bank with a card in hand. -/
structure ReturnsCards (s : GameState) (call : Call) : Prop where
  used : ∀ pid, call.command = .useJailCard pid → chanceJailCard ∉ s.chanceDeck
  surrendered : Surrenders s call.env call.command →
    ∀ p ∈ s.players, p.id = s.turn.currentPlayerId → p.getOutOfJailCards = 0
  bankrupted : ∀ pid debt, call.command = .declareBankruptcy pid → s.bankruptcy = some debt →
    debt.creditorId = none → ∀ p ∈ s.players, p.id = debt.debtorId → p.getOutOfJailCards = 0

section Calls

variable {s m s' : GameState} {env : Env} {command : GameCommand}

/-- The cards of the one player concerned. -/
theorem forall_record_iff (hs : Sound s) {d : PlayerState} (hd : d ∈ s.seats) :
    (∀ p ∈ s.players, p.id = d.id → p.getOutOfJailCards = 0) ↔ d.getOutOfJailCards = 0 := by
  obtain ⟨p, hp, rfl⟩ := exists_player hd
  constructor
  · exact fun h => h p hp rfl
  · intro h q hq hid
    rw [eq_of_key_eq PlayerState.id hs.playerIds hq hp hid]
    exact h

/-- An elimination in favour of nobody. -/
theorem conserved_removed_iff (hs : Sound s) (h : CardsConserved s) {d : PlayerState}
    (hd : d ∈ s.seats) {f g : PlayerState → PlayerState}
    (hseats : m.seats = s.seats.map fun p => if p.id = d.id then f p else g p)
    (hf : ∀ p, (f p).getOutOfJailCards = 0)
    (hg : ∀ p, (g p).getOutOfJailCards = p.getOutOfJailCards)
    (hchance : m.chanceDeck = returnCards d.getOutOfJailCards s.chanceDeck chanceJailCard)
    (hchest : m.chestDeck = returnCards d.getOutOfJailCards s.chestDeck chestJailCard) :
    CardsConserved m ↔ ∀ p ∈ s.players, p.id = d.id → p.getOutOfJailCards = 0 :=
  (conserved_returned_iff h hchance hchest (cardsHeld_leave hs hd hseats hf hg)).trans
    (forall_record_iff hs hd).symm

theorem conserved_after_iff {e : GameState} (ha : AfterElimination e m) :
    CardsConserved m ↔ CardsConserved e := by
  rw [ha.frame]
  exact conserved_congr (fun _ => .refl _) rfl

theorem Surrendered.conserved_iff (hs : Sound s) (h : CardsConserved s) {p : PlayerState}
    (hp : p ∈ s.seats) (hsurr : Surrendered s p m) :
    CardsConserved m ↔ ∀ q ∈ s.players, q.id = p.id → q.getOutOfJailCards = 0 := by
  cases hsurr with
  | mk hps => exact conserved_removed_iff hs h hp hps (fun _ => rfl) (fun _ => rfl) rfl rfl

/-- A bankruptcy hands the cards to the creditor, or returns them. -/
theorem Liquidated.conserved_iff (hw : WellFormed s) (h : CardsConserved s) {d : PlayerState}
    {debt : BankruptcyState} (hd : d ∈ s.seats) (hdebt : s.bankruptcy = some debt)
    (hdebtor : debt.debtorId = d.id) (hl : Liquidated s debt d m) :
    CardsConserved m ↔ (debt.creditorId = none →
      ∀ p ∈ s.players, p.id = debt.debtorId → p.getOutOfJailCards = 0) := by
  cases hl with
  | toBank hnone hps =>
      simp only [hnone, forall_const, hdebtor]
      exact conserved_removed_iff hw.toSound h hd hps (fun _ => rfl) (fun _ => rfl) rfl rfl
  | @toCreditor creditor ps hsome hps =>
      obtain ⟨hseat, hne⟩ := (hw.debts debt hdebt).creditor creditor hsome
      obtain ⟨c, hc, rfl⟩ := hseat
      rw [hdebtor] at hne
      refine iff_of_true (h.keep (fun _ => .refl _) ?_) (by simp [hsome])
      rw [cardsHeld_eq, cardsHeld_eq]
      refine Eq.trans (congrArg (fun seats => (List.map _ seats).sum) hps)
        (sum_move PlayerState.id hw.ids hd hc (c := d.getOutOfJailCards) fun p hp => ?_)
      by_cases hpd : p.id = d.id
      · rw [eq_of_key_eq PlayerState.id hw.ids hp hd hpd]
        simp [ruined, eliminate, hne.symm]
      · by_cases hpc : p.id = c.id
        · simp [hne, hpc, inherit]
        · simp [hpd, hpc]

/-- A trade moves cards from one party to the other. -/
theorem Executed.cardsHeld (hs : Sound s) {trade : TradeState} (hformed : TradeFormed s trade)
    (hexec : Executed s trade m) : m.cardsHeld = s.cardsHeld := by
  obtain ⟨a, ha, haid⟩ := hformed.proposer
  obtain ⟨b, hb, hbid⟩ := hformed.target
  have hne := hformed.distinct
  cases hexec with
  | mk _ _ hps =>
      rw [cardsHeld_eq, cardsHeld_eq]
      refine Eq.trans (congrArg (fun seats => (List.map _ seats).sum) hps)
        (sum_move PlayerState.id hs.ids hb ha (c := trade.targetRequest.getOutOfJailCards -
          trade.proposerOffer.getOutOfJailCards) fun p _ => ?_)
      rw [haid, hbid]
      unfold swapSeat
      split
      · rename_i hp
        simp [hp, hne]
      · split
        · simp; omega
        · simp

theorem Dispatched.conserved_iff (hw : WellFormed s) (hmay : MayAct s command)
    (hmode : s.gameMode = .normal) (h : CardsConserved s) (hd : Dispatched s env command m) :
    CardsConserved m ↔ ReturnsCards s ⟨command, env⟩ := by
  have hs := hw.toSound
  have hkeep : (∀ pid, command ≠ .useJailCard pid) → ¬ Surrenders s env command →
      (∀ pid, command ≠ .declareBankruptcy pid) → CardsConserved m →
      (CardsConserved m ↔ ReturnsCards s ⟨command, env⟩) :=
    fun huse hstay hdeclare hm => iff_of_true hm
      ⟨fun pid h => absurd h (huse pid), fun h => absurd h hstay,
        fun pid _ h => absurd h (hdeclare pid)⟩
  have hleaves : ∀ {p : PlayerState} {e : GameState}, p ∈ s.seats →
      p.id = s.turn.currentPlayerId → Surrenders s env command → Surrendered s p e →
      AfterElimination e m → (∀ pid, command ≠ .useJailCard pid) →
      (∀ pid, command ≠ .declareBankruptcy pid) →
      (CardsConserved m ↔ ReturnsCards s ⟨command, env⟩) := by
    intro p e hp hid hsurr he ha huse hdeclare
    rw [conserved_after_iff ha, he.conserved_iff hs h hp, hid]
    exact ⟨fun hnone => ⟨fun pid h => absurd h (huse pid), fun _ => hnone,
      fun pid _ h => absurd h (hdeclare pid)⟩, fun hr => hr.surrendered hsurr⟩
  cases hd with
  | rolled _ hp _ hr => exact hkeep (by simp) id (by simp) (h.rolled hs hmode hp hr)
  | bought _ _ _ _ _ _ hps =>
      refine hkeep (by simp) id (by simp) ?_
      exact h.keep (fun _ => .refl _) (cardsHeld_editSeat hps fun _ => rfl)
  | passed _ _ | ended _ _ _ _ _ | auctionIdle _ | tradeIdle _ | tradeLapsed _ _ =>
      exact hkeep (by simp) id (by simp) (h.keep (fun _ => .refl _) rfl)
  | bailed _ _ _ _ hps =>
      refine hkeep (by simp) id (by simp) ?_
      exact h.keep (fun _ => .refl _) (cardsHeld_editSeat hps fun _ => rfl)
  | cardSpent _ hp _ _ hps =>
      refine Iff.trans (conserved_spent_iff h rfl rfl (cardsHeld_edit hs hp hps rfl)) ?_
      exact ⟨fun hnot => ⟨fun _ _ => hnot, False.elim, by simp⟩, fun hr => hr.used _ rfl⟩
  | reworked hcommand _ hr =>
      have hm : CardsConserved m := by
        cases hr with
        | mk _ hps => exact h.keep (fun _ => .refl _) (cardsHeld_editSeat hps fun _ => rfl)
      cases command <;> simp [GameCommand.rework] at hcommand <;>
        exact hkeep (by simp) id (by simp) hm
  | proposed _ hprop =>
      cases hprop
      exact hkeep (by simp) id (by simp) (h.keep (fun _ => .refl _) rfl)
  | responded hresp =>
      refine hkeep (by simp) id (by simp) ?_
      cases hresp with
      | rejected _ _ | countered _ _ _ _ => exact h.keep (fun _ => .refl _) rfl
      | accepted htrade _ _ hexec =>
          refine h.keep (fun kind => ?_) (hexec.cardsHeld hs (hw.trades _ htrade))
          cases hexec
          exact .refl _
  | bid hbid =>
      cases hbid
      exact hkeep (by simp) id (by simp) (h.keep (fun _ => .refl _) rfl)
  | bankrupted hdebt hdebtor hd hl ha =>
      rw [conserved_after_iff ha, hl.conserved_iff hw h hd hdebt hdebtor]
      refine ⟨fun hnone => ⟨by simp, False.elim, fun _ debt _ hdebt' => ?_⟩,
        fun hr hnone => hr.bankrupted _ _ rfl hdebt hnone⟩
      obtain rfl := Option.some.inj (hdebt.symm.trans hdebt')
      exact hnone
  | surrendered hp _ hsurr ha =>
      exact hleaves hp (hmay _ rfl rfl).symm trivial hsurr ha (by simp) (by simp)
  | auctioned _ _ hr =>
      refine hkeep (by simp) id (by simp) ?_
      cases hr with
      | unsold _ hps => exact h.keep (fun _ => .refl _) (cardsHeld_congr hps)
      | sold _ hps => exact h.keep (fun _ => .refl _) (cardsHeld_editSeat hps fun _ => rfl)
  | timerIdle hidle =>
      exact hkeep (by simp) (fun h => by simp [h.1] at hidle) (by simp) h
  | timerSkipped _ hp hid hmax hps ht =>
      refine hkeep (by simp) (fun hforced => ?_) (by simp) ?_
      · have := (ForcedOut.current hforced hw.playerIds hp hid).1
        omega
      · cases ht with
        | passed _ _ | nobody _ => exact h.keep (fun _ => .refl _) (cardsHeld_congr hps)
  | timerSpent _ hp hid _ hout hps =>
      refine hkeep (by simp) (fun hforced => ?_) (by simp)
        (h.keep (fun _ => .refl _) (cardsHeld_congr hps))
      simp [(ForcedOut.current hforced hw.playerIds hp hid).2] at hout
  | timerForced hdue hp hid hmax hact hsurr ha =>
      exact hleaves (mem_seats hp) hid ⟨hdue, _, hp, hid, hmax, hact⟩ hsurr ha (by simp) (by simp)

theorem Settled.conserved_iff (h : Settled s m) : CardsConserved m ↔ CardsConserved s := by
  cases h with
  | free _ | owing _ _ => rfl
  | paid _ _ hps => exact conserved_congr (fun _ => .refl _) (cardsHeld_map hps fun _ => rfl)

theorem Tidied.conserved_iff (h : Tidied s m) : CardsConserved m ↔ CardsConserved s := by
  refine conserved_congr (fun kind => ?_) (cardsHeld_congr h.seats_eq)
  cases h
  exact .refl _

/-- A call keeps the cards exactly when it returns them to where they came
from. -/
theorem Stepped.conserved_iff (hw : WellFormed s) (hmay : MayAct s command)
    (hmode : s.gameMode = .normal) (h : CardsConserved s) (hstep : Stepped s env command s') :
    CardsConserved s' ↔ ReturnsCards s ⟨command, env⟩ := by
  cases hstep with
  | replied _ hd ht => exact ht.conserved_iff.trans (hd.conserved_iff hw hmay hmode h)
  | played _ hd hsettled ht =>
      exact ht.conserved_iff.trans (hsettled.conserved_iff.trans
        (hd.conserved_iff hw hmay hmode h))

end Calls

/-! ## games -/

set_option maxRecDepth 10000 in
theorem Opens.conserved {args : NewGame} {s : GameState} (h : Opens args s)
    (hmode : s.gameMode = .normal) : CardsConserved s := by
  have hfresh := h.fresh
  have hcount : ∀ kind id, (s.deck kind).count id = (fullDeck kind .normal).count id :=
    fun kind id => hmode ▸ (hfresh.decks kind).count_eq id
  have hheld : s.cardsHeld = 0 := by
    have hzero : ∀ p ∈ s.seats, p.getOutOfJailCards = 0 := fun p hp => (hfresh.seats p hp).2.2.2.1
    rw [cardsHeld_eq, List.map_congr_left hzero]
    simp
  have honce : ∀ kind ∈ [CardKind.chance, .communityChest], ∀ id ∈ fullDeck kind .normal,
      (fullDeck kind .normal).count id = 1 := by decide
  have hkind : ∀ kind : CardKind, kind ∈ [CardKind.chance, .communityChest] := by
    intro kind
    cases kind <;> simp
  refine ⟨fun kind id hid _ => ?_, fun kind => ?_, ?_⟩
  · rw [hcount]
    exact honce kind (hkind kind) id hid
  · rw [hcount, honce kind (hkind kind) _ (by cases kind <;> decide)]
  · have hchance : s.chanceDeck.count chanceJailCard = 1 :=
      (hcount .chance _).trans (honce .chance (hkind _) _ (by decide))
    have hchest : s.chestDeck.count chestJailCard = 1 :=
      (hcount .communityChest _).trans (honce .communityChest (hkind _) _ (by decide))
    rw [hchance, hchest, hheld]
    rfl

theorem Play.gameMode_eq {h : List (Taken GameState Call)} {s : GameState} (hplay : Play h s) :
    ∀ t ∈ h, t.before.gameMode = s.gameMode := fun _ ht =>
  Run.constant (f := GameState.gameMode) (fun h s call s' hplay haccepted => by
    obtain ⟨hw, hl⟩ := Play.formed hplay
    exact (haccepted.stepped hw hl).2.gameMode hw.toSound) hplay ht

/-- **Cards.** In a NORMAL game the cards are conserved in every state
exactly when every call returns them to where they came from. -/
theorem cards_conserved_iff {h : List (Taken GameState Call)} {s : GameState} (hplay : Play h s)
    (hmode : s.gameMode = .normal) :
    (CardsConserved s ∧ ∀ t ∈ h, CardsConserved t.before) ↔
      ∀ t ∈ h, ReturnsCards t.before t.label := by
  -- the mode is part of what is carried along the run, since a run is of either mode
  have hrun := Run.invariant_iff (I := fun s => s.gameMode = .normal → CardsConserved s)
    (A := fun s call => s.gameMode = .normal → ReturnsCards s call)
    (by rintro s ⟨args, hopens⟩; exact hopens.conserved) (by
      intro h s call s' hplay hconserved haccepted
      obtain ⟨hw, hl⟩ := Play.formed hplay
      obtain ⟨hmay, hstep⟩ := haccepted.stepped hw hl
      rw [hstep.gameMode hw.toSound]
      exact forall_congr' fun hmode => hstep.conserved_iff hw hmay hmode (hconserved hmode)) hplay
  have hbefore : ∀ t ∈ h, t.before.gameMode = .normal := fun t ht =>
    (hplay.gameMode_eq t ht).trans hmode
  constructor
  · rintro ⟨hlast, hall⟩ t ht
    exact hrun.mp ⟨fun _ => hlast, fun t ht _ => hall t ht⟩ t ht (hbefore t ht)
  · intro hreturns
    obtain ⟨hlast, hall⟩ := hrun.mpr fun t ht _ => hreturns t ht
    exact ⟨hlast hmode, fun t ht => hall t ht (hbefore t ht)⟩

theorem cards_conserved_after_purchase :
    ∃ h s, Play h s ∧ s.gameMode = .normal ∧ CardsConserved s := by
  obtain ⟨h, s, hplay, hlabels, hcheck⟩ := play_of_reaches (duo 1500) firstPurchase
    (fun _ s => decide (s.gameMode = .normal)) (by decide) (by decide +kernel)
  have hmode : s.gameMode = .normal := of_decide_eq_true hcheck
  refine ⟨h, s, hplay, hmode, ((cards_conserved_iff hplay hmode).mpr fun t ht => ?_).1⟩
  have hcalls : ∀ call ∈ firstPurchase, ∀ s, ReturnsCards s call := by
    intro call hcall s
    simp only [firstPurchase, List.mem_cons, List.not_mem_nil, or_false] at hcall
    rcases hcall with rfl | rfl <;> exact ⟨by simp [callAt], False.elim, by simp [callAt]⟩
  exact hcalls _ (label_mem_of_reverse hlabels ht) _

/-- The game of `duo`, with `chest_05` on top of the Community Chest deck. -/
def chestJailCardOnTop : NewGame :=
  { duo 1500 with
    rng := ⟨1 :: List.replicate 15 0 ++ [15, 14, 13, 12, 11, 10, 9, 8, 7, 6, 5, 0, 3, 2, 1]⟩ }

/-- Player `1` draws the Get Out of Jail Free card of the Community Chest
deck, goes to jail for the third doubles and uses it in the next turn. -/
def chestCardUsed : List Call :=
  [callAt 0 [0, 0] (.rollDice 1),
    callAt 0 [0, 0] (.rollDice 1),
    callAt 0 [0, 0] (.rollDice 1),
    callAt 0 [] (.endTurn 1),
    callAt 0 [0, 2] (.rollDice 2),
    callAt 0 [] (.endTurn 2),
    callAt 0 [] (.useJailCard 1)]

/-- The Chance deck has its Get Out of Jail Free card twice in the end, and
the Community Chest deck has lost its own. -/
theorem chest_card_becomes_chance_card :
    ∃ h s, Play h s ∧ s.gameMode = .normal ∧ h.reverse.map (·.label) = chestCardUsed ∧
      s.chanceDeck.count chanceJailCard = 2 ∧ s.chestDeck.count chestJailCard = 0 ∧
      s.cardsHeld = 0 := by
  obtain ⟨h, s, hplay, hlabels, hcheck⟩ := play_of_reaches chestJailCardOnTop chestCardUsed
    (fun _ s => decide (s.gameMode = .normal ∧ s.chanceDeck.count chanceJailCard = 2 ∧
      s.chestDeck.count chestJailCard = 0 ∧ s.cardsHeld = 0)) (by decide) (by decide +kernel)
  obtain ⟨hmode, hfacts⟩ := of_decide_eq_true hcheck
  exact ⟨h, s, hplay, hmode, hlabels, hfacts⟩

end Monopoly
