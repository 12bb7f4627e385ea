import Monopoly.Lib.Related
import Monopoly.Spec.Acceptance

/-!
# Monopoly.Spec.Secrecy

The decks are read by a draw and by nothing else, and the flags of the
advertised actions by nothing at all: on two states that differ in these,
everything but a draw does the same, and leaves two such states behind.  Two
draws do the same as long as they draw the same card.
-/

namespace Monopoly

/-- One deck and another: they are as high, and the same if `P` holds. -/
structure DeckAlike (P : Prop) (deck deck' : List CardId) : Prop where
  length : deck'.length = deck.length
  eq : P → deck' = deck

theorem DeckAlike.append {P : Prop} {deck deck' : List CardId} (h : DeckAlike P deck deck')
    (cards : List CardId) : DeckAlike P (deck ++ cards) (deck' ++ cards) :=
  ⟨by simp [h.length], fun hP => by rw [h.eq hP]⟩

/-- The state with these decks and flags instead. -/
def GameState.hiding (s : GameState) (chance chest : List CardId) (flags : ActionSet) :
    GameState :=
  { s with
    chanceDeck := chance
    chestDeck := chest
    turn := { s.turn with actionsAvailable := flags } }

/-- The states are the same but for the flags and the decks.  The decks are as
high, and the same if `P` holds. -/
inductive Alike (P : Prop) (s : GameState) : GameState → Prop
  | hidden (chance chest : List CardId) (flags : ActionSet) : DeckAlike P s.chanceDeck chance →
      DeckAlike P s.chestDeck chest → Alike P s (s.hiding chance chest flags)

section Reads

variable (s : GameState) (chance chest : List CardId) (flags : ActionSet)

@[simp] theorem GameState.hiding_bankruptcy :
    (s.hiding chance chest flags).bankruptcy = s.bankruptcy := rfl

@[simp] theorem GameState.hiding_auction :
    (s.hiding chance chest flags).auction = s.auction := rfl

@[simp] theorem GameState.hiding_trade : (s.hiding chance chest flags).trade = s.trade := rfl

@[simp] theorem GameState.hiding_players :
    (s.hiding chance chest flags).players = s.players := rfl

@[simp] theorem GameState.hiding_status : (s.hiding chance chest flags).status = s.status := rfl

end Reads

/-- Every state is like itself. -/
theorem Alike.refl (P : Prop) (s : GameState) : Alike P s s :=
  .hidden s.chanceDeck s.chestDeck s.turn.actionsAvailable ⟨rfl, fun _ => rfl⟩ ⟨rfl, fun _ => rfl⟩

theorem Alike.ite {P c : Prop} [Decidable c] {s s' t t' : GameState} (h : Alike P s s')
    (h' : Alike P t t') : Alike P (if c then s else t) (if c then s' else t') := by
  split
  · exact h
  · exact h'

section Rules

variable {P : Prop} {s s' : GameState} {pid : PlayerId}

/-! ## payments -/

theorem transferFunds_alike (h : Alike P s s') (creditorId : Option PlayerId) (amount : Int) :
    Related (Alike P) (transferFunds s pid creditorId amount)
      (transferFunds s' pid creditorId amount) := by
  cases h with
  | hidden chance chest flags hchance hchest =>
      refine .after _ fun payer => .after _ fun payer => .after _ fun players => ?_
      cases creditorId with
      | none => exact .ok (.hidden _ _ _ hchance hchest)
      | some creditorId =>
          refine .after _ fun creditor => .after _ fun creditor => .after _ fun players => ?_
          exact .ok (.hidden _ _ _ hchance hchest)

theorem attemptPayment_alike (h : Alike P s s') (amount : Int) (creditorId : Option PlayerId) :
    Related (Alike P) (attemptPayment s pid amount creditorId)
      (attemptPayment s' pid amount creditorId) := by
  have hpay := @transferFunds_alike P s s' pid h creditorId amount
  cases h with
  | hidden chance chest flags hchance hchest =>
      refine .ite (.ok (.hidden _ _ _ hchance hchest)) (.after _ fun payer => .ite hpay ?_)
      refine .ite ?_ ?_
      · exact .ok (.hidden _ _ _ hchance hchest)
      · exact .ok (.hidden _ _ _ hchance hchest)

theorem trySettleDebt_alike (h : Alike P s s') :
    Related (Alike P) (trySettleDebt s) (trySettleDebt s') := by
  have hpay := fun pid => @transferFunds_alike P s s' pid h
  cases h with
  | hidden chance chest flags hchance hchest =>
      simp only [trySettleDebt, GameState.hiding_bankruptcy]
      cases s.bankruptcy with
      | none => exact .ok (.hidden _ _ _ hchance hchest)
      | some debt =>
          refine .after _ fun debtor => .ite ?_ (.ok (.hidden _ _ _ hchance hchest))
          refine (hpay _ _ _).bind fun t t' ht => ?_
          cases ht with
          | hidden chance chest flags hchance hchest => exact .ok (.hidden _ _ _ hchance hchest)

/-! ## building and mortgages -/

/-- The common end of building and mortgages reads no deck. Each of the
operations below follows from it. -/
theorem updateHolding_alike (h : Alike P s s') (player : PlayerState) (pos : Nat)
    (ownership : SpaceOwnership) (delta : Int) :
    Related (Alike P) (updateHolding s pid player pos ownership delta)
      (updateHolding s' pid player pos ownership delta) := by
  cases h with
  | hidden chance chest flags hchance hchest =>
      refine .after _ fun spaces => .after _ fun player => .after _ fun players => ?_
      exact .after _ fun players => .ok (.hidden _ _ _ hchance hchest)

theorem buildHouse_alike (h : Alike P s s') (pos : Nat) :
    Related (Alike P) (buildHouse s pid pos) (buildHouse s' pid pos) := by
  have hhold := fun player => @updateHolding_alike P s s' pid h player pos
  cases h with
  | hidden chance chest flags hchance hchest =>
      refine .after _ fun allowed => .after _ fun _ => .after _ fun player => ?_
      refine .after _ fun ownership => .after _ fun boardSpace => .ite ?_ ?_
      all_goals
        refine (hhold _ _ _).bind fun t t' ht => ?_
        cases ht with
        | hidden chance chest flags hchance hchest => exact .ok (.hidden _ _ _ hchance hchest)

theorem sellHouse_alike (h : Alike P s s') (pos : Nat) :
    Related (Alike P) (sellHouse s pid pos) (sellHouse s' pid pos) := by
  have hhold := fun player => @updateHolding_alike P s s' pid h player pos
  cases h with
  | hidden chance chest flags hchance hchest =>
      refine .after _ fun allowed => .after _ fun _ => .after _ fun player => ?_
      refine .after _ fun ownership => .after _ fun boardSpace => .ite ?_ ?_
      all_goals
        refine (hhold _ _ _).bind fun t t' ht => ?_
        cases ht with
        | hidden chance chest flags hchance hchest => exact .ok (.hidden _ _ _ hchance hchest)

theorem mortgageProperty_alike (h : Alike P s s') (pos : Nat) :
    Related (Alike P) (mortgageProperty s pid pos) (mortgageProperty s' pid pos) := by
  have hhold := fun player => @updateHolding_alike P s s' pid h player pos
  cases h with
  | hidden chance chest flags hchance hchest =>
      refine .after _ fun allowed => .after _ fun _ => .after _ fun player => ?_
      exact .after _ fun boardSpace => .after _ fun ownership => hhold _ _ _

theorem unmortgageProperty_alike (h : Alike P s s') (pos : Nat) :
    Related (Alike P) (unmortgageProperty s pid pos) (unmortgageProperty s' pid pos) := by
  have hhold := fun player => @updateHolding_alike P s s' pid h player pos
  cases h with
  | hidden chance chest flags hchance hchest =>
      refine .after _ fun allowed => .after _ fun _ => .after _ fun player => ?_
      exact .after _ fun boardSpace => .after _ fun ownership => hhold _ _ _

/-! ## auctions and trades -/

theorem placeBid_alike (h : Alike P s s') (amount : Int) :
    Related (Alike P) (placeBid s pid amount) (placeBid s' pid amount) := by
  cases h with
  | hidden chance chest flags hchance hchest =>
      simp only [placeBid, GameState.hiding_auction]
      cases s.auction with
      | none => exact .error _
      | some auction =>
          refine .after _ fun _ => .after _ fun player => .after _ fun _ => .after _ fun _ => ?_
          exact .ok (.hidden _ _ _ hchance hchest)

theorem resolveAuction_alike (h : Alike P s s') :
    Related (Alike P) (resolveAuction s) (resolveAuction s') := by
  cases h with
  | hidden chance chest flags hchance hchest =>
      simp only [resolveAuction, GameState.hiding_auction]
      cases s.auction with
      | none => exact .ok (.hidden _ _ _ hchance hchest)
      | some auction =>
          refine .after (awardProperty s auction) fun awarded => .after _ fun players => ?_
          exact .ok (.hidden _ _ _ hchance hchest)

theorem proposeTrade_alike (h : Alike P s s') (target : PlayerId) (offer request : TradeOffer)
    (now : Int) (tradeId : Nat) :
    Related (Alike P) (proposeTrade s pid target offer request now tradeId)
      (proposeTrade s' pid target offer request now tradeId) := by
  cases h with
  | hidden chance chest flags hchance hchest =>
      refine .after _ fun _ => .after _ fun _ => .after _ fun _ => .after _ fun _ => ?_
      refine .after (validateTradeOffer s pid offer) fun _ => ?_
      refine .after (validateTradeOffer s target request) fun _ => ?_
      exact .ok (.hidden _ _ _ hchance hchest)

theorem executeTrade_alike (h : Alike P s s') (trade : TradeState) :
    Related (Alike P) (executeTrade s trade) (executeTrade s' trade) := by
  cases h with
  | hidden chance chest flags hchance hchest =>
      refine .after (validateTradeOffer s _ _) fun _ => ?_
      refine .after (validateTradeOffer s _ _) fun _ => ?_
      refine .after _ fun proposer => .after _ fun target => .after _ fun pIdx => ?_
      refine .after _ fun tIdx => .after _ fun given => .after _ fun taken => ?_
      exact .after _ fun players => .ok (.hidden _ _ _ hchance hchest)

/-- An answer to a trade reads no deck, whether it accepts, rejects or
counters. -/
theorem respondTrade_alike (h : Alike P s s') (tradeId : Nat) (response : TradeResponse)
    (counterOffer : Option TradeOffer) (now : Int) :
    Related (Alike P) (respondTrade s pid tradeId response counterOffer now)
      (respondTrade s' pid tradeId response counterOffer now) := by
  have hexecute := executeTrade_alike h
  cases h with
  | hidden chance chest flags hchance hchest =>
      simp only [respondTrade, GameState.hiding_trade]
      cases s.trade with
      | none => exact .error _
      | some trade =>
          refine .after _ fun _ => ?_
          cases response with
          | reject => exact .ok (.hidden _ _ _ hchance hchest)
          | accept => exact .after _ fun _ => hexecute trade
          | counter =>
              cases counterOffer with
              | none => exact .error _
              | some counter =>
                  refine .after _ fun _ => .after (validateTradeOffer s _ _) fun _ => ?_
                  exact .ok (.hidden _ _ _ hchance hchest)

/-! ## elimination -/

theorem checkWinCondition_alike (h : Alike P s s') :
    Alike P (checkWinCondition s) (checkWinCondition s') := by
  cases h with
  | hidden chance chest flags hchance hchest =>
      unfold checkWinCondition
      simp only [GameState.hiding_players, GameState.hiding_status]
      split
      · exact .hidden _ _ _ hchance hchest
      · exact .hidden _ _ _ hchance hchest

theorem advanceTurnOffPlayer_alike (h : Alike P s s') :
    Related (Alike P) (advanceTurnOffPlayer s pid) (advanceTurnOffPlayer s' pid) := by
  cases h with
  | hidden chance chest flags hchance hchest =>
      refine .after _ fun start => .after _ fun next => ?_
      cases next with
      | none => exact .ok (.hidden _ _ _ hchance hchest)
      | some next => exact .ok (.hidden _ _ _ hchance hchest)

theorem afterElimination_alike (h : Alike P s s') :
    Related (Alike P) (afterElimination s pid) (afterElimination s' pid) := by
  have hchecked := checkWinCondition_alike h
  unfold afterElimination
  generalize checkWinCondition s = t at hchecked
  generalize checkWinCondition s' = t' at hchecked
  have hadvance := @advanceTurnOffPlayer_alike P t t' pid hchecked
  cases hchecked with
  | hidden chance chest flags hchance hchest =>
      exact .ite (.ok (.hidden _ _ _ hchance hchest)) hadvance

/-- The settlements are the same but for the decks. -/
structure SettledAlike (P : Prop) (a b : Settlement) : Prop where
  players : b.players = a.players
  spaces : b.spaces = a.spaces
  chance : DeckAlike P a.chanceDeck b.chanceDeck
  chest : DeckAlike P a.chestDeck b.chestDeck

/-- Cards put back go to the bottom of both decks alike. -/
theorem DeckAlike.returnCards {deck deck' : List CardId} (h : DeckAlike P deck deck')
    (cards : Int) (card : CardId) :
    DeckAlike P (Monopoly.returnCards cards deck card) (Monopoly.returnCards cards deck' card) :=
  h.append _

/-- Dividing up an estate puts jail cards back and reads no deck. -/
theorem settleAssets_alike (h : Alike P s s') (debtor : PlayerState) (debt : BankruptcyState) :
    Related (SettledAlike P) (settleAssets s debtor debt) (settleAssets s' debtor debt) := by
  cases h with
  | hidden chance chest flags hchance hchest =>
      unfold settleAssets
      cases debt.creditorId with
      | none =>
          refine .after _ fun spaces => .ok ⟨rfl, rfl, ?_, ?_⟩
          · exact hchance.returnCards _ _
          · exact hchest.returnCards _ _
      | some creditorId =>
          refine .after _ fun creditor => .after _ fun moved => .after _ fun players => ?_
          exact .ok ⟨rfl, rfl, hchance, hchest⟩

theorem resolveBankruptcy_alike (h : Alike P s s') :
    Related (Alike P) (resolveBankruptcy s pid) (resolveBankruptcy s' pid) := by
  have hsettle := settleAssets_alike h
  cases h with
  | hidden chance chest flags hchance hchest =>
      simp only [resolveBankruptcy, GameState.hiding_bankruptcy]
      cases s.bankruptcy with
      | none => exact .ok (.hidden _ _ _ hchance hchest)
      | some debt =>
          refine .ite (.ok (.hidden _ _ _ hchance hchest)) ?_
          refine .after _ fun debtor => .after _ fun idx => ?_
          refine (hsettle debtor debt).bind fun a b hab => ?_
          rw [hab.players, hab.spaces]
          refine .after _ fun players => afterElimination_alike ?_
          exact .hidden _ _ _ hab.chance hab.chest

/-- The end of a surrender. -/
theorem surrendered_alike (h : Alike P s s') :
    Related (Alike P)
      (if (checkWinCondition s).status = .finished then pure (checkWinCondition s)
        else if (checkWinCondition s).turn.currentPlayerId = pid then
          advanceTurnOffPlayer (checkWinCondition s) pid
        else pure (checkWinCondition s))
      (if (checkWinCondition s').status = .finished then pure (checkWinCondition s')
        else if (checkWinCondition s').turn.currentPlayerId = pid then
          advanceTurnOffPlayer (checkWinCondition s') pid
        else pure (checkWinCondition s')) := by
  have hchecked := checkWinCondition_alike h
  generalize checkWinCondition s = t at hchecked
  generalize checkWinCondition s' = t' at hchecked
  have hadvance := @advanceTurnOffPlayer_alike P t t' pid hchecked
  cases hchecked with
  | hidden chance chest flags hchance hchest =>
      exact .ite (.ok (.hidden _ _ _ hchance hchest))
        (.ite hadvance (.ok (.hidden _ _ _ hchance hchest)))

theorem resolveSurrender_alike (h : Alike P s s') :
    Related (Alike P) (resolveSurrender s pid) (resolveSurrender s' pid) := by
  cases h with
  | hidden chance chest flags hchance hchest =>
      refine .after _ fun player => .ite (.ok (.hidden _ _ _ hchance hchest)) ?_
      refine .after _ fun idx => .after _ fun cleared => .after _ fun players => ?_
      refine surrendered_alike (.hidden _ _ _ ?_ ?_)
      · exact hchance.returnCards _ _
      · exact hchest.returnCards _ _

/-! ## movement -/

/-- The results are those of states that are alike, and the same
otherwise. -/
def FirstAlike {α : Type} (P : Prop) (x y : GameState × α) : Prop := Alike P x.1 y.1 ∧ y.2 = x.2

theorem setPlayer_alike (h : Alike P s s') (player : PlayerState) :
    Related (Alike P) (setPlayer s player) (setPlayer s' player) := by
  cases h with
  | hidden chance chest flags hchance hchest =>
      refine .after _ fun player => .after _ fun players => .after _ fun players => ?_
      exact .ok (.hidden _ _ _ hchance hchest)

theorem storePlayer_alike (h : Alike P s s') (player : PlayerState) :
    Related (Alike P) (storePlayer s player) (storePlayer s' player) := by
  cases h with
  | hidden chance chest flags hchance hchest =>
      exact .after _ fun player => .after _ fun players => .ok (.hidden _ _ _ hchance hchest)

theorem finalize_alike (h : Alike P s s') (players : List PlayerState) (turn : TurnState)
    (flags : ActionSet) :
    Related (Alike P) (finalize s players turn)
      (finalize s' players { turn with actionsAvailable := flags }) := by
  cases h with
  | hidden chance chest _ hchance hchest =>
      exact .after _ fun players => .ok (.hidden _ _ _ hchance hchest)

theorem collectGoBonus_alike (h : Alike P s s') (player : PlayerState) (goSalary : Int)
    (due : Bool) :
    Related (FirstAlike P) (collectGoBonus s player goSalary due)
      (collectGoBonus s' player goSalary due) := by
  cases h with
  | hidden chance chest flags hchance hchest =>
      refine .ite ?_ (.ok ⟨.hidden _ _ _ hchance hchest, rfl⟩)
      refine .bind (S := FirstAlike P) ?_ fun x y hxy => ?_
      · refine .after _ fun updated => .after _ fun players => .ok ⟨?_, rfl⟩
        exact .hidden _ _ _ hchance hchest
      · obtain ⟨t, goEvent⟩ := x
        obtain ⟨t', goEvent'⟩ := y
        have halike : Alike P t t' := hxy.1
        obtain rfl : goEvent' = goEvent := hxy.2
        cases halike with
        | hidden chance chest flags hchance hchest =>
            exact .after _ fun player => .ok ⟨.hidden _ _ _ hchance hchest, rfl⟩

theorem walk_alike (h : Alike P s s') (player : PlayerState) (steps : Nat) (goSalary : Int) :
    Related (FirstAlike P) (walk s player steps goSalary) (walk s' player steps goSalary) := by
  cases h with
  | hidden chance chest flags hchance hchest =>
      refine .after _ fun advanced => .after _ fun players => ?_
      have hcollect := collectGoBonus_alike
        (.hidden chance chest flags hchance hchest : Alike P { s with players } _)
        { player with position := advanced.1 } goSalary advanced.2
      refine hcollect.bind fun x y hxy => ?_
      obtain ⟨t, moved⟩ := x
      obtain ⟨t', moved'⟩ := y
      obtain ⟨halike, rfl⟩ := hxy
      exact .ok ⟨halike, rfl⟩

/-! ## draws -/

/-- The cards that were drawn. -/
def cardsDrawn (events : List GameEvent) : List CardId :=
  events.filterMap fun
    | .cardDrawn _ _ cardId _ => some cardId
    | _ => none

theorem cardsDrawn_append (events events' : List GameEvent) :
    cardsDrawn (events ++ events') = cardsDrawn events ++ cardsDrawn events' :=
  List.filterMap_append

/-- The events tell of the same cards, unless `P` says so already. -/
def SameDraws (P : Prop) (events events' : List GameEvent) : Prop :=
  P ∨ cardsDrawn events = cardsDrawn events'

theorem SameDraws.of_append {events events₁ events₂ : List GameEvent}
    (h : SameDraws P (events ++ events₁) (events ++ events₂)) : SameDraws P events₁ events₂ :=
  h.imp_right fun h => by
    rwa [cardsDrawn_append, cardsDrawn_append, List.append_cancel_left_eq] at h

/-- The landings are the same, of states that are alike. -/
structure LandedAlike (P : Prop) (a b : Landing) : Prop where
  state : Alike P a.state b.state
  events : b.events = a.events
  sentToJail : b.sentToJail = a.sentToJail
  rng : b.rng = a.rng

/-- If the same cards were drawn, the landings are the same. -/
def SameIfDrawn (P : Prop) (a b : Landing) : Prop :=
  SameDraws P a.events b.events → LandedAlike P a b

/-- On states that are alike, the landing goes the same way as long as it
draws the same cards. -/
def LandsAlike (P : Prop) (land : Lander) : Prop :=
  ∀ s s' player depth rentMultiplier rng, Alike P s s' →
    Both (SameIfDrawn P) (land s player depth rentMultiplier rng)
      (land s' player depth rentMultiplier rng)

/-- A landing that draws no card is the same. -/
theorem landed_alike {x y : Py GameState} (hxy : Related (Alike P) x y)
    (f : GameState → GameState) (hf : ∀ t t', Alike P t t' → Alike P (f t) (f t'))
    (events : List GameEvent) (sentToJail : Bool) (rng : Rng) :
    Both (SameIfDrawn P) (do return (⟨f (← x), events, sentToJail, rng⟩ : Landing))
      (do return (⟨f (← y), events, sentToJail, rng⟩ : Landing)) :=
  hxy.both.bind fun t t' ht => .ok fun _ => ⟨hf t t' ht, rfl, rfl, rfl⟩

/-- More events in front. -/
theorem SameIfDrawn.cons {a b : Landing} (h : SameIfDrawn P a b) (events : List GameEvent) :
    SameIfDrawn P { a with events := events ++ a.events }
      { b with events := events ++ b.events } := by
  intro hcards
  obtain ⟨hstate, hevents, hjail, hrng⟩ := h hcards.of_append
  exact ⟨hstate, by rw [hevents], hjail, hrng⟩

theorem getCard_ok {id : CardId} {card : CardDef} (h : getCard id = .ok card) : card.id = id := by
  cases hfind : allCards.find? (fun card => decide (card.id = id)) with
  | none => simp [getCard, hfind, orRaise] at h
  | some found =>
      obtain rfl : found = card := by simpa [getCard, hfind, orRaise] using h
      simpa using List.find?_some hfind

/-- The two decks of one kind are alike. -/
theorem Alike.deck (h : Alike P s s') (kind : CardKind) :
    DeckAlike P (s.deck kind) (s'.deck kind) := by
  cases h with
  | hidden chance chest flags hchance hchest =>
      cases kind with
      | chance => exact hchance
      | communityChest => exact hchest

/-- Writing decks that are alike leaves states that are. -/
theorem Alike.setDeck (h : Alike P s s') (kind : CardKind) {deck deck' : List CardId}
    (hdeck : DeckAlike P deck deck') : Alike P (s.setDeck kind deck) (s'.setDeck kind deck') := by
  cases h with
  | hidden chance chest flags hchance hchest =>
      cases kind with
      | chance => exact .hidden deck' chest flags hdeck hchest
      | communityChest => exact .hidden chance deck' flags hchance hdeck

theorem Alike.gameMode (h : Alike P s s') : s'.gameMode = s.gameMode := by cases h; rfl

theorem Alike.players (h : Alike P s s') : s'.players = s.players := by cases h; rfl

/-- The decks to draw from are alike. -/
theorem deckToDraw_alike (h : Alike P s s') (kind : CardKind) (rng : Rng) :
    Related (fun x y : List CardId × Rng => DeckAlike P x.1 y.1 ∧ y.2 = x.2)
      (deckToDraw s kind rng) (deckToDraw s' kind rng) := by
  have hdeck := h.deck kind
  unfold deckToDraw
  rw [h.gameMode]
  generalize s.deck kind = deck at hdeck
  generalize s'.deck kind = deck' at hdeck
  cases deck with
  | nil =>
      obtain rfl := List.eq_nil_of_length_eq_zero hdeck.length
      exact .same _ fun _ _ => ⟨⟨rfl, fun _ => rfl⟩, rfl⟩
  | cons top rest =>
      cases deck' with
      | nil => exact absurd hdeck.length (by simp)
      | cons top' rest' => exact .ok ⟨hdeck, rfl⟩

/-- The card put back, or kept out, under the decks. -/
theorem DeckAlike.drawn {top : CardId} {rest rest' : List CardId}
    (h : DeckAlike P (top :: rest) (top :: rest')) (card : CardDef) :
    DeckAlike P (if card.effect = .getOutOfJailFree then rest else rest ++ [top])
      (if card.effect = .getOutOfJailFree then rest' else rest' ++ [top]) := by
  have hrest : DeckAlike P rest rest' :=
    ⟨by simpa using h.length, fun hP => (List.cons.inj (h.eq hP)).2⟩
  split
  · exact hrest
  · exact hrest.append [top]

/-- The one place where a deck is read. Either both draws fail, or both
succeed, and then the states are alike again if the cards are the same. -/
theorem drawCard_alike (h : Alike P s s') (kind : CardKind) (rng : Rng) :
    Both (fun x y : GameState × CardDef × Rng => P ∨ x.2.1.id = y.2.1.id → FirstAlike P x y)
      (drawCard s kind rng) (drawCard s' kind rng) := by
  refine (deckToDraw_alike h kind rng).both.bind fun x y hxy => ?_
  obtain ⟨deck, rng⟩ := x
  obtain ⟨deck', rng'⟩ := y
  have hdeck : DeckAlike P deck deck' := hxy.1
  obtain rfl : rng' = rng := hxy.2
  cases deck with
  | nil => exact fun _ _ hx => by cases hx
  | cons top rest =>
      cases deck' with
      | nil => exact fun _ _ _ hy => by cases hy
      | cons top' rest' =>
          rintro x y hx hy hid
          cases hcard : getCard top with
          | error e => simp [hcard] at hx
          | ok card =>
              cases hcard' : getCard top' with
              | error e => simp [hcard'] at hy
              | ok card' =>
                  simp only [hcard, ok_bind] at hx
                  simp only [hcard', ok_bind] at hy
                  obtain rfl := Except.ok.inj hx
                  obtain rfl := Except.ok.inj hy
                  have htop : top = top' := by
                    rcases hid with hP | hid
                    · exact (List.cons.inj (hdeck.eq hP)).1.symm
                    · rw [← getCard_ok hcard, ← getCard_ok hcard']
                      exact hid
                  subst htop
                  obtain rfl := Except.ok.inj (hcard.symm.trans hcard')
                  exact ⟨h.setDeck kind (hdeck.drawn card), rfl⟩

/-! ## card effects and landings -/

section Cards

variable {land : Lander} {player : PlayerState} {goSalary : Int}

theorem advanceAndLand_alike (hland : LandsAlike P land) (h : Alike P s s') (steps : Nat)
    (bonus : Bool) (depth rentMultiplier : Nat) (rng : Rng) :
    Both (SameIfDrawn P)
      (advanceAndLand land goSalary s player steps bonus depth rentMultiplier rng)
      (advanceAndLand land goSalary s' player steps bonus depth rentMultiplier rng) := by
  have hset := setPlayer_alike h
  unfold advanceAndLand
  rw [h.gameMode]
  refine .after _ fun advanced => ?_
  refine (hset { player with position := advanced.1 }).both.bind fun t t' ht => ?_
  refine (collectGoBonus_alike ht _ goSalary _).both.bind fun x y hxy => ?_
  obtain ⟨u, moved, goEvents⟩ := x
  obtain ⟨u', moved', goEvents'⟩ := y
  have halike : Alike P u u' := hxy.1
  obtain ⟨rfl, rfl⟩ : moved' = moved ∧ goEvents' = goEvents := Prod.mk.inj hxy.2
  refine (hland u u' _ depth rentMultiplier rng halike).bind fun a b hab => ?_
  exact .ok (hab.cons (cardMoveEvent player advanced.1 :: _))

/-- A card carried out does the same on both, when the landing after it does.
-/
theorem applyCardEffect_alike (hland : LandsAlike P land) (h : Alike P s s') (card : CardDef)
    (depth : Nat) (rng : Rng) :
    Both (SameIfDrawn P) (applyCardEffect land goSalary s player card depth rng)
      (applyCardEffect land goSalary s' player card depth rng) := by
  have hset := setPlayer_alike h
  have hpay := fun amount => @attemptPayment_alike P s s' player.id h amount none
  have hadvance := fun steps bonus rentMultiplier => @advanceAndLand_alike P s s' land player
    goSalary hland h steps bonus depth rentMultiplier rng
  have hquiet : ∀ {x y : Py GameState}, Related (Alike P) x y → ∀ events sentToJail,
      Both (SameIfDrawn P) (do return (⟨← x, events, sentToJail, rng⟩ : Landing))
        (do return (⟨← y, events, sentToJail, rng⟩ : Landing)) :=
    fun hxy events sentToJail => landed_alike hxy id (fun _ _ ht => ht) events sentToJail rng
  unfold applyCardEffect
  rw [h.gameMode]
  cases card.effect with
  | advanceTo position bonus => exact .after _ fun steps => hadvance steps bonus 1
  | advanceToNearest spaceType payDouble =>
      exact .after _ fun target => .after _ fun steps => hadvance steps true _
  | goToJail => exact hquiet (hset _) _ _
  | goBack spaces =>
      refine .after _ fun currentIndex => .after _ fun newIndex => .after _ fun newPos => ?_
      refine (hset { player with position := newPos }).both.bind fun t t' ht => .ite ?_ ?_
      · exact .ok fun _ => ⟨ht, rfl, rfl, rfl⟩
      · refine (hland t t' _ (depth + 1) 1 rng ht).bind fun a b hab => .ok ?_
        exact hab.cons [cardMoveEvent player newPos]
  | collect amount => exact hquiet (hset _) _ _
  | pay amount => exact hquiet (hpay _) _ _
  | collectFromEachPlayer amount =>
      cases h with
      | hidden chance chest flags hchance hchest =>
          refine .after _ fun taken => .after _ fun receiver => .after _ fun receiver => ?_
          refine .after _ fun players => .ok fun _ => ⟨?_, rfl, rfl, rfl⟩
          exact .hidden _ _ _ hchance hchest
  | payEachPlayer amount =>
      cases h with
      | hidden chance chest flags hchance hchest =>
          refine .after _ fun payer => .after _ fun players => .after _ fun players => ?_
          refine .after _ fun players => .ok fun _ => ⟨?_, rfl, rfl, rfl⟩
          exact .hidden _ _ _ hchance hchest
  | getOutOfJailFree => exact hquiet (hset _) _ _
  | repairs perHouse perHotel =>
      cases h with
      | hidden chance chest flags hchance hchest => exact .after _ fun cost => hquiet (hpay _) _ _

/-- The landings and the cards on display are the same, if the same cards
were drawn. -/
def ShownIfDrawn (P : Prop) (x y : Landing × ActiveCard) : Prop :=
  SameDraws P x.1.events y.1.events → LandedAlike P x.1 y.1 ∧ y.2 = x.2

/-- What is drawn is told by the first event. -/
theorem drawAndApply_alike (hland : LandsAlike P land) (h : Alike P s s') (kind : CardKind)
    (depth : Nat) (rng : Rng) :
    Both (ShownIfDrawn P) (drawAndApply land goSalary s player kind depth rng)
      (drawAndApply land goSalary s' player kind depth rng) := by
  refine (drawCard_alike h kind rng).bind fun x y hxy => ?_
  obtain ⟨t, card, rng⟩ := x
  obtain ⟨t', card', rng'⟩ := y
  by_cases hid : P ∨ card.id = card'.id
  · obtain ⟨ht, hsame⟩ := hxy hid
    obtain ⟨rfl, rfl⟩ : card' = card ∧ rng' = rng := Prod.mk.inj hsame
    have hplayer : getPlayerByIdFromState t' player.id = getPlayerByIdFromState t player.id := by
      rw [getPlayerByIdFromState, getPlayerByIdFromState, Alike.players ht]
    show Both (ShownIfDrawn P) (getPlayerByIdFromState t player.id >>= _)
      (getPlayerByIdFromState t' player.id >>= _)
    rw [hplayer]
    refine .after _ fun player' => ?_
    refine (applyCardEffect_alike hland ht _ depth _).bind fun a b hab => .ok fun hcards => ?_
    exact ⟨hab.cons [.cardDrawn player.id player.displayName card'.id card'.kind] hcards, rfl⟩
  · refine .bind (S := fun _ _ => True) (fun _ _ _ _ => trivial) fun p p' _ => ?_
    refine .bind (S := fun _ _ => True) (fun _ _ _ _ => trivial) fun a b _ => .ok fun hcards => ?_
    exact absurd (hcards.imp_right fun h => (List.cons.inj h).1) hid

theorem landOnGoToJail_alike (h : Alike P s s') (rng : Rng) :
    Both (SameIfDrawn P) (landOnGoToJail s player rng) (landOnGoToJail s' player rng) := by
  cases h with
  | hidden chance chest flags hchance hchest =>
      refine .after _ fun jailed => .after _ fun players => ?_
      exact landed_alike (finalize_alike (.hidden _ _ flags hchance hchest) players _ _) id
        (fun _ _ ht => ht) _ _ _

theorem landOnTax_alike (h : Alike P s s') (taxAmount : Nat) (rng : Rng) :
    Both (SameIfDrawn P) (landOnTax s player taxAmount rng)
      (landOnTax s' player taxAmount rng) := by
  have hfinalize := finalize_alike h
  cases h with
  | hidden chance chest flags hchance hchest =>
      refine (hfinalize _ _ _).both.bind fun t t' ht => ?_
      refine (attemptPayment_alike ht _ _).both.bind fun u u' hu => ?_
      have hagain := finalize_alike hu
      cases hu with
      | hidden chance chest flags hchance hchest =>
          refine .ite (.ok fun _ => ⟨.hidden _ _ _ hchance hchest, rfl, rfl, rfl⟩) ?_
          exact landed_alike (hagain _ _ _) id (fun _ _ ht => ht) _ _ _

/-- A card space does the same on both as long as the cards drawn are the same.
-/
theorem landOnCard_alike (hland : LandsAlike P land) (h : Alike P s s') (kind : CardKind)
    (depth : Nat) (rng : Rng) :
    Both (SameIfDrawn P) (landOnCard land goSalary s player kind depth rng)
      (landOnCard land goSalary s' player kind depth rng) := by
  have hfinalize := finalize_alike h
  cases h with
  | hidden chance chest flags hchance hchest =>
      refine (hfinalize _ _ _).both.bind fun t t' ht => ?_
      have hdraw := fun player => @drawAndApply_alike P t t' land player goSalary hland ht kind
        depth rng
      cases ht with
      | hidden chance chest flags hchance hchest =>
          refine .after _ fun player' => (hdraw player').bind fun x y hxy => ?_
          obtain ⟨⟨u, events, sent, rng⟩, activeCard⟩ := x
          obtain ⟨⟨u', events', sent', rng'⟩, activeCard'⟩ := y
          have hsame : SameDraws P events events' → Alike P u u' ∧ events' = events ∧
              sent' = sent ∧ rng' = rng ∧ activeCard' = activeCard := by
            intro hcards
            obtain ⟨⟨hstate, hevents, hsent, hrng⟩, hcard⟩ := hxy hcards
            exact ⟨hstate, hevents, hsent, hrng, hcard⟩
          by_cases hcards : SameDraws P events events'
          · obtain ⟨hu, rfl, rfl, rfl, rfl⟩ := hsame hcards
            cases hu with
            | hidden chance chest flags hchance hchest =>
                refine .ite ?_ ?_
                · exact .ok fun _ => ⟨.hidden _ _ _ hchance hchest, rfl, rfl, rfl⟩
                · exact .ok fun _ => ⟨.hidden _ _ _ hchance hchest, rfl, rfl, rfl⟩
          · cases sent <;> cases sent' <;> exact .ok fun h => absurd h hcards

theorem landOnRent_alike (h : Alike P s s') (diceRoll : DiceRoll) (boardSpace : BoardSpace)
    (ownerId : PlayerId) (rentMultiplier : Nat) (rng : Rng) :
    Both (SameIfDrawn P) (landOnRent s player diceRoll boardSpace ownerId rentMultiplier rng)
      (landOnRent s' player diceRoll boardSpace ownerId rentMultiplier rng) := by
  have hfinalize := finalize_alike h
  cases h with
  | hidden chance chest flags hchance hchest =>
      refine .after _ fun owner => .after (calculateRent s _ _ _) fun rent => ?_
      refine (hfinalize _ _ _).both.bind fun t t' ht => ?_
      refine (attemptPayment_alike ht _ _).both.bind fun u u' hu => ?_
      cases hu with
      | hidden chance chest flags hchance hchest =>
          refine .ite ?_ ?_
          · exact .ok fun _ => ⟨.hidden _ _ _ hchance hchest, rfl, rfl, rfl⟩
          · exact .ok fun _ => ⟨.hidden _ _ _ hchance hchest, rfl, rfl, rfl⟩

theorem landOnSpace_alike (h : Alike P s s') (diceRoll : DiceRoll) (boardSpace : BoardSpace)
    (rentMultiplier : Nat) (rng : Rng) :
    Both (SameIfDrawn P) (landOnSpace s player diceRoll boardSpace rentMultiplier rng)
      (landOnSpace s' player diceRoll boardSpace rentMultiplier rng) := by
  have hrent := fun ownerId => @landOnRent_alike P s s' player h diceRoll boardSpace ownerId
    rentMultiplier rng
  have hrest : ∀ purchasable ownership, Both (SameIfDrawn P)
      (landOnRest s player purchasable ownership rng)
      (landOnRest s' player purchasable ownership rng) := by
    intro purchasable ownership
    have hfinalize := finalize_alike h
    cases h with
    | hidden chance chest flags hchance hchest =>
        exact landed_alike (hfinalize _ _ _) id (fun _ _ ht => ht) _ _ _
  cases h with
  | hidden chance chest flags hchance hchest =>
      refine .after _ fun ownership => .after _ fun purchasable => ?_
      cases ownership.ownerId with
      | none => exact hrest _ _
      | some ownerId => exact .ite (hrent ownerId) (hrest _ _)

/-- A landing goes the same way as long as it draws the same cards. -/
theorem resolveLanding_alike (diceRoll : DiceRoll) (goSalary : Int) (fuel : Nat) :
    LandsAlike P (resolveLanding diceRoll goSalary fuel) := by
  induction fuel with
  | zero => exact fun _ _ _ _ _ _ _ _ _ hx => by cases hx
  | succ fuel ih =>
      intro s s' player depth rentMultiplier rng h
      unfold resolveLanding
      rw [h.gameMode]
      refine .after _ fun boardSpace => .ite (landOnGoToJail_alike h rng) ?_
      cases boardSpace.tax with
      | some amount => exact landOnTax_alike h amount rng
      | none =>
          cases boardSpace.type.cardKind with
          | some kind => exact landOnCard_alike ih h kind depth rng
          | none => exact landOnSpace_alike h diceRoll boardSpace rentMultiplier rng

end Cards

/-! ## rolls -/

/-- What a handler returns, with the generator, is the same of states that
are alike. -/
structure SameHandled (P : Prop) (x y : Handled × Rng) : Prop where
  state : Alike P x.1.1 y.1.1
  events : y.1.2 = x.1.2
  rng : y.2 = x.2

/-- What a roll returns is the same, if the same cards were drawn. -/
def SameRoll (P : Prop) (x y : Handled × Rng) : Prop :=
  SameDraws P x.1.2 y.1.2 → SameHandled P x y

theorem SameHandled.rolled {x y : Handled × Rng} (h : SameHandled P x y) : SameRoll P x y :=
  fun _ => h

/-- The flags are handed on. -/
theorem turnAfterMove_hiding (chance chest : List CardId) (flags : ActionSet) (diceRoll : DiceRoll)
    (extraRoll sentToJail : Bool) (newStreak : Nat) :
    turnAfterMove (s.hiding chance chest flags) diceRoll extraRoll sentToJail newStreak =
      { turnAfterMove s diceRoll extraRoll sentToJail newStreak with
        actionsAvailable := flags } := by
  have hpending : (s.hiding chance chest flags).turn.pendingBuyPosition =
      s.turn.pendingBuyPosition := rfl
  simp only [turnAfterMove, GameState.hiding_bankruptcy, hpending]
  split
  · rfl
  · split
    · cases s.turn.pendingBuyPosition <;> rfl
    · rfl

/-- A move does the same on both as long as its draws do. -/
theorem executeMove_alike (h : Alike P s s') (player : PlayerState) (diceRoll : DiceRoll)
    (extraRollAllowed : Bool) (rng : Rng) (goSalary : Int) :
    Both (SameRoll P) (executeMove s player diceRoll extraRollAllowed rng goSalary)
      (executeMove s' player diceRoll extraRollAllowed rng goSalary) := by
  have hstreak : s'.turn.doublesStreak = s.turn.doublesStreak := by cases h; rfl
  unfold executeMove
  rw [hstreak]
  refine (walk_alike h player _ goSalary).both.bind fun x y hxy => ?_
  obtain ⟨t, moved, walkEvents⟩ := x
  obtain ⟨t', moved', walkEvents'⟩ := y
  have ht : Alike P t t' := hxy.1
  obtain ⟨rfl, rfl⟩ : moved' = moved ∧ walkEvents' = walkEvents := Prod.mk.inj hxy.2
  refine (resolveLanding_alike diceRoll goSalary landingFuel t t' _ 0 1 rng ht).bind
    fun a b hab => .ok fun hcards => ?_
  obtain ⟨hstate, hevents, hsent, hrng⟩ := hab hcards.of_append
  refine ⟨?_, by simp only [hevents], hrng⟩
  rw [hsent]
  generalize a.state = u at hstate
  generalize b.state = u' at hstate
  cases hstate with
  | hidden chance chest flags hchance hchest =>
      rw [turnAfterMove_hiding]
      exact .hidden _ _ _ hchance hchest

/-- So does a roll, from jail or not. -/
theorem handleRollDice_alike (h : Alike P s s') (rng : Rng) (goSalary jailFine : Int) :
    Both (SameRoll P) (handleRollDice s pid rng goSalary jailFine)
      (handleRollDice s' pid rng goSalary jailFine) := by
  have hstore := storePlayer_alike h
  have hmove := executeMove_alike h
  have hstay : ∀ {x y : Py GameState}, Related (Alike P) x y → ∀ diceRoll events (rng : Rng),
      Both (SameRoll P)
        (do let t ← x; return (({ t with turn := stayTurn t.turn diceRoll }, events), rng))
        (do let t ← y; return (({ t with turn := stayTurn t.turn diceRoll }, events), rng)) := by
    intro x y hxy diceRoll events rng
    refine hxy.both.bind fun t t' ht => ?_
    cases ht with
    | hidden chance chest flags hchance hchest =>
        exact .ok fun _ => ⟨.hidden _ _ _ hchance hchest, rfl, rfl⟩
  cases h with
  | hidden chance chest flags hchance hchest =>
      refine .after _ fun _ => .after _ fun player => .after _ fun _ => ?_
      cases player.jailStatus with
      | none =>
          refine .ite (hstay (hstore _) _ _ _) ?_
          exact hmove player _ _ _ goSalary
      | some jail =>
          refine .ite (hmove _ _ _ _ goSalary) (.ite (hstay (hstore _) _ _ _) ?_)
          exact (hstore _).both.bind fun t t' ht => executeMove_alike ht _ _ _ _ goSalary

/-! ## the other handlers -/

/-- A part of the state that a handler goes on with is stored in place. -/
theorem handled_alike {x y : Py GameState} (hxy : Related (Alike P) x y) (events : List GameEvent) :
    Related (FirstAlike P) (do return (← x, events)) (do return (← y, events)) :=
  hxy.bind fun _ _ ht => .ok ⟨ht, rfl⟩

theorem handlePayJailFine_alike (h : Alike P s s') (jailFine : Int) :
    Related (FirstAlike P) (handlePayJailFine s pid jailFine)
      (handlePayJailFine s' pid jailFine) := by
  have hstore := storePlayer_alike h
  cases h with
  | hidden chance chest flags hchance hchest =>
      refine .after _ fun _ => .after _ fun player => .after _ fun _ => .after _ fun _ => ?_
      refine (hstore _).bind fun t t' ht => ?_
      cases ht with
      | hidden chance chest flags hchance hchest => exact .ok ⟨.hidden _ _ _ hchance hchest, rfl⟩

theorem handleUseJailCard_alike (h : Alike P s s') :
    Related (FirstAlike P) (handleUseJailCard s pid) (handleUseJailCard s' pid) := by
  have hreturned : Alike P (returnJailCardToDeck s .chance chanceJailCard)
      (returnJailCardToDeck s' .chance chanceJailCard) :=
    h.setDeck .chance ((h.deck .chance).append [chanceJailCard])
  have hstore := storePlayer_alike hreturned
  cases h with
  | hidden chance chest flags hchance hchest =>
      refine .after _ fun _ => .after _ fun player => .after _ fun _ => .after _ fun _ => ?_
      refine (hstore _).bind fun t t' ht => ?_
      cases ht with
      | hidden chance chest flags hchance hchest => exact .ok ⟨.hidden _ _ _ hchance hchest, rfl⟩

theorem handleBuyProperty_alike (h : Alike P s s') (pos : Nat) :
    Related (FirstAlike P) (handleBuyProperty s pid pos) (handleBuyProperty s' pid pos) := by
  cases h with
  | hidden chance chest flags hchance hchest =>
      refine .after _ fun _ => .after _ fun _ => .after _ fun purchasable => .after _ fun _ => ?_
      refine .after _ fun ownership => .after _ fun _ => .after _ fun player => ?_
      refine .after _ fun boardSpace => .after _ fun price => .after _ fun _ => ?_
      refine .after _ fun spaces => .after _ fun updated => .after _ fun players => ?_
      exact .ok ⟨.hidden _ _ _ hchance hchest, rfl⟩

theorem handlePassBuy_alike (h : Alike P s s') (nowMs : Int) :
    Related (FirstAlike P) (handlePassBuy s pid nowMs) (handlePassBuy s' pid nowMs) := by
  cases h with
  | hidden chance chest flags hchance hchest =>
      refine .after _ fun _ => .after _ fun pending => .after _ fun player => ?_
      exact .after _ fun boardSpace => .ok ⟨.hidden _ _ _ hchance hchest, rfl⟩

theorem handleEndTurn_alike (h : Alike P s s') :
    Related (FirstAlike P) (handleEndTurn s pid) (handleEndTurn s' pid) := by
  cases h with
  | hidden chance chest flags hchance hchest =>
      refine .after _ fun _ => .after _ fun _ => .after _ fun _ => .after _ fun currentIdx => ?_
      refine .after _ fun nextIdx => .after _ fun nextPlayer => .after _ fun player => ?_
      exact .ok ⟨.hidden _ _ _ hchance hchest, rfl⟩

/-- A building command checks the phase, which both have. -/
theorem inBuildPhase_alike (h : Alike P s s') {x y : Py GameState} (hxy : Related (Alike P) x y)
    (message : String) :
    Related (FirstAlike P)
      (do illegalIf (s.turn.phase ∉ buildPhases) message; return (← x, ([] : List GameEvent)))
      (do
        illegalIf (s'.turn.phase ∉ buildPhases) message
        return (← y, ([] : List GameEvent))) := by
  cases h with
  | hidden => exact .after _ fun _ => handled_alike hxy []

theorem handleDeclareBankruptcy_alike (h : Alike P s s') :
    Related (FirstAlike P) (handleDeclareBankruptcy s pid) (handleDeclareBankruptcy s' pid) := by
  have hresolve := @resolveBankruptcy_alike P s s' pid h
  cases h with
  | hidden chance chest flags hchance hchest =>
      simp only [handleDeclareBankruptcy, GameState.hiding_bankruptcy]
      cases s.bankruptcy with
      | none => exact .error _
      | some debt => exact .after _ fun _ => handled_alike hresolve []

theorem handleSurrender_alike (h : Alike P s s') :
    Related (FirstAlike P) (handleSurrender s pid) (handleSurrender s' pid) := by
  have hresolve := @resolveSurrender_alike P s s' pid h
  cases h with
  | hidden chance chest flags hchance hchest =>
      exact .after _ fun player => .after _ fun _ => handled_alike hresolve _

theorem handleTurnTimeout_alike (h : Alike P s s') (nowMs : Int) :
    Related (FirstAlike P) (handleTurnTimeout s nowMs) (handleTurnTimeout s' nowMs) := by
  cases h with
  | hidden chance chest flags hchance hchest =>
      refine .ite (.ok ⟨.hidden _ _ _ hchance hchest, rfl⟩) (.after _ fun player => ?_)
      refine .after _ fun players => ?_
      have hseated : Alike P { s with players } ({ s with players }.hiding chance chest flags) :=
        .hidden _ _ _ hchance hchest
      refine .ite ?_ ?_
      · exact handled_alike (resolveSurrender_alike hseated) _
      · exact handled_alike (advanceTurnOffPlayer_alike hseated) _

/-! ## the call -/

section Calls

variable {command : GameCommand} {env : Env}

/-- Every command but a roll does the same. -/
theorem dispatch_related (h : Alike P s s') (hroll : ∀ pid, command ≠ .rollDice pid) :
    Related (SameHandled P) (dispatch s command env) (dispatch s' command env) := by
  have hkeep : ∀ {x y : Py Handled}, Related (FirstAlike P) x y →
      Related (SameHandled P) (x.map (·, env.rng)) (y.map (·, env.rng)) :=
    fun hxy => hxy.map fun _ _ hab => ⟨hab.1, hab.2, rfl⟩
  cases command with
  | rollDice pid => exact absurd rfl (hroll pid)
  | buyProperty pid pos => exact hkeep (handleBuyProperty_alike h pos)
  | passBuy pid => exact hkeep (handlePassBuy_alike h _)
  | endTurn pid => exact hkeep (handleEndTurn_alike h)
  | payJailFine pid => exact hkeep (handlePayJailFine_alike h _)
  | useJailCard pid => exact hkeep (handleUseJailCard_alike h)
  | buildHouse pid pos => exact hkeep (inBuildPhase_alike h (buildHouse_alike h pos) _)
  | sellHouse pid pos => exact hkeep (inBuildPhase_alike h (sellHouse_alike h pos) _)
  | mortgage pid pos => exact hkeep (inBuildPhase_alike h (mortgageProperty_alike h pos) _)
  | unmortgage pid pos => exact hkeep (inBuildPhase_alike h (unmortgageProperty_alike h pos) _)
  | proposeTrade pid target offer request =>
      exact hkeep (handled_alike (proposeTrade_alike h target offer request _ _) [])
  | respondTrade pid tradeId response counter =>
      exact hkeep (handled_alike (respondTrade_alike h tradeId response counter _) [])
  | placeBid pid amount => exact hkeep (handled_alike (placeBid_alike h amount) [])
  | declareBankruptcy pid => exact hkeep (handleDeclareBankruptcy_alike h)
  | surrender pid => exact hkeep (handleSurrender_alike h)
  | advanceAuction =>
      have hresolve := resolveAuction_alike h
      refine hkeep ?_
      cases h with
      | hidden chance chest flags hchance hchest =>
          exact .ite (.ok ⟨.hidden _ _ _ hchance hchest, rfl⟩) (handled_alike hresolve [])
  | expireTrade =>
      refine hkeep ?_
      cases h with
      | hidden chance chest flags hchance hchest =>
          simp only [expireTrade, GameState.hiding_trade]
          cases s.trade with
          | none => exact .ok ⟨.hidden _ _ _ hchance hchest, rfl⟩
          | some trade =>
              refine .ite ?_ ?_
              · exact .ok ⟨.hidden _ _ _ hchance hchest, rfl⟩
              · exact .ok ⟨.hidden _ _ _ hchance hchest, rfl⟩
  | turnTimeout => exact hkeep (handleTurnTimeout_alike h _)

/-- Every command: a roll as long as its draws do, all the others without a
condition. -/
theorem dispatch_both (h : Alike P s s') :
    Both (SameRoll P) (dispatch s command env) (dispatch s' command env) := by
  by_cases hroll : ∃ pid, command = .rollDice pid
  · obtain ⟨pid, rfl⟩ := hroll
    exact handleRollDice_alike h _ _ _
  · have hrelated := @dispatch_related P s s' command env h fun pid hpid => hroll ⟨pid, hpid⟩
    exact hrelated.both.mono fun _ _ => SameHandled.rolled

/-- The states are alike, and have the same flags. -/
def Flagged (P : Prop) (s s' : GameState) : Prop :=
  Alike P s s' ∧ s'.turn.actionsAvailable = s.turn.actionsAvailable

/-- With equal decks nothing is left to differ. -/
theorem Flagged.eq (h : Flagged P s s') (hP : P) : s' = s := by
  obtain ⟨halike, hflags⟩ := h
  cases halike with
  | hidden chance chest flags hchance hchest =>
      obtain rfl := hchance.eq hP
      obtain rfl := hchest.eq hP
      obtain rfl : flags = s.turn.actionsAvailable := hflags
      rfl

/-- The flags are computed anew. -/
theorem withActions_alike (h : Alike P s s') :
    Related (Flagged P) (withActions s) (withActions s') := by
  cases h with
  | hidden chance chest flags hchance hchest =>
      refine .after (computeActions s _) fun actions => .ok ⟨?_, rfl⟩
      exact .hidden _ _ _ hchance hchest

/-- The common end of a call writes the flags of the new state, the same in
both. -/
theorem finishCommand_alike (h : Alike P s s') {m m' : GameState} (hm : Alike P m m')
    (events : List GameEvent) :
    Related (Flagged P) (finishCommand s command env m events)
      (finishCommand s' command env m' events) := by
  have hreset : Alike P (resetActor m command) (resetActor m' command) := by
    cases hm with
    | hidden chance chest flags hchance hchest =>
        unfold resetActor
        cases command.player with
        | none => exact .hidden _ _ _ hchance hchest
        | some pid => exact .hidden _ _ _ hchance hchest
  unfold finishCommand
  generalize resetActor m command = t at hreset
  generalize resetActor m' command = t' at hreset
  refine .ite ?_ ?_
  · cases hreset with
    | hidden chance chest flags hchance hchest =>
        exact withActions_alike (.hidden _ _ flags hchance hchest)
  · have hclear : Alike P (clearActiveCard s t command) (clearActiveCard s' t' command) := by
      cases h with
      | hidden _ _ _ _ _ =>
          cases hreset with
          | hidden chance chest flags hchance hchest =>
              exact .ite (.hidden _ _ _ hchance hchest) (.hidden _ _ _ hchance hchest)
    refine (trySettleDebt_alike hclear).bind fun u u' hu => ?_
    have hchecked := checkWinCondition_alike hu
    generalize checkWinCondition u = v at hchecked
    generalize checkWinCondition u' = v' at hchecked
    cases hchecked with
    | hidden chance chest flags hchance hchest =>
        exact withActions_alike (.hidden _ _ flags hchance hchest)

/-- Who may act depends on no deck. -/
theorem assertMayAct_alike (h : Alike P s s') :
    assertMayAct s' command = assertMayAct s command := by
  cases h; rfl

/-- What a call answers is the same, of states that are alike. -/
structure SameAnswer (P : Prop) (x y : Handled × Rng) : Prop extends SameHandled P x y where
  flags : y.1.1.turn.actionsAvailable = x.1.1.turn.actionsAvailable

/-- Every call but a roll does the same on states that are alike. -/
theorem apply_related (h : Alike P s s') (hroll : ∀ pid, command ≠ .rollDice pid) :
    Related (SameAnswer P) (apply s command env) (apply s' command env) := by
  unfold apply
  rw [assertMayAct_alike h]
  refine .after _ fun _ => (dispatch_related h hroll).bind fun x y hxy => ?_
  obtain ⟨⟨m, events⟩, rng⟩ := x
  obtain ⟨⟨m', events'⟩, rng'⟩ := y
  obtain ⟨hm, rfl, rfl⟩ : Alike P m m' ∧ events' = events ∧ rng' = rng :=
    ⟨hxy.state, hxy.events, hxy.rng⟩
  exact (finishCommand_alike h hm _).bind fun _ _ ht => .ok ⟨⟨ht.1, rfl, rfl⟩, ht.2⟩

/-- Every call does the same as long as it draws the same cards. -/
theorem apply_both (h : Alike P s s') :
    Both (fun x y => SameDraws P x.1.2 y.1.2 → SameAnswer P x y) (apply s command env)
      (apply s' command env) := by
  unfold apply
  rw [assertMayAct_alike h]
  refine .after _ fun _ => (dispatch_both h).bind fun x y hxy => ?_
  obtain ⟨⟨m, events⟩, rng⟩ := x
  obtain ⟨⟨m', events'⟩, rng'⟩ := y
  by_cases hcards : SameDraws P events events'
  · obtain ⟨hm, rfl, rfl⟩ : Alike P m m' ∧ events' = events ∧ rng' = rng :=
      ⟨(hxy hcards).state, (hxy hcards).events, (hxy hcards).rng⟩
    exact (finishCommand_alike h hm _).both.bind fun _ _ ht => .ok fun _ =>
      ⟨⟨ht.1, rfl, rfl⟩, ht.2⟩
  · exact .bind (S := fun _ _ => True) (fun _ _ _ _ => trivial) fun _ _ _ => .ok fun hsame =>
      absurd hsame hcards

/-- A roll is refused by its guards, which read no deck, or it is accepted
whatever the decks. -/
theorem roll_refused_or_accepted (hw : WellFormed s) (pid : PlayerId) :
    (∃ e, ∀ s', Alike P s s' → apply s' (.rollDice pid) env = .error e) ∨
    ∀ s', Alike P s s' → WellFormed s' → Live s' → ∃ r, apply s' (.rollDice pid) env = .ok r := by
  by_cases hcurrent : s.turn.currentPlayerId = pid
  · obtain ⟨p, hp, hid⟩ := hw.current.player
    obtain rfl := hid.trans hcurrent
    have hmay : assertMayAct s (.rollDice p.id) = .ok () := by
      simp [assertMayAct, GameCommand.player, GameCommand.isReply, assertCurrentPlayer, illegalIf,
        raiseIf, hcurrent]
    by_cases hphase : s.turn.phase = .preRoll ∨ s.turn.phase = .jailDecision
    · by_cases hfree : s.turn.phase = .preRoll → p.jailStatus = none
      · refine .inr fun s' halike hw' hl' => ?_
        cases halike with
        | hidden chance chest flags hchance hchest =>
            have hreturns := handleRollDice_returns hw'.toSound hp hphase hfree env.rng
              env.goSalary env.jailFine
            have hmoves : MayAct (s.hiding chance chest flags) (.rollDice p.id) := by
              rintro q ⟨⟩ -
              exact hcurrent
            obtain ⟨u, events, rng, happly⟩ := accepted_of_returns hw' hl' hmoves hreturns
            exact ⟨_, happly⟩
      · -- the player is jailed and has not been asked
        refine .inl ⟨.illegalMove "must resolve jail decision before rolling", fun s' halike => ?_⟩
        have hjailed : p.jailStatus.isSome = true ∧ s.turn.phase = .preRoll := by
          rw [Classical.not_imp] at hfree
          exact ⟨Option.isSome_iff_ne_none.mpr hfree.2, hfree.1⟩
        rw [apply, assertMayAct_alike halike, hmay]
        cases halike with
        | hidden chance chest flags hchance hchest =>
            have hget : getPlayerByIdFromState (s.hiding chance chest flags) p.id = .ok p :=
              hw.getPlayer hp
            have hphases : (s.hiding chance chest flags).turn.phase = .preRoll := hjailed.2
            simp [dispatch, handleRollDice, illegalIf, raiseIf, hget, hphases, hjailed.1]
    · refine .inl ⟨.illegalMove "cannot roll dice in current phase", fun s' halike => ?_⟩
      rw [apply, assertMayAct_alike halike, hmay]
      have hphases : s'.turn.phase ≠ .preRoll ∧ s'.turn.phase ≠ .jailDecision := by
        cases halike
        exact not_or.mp hphase
      simp [dispatch, handleRollDice, illegalIf, raiseIf, hphases]
  · refine .inl ⟨.illegalMove "not your turn", fun s' halike => ?_⟩
    rw [apply, assertMayAct_alike halike]
    simp [assertMayAct, GameCommand.player, GameCommand.isReply, assertCurrentPlayer, illegalIf,
      raiseIf, hcurrent]

/-- On two tables that are alike the same calls are refused. -/
theorem Alike.refusals (halike : Alike P s s') (hw : WellFormed s) (hl : Live s)
    (hw' : WellFormed s') (hl' : Live s') (command : GameCommand) (env : Env) (e : PyError) :
    apply s command env = .error e ↔ apply s' command env = .error e := by
  by_cases hroll : ∃ pid, command = .rollDice pid
  · obtain ⟨pid, rfl⟩ := hroll
    rcases @roll_refused_or_accepted P s env hw pid with ⟨e', hrefused⟩ | haccepted
    · rw [hrefused s (.refl P s), hrefused s' halike]
    · obtain ⟨r, hr⟩ := haccepted s (.refl P s) hw hl
      obtain ⟨r', hr'⟩ := haccepted s' halike hw' hl'
      simp [hr, hr']
  · exact (apply_related halike fun pid hpid => hroll ⟨pid, hpid⟩).error_iff e

/-- Decks of the same cards, and any flags, keep a table sound. -/
theorem WellFormed.hiding {chance chest : List CardId} (hw : WellFormed s)
    (hchance : chance.Perm s.chanceDeck) (hchest : chest.Perm s.chestDeck) (flags : ActionSet) :
    WellFormed (s.hiding chance chest flags) where
  toSound := by
    refine hw.toSound.map_seats id (List.map_id _).symm rfl rfl (fun kind card hcard => ?_)
      (fun _ _ => rfl) (fun _ _ => rfl) hw.standing
    cases kind with
    | chance => exact hw.decks .chance card (hchance.subset hcard)
    | communityChest => exact hw.decks .communityChest card (hchest.subset hcard)
  current := hw.current
  pending := hw.pending
  auctions a ha := ⟨(hw.auctions a ha).property, (hw.auctions a ha).bidder⟩
  trades t ht := by
    obtain ⟨hproposer, htarget, hdistinct, hoffer, hrequest⟩ := hw.trades t ht
    exact ⟨hproposer, htarget, hdistinct, hoffer, hrequest⟩
  debts d hd := by
    obtain ⟨hdebtor, hcreditor, howed⟩ := hw.debts d hd
    exact ⟨hdebtor, hcreditor, howed⟩

/-- The state with these flags instead. -/
def GameState.withFlags (s : GameState) (flags : ActionSet) : GameState :=
  { s with turn := { s.turn with actionsAvailable := flags } }

end Calls

end Rules

end Monopoly
