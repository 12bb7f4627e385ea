import Monopoly.Spec.Play

/-!
# Monopoly.Spec.Acceptance

Conditions under which a command is accepted: once the guards of its handler
are passed, nothing raises.
-/

namespace Monopoly

/-- The computation raises nothing. -/
abbrev Returns (x : Py α) : Prop := Sat (fun _ => False) x fun _ => True

/-- The generator is handed through. -/
theorem Returns.keepRng {x : Py Handled} (hx : Returns x) (rng : Rng) :
    Returns (x.map (·, rng)) :=
  sat_map.mpr hx

/-- The building commands check the phase first. -/
theorem Returns.inBuildPhase {phase : TurnPhase} {x : Py GameState} (hphase : phase ∈ buildPhases)
    (hx : Returns x) (message : String) :
    Returns (do
      illegalIf (phase ∉ buildPhases) message
      return (← x, ([] : List GameEvent))) := by
  simp only [Returns, sat_bind, sat_illegalIf, sat_pure]
  exact ⟨fun h => h hphase, fun _ => hx⟩

section Handlers

variable {s : GameState} {p t : PlayerState} {pos : Nat}

/-- A roll is accepted in PRE_ROLL from a free player and in JAIL_DECISION,
whatever the dice and the cards are. -/
theorem handleRollDice_returns (hs : Sound s) (hp : p ∈ s.players)
    (hphase : s.turn.phase = .preRoll ∨ s.turn.phase = .jailDecision)
    (hfree : s.turn.phase = .preRoll → p.jailStatus = none) (rng : Rng) (goSalary jailFine : Int) :
    Returns (handleRollDice s p.id rng goSalary jailFine) := by
  simp only [handleRollDice, Returns, sat_bind, sat_illegalIf, hs.getPlayer hp, sat_ok]
  refine ⟨fun h => ?_, fun _ => ⟨fun h => ?_, fun _ => ?_⟩⟩
  · exact hphase.elim h.1 h.2
  · simp [hfree h.2] at h
  · cases hjail : p.jailStatus with
    | none =>
        have hroll : Sat (fun _ => False) _ fun r : Handled × Rng =>
            Rolled s p.bare rng goSalary jailFine r.1.1 := rollFree_sat hs hp hjail
        exact hroll.imp fun _ _ => trivial
    | some jail => exact (rollInJail_sat hs hp hjail).imp fun _ _ => trivial

/-- The fine is accepted in JAIL_DECISION from a jailed player who can pay. -/
theorem handlePayJailFine_returns (hs : Sound s) (hp : p ∈ s.players)
    (hphase : s.turn.phase = .jailDecision) (hjail : p.jailStatus ≠ none) {jailFine : Int}
    (hfunds : jailFine ≤ p.balance) : Returns (handlePayJailFine s p.id jailFine) := by
  obtain ⟨ps, hstore, -⟩ := storePlayer_eq (v := bail jailFine p) (g := bail jailFine) hs hp rfl
    rfl rfl
  simp only [handlePayJailFine, Returns, sat_bind, sat_illegalIf, hs.getPlayer hp, sat_ok, hphase]
  refine ⟨fun h => h rfl, fun _ => ⟨hjail, fun _ => ⟨fun h => by omega, fun _ => ?_⟩⟩⟩
  show Sat _ (storePlayer s (bail jailFine p)) _
  rw [hstore]
  trivial

/-- A jail card is accepted in JAIL_DECISION from a jailed player who holds
one. -/
theorem handleUseJailCard_returns (hs : Sound s) (hp : p ∈ s.players)
    (hphase : s.turn.phase = .jailDecision) (hjail : p.jailStatus ≠ none)
    (hcards : 0 < p.getOutOfJailCards) : Returns (handleUseJailCard s p.id) := by
  have hs' : Sound (returnJailCardToDeck s .chance chanceJailCard) :=
    hs.map_seats id (List.map_id _).symm rfl rfl (deckCard_returnJailCard hs.decks)
      (fun _ _ => rfl) (fun _ _ => rfl) hs.standing
  obtain ⟨ps, hstore, -⟩ := storePlayer_eq (v := spendJailCard p) (g := spendJailCard) hs' hp rfl
    rfl rfl
  simp only [handleUseJailCard, Returns, sat_bind, sat_illegalIf, hs.getPlayer hp, sat_ok, hphase]
  refine ⟨fun h => h rfl, fun _ => ⟨hjail, fun _ => ⟨fun h => by omega, fun _ => ?_⟩⟩⟩
  show Sat _ (storePlayer (returnJailCardToDeck s .chance chanceJailCard) (spendJailCard p)) _
  rw [hstore]
  trivial

/-- A purchase is accepted for the space awaiting a decision, while nobody
owns it and at a price the buyer has. -/
theorem handleBuyProperty_returns (hw : WellFormed s) (hp : p ∈ s.players)
    (hphase : s.turn.phase = .postRoll) (hpending : s.turn.pendingBuyPosition = some pos)
    (hfree : (ownershipAt s.spaces pos).ownerId = none)
    (hfunds : ∀ price, (squareAt s.gameMode pos).price = some price → (price : Int) ≤ p.balance) :
    Returns (handleBuyProperty s p.id pos) := by
  have hpos := hw.pending pos hpending
  obtain ⟨price, hprice, -⟩ := hpos.price_pos
  have howned : ∀ q ∈ (purchase pos price p).ownedPositions, OnBoard s.gameMode q := by
    intro q hq
    simp only [purchase, mem_pySorted, List.mem_append, List.mem_singleton] at hq
    rcases hq with hq | rfl
    · exact hw.owned hp q hq
    · exact hpos.onBoard
  have hval : updatePlayerNetWorth (purchase pos price p) (editSpace pos (grant p.id) s.spaces)
      s.gameMode = .ok _ :=
    updatePlayerNetWorth_eq (hw.layout.editSpace _ fun _ => rfl) howned
  have hassign : assignPlayer s.players p.id (revalue _ s.gameMode (purchase pos price p)) =
      .ok _ :=
    assignPlayer_eq hw.playerIds hp fun q =>
      revalue (editSpace pos (grant p.id) s.spaces) s.gameMode (purchase pos price q)
  have hgrant := replaceSpace_eq hw.layout hpos.onBoard (grant p.id)
  simp only [handleBuyProperty, Returns, sat_bind, sat_illegalIf, isPurchasable_eq hpos.onBoard,
    spaceAt_eq hw.layout hpos.onBoard, hw.getPlayer hp, getBoardSpace_eq hpos.onBoard, sat_ok,
    hprice, orRaise]
  refine ⟨fun h => h.1 hphase, fun _ => ⟨fun h => h hpending, fun _ => ⟨by simp [hpos], fun _ =>
    ⟨fun h => h hfree, fun _ => ⟨fun h => ?_, fun _ => ?_⟩⟩⟩⟩⟩
  · have := hfunds price hprice
    omega
  · show Sat _ (replaceSpace s.spaces pos (grant p.id (ownershipAt s.spaces pos))) _
    rw [hgrant, sat_ok]
    show Sat _ (updatePlayerNetWorth (purchase pos price p) _ s.gameMode) _
    rw [hval, sat_ok, hassign]
    trivial

/-- Passing is accepted for the space awaiting a decision: the auction it opens
raises nothing. -/
theorem handlePassBuy_returns (hw : WellFormed s) (hp : p ∈ s.players)
    (hphase : s.turn.phase = .postRoll) (hpending : s.turn.pendingBuyPosition = some pos)
    (nowMs : Int) : Returns (handlePassBuy s p.id nowMs) := by
  have hpos := (hw.pending pos hpending).onBoard
  simp only [handlePassBuy, Returns, sat_bind, sat_illegalIf, hw.getPlayer hp,
    getBoardSpace_eq hpos, sat_ok, hpending, orRaise]
  exact ⟨fun h => h.1 hphase, fun _ => trivial⟩

/-- The end of a turn is accepted when no decision and no debt is open. That
the player in turn is still in the game is what finds a next one. -/
theorem handleEndTurn_returns (hw : WellFormed s) (hp : p ∈ s.players)
    (hactive : Active s s.turn.currentPlayerId)
    (hphase : s.turn.phase = .postRoll ∨ s.turn.phase = .mustPayRent)
    (hpending : s.turn.pendingBuyPosition = none) (hdebt : s.bankruptcy = none) :
    Returns (handleEndTurn s p.id) := by
  obtain ⟨c, hc, hcid, hact⟩ := hactive
  obtain ⟨q, hq, rfl⟩ := exists_player hc
  have hin : q ∈ survivors s.players := mem_survivors.mpr ⟨hq, hact⟩
  have hnodup : ((survivors s.players).map (·.id)).Nodup :=
    hw.playerIds.sublist (List.filter_sublist.map _)
  obtain ⟨i, hi, -⟩ := nextPlayerIdx_eq hnodup hin
  have hpos : 0 < (survivors s.players).length := List.length_pos_of_mem hin
  have hmod : pyMod ((i : Int) + 1) (survivors s.players).length = _ := pyMod_natCast (i + 1) hpos
  simp only [handleEndTurn, Returns, sat_bind, sat_illegalIf, hpending, hdebt, ne_eq,
    not_true_eq_false, Option.isSome_none, Bool.false_eq_true, not_false_eq_true]
  refine ⟨fun h => hphase.elim h.1 h.2.1, fun _ => ⟨False.elim, fun _ => ⟨False.elim, fun _ => ?_⟩⟩⟩
  rw [← hcid, bare_id, hi, sat_ok, hmod, sat_ok, pyGet_natCast (Nat.mod_lt _ hpos), sat_ok,
    hw.getPlayer hp]
  trivial

/-- What `can_build_on` permits, `build_house` carries out. -/
theorem buildHouse_returns (hs : Sound s) (hp : p ∈ s.players) (hpos : OnBoard s.gameMode pos)
    (hcan : canBuildOn s p.id pos = .ok true) : Returns (buildHouse s p.id pos) := by
  simp only [buildHouse, Returns, hcan, sat_bind, sat_ok, sat_illegalIf, hs.getPlayer hp,
    spaceAt_eq hs.layout hpos, getBoardSpace_eq hpos, sat_ite]
  refine ⟨by simp, fun _ => ⟨fun _ => ?_, fun _ => ?_⟩⟩
  · obtain ⟨ps, hupd, -⟩ := updateHolding_eq hs.laid hp hpos
      (f := fun o => { o with houses := 0, hasHotel := true }) (fun _ => rfl)
      (-((squareAt s.gameMode pos).houseCost.getD 0 : Nat))
    rw [hupd]
    trivial
  · obtain ⟨ps, hupd, -⟩ := updateHolding_eq hs.laid hp hpos
      (f := fun o => { o with houses := o.houses + 1 }) (fun _ => rfl)
      (-((squareAt s.gameMode pos).houseCost.getD 0 : Nat))
    rw [hupd]
    trivial

/-- What `can_mortgage` permits, `mortgage_property` carries out. -/
theorem mortgageProperty_returns (hs : Sound s) (hp : p ∈ s.players)
    (hpos : OnBoard s.gameMode pos) (hcan : canMortgage s p.id pos = .ok true) :
    Returns (mortgageProperty s p.id pos) := by
  simp only [mortgageProperty, Returns, hcan, sat_bind, sat_ok, sat_illegalIf, hs.getPlayer hp,
    spaceAt_eq hs.layout hpos, getBoardSpace_eq hpos]
  refine ⟨by simp, fun _ => ?_⟩
  obtain ⟨ps, hupd, -⟩ := updateHolding_eq hs.laid hp hpos
    (f := fun o => { o with isMortgaged := true }) (fun _ => rfl)
    ((squareAt s.gameMode pos).mortgageValue.getD 0 : Nat)
  rw [hupd]
  trivial

/-- What `can_unmortgage` permits, `unmortgage_property` carries out. -/
theorem unmortgageProperty_returns (hs : Sound s) (hp : p ∈ s.players)
    (hpos : OnBoard s.gameMode pos) (hcan : canUnmortgage s p.id pos = .ok true) :
    Returns (unmortgageProperty s p.id pos) := by
  simp only [unmortgageProperty, Returns, hcan, sat_bind, sat_ok, sat_illegalIf, hs.getPlayer hp,
    spaceAt_eq hs.layout hpos, getBoardSpace_eq hpos]
  refine ⟨by simp, fun _ => ?_⟩
  obtain ⟨ps, hupd, -⟩ := updateHolding_eq hs.laid hp hpos
    (f := fun o => { o with isMortgaged := false }) (fun _ => rfl)
    (-(unmortgageCost ((squareAt s.gameMode pos).mortgageValue.getD 0) : Nat))
  rw [hupd]
  trivial

/-- An offer of no money and no cards; in the red, of what the player has. -/
def modestOffer (p : PlayerState) : TradeOffer where
  money := min 0 p.balance
  getOutOfJailCards := min 0 p.getOutOfJailCards

/-- An offer of nothing passes every check on offers. -/
theorem validateTradeOffer_modest (hs : Sound s) (hp : p ∈ s.players) :
    validateTradeOffer s p.id (modestOffer p) = .ok () := by
  have hmoney : ¬ (modestOffer p).money > p.balance := by simp only [modestOffer]; omega
  have hcards : ¬ (modestOffer p).getOutOfJailCards > p.getOutOfJailCards := by
    simp only [modestOffer]; omega
  simp only [validateTradeOffer, hs.getPlayer hp, ok_bind, illegalIf, raiseIf, if_neg hmoney,
    if_neg hcards]
  rfl

/-- A proposal that offers and asks nothing is accepted between two players
while the limit of the turn is not used up. -/
theorem proposeTrade_returns (hs : Sound s) (hp : p ∈ s.players) (ht : t ∈ s.players)
    (hne : p.id ≠ t.id) (htrade : s.trade = none)
    (hlimit : s.turn.tradeOffersMade < maxTradeOffersPerTurn) (now : Int) (tradeId : Nat) :
    Returns (proposeTrade s p.id t.id (modestOffer p) (modestOffer t) now tradeId) := by
  simp only [proposeTrade, Returns, sat_bind, sat_illegalIf, hs.getPlayer ht,
    validateTradeOffer_modest hs hp, validateTradeOffer_modest hs ht, sat_ok, htrade]
  exact ⟨hne, fun _ => ⟨by simp, fun _ => ⟨fun h => by omega, fun _ => trivial⟩⟩⟩

/-- One more than the highest bid is accepted from any bidder who has it. -/
theorem placeBid_returns (hs : Sound s) (hp : p ∈ s.players) {auction : AuctionState}
    (hauction : s.auction = some auction) (hphase : s.turn.phase = .auction)
    (hin : p.isBankrupt = false) (hfunds : auction.highestBid < p.balance) :
    Returns (placeBid s p.id (auction.highestBid + 1)) := by
  simp only [placeBid, hauction, Returns, sat_bind, sat_illegalIf, hs.getPlayer hp, sat_ok, hphase,
    hin]
  refine ⟨fun h => h rfl, fun _ => ⟨fun h => ?_, fun _ => ⟨fun h => by omega, fun _ => trivial⟩⟩⟩
  simp only [Bool.false_eq_true, false_or] at h
  omega

/-- The debtor of an open debt may always declare bankruptcy. -/
theorem handleDeclareBankruptcy_returns (hw : WellFormed s) {debt : BankruptcyState}
    (hdebt : s.bankruptcy = some debt) : Returns (handleDeclareBankruptcy s debt.debtorId) := by
  have hformed := hw.debts debt hdebt
  simp only [handleDeclareBankruptcy, hdebt, Returns, sat_bind, sat_illegalIf]
  refine ⟨fun h => h rfl, fun _ => ?_⟩
  exact (resolveBankruptcy_sat hw.toSound hdebt rfl hformed.debtor hformed.creditor).imp
    fun _ _ => trivial

/-- The player in turn may always surrender. -/
theorem handleSurrender_returns (hw : WellFormed s) (hp : p ∈ s.players)
    (hcurrent : s.turn.currentPlayerId = p.id) (hin : p.isBankrupt = false) :
    Returns (handleSurrender s p.id) := by
  simp only [handleSurrender, Returns, sat_bind, hw.getPlayer hp, sat_ok, sat_illegalIf, hin]
  refine ⟨by simp, fun _ => ?_⟩
  exact (resolveSurrender_sat hw.toSound hcurrent (seated_of_mem hp)).imp fun _ _ => trivial

end Handlers

/-! ## calls -/

section Calls

variable {s s' : GameState} {call : Call} {command : GameCommand} {env : Env}

/-- Where the handler raises nothing, the call is accepted. -/
theorem accepted_of_returns (hw : WellFormed s) (hl : Live s) (hmay : MayAct s command)
    (h : Returns (dispatch s command env)) : ∃ s', Accepted s ⟨command, env⟩ s' := by
  obtain ⟨⟨⟨m, events⟩, rng⟩, hm, -⟩ := h.exists_ok
  have hd := (dispatch_sat hw hl hmay).of_ok hm
  have hfinish : Sat (fun _ => False) (finishCommand s command env m events) _ :=
    finishCommand_sat (hd.wellFormed hw) (hd.live hw hl hmay) events
  obtain ⟨s', hs', -⟩ := hfinish.exists_ok
  have hturn : assertMayAct s command = .ok () := by
    unfold assertMayAct
    cases hplayer : command.player with
    | none => rfl
    | some pid =>
        cases hreply : command.isReply with
        | true => rfl
        | false =>
            have hcurrent := hmay pid hplayer hreply
            simp [assertCurrentPlayer, illegalIf, raiseIf, hcurrent]
  refine ⟨s', events, rng, ?_⟩
  simp only [apply, hturn, hm, hs', ok_bind]
  rfl

/-- What the handler of an accepted call requires. -/
theorem Accepted.dispatched (hw : WellFormed s) (hl : Live s) (ha : Accepted s call s') :
    MayAct s call.command ∧ ∃ m, Dispatched s call.env call.command m := by
  obtain ⟨hmay, hstepped⟩ := ha.stepped hw hl
  refine ⟨hmay, ?_⟩
  cases hstepped with
  | replied _ hd _ => exact ⟨_, hd⟩
  | played _ hd _ _ => exact ⟨_, hd⟩

end Calls

end Monopoly
