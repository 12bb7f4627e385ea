import Monopoly.Spec.Estates

/-!
# Monopoly.Spec.Deals

Auctions and trades where nothing but distinct ids is assumed of the table:
what is checked of an offer, and what a trade or an auction that goes through
does to the seats and to the records of the spaces.
-/

namespace Monopoly

/-! ## offers -/

/-- The player has what is offered, and nothing offered is built on. -/
structure Covers (spaces : List SpaceOwnership) (p : PlayerState) (offer : TradeOffer) : Prop where
  money : offer.money ≤ p.balance
  cards : offer.getOutOfJailCards ≤ p.getOutOfJailCards
  titles : ∀ q ∈ offer.positions, ∃ o, spaceAt spaces q = .ok o ∧ o.ownerId = some p.id ∧
    o.houses = 0 ∧ o.hasHotel = false

section Offers

variable {s : GameState} {p : PlayerState} {pid : PlayerId} {offer : TradeOffer}
  {positions : List Nat} {spaces : List SpaceOwnership}

theorem validatePositions_iff :
    validatePositions spaces pid positions = .ok () ↔ ∀ q ∈ positions, ∃ o,
      spaceAt spaces q = .ok o ∧ o.ownerId = some pid ∧ o.houses = 0 ∧ o.hasHotel = false := by
  induction positions with
  | nil => exact ⟨fun _ _ hq => absurd hq List.not_mem_nil, fun _ => rfl⟩
  | cons q rest ih =>
      rw [List.forall_mem_cons, ← ih, validatePositions]
      cases spaceAt spaces q with
      | error e => simp
      | ok o =>
          by_cases howner : o.ownerId = some pid
          · by_cases hunbuilt : o.houses = 0 ∧ o.hasHotel = false
            · simp [illegalIf, raiseIf, howner, hunbuilt]
            · have hbuilt : o.houses > 0 ∨ o.hasHotel = true := by
                rw [not_and_or, Bool.not_eq_false] at hunbuilt
                exact hunbuilt.imp_left Nat.pos_of_ne_zero
              simp [illegalIf, raiseIf, howner, hbuilt, hunbuilt]
          · simp [illegalIf, raiseIf, howner]

/-- The check of an offer passes exactly when the player has what is offered. -/
theorem validateTradeOffer_iff (hp : getPlayerByIdFromState s pid = .ok p) :
    validateTradeOffer s pid offer = .ok () ↔ Covers s.spaces p offer := by
  obtain ⟨-, rfl⟩ := getPlayer_found hp
  rw [validateTradeOffer, hp, ok_bind]
  by_cases hmoney : offer.money > p.balance
  · simp only [illegalIf, raiseIf, if_pos hmoney, error_bind, reduceCtorEq, false_iff]
    exact fun h => absurd h.money (Int.not_le.mpr hmoney)
  · by_cases hcards : offer.getOutOfJailCards > p.getOutOfJailCards
    · simp only [illegalIf, raiseIf, if_neg hmoney, if_pos hcards]
      exact iff_of_false (by intro h; cases h) fun h => absurd h.cards (Int.not_le.mpr hcards)
    · simp only [illegalIf, raiseIf, if_neg hmoney, if_neg hcards]
      show validatePositions s.spaces p.id offer.positions = .ok () ↔ _
      rw [validatePositions_iff]
      exact ⟨fun h => ⟨Int.not_lt.mp hmoney, Int.not_lt.mp hcards, h⟩, fun h => h.titles⟩

theorem validateTradeOffer_found (h : validateTradeOffer s pid offer = .ok ()) :
    ∃ p, getPlayerByIdFromState s pid = .ok p ∧ Covers s.spaces p offer := by
  cases hp : getPlayerByIdFromState s pid with
  | error e => simp [validateTradeOffer, hp] at h
  | ok p => exact ⟨p, rfl, (validateTradeOffer_iff hp).mp h⟩

end Offers

/-! ## trades -/

section Trades

variable {s : GameState} {p t : PlayerState} {trade : TradeState} {spaces : List SpaceOwnership}

/-- The loop of `_transfer_offer`. -/
theorem transferPositions_rewrites (receiver : PlayerId) (positions giver owned : List Nat)
    (spaces : List SpaceOwnership) :
    Ensures (transferPositions receiver positions giver owned spaces) fun r =>
      r.1 = giver.filter (· ∉ positions) ∧ r.2.1 = positions.reverse ++ owned ∧
        Rewritten (onListed positions (grant receiver)) spaces r.2.2 := by
  induction positions generalizing giver owned spaces with
  | nil => exact ⟨by simp, rfl, .nil spaces⟩
  | cons pos rest ih =>
      refine .after fun ownership hat => ?_
      refine (replaceSpace_rewrites (f := grant receiver) hat rfl).seq fun spaces₁ h₁ => ?_
      refine (ih _ _ spaces₁).imp fun r hr => ?_
      obtain ⟨hgiver, howned, h₂⟩ := hr
      refine ⟨hgiver.trans ?_, by simp [howned], .cons (fun _ => rfl) (fun _ => rfl) h₁ h₂⟩
      rw [List.filter_filter]
      exact List.filter_congr fun q _ => by simp [Bool.and_comm]

theorem transferOffer_moves (giver receiver : PlayerState) (spaces : List SpaceOwnership)
    (offer : TradeOffer) (receiverId : PlayerId) :
    Ensures (transferOffer giver receiver spaces offer receiverId) fun r =>
      r.1 = { giver with
        ownedPositions := pySortedSet (giver.ownedPositions.filter (· ∉ offer.positions)) } ∧
      r.2.1 = { receiver with
        ownedPositions := pySortedSet (offer.positions.reverse ++ receiver.ownedPositions) } ∧
      Rewritten (onListed offer.positions (grant receiverId)) spaces r.2.2 := by
  refine (transferPositions_rewrites _ _ _ _ _).seq fun r hr => ?_
  obtain ⟨hgiver, howned, hspaces⟩ := hr
  exact ⟨by rw [hgiver], by rw [howned], hspaces⟩

/-- A trade that goes through. -/
structure Swapped (s : GameState) (trade : TradeState) (m : GameState) : Prop where
  parties : ∃ p t, getPlayerByIdFromState s trade.proposerId = .ok p ∧
    getPlayerByIdFromState s trade.targetId = .ok t ∧
    Covers s.spaces p trade.proposerOffer ∧ Covers s.spaces t trade.targetRequest
  seats : m.seats = s.seats.map (swapSeat trade)
  spaces : Rewritten (swapSpace trade) s.spaces m.spaces
  frame : m = { s with
    players := m.players
    spaces := m.spaces
    trade := none
    turn := { s.turn with phase := .postRoll } }

theorem executeTrade_swaps (hids : (s.players.map (·.id)).Nodup)
    (hne : trade.proposerId ≠ trade.targetId) :
    Ensures (executeTrade s trade) (Swapped s trade) := by
  refine .after fun _ hoffer => .after fun _ hrequest => .after fun p hp => .after fun t ht => ?_
  have hcoversP := (validateTradeOffer_iff hp).mp hoffer
  have hcoversT := (validateTradeOffer_iff ht).mp hrequest
  obtain ⟨hpm, hpid⟩ := getPlayer_found hp
  obtain ⟨htm, htid⟩ := getPlayer_found ht
  obtain ⟨i, hi, hgi⟩ := nextPlayerIdx_eq hids hpm
  obtain ⟨j, hj, hgj⟩ := nextPlayerIdx_eq hids htm
  rw [hi, hj, ok_bind, ok_bind]
  -- the proposer's side, and then the target's
  refine (transferOffer_moves _ _ _ _ _).seq fun r₁ h₁ => ?_
  obtain ⟨hp₁, ht₁, hspaces₁⟩ := h₁
  refine (transferOffer_moves _ _ _ _ _).seq fun r₂ h₂ => ?_
  obtain ⟨ht₂, hp₂, hspaces₂⟩ := h₂
  refine (refreshAllNetWorth_bare _ _ _).seq fun ps hps => ?_
  refine ⟨⟨p, t, hp, ht, hcoversP, hcoversT⟩, hps.trans ?_, ?_, rfl⟩
  · refine seats_swapped hids hgi hgj hpid htid hne ?_ ?_
    · rw [hp₂, hp₁]
      exact (if_pos hpid).symm
    · rw [ht₂, ht₁]
      exact ((if_neg fun h => hne (h.symm.trans htid)).trans (if_pos htid)).symm
  · exact (hspaces₁.trans hspaces₂).congr fun q o _ => swapSpace_eq trade o

end Trades

/-! ## auctions -/

theorem placeBid_places {s : GameState} (pid : PlayerId) (amount : Int) :
    Ensures (placeBid s pid amount) (BidPlaced s pid amount) := by
  unfold placeBid
  cases ha : s.auction with
  | none => trivial
  | some auction =>
      refine .guard fun hphase => .after fun p hp => .guard fun hfunds => .guard fun hbid => ?_
      obtain ⟨hmem, hid⟩ := getPlayer_found hp
      have hfunds' := not_or.mp hfunds
      exact .mk ha (by simpa using hphase) (mem_seats hmem) hid (by simpa using hfunds'.1)
        (by simpa using hfunds'.2) (by simpa using hbid)

/-- What resolving the auction does to a table it finds its records on. -/
inductive Awarded (s : GameState) (auction : AuctionState) : GameState → Prop
  | unsold {players : List PlayerState} : auction.highestBidderId = none →
      seatsOf players = s.seats →
      Awarded s auction { s with
        players, auction := none, turn := { s.turn with phase := afterAuction s.turn } }
  | sold {bidder : PlayerId} {players : List PlayerState} {spaces : List SpaceOwnership} :
      auction.highestBidderId = some bidder → OnFile s.spaces [auction.propertyPosition] →
      seatsOf players =
        editSeat bidder (award auction.propertyPosition auction.highestBid) s.seats →
      Rewritten (onListed [auction.propertyPosition] (grant bidder)) s.spaces spaces →
      Awarded s auction { s with
        players, spaces, auction := none, turn := { s.turn with phase := afterAuction s.turn } }

theorem resolveAuction_awards {s : GameState} {auction : AuctionState}
    (hids : (s.players.map (·.id)).Nodup) (ha : s.auction = some auction) :
    Ensures (resolveAuction s) (Awarded s auction) := by
  rw [resolveAuction, ha]
  cases hb : auction.highestBidderId with
  | none =>
      refine Sat.seq (R := fun r => r = (s.players, s.spaces)) ?_ fun r hr => ?_
      · rw [awardProperty, hb]
        rfl
      · subst hr
        exact (refreshAllNetWorth_bare _ _ _).seq fun players hps => .unsold hb hps
  | some bidder =>
      refine Sat.seq (R := fun r => seatsOf r.1 = editSeat bidder
          (award auction.propertyPosition auction.highestBid) s.seats ∧
        OnFile s.spaces [auction.propertyPosition] ∧
        Rewritten (onListed [auction.propertyPosition] (grant bidder)) s.spaces r.2)
        ?_ fun r hr => ?_
      · rw [awardProperty, hb]
        refine .after fun p hp => .after fun ownership hat => ?_
        obtain ⟨hmem, rfl⟩ := getPlayer_found hp
        refine (replaceSpace_rewrites (f := grant p.id) hat rfl).seq fun spaces hspaces => ?_
        refine (updatePlayerNetWorth_bare _ _ _).seq fun winner hwinner => ?_
        refine (assignPlayer_view (g := award auction.propertyPosition auction.highestBid) bare_id
          hids (mem_seatsOf hmem) rfl hwinner).seq fun players hplayers => ⟨hplayers, ?_, hspaces⟩
        exact fun q hq => ⟨ownership, (List.mem_singleton.mp hq) ▸ hat⟩
      · obtain ⟨hplayers, hfile, hspaces⟩ := hr
        exact (refreshAllNetWorth_bare _ _ _).seq fun players hps =>
          .sold hb hfile (hps.trans hplayers) hspaces

end Monopoly
