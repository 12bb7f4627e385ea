import Monopoly.Rules.Auction
import Monopoly.Rules.Trade
import Monopoly.Spec.Resolve

/-!
# Monopoly.Spec.Exchange

Auctions and trades on a sound table: what an accepted bid, resolution,
proposal and response do.
-/

namespace Monopoly

/-- The space goes to `owner`. -/
def grant (owner : PlayerId) (o : SpaceOwnership) : SpaceOwnership :=
  { o with ownerId := some owner }

/-! ## auctions -/

section Auctions

variable {s : GameState} {pid : PlayerId} {amount : Int}

/-- What an accepted bid requires and does. -/
inductive BidPlaced (s : GameState) (pid : PlayerId) (amount : Int) : GameState → Prop
  | mk {auction : AuctionState} {p : PlayerState} :
      s.auction = some auction → s.turn.phase = .auction → p ∈ s.seats → p.id = pid →
      p.isBankrupt = false → amount ≤ p.balance → auction.highestBid < amount →
      BidPlaced s pid amount { s with auction := some { auction with
        bids := auction.bids ++ [{ playerId := pid, amount }]
        highestBid := amount
        highestBidderId := some pid } }

theorem placeBid_sat (hs : Sound s) :
    Sat (fun e => Seated s pid → e.IsIllegalMove) (placeBid s pid amount)
      (BidPlaced s pid amount) := by
  unfold placeBid
  cases ha : s.auction with
  | none => exact fun _ => trivial
  | some auction =>
      by_cases hpid : Seated s pid
      · obtain ⟨p, hp, rfl⟩ := hpid.player
        simp only [sat_bind, sat_illegalIf, hs.getPlayer hp, sat_ok, sat_pure]
        refine ⟨fun _ _ => trivial, fun hphase => ⟨fun _ _ => trivial, fun hfunds =>
          ⟨fun _ _ => trivial, fun hbid => ?_⟩⟩⟩
        have hfunds' := not_or.mp hfunds
        exact .mk ha (by simpa using hphase) (mem_seats hp) rfl (by simpa using hfunds'.1)
          (by simpa using hfunds'.2) (by simpa using hbid)
      · simp only [sat_bind, sat_illegalIf, getPlayer_off hpid, sat_error]
        exact ⟨fun _ _ => trivial, fun _ h => absurd h hpid⟩

/-- The winner of an auction, charged the bid. -/
def award (position : Nat) (bid : Int) (p : PlayerState) : PlayerState :=
  { p with
    balance := p.balance - bid
    ownedPositions := pySortedSet (p.ownedPositions ++ [position]) }

/-- The phase an auction leaves behind. -/
def afterAuction (turn : TurnState) : TurnPhase :=
  if turn.doublesStreak > 0 then .preRoll else .postRoll

/-- What resolving the pending auction does. -/
inductive Resolved (s : GameState) (auction : AuctionState) : GameState → Prop
  | unsold {ps : List PlayerState} : auction.highestBidderId = none → seatsOf ps = s.seats →
      Resolved s auction { s with
        players := ps, auction := none, turn := { s.turn with phase := afterAuction s.turn } }
  | sold {bidder : PlayerId} {ps : List PlayerState} : auction.highestBidderId = some bidder →
      seatsOf ps = editSeat bidder (award auction.propertyPosition auction.highestBid) s.seats →
      Resolved s auction { s with
        players := ps
        spaces := editSpace auction.propertyPosition (grant bidder) s.spaces
        auction := none
        turn := { s.turn with phase := afterAuction s.turn } }

theorem resolveAuction_sat {auction : AuctionState} (hs : Sound s)
    (ha : s.auction = some auction) (hpos : Purchasable s.gameMode auction.propertyPosition)
    (hbidder : ∀ b, auction.highestBidderId = some b → Seated s b) :
    Sat (fun _ => False) (resolveAuction s) (Resolved s auction) := by
  unfold resolveAuction
  simp only [ha]
  cases hb : auction.highestBidderId with
  | none =>
      obtain ⟨ps, href, hps⟩ := refreshAllNetWorth_seats s.players hs.layout rfl
        hs.deeds
      simp only [awardProperty, hb, sat_bind, sat_pure, href, sat_ok]
      exact .unsold hb hps
  | some bidder =>
      obtain ⟨p, hp, rfl⟩ := (hbidder bidder hb).player
      set won := award auction.propertyPosition auction.highestBid with hwon
      have hlayout : Layout s.gameMode
          (editSpace auction.propertyPosition (grant p.id) s.spaces) :=
        hs.layout.editSpace _ fun _ => rfl
      have howned : ∀ q ∈ (won p).ownedPositions, Purchasable s.gameMode q := by
        intro q hq
        simp only [hwon, award, mem_pySortedSet, List.mem_append, List.mem_singleton] at hq
        rcases hq with hq | rfl
        · exact hs.deeds p.bare (mem_seats hp) q hq
        · exact hpos
      have hval : updatePlayerNetWorth (won p)
          (editSpace auction.propertyPosition (grant p.id) s.spaces) s.gameMode = .ok _ :=
        updatePlayerNetWorth_eq hlayout fun q hq => (howned q hq).onBoard
      have hassign : assignPlayer s.players p.id (revalue _ s.gameMode (won p)) = .ok _ :=
        assignPlayer_eq hs.playerIds hp fun q =>
          revalue (editSpace auction.propertyPosition (grant p.id) s.spaces) s.gameMode (won q)
      have hseats : seatsOf (editSeat p.id (fun q =>
          revalue (editSpace auction.propertyPosition (grant p.id) s.spaces) s.gameMode (won q))
          s.players) = editSeat p.id won s.seats := seatsOf_editSeat fun _ => rfl
      obtain ⟨ps, href, hps⟩ := refreshAllNetWorth_seats _ hlayout hseats (by
        intro q hq pos hmem
        obtain ⟨x, hx, rfl⟩ := mem_editSeat.mp hq
        split at hmem
        · rename_i hxid
          obtain rfl : x = p.bare :=
            eq_of_key_eq PlayerState.id hs.ids hx (mem_seats hp) hxid
          exact howned pos hmem
        · exact hs.deeds x hx pos hmem)
      simp only [awardProperty, hb, hs.getPlayer hp, spaceAt_eq hs.layout hpos.onBoard, ok_bind]
      show Sat _ ((replaceSpace s.spaces auction.propertyPosition
        (grant p.id (ownershipAt s.spaces auction.propertyPosition)) >>= fun spaces =>
          updatePlayerNetWorth (won p) spaces s.gameMode >>= fun winner =>
          assignPlayer s.players p.id winner >>= fun players => pure (players, spaces)) >>= _) _
      simp only [replaceSpace_eq hs.layout hpos.onBoard (grant p.id), hval, hassign, ok_bind,
        sat_bind, sat_pure, href, sat_ok]
      exact .sold hb hps

end Auctions

/-! ## trades -/

/-- The offer is covered by what the player has. -/
structure Affordable (s : GameState) (pid : PlayerId) (offer : TradeOffer) : Prop where
  money : offer.money ≤ s.cash pid
  cards : offer.getOutOfJailCards ≤ s.jailCards pid
  titles : ∀ q ∈ offer.positions, OnBoard s.gameMode q ∧
    (ownershipAt s.spaces q).ownerId = some pid ∧ (ownershipAt s.spaces q).houses = 0 ∧
    (ownershipAt s.spaces q).hasHotel = false

/-- The trade moves the offered spaces, one list each way. -/
def swapSpace (trade : TradeState) (o : SpaceOwnership) : SpaceOwnership :=
  if o.position ∈ trade.targetRequest.positions then grant trade.proposerId o
  else if o.position ∈ trade.proposerOffer.positions then grant trade.targetId o
  else o

/-- The trade as it changes a seat. -/
def swapSeat (trade : TradeState) (p : PlayerState) : PlayerState :=
  let money := trade.targetRequest.money - trade.proposerOffer.money
  let cards := trade.targetRequest.getOutOfJailCards - trade.proposerOffer.getOutOfJailCards
  if p.id = trade.proposerId then { p with
    balance := p.balance + money
    getOutOfJailCards := p.getOutOfJailCards + cards
    ownedPositions := pySortedSet (trade.targetRequest.positions.reverse ++
      pySortedSet (p.ownedPositions.filter (· ∉ trade.proposerOffer.positions))) }
  else if p.id = trade.targetId then { p with
    balance := p.balance - money
    getOutOfJailCards := p.getOutOfJailCards - cards
    ownedPositions := pySortedSet
      ((pySortedSet (trade.proposerOffer.positions.reverse ++ p.ownedPositions)).filter
        (· ∉ trade.targetRequest.positions)) }
  else p

@[simp] theorem swapSeat_id (trade : TradeState) (p : PlayerState) :
    (swapSeat trade p).id = p.id := by
  unfold swapSeat
  split <;> (try split) <;> rfl

@[simp] theorem swapSeat_position (trade : TradeState) (p : PlayerState) :
    (swapSeat trade p).position = p.position := by
  unfold swapSeat
  split <;> (try split) <;> rfl

@[simp] theorem swapSeat_isBankrupt (trade : TradeState) (p : PlayerState) :
    (swapSeat trade p).isBankrupt = p.isBankrupt := by
  unfold swapSeat
  split <;> (try split) <;> rfl

@[simp] theorem swapSpace_position (trade : TradeState) (o : SpaceOwnership) :
    (swapSpace trade o).position = o.position := by
  unfold swapSpace
  split <;> (try split) <;> rfl

/-- What a seat lists after the trade. -/
theorem mem_swapSeat {trade : TradeState} {p : PlayerState} {q : Nat} :
    q ∈ (swapSeat trade p).ownedPositions ↔
      if p.id = trade.proposerId then
        q ∈ trade.targetRequest.positions ∨
          q ∈ p.ownedPositions ∧ q ∉ trade.proposerOffer.positions
      else if p.id = trade.targetId then
        (q ∈ trade.proposerOffer.positions ∨ q ∈ p.ownedPositions) ∧
          q ∉ trade.targetRequest.positions
      else q ∈ p.ownedPositions := by
  unfold swapSeat
  split
  · simp
  · split <;> simp

/-- Who owns a space after the trade. -/
theorem ownerId_swapSpace (trade : TradeState) (o : SpaceOwnership) :
    (swapSpace trade o).ownerId =
      if o.position ∈ trade.targetRequest.positions then some trade.proposerId
      else if o.position ∈ trade.proposerOffer.positions then some trade.targetId
      else o.ownerId := by
  unfold swapSpace
  split
  · rfl
  · split <;> rfl

/-- What executing a trade requires and does. -/
inductive Executed (s : GameState) (trade : TradeState) : GameState → Prop
  | mk {ps : List PlayerState} :
      Affordable s trade.proposerId trade.proposerOffer →
      Affordable s trade.targetId trade.targetRequest →
      seatsOf ps = s.seats.map (swapSeat trade) →
      Executed s trade { s with
        players := ps
        spaces := s.spaces.map (swapSpace trade)
        trade := none
        turn := { s.turn with phase := .postRoll } }

section Trades

variable {s : GameState} {pid : PlayerId}

theorem validatePositions_sat (hs : Sound s) (positions : List Nat) :
    Sat (fun e => (∀ q ∈ positions, OnBoard s.gameMode q) → e.IsIllegalMove)
      (validatePositions s.spaces pid positions) fun _ =>
      ∀ q ∈ positions, OnBoard s.gameMode q ∧ (ownershipAt s.spaces q).ownerId = some pid ∧
        (ownershipAt s.spaces q).houses = 0 ∧ (ownershipAt s.spaces q).hasHotel = false := by
  induction positions with
  | nil => simp [validatePositions]
  | cons q rest ih =>
      by_cases hq : OnBoard s.gameMode q
      · simp only [validatePositions, spaceAt_eq hs.layout hq, sat_bind, sat_ok, sat_illegalIf]
        refine ⟨fun _ _ => trivial, fun howner => ⟨fun _ _ => trivial, fun hunbuilt => ?_⟩⟩
        refine ih.mono (fun e he hall => he fun r hr => hall r (List.mem_cons_of_mem _ hr))
          fun _ hrest r hr => ?_
        have hu := not_or.mp hunbuilt
        rcases List.mem_cons.mp hr with rfl | hr
        · exact ⟨hq, by simpa using howner, by omega, by simpa using hu.2⟩
        · exact hrest r hr
      · simp only [validatePositions, spaceAt_off hs.layout hq, error_bind, sat_error]
        exact fun hall => absurd (hall q List.mem_cons_self) hq

theorem validateTradeOffer_sat (hs : Sound s) (hpid : Seated s pid) (offer : TradeOffer) :
    Sat (fun e => (∀ q ∈ offer.positions, OnBoard s.gameMode q) → e.IsIllegalMove)
      (validateTradeOffer s pid offer) fun _ => Affordable s pid offer := by
  obtain ⟨p, hp, rfl⟩ := hpid.player
  simp only [validateTradeOffer, hs.getPlayer hp, sat_bind, sat_ok, sat_illegalIf]
  refine ⟨fun _ _ => trivial, fun hmoney => ⟨fun _ _ => trivial, fun hcards => ?_⟩⟩
  refine (validatePositions_sat hs offer.positions).imp fun _ htitles => ⟨?_, ?_, htitles⟩
  · rw [hs.cash_eq hp]
    omega
  · rw [hs.jailCards_eq hp]
    omega

/-- The loop of `_transfer_offer`, in closed form. -/
theorem transferPositions_eq {mode : GameMode} {spaces : List SpaceOwnership}
    (h : Layout mode spaces) {positions : List Nat} (hpos : ∀ q ∈ positions, OnBoard mode q)
    (receiver : PlayerId) (giverOwned receiverOwned : List Nat) :
    transferPositions receiver positions giverOwned receiverOwned spaces =
      .ok (giverOwned.filter (· ∉ positions), positions.reverse ++ receiverOwned,
        spaces.map fun o => if o.position ∈ positions then grant receiver o else o) := by
  induction positions generalizing giverOwned receiverOwned spaces with
  | nil =>
      simp only [transferPositions, List.not_mem_nil, not_false_eq_true, decide_true,
        List.filter_true, List.reverse_nil, List.nil_append, if_false, List.map_id']
      rfl
  | cons q rest ih =>
      have hq := hpos q List.mem_cons_self
      have hreplace := replaceSpace_eq h hq (grant receiver)
      have hlayout : Layout mode (editSpace q (grant receiver) spaces) :=
        h.editSpace _ fun _ => rfl
      simp only [transferPositions, spaceAt_eq h hq, ok_bind]
      show (replaceSpace spaces q (grant receiver (ownershipAt spaces q)) >>= _) = _
      simp only [hreplace, ok_bind,
        ih hlayout fun r hr => hpos r (List.mem_cons_of_mem _ hr)]
      simp only [Except.ok.injEq, Prod.mk.injEq, editSpace, editAt, List.map_map]
      refine ⟨?_, by simp, List.map_congr_left fun o _ => ?_⟩
      · rw [List.filter_filter]
        exact List.filter_congr fun r _ => by simp [Bool.and_comm]
      · by_cases hoq : o.position = q
        · simp [hoq, grant]
        · simp [hoq]

theorem swapSpace_eq (trade : TradeState) (o : SpaceOwnership) :
    (if (if o.position ∈ trade.proposerOffer.positions then grant trade.targetId o
          else o).position ∈ trade.targetRequest.positions
      then grant trade.proposerId (if o.position ∈ trade.proposerOffer.positions
        then grant trade.targetId o else o)
      else (if o.position ∈ trade.proposerOffer.positions then grant trade.targetId o else o)) =
      swapSpace trade o := by
  have hpos : (if o.position ∈ trade.proposerOffer.positions then grant trade.targetId o
      else o).position = o.position := by split <;> rfl
  simp only [hpos, swapSpace]
  split
  · split <;> rfl
  · rfl

/-- Two assignments at the indices of two players edit their two seats. -/
theorem set_two_seats {players : List PlayerState} {p t P T : PlayerState} {i j : Nat}
    (h : (players.map (·.id)).Nodup) (hi : players[i]? = some p) (hj : players[j]? = some t)
    (hne : p.id ≠ t.id) (hP : P.id = p.id) :
    (players.set i P).set j T =
      editSeat t.id (fun _ => T) (editSeat p.id (fun _ => P) players) := by
  have hfirst : players.set i P = editSeat p.id (fun _ => P) players :=
    set_eq_editAt PlayerState.id h hi fun _ => P
  have hids : ((editSeat p.id (fun _ => P) players).map (·.id)).Nodup := by
    rw [show (editSeat p.id (fun _ => P) players).map (·.id) = players.map (·.id) from
      map_key_editAt fun _ _ => hP]
    exact h
  have hjt : (editSeat p.id (fun _ => P) players)[j]? = some t := by
    simp [editSeat, editAt, hj, hne.symm]
  rw [hfirst]
  exact set_eq_editAt PlayerState.id hids hjt fun _ => T

/-- The two parties assigned as the trade changes their seats. -/
theorem seats_swapped {trade : TradeState} {p t P T : PlayerState} {i j : Nat}
    (hids : (s.players.map (·.id)).Nodup) (hi : s.players[i]? = some p)
    (hj : s.players[j]? = some t) (hp : p.id = trade.proposerId) (ht : t.id = trade.targetId)
    (hne : trade.proposerId ≠ trade.targetId) (hP : P.bare = swapSeat trade p.bare)
    (hT : T.bare = swapSeat trade t.bare) :
    seatsOf ((s.players.set i P).set j T) = s.seats.map (swapSeat trade) := by
  have hne' : p.id ≠ t.id := by rw [hp, ht]; exact hne
  have hseatIds : (s.seats.map (·.id)).Nodup := nodup_seats hids
  have hPid : P.id = p.id := by
    rw [← bare_id P, hP, swapSeat_id, bare_id]
  rw [set_two_seats hids hi hj hne' hPid,
    seatsOf_editSeat (f := fun _ => T) (g := fun _ => T.bare) fun _ => rfl,
    seatsOf_editSeat (f := fun _ => P) (g := fun _ => P.bare) fun _ => rfl]
  simp only [editSeat, editAt, List.map_map]
  refine List.map_congr_left fun x hx => ?_
  simp only [Function.comp]
  by_cases hxp : x.id = p.id
  · obtain rfl : x = p.bare :=
      eq_of_key_eq PlayerState.id hseatIds hx (mem_seats (List.mem_of_getElem? hi)) hxp
    rw [← hP, if_pos hxp]
    exact if_neg (by rw [bare_id, hPid]; exact hne')
  · rw [if_neg hxp]
    by_cases hxt : x.id = t.id
    · obtain rfl : x = t.bare :=
        eq_of_key_eq PlayerState.id hseatIds hx (mem_seats (List.mem_of_getElem? hj)) hxt
      rw [← hT, if_pos hxt]
    · rw [if_neg hxt, swapSeat, if_neg (by rw [← hp]; exact hxp),
        if_neg (by rw [← ht]; exact hxt)]

/-- A trade of purchasable positions leaves every seat with purchasable
positions. -/
theorem swapSeat_purchasable {mode : GameMode} {seats : List PlayerState} {trade : TradeState}
    (hdeeds : ∀ p ∈ seats, ∀ q ∈ p.ownedPositions, Purchasable mode q)
    (hoffer : ∀ q ∈ trade.proposerOffer.positions, Purchasable mode q)
    (hrequest : ∀ q ∈ trade.targetRequest.positions, Purchasable mode q) :
    ∀ p ∈ seats.map (swapSeat trade), ∀ q ∈ p.ownedPositions, Purchasable mode q := by
  intro x hx q hq
  obtain ⟨p, hp, rfl⟩ := List.mem_map.mp hx
  unfold swapSeat at hq
  split at hq
  · simp only [mem_pySortedSet, List.mem_append, List.mem_reverse, List.mem_filter] at hq
    rcases hq with hq | hq
    · exact hrequest q hq
    · exact hdeeds p hp q hq.1
  · split at hq
    · simp only [mem_pySortedSet, List.mem_filter, List.mem_append, List.mem_reverse] at hq
      rcases hq.1 with hq | hq
      · exact hoffer q hq
      · exact hdeeds p hp q hq
    · exact hdeeds p hp q hq

theorem executeTrade_sat (hs : Sound s) {trade : TradeState}
    (hp : Seated s trade.proposerId) (ht : Seated s trade.targetId)
    (hne : trade.proposerId ≠ trade.targetId)
    (hoffer : ∀ q ∈ trade.proposerOffer.positions, OnBoard s.gameMode q)
    (hrequest : ∀ q ∈ trade.targetRequest.positions, OnBoard s.gameMode q) :
    Sat PyError.IsIllegalMove (executeTrade s trade) (Executed s trade) := by
  simp only [executeTrade, sat_bind]
  refine (validateTradeOffer_sat hs hp _).mono (fun e he => he hoffer) fun _ haffP => ?_
  refine (validateTradeOffer_sat hs ht _).mono (fun e he => he hrequest) fun _ haffT => ?_
  obtain ⟨p, hpm, hpid⟩ := hp.player
  obtain ⟨t, htm, htid⟩ := ht.player
  obtain ⟨i, hi, hgi⟩ := nextPlayerIdx_eq hs.playerIds hpm
  obtain ⟨j, hj, hgj⟩ := nextPlayerIdx_eq hs.playerIds htm
  have hgetP : getPlayerByIdFromState s trade.proposerId = .ok p := hpid ▸ hs.getPlayer hpm
  have hgetT : getPlayerByIdFromState s trade.targetId = .ok t := htid ▸ hs.getPlayer htm
  have hlayout : Layout s.gameMode (s.spaces.map fun o =>
      if o.position ∈ trade.proposerOffer.positions then grant trade.targetId o else o) :=
    hs.layout.map fun o => by split <;> rfl
  have hspaces : ((s.spaces.map fun o => if o.position ∈ trade.proposerOffer.positions
        then grant trade.targetId o else o).map fun o =>
      if o.position ∈ trade.targetRequest.positions then grant trade.proposerId o else o) =
      s.spaces.map (swapSpace trade) := by
    rw [List.map_map]
    exact List.map_congr_left fun o _ => swapSpace_eq trade o
  have hlayout' : Layout s.gameMode (s.spaces.map (swapSpace trade)) :=
    hs.layout.map fun o => by unfold swapSpace; split <;> (try split) <;> rfl
  simp only [hgetP, hgetT, hi, hj, sat_ok, transferOffer,
    transferPositions_eq hs.layout hoffer, transferPositions_eq hlayout hrequest, hspaces, sat_bind,
    sat_pure]
  set money := trade.targetRequest.money - trade.proposerOffer.money
  set cards := trade.targetRequest.getOutOfJailCards - trade.proposerOffer.getOutOfJailCards
  set P : PlayerState := { p with
    balance := p.balance + money
    getOutOfJailCards := p.getOutOfJailCards + cards
    ownedPositions := pySortedSet (trade.targetRequest.positions.reverse ++
      pySortedSet (p.ownedPositions.filter (· ∉ trade.proposerOffer.positions))) } with hP
  set T : PlayerState := { t with
    balance := t.balance - money
    getOutOfJailCards := t.getOutOfJailCards - cards
    ownedPositions := pySortedSet
      ((pySortedSet (trade.proposerOffer.positions.reverse ++ t.ownedPositions)).filter
        (· ∉ trade.targetRequest.positions)) } with hT
  have hne' : p.id ≠ t.id := by rw [hpid, htid]; exact hne
  have hPswap : swapSeat trade p.bare = P.bare := if_pos hpid
  have hTswap : swapSeat trade t.bare = T.bare :=
    (if_neg fun h => hne' (hpid.trans (h.symm.trans rfl))).trans (if_pos htid)
  have hseats := seats_swapped hs.playerIds hgi hgj hpid htid hne hPswap.symm hTswap.symm
  have hpurP : ∀ q ∈ trade.proposerOffer.positions, Purchasable s.gameMode q := fun q hq =>
    hs.title_purchasable (haffP.titles q hq).1 (haffP.titles q hq).2.1
  have hpurT : ∀ q ∈ trade.targetRequest.positions, Purchasable s.gameMode q := fun q hq =>
    hs.title_purchasable (haffT.titles q hq).1 (haffT.titles q hq).2.1
  obtain ⟨ps, href, hps⟩ := refreshAllNetWorth_seats _ hlayout' hseats
    (swapSeat_purchasable hs.deeds hpurP hpurT)
  show Sat _ (refreshAllNetWorth ((s.players.set i P).set j T) (s.spaces.map (swapSpace trade))
    s.gameMode) _
  rw [href]
  exact .mk haffP haffT hps

/-- What an accepted proposal requires and does. -/
inductive Proposed (s : GameState) (proposer target : PlayerId) (offer request : TradeOffer)
    (now : Int) (tradeId : Nat) : GameState → Prop
  | mk : proposer ≠ target → s.trade = none → s.turn.tradeOffersMade < maxTradeOffersPerTurn →
      Seated s target → Affordable s proposer offer → Affordable s target request →
      Proposed s proposer target offer request now tradeId { s with
        trade := some
          { id := tradeId, proposerId := proposer, targetId := target, proposerOffer := offer,
            targetRequest := request, status := .pending, expiresAt := tradeExpiry now }
        turn := { s.turn with
          phase := .tradeNegotiation, tradeOffersMade := s.turn.tradeOffersMade + 1 } }

theorem proposeTrade_sat (hs : Sound s) {target : PlayerId} {offer request : TradeOffer}
    {now : Int} {tradeId : Nat} (hp : Seated s pid) :
    Sat (fun e => Seated s target → (∀ q ∈ offer.positions, OnBoard s.gameMode q) →
        (∀ q ∈ request.positions, OnBoard s.gameMode q) → e.IsIllegalMove)
      (proposeTrade s pid target offer request now tradeId)
      (Proposed s pid target offer request now tradeId) := by
  simp only [proposeTrade, sat_bind, sat_illegalIf]
  refine ⟨fun _ _ _ _ => trivial, fun hne => ⟨fun _ _ _ _ => trivial, fun hnone =>
    ⟨fun _ _ _ _ => trivial, fun hlimit => ?_⟩⟩⟩
  by_cases ht : Seated s target
  · obtain ⟨t, htm, rfl⟩ := ht.player
    simp only [hs.getPlayer htm, sat_ok]
    refine (validateTradeOffer_sat hs hp offer).mono (fun e he _ ho _ => he ho) fun _ hoffer => ?_
    refine (validateTradeOffer_sat hs ht request).mono (fun e he _ _ hr => he hr)
      fun _ hrequest => ?_
    exact .mk hne (by simpa using hnone) (by omega) ht hoffer hrequest
  · simp only [getPlayer_off ht, sat_error]
    exact fun h => absurd h ht

/-- What an accepted response requires and does. -/
inductive Responded (s : GameState) (pid : PlayerId) (tradeId : Nat) (now : Int) :
    TradeResponse → Option TradeOffer → GameState → Prop
  | rejected {trade : TradeState} {counter : Option TradeOffer} :
      s.trade = some trade → trade.id = tradeId →
      Responded s pid tradeId now .reject counter (dropTrade s)
  | countered {trade : TradeState} {offer : TradeOffer} :
      s.trade = some trade → trade.id = tradeId → pid = trade.targetId →
      Affordable s trade.proposerId offer →
      Responded s pid tradeId now .counter (some offer) { s with trade := some { trade with
        targetRequest := offer, status := .countered, expiresAt := tradeExpiry now } }
  | accepted {trade : TradeState} {counter : Option TradeOffer} {s' : GameState} :
      s.trade = some trade → trade.id = tradeId →
      (pid = trade.proposerId ∨ pid = trade.targetId) → Executed s trade s' →
      Responded s pid tradeId now .accept counter s'

theorem respondTrade_sat (hs : Sound s) {tradeId : Nat} {response : TradeResponse}
    {counter : Option TradeOffer} {now : Int}
    (htrade : ∀ t, s.trade = some t → Seated s t.proposerId ∧ Seated s t.targetId ∧
      t.proposerId ≠ t.targetId ∧ (∀ q ∈ t.proposerOffer.positions, OnBoard s.gameMode q) ∧
      ∀ q ∈ t.targetRequest.positions, OnBoard s.gameMode q) :
    Sat (fun e => (∀ offer, counter = some offer → ∀ q ∈ offer.positions, OnBoard s.gameMode q) →
        e.IsIllegalMove)
      (respondTrade s pid tradeId response counter now)
      (Responded s pid tradeId now response counter) := by
  unfold respondTrade
  cases ht : s.trade with
  | none => exact fun _ => trivial
  | some trade =>
      obtain ⟨hp, htm, hne, hoffer, hrequest⟩ := htrade trade ht
      simp only [sat_bind, sat_illegalIf]
      refine ⟨fun _ _ => trivial, fun hid => ?_⟩
      have hid' : trade.id = tradeId := by simpa using hid
      cases response with
      | reject => exact .rejected ht hid'
      | counter =>
          cases hc : counter with
          | none => exact fun _ => trivial
          | some offer =>
              simp only [sat_bind, sat_illegalIf]
              refine ⟨fun _ _ => trivial, fun htarget => ?_⟩
              refine (validateTradeOffer_sat hs hp offer).mono
                (fun e he hall => he (hall offer rfl)) fun _ haff => ?_
              exact .countered ht hid' (by simpa using htarget) haff
      | accept =>
          simp only [sat_bind, sat_illegalIf]
          refine ⟨fun _ _ => trivial, fun hparty => ?_⟩
          refine (executeTrade_sat hs hp htm hne hoffer hrequest).mono (fun e he _ => he)
            fun s' hexec => ?_
          refine .accepted ht hid' ?_ hexec
          by_cases hpid : pid = trade.proposerId
          · exact .inl hpid
          · exact .inr (by simpa [hpid] using hparty)

end Trades

end Monopoly
