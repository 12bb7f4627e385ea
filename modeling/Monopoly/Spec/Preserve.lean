import Monopoly.Spec.Frames

/-!
# Monopoly.Spec.Preserve

Every handler keeps a well formed state well formed.
-/

namespace Monopoly

section Preservation

variable {s m : GameState}

theorem seated_iff : ∀ {s : GameState} {pid : PlayerId}, Seated s pid ↔ pid ∈ s.seats.map (·.id) :=
  List.mem_map.symm

/-- Who is seated depends on the ids alone. -/
theorem Seated.of_ids {pid : PlayerId} (h : Seated s pid)
    (hids : m.seats.map (·.id) = s.seats.map (·.id)) : Seated m pid := by
  rw [seated_iff] at h ⊢
  rwa [hids]

/-- A change of seats and spaces after which every listed space is
purchasable and every owner lists what they own. -/
theorem Sound.convey (h : Sound s) {f : PlayerState → PlayerState}
    {g : SpaceOwnership → SpaceOwnership} (hmode : m.gameMode = s.gameMode)
    (hseats : m.seats = s.seats.map f) (hspaces : m.spaces = s.spaces.map g)
    (hid : ∀ p, (f p).id = p.id) (hpos : ∀ p ∈ s.seats, OnBoard s.gameMode (f p).position)
    (hg : ∀ o, (g o).position = o.position)
    (hdeeds : ∀ p ∈ s.seats, ∀ q ∈ (f p).ownedPositions, Purchasable s.gameMode q)
    (htitles : ∀ o ∈ s.spaces, ∀ pid, (g o).ownerId = some pid →
      ∃ p ∈ s.seats, p.id = pid ∧ o.position ∈ (f p).ownedPositions)
    (hdecks : ∀ kind, ∀ id ∈ m.deck kind, DeckCard s.gameMode kind id) : Sound m where
  ids := by rw [hseats, ids_map fun p _ => hid p]; exact h.ids
  layout := by rw [hmode, hspaces]; exact h.layout.map hg
  standing := by rw [hseats, hmode]; simpa using hpos
  deeds := by rw [hseats, hmode]; simpa using hdeeds
  titles := by
    rw [hseats, hspaces]
    intro o ho pid hpid
    obtain ⟨x, hx, rfl⟩ := List.mem_map.mp ho
    obtain ⟨p, hp, rfl, hmem⟩ := htitles x hx pid hpid
    exact ⟨f p, List.mem_map_of_mem hp, hid p, by rw [hg]; exact hmem⟩
  decks := by rw [hmode]; exact hdecks

/-- The pending records name the same players and spaces on any table with
the same players. -/
theorem WellFormed.of_records (hm : Sound m) (hmode : m.gameMode = s.gameMode)
    (hids : m.seats.map (·.id) = s.seats.map (·.id))
    (hcurrent : Seated s m.turn.currentPlayerId)
    (hpending : ∀ q, m.turn.pendingBuyPosition = some q → Purchasable s.gameMode q)
    (hauction : ∀ a, m.auction = some a → AuctionFormed s a)
    (htrade : ∀ t, m.trade = some t → TradeFormed s t)
    (hdebt : ∀ d, m.bankruptcy = some d → DebtFormed s d) : WellFormed m where
  toSound := hm
  current := hcurrent.of_ids hids
  pending := by rw [hmode]; exact hpending
  auctions a ha :=
    let h := hauction a ha
    ⟨hmode ▸ h.property, fun b hb => (h.bidder b hb).of_ids hids⟩
  trades t ht :=
    let h := htrade t ht
    ⟨h.proposer.of_ids hids, h.target.of_ids hids, h.distinct, hmode ▸ h.offer, hmode ▸ h.request⟩
  debts d hd :=
    let h := hdebt d hd
    ⟨h.debtor.of_ids hids, fun c hc => ⟨(h.creditor c hc).1.of_ids hids, (h.creditor c hc).2⟩,
      h.owed⟩

/-- Titles and holdings as they were. -/
theorem Sound.keepEstate (h : Sound s) {f : PlayerState → PlayerState} (hf : KeepsEstate f)
    {g : SpaceOwnership → SpaceOwnership} (hmode : m.gameMode = s.gameMode)
    (hseats : m.seats = s.seats.map f) (hspaces : m.spaces = s.spaces.map g)
    (hpos : ∀ p ∈ s.seats, OnBoard s.gameMode (f p).position)
    (hg : ∀ o, (g o).position = o.position) (howner : ∀ o, (g o).ownerId = o.ownerId)
    (hdecks : ∀ kind, ∀ id ∈ m.deck kind, DeckCard s.gameMode kind id) : Sound m :=
  h.convey hmode hseats hspaces hf.id hpos hg
    (fun p hp q hq => h.deeds p hp q (hf.owned p ▸ hq))
    (fun o ho pid hpid => by
      obtain ⟨p, hp, hid, hmem⟩ := h.titles o ho pid (howner o ▸ hpid)
      exact ⟨p, hp, hid, (hf.owned p).symm ▸ hmem⟩) hdecks

/-- A roll leaves the table sound. -/
theorem RollFrame.sound {r : PlayerId} (h : Sound s) (hr : RollFrame r s m) : Sound m := by
  obtain ⟨f, hseats, hf, hpos, -⟩ := hr.seats
  exact h.keepEstate (g := id) hf (by rw [hr.frame]) hseats (by rw [List.map_id, hr.frame])
    (fun p hp => hpos p (h.standing p hp)) (fun _ => rfl) (fun _ => rfl) (hr.decks h.decks)

/-- Building and mortgages leave the table sound. -/
theorem Reworked.sound {pid : PlayerId} {pos : Nat} (h : Sound s) (hr : Reworked s pid pos m) :
    Sound m := by
  cases hr with
  | @mk ps f delta _ _ _ hps hpos howner _ =>
      refine h.keepEstate (f := fun p => if p.id = pid then credit delta p else p)
        ((KeepsEstate.credit delta).edit pid) rfl
        hps rfl (fun p hp => ?_)
        (fun o => ?_) (fun o => ?_) h.decks
      · split <;> exact h.standing p hp
      · split <;> simp [hpos]
      · split <;> simp [howner]

/-- The space `position` goes to the player `r`, who adds it to the list. -/
theorem Sound.grant (h : Sound s) {r : PlayerId} {position : Nat} {f : PlayerState → PlayerState}
    (hr : Seated s r) (hmode : m.gameMode = s.gameMode) (hseats : m.seats = editSeat r f s.seats)
    (hspaces : m.spaces = editSpace position (grant r) s.spaces) (hid : ∀ p, (f p).id = p.id)
    (hstand : ∀ p, (f p).position = p.position)
    (howned : ∀ p q, q ∈ (f p).ownedPositions ↔ q ∈ p.ownedPositions ∨ q = position)
    (hpos : Purchasable s.gameMode position) (hdeck : m.deck = s.deck) : Sound m := by
  refine h.convey hmode hseats hspaces (fun p => ?_) (fun p hp => ?_) (fun o => ?_)
    (fun p hp q hq => ?_) (fun o ho pid hpid => ?_) (by rw [hdeck]; exact h.decks)
  · split <;> simp [hid]
  · split
    · rw [hstand]; exact h.standing p hp
    · exact h.standing p hp
  · split <;> rfl
  · split at hq
    · rcases (howned p q).mp hq with hq | rfl
      · exact h.deeds p hp q hq
      · exact hpos
    · exact h.deeds p hp q hq
  · by_cases hop : o.position = position
    · rw [if_pos hop] at hpid
      obtain rfl : r = pid := Option.some.inj hpid
      obtain ⟨p, hp, hpr⟩ := hr
      exact ⟨p, hp, hpr, by rw [if_pos hpr]; exact (howned p _).mpr (.inr hop)⟩
    · rw [if_neg hop] at hpid
      obtain ⟨p, hp, rfl, hmem⟩ := h.titles o ho pid hpid
      refine ⟨p, hp, rfl, ?_⟩
      split
      · exact (howned p _).mpr (.inl hmem)
      · exact hmem

/-- So does an auction. -/
theorem Resolved.sound {auction : AuctionState} (h : Sound s) (ha : AuctionFormed s auction)
    (hr : Resolved s auction m) : Sound m := by
  cases hr with
  | unsold _ hps =>
      exact h.map_seats id (by rw [List.map_id]; exact hps) rfl rfl h.decks (fun _ _ => rfl)
        (fun _ _ => rfl) h.standing
  | @sold bidder ps hb hps =>
      exact h.grant (f := award auction.propertyPosition auction.highestBid) (ha.bidder bidder hb)
        rfl hps rfl (fun _ => rfl) (fun _ => rfl) (fun p q => by simp [award]) ha.property rfl

/-- So does a trade carried out. -/
theorem Executed.sound {trade : TradeState} (h : Sound s) (ht : TradeFormed s trade)
    (he : Executed s trade m) : Sound m := by
  cases he with
  | mk hoffer hrequest hps =>
      have hbuy {pid : PlayerId} {offer : TradeOffer} (ha : Affordable s pid offer) :
          ∀ q ∈ offer.positions, Purchasable s.gameMode q := fun q hq =>
        h.title_purchasable (ha.titles q hq).1 (ha.titles q hq).2.1
      have hdeeds := swapSeat_purchasable h.deeds (hbuy hoffer) (hbuy hrequest)
      refine h.convey (f := swapSeat trade) (g := swapSpace trade) rfl hps rfl (fun p => by simp)
        (fun p hp => by simpa using h.standing p hp) (fun o => by simp)
        (fun p hp => hdeeds _ (List.mem_map_of_mem hp)) (fun o ho pid hpid => ?_) h.decks
      rw [ownerId_swapSpace] at hpid
      by_cases hreq : o.position ∈ trade.targetRequest.positions
      · rw [if_pos hreq] at hpid
        obtain ⟨p, hp, hid⟩ := ht.proposer
        exact ⟨p, hp, hid.trans (Option.some.inj hpid), mem_swapSeat.mpr (by simp [hid, hreq])⟩
      · rw [if_neg hreq] at hpid
        by_cases hoff : o.position ∈ trade.proposerOffer.positions
        · rw [if_pos hoff] at hpid
          obtain ⟨p, hp, hid⟩ := ht.target
          exact ⟨p, hp, hid.trans (Option.some.inj hpid),
            mem_swapSeat.mpr (by simp [hid, hreq, hoff, ht.distinct.symm])⟩
        · rw [if_neg hoff] at hpid
          obtain ⟨p, hp, hid, hmem⟩ := h.titles o ho pid hpid
          exact ⟨p, hp, hid, mem_swapSeat.mpr (by simp [hreq, hoff, hmem])⟩

/-- The player has nothing. -/
structure Stripped (p : PlayerState) : Prop where
  balance : p.balance = 0
  owned : p.ownedPositions = []
  cards : p.getOutOfJailCards = 0
  jail : p.jailStatus = none

/-- The player `d` is eliminated: `f` edits the seats and `g` the spaces that
`d` lists, which go to `heir` or to the bank.  The turn, the auction and the
trade stay. -/
structure Removal (d : PlayerState) (heir : Option PlayerId) (f : PlayerState → PlayerState)
    (g : SpaceOwnership → SpaceOwnership) (s e : GameState) : Prop where
  frame : e = { s with
    players := e.players
    spaces := e.spaces
    bankruptcy := e.bankruptcy
    bankHouses := e.bankHouses
    bankHotels := e.bankHotels
    chanceDeck := e.chanceDeck
    chestDeck := e.chestDeck }
  seats : e.seats = s.seats.map f
  spaces : e.spaces = s.spaces.map (onListed d.ownedPositions g)
  id : ∀ p, (f p).id = p.id
  bankrupt : ∀ p, (f p).isBankrupt = (p.isBankrupt || decide (p.id = d.id))
  standing : ∀ p, OnBoard s.gameMode p.position → OnBoard s.gameMode (f p).position
  position : ∀ o, (g o).position = o.position
  owner : ∀ o, (g o).ownerId = heir
  owned : ∀ p q, q ∈ (f p).ownedPositions ↔
    p.id ≠ d.id ∧ (q ∈ p.ownedPositions ∨ heir = some p.id ∧ q ∈ d.ownedPositions)
  nodup : ∀ p, p.ownedPositions.Nodup → (f p).ownedPositions.Nodup
  stripped : ∀ p, p.id = d.id → Stripped (f p)
  bystander : ∀ p, p.isBankrupt = true → p.id ≠ d.id →
    heir ≠ some p.id ∨ Stripped d ∧ p.ownedPositions = [] → f p = p
  debt : e.bankruptcy = none ∨ e.bankruptcy = s.bankruptcy
  decks : (∀ kind, ∀ id ∈ s.deck kind, DeckCard s.gameMode kind id) →
    ∀ kind, ∀ id ∈ e.deck kind, DeckCard s.gameMode kind id

/-- A jail card goes back to a deck of its own kind. -/
theorem deckCard_returnCards {mode : GameMode} {deck : List CardId} {kind : CardKind} (cards : Int)
    (h : ∀ id ∈ deck, DeckCard mode kind id) :
    ∀ id ∈ returnCards cards deck (jailCard kind), DeckCard mode kind id := by
  intro id hid
  rcases List.mem_append.mp hid with hid | hid
  · exact h id hid
  · rw [List.eq_of_mem_replicate hid]
    exact List.mem_cons_self

/-- The jail cards of an eliminated player go back to the decks. -/
theorem deckCard_returned {e : GameState} (cards : Int)
    (hchance : e.chanceDeck = returnCards cards s.chanceDeck chanceJailCard)
    (hchest : e.chestDeck = returnCards cards s.chestDeck chestJailCard)
    (h : ∀ kind, ∀ id ∈ s.deck kind, DeckCard s.gameMode kind id) :
    ∀ kind, ∀ id ∈ e.deck kind, DeckCard s.gameMode kind id := by
  intro kind
  cases kind with
  | chance =>
      rw [show e.deck .chance = _ from hchance]
      exact deckCard_returnCards _ (h .chance)
  | communityChest =>
      rw [show e.deck .communityChest = _ from hchest]
      exact deckCard_returnCards _ (h .communityChest)

/-- A player who has nothing leaves nothing to inherit. -/
theorem Stripped.inherit {d p : PlayerState} (hd : Stripped d) (howned : p.ownedPositions = [])
    {owed : Int} (howed : 0 < owed) (mode : GameMode) (spaces : List SpaceOwnership) :
    inherit d (min d.balance owed) (interestOn mode spaces d.ownedPositions) p = p := by
  have hmin : min d.balance owed = 0 := by rw [hd.balance]; omega
  have hinterest : interestOn mode spaces d.ownedPositions = 0 := by
    rw [hd.owned]; simp [interestOn]
  have hlist : pySortedSet (p.ownedPositions ++ d.ownedPositions) = p.ownedPositions := by
    rw [hd.owned, howned]; rfl
  simp only [Monopoly.inherit, hmin, hinterest, hlist, hd.cards, Int.add_zero, Int.sub_zero]

/-- A bankruptcy is the removal of the debtor, with what the creditor gets. -/
theorem Liquidated.removal {debt : BankruptcyState} {d : PlayerState} (hl : Liquidated s debt d m)
    (howed : 0 < debt.amountOwed) (hne : debt.creditorId ≠ some d.id) :
    ∃ f g, Removal d debt.creditorId f g s m := by
  cases hl with
  | @toCreditor creditor ps hc hps =>
      rw [hc] at hne ⊢
      have hcd : creditor ≠ d.id := fun h => hne (congrArg some h)
      refine ⟨_, grant creditor, ⟨rfl, hps, rfl, fun p => ?_, fun p => ?_, fun p hp => ?_,
        fun _ => rfl, fun _ => rfl, fun p q => ?_, fun p hp => ?_, fun p hp => ?_,
        fun p _ hpd hpc => ?_, .inl rfl, fun h => h⟩⟩
      · split <;> (try split) <;> rfl
      · by_cases hpd : p.id = d.id
        · simp [hpd, ruined, eliminate]
        · rw [if_neg hpd]
          split <;> simp [hpd, inherit]
      · split
        · exact onBoard_startPosition _
        · split <;> exact hp
      · by_cases hpd : p.id = d.id
        · simp [hpd, ruined, eliminate]
        · by_cases hpc : p.id = creditor
          · simp [hpc, hcd, inherit]
          · simp [hpd, hpc, Ne.symm hpc]
      · split
        · simp [ruined, eliminate]
        · split
          · exact nodup_pySortedSet _
          · exact hp
      · rw [if_pos hp]
        exact ⟨rfl, rfl, rfl, rfl⟩
      · rw [if_neg hpd]
        split
        · rename_i hid
          rcases hpc with hpc | ⟨hd, howned⟩
          · exact absurd (congrArg some hid.symm) hpc
          · exact hd.inherit howned howed _ _
        · rfl
  | @toBank ps hc hps =>
      rw [hc]
      refine ⟨_, release, ⟨rfl, hps, rfl, fun p => ?_, fun p => ?_, fun p hp => ?_,
        fun _ => rfl, fun _ => rfl, fun p q => ?_, fun p hp => ?_, fun p hp => ?_,
        fun p _ hpd _ => if_neg hpd, .inl rfl, deckCard_returned _ rfl rfl⟩⟩
      · split <;> rfl
      · by_cases hpd : p.id = d.id <;> simp [hpd, ruined, eliminate]
      · split
        · exact onBoard_startPosition _
        · exact hp
      · by_cases hpd : p.id = d.id <;> simp [hpd, ruined, eliminate]
      · split
        · simp [ruined, eliminate]
        · exact hp
      · rw [if_pos hp]
        exact ⟨rfl, rfl, rfl, rfl⟩

/-- A surrender is the removal of a player with no creditor. -/
theorem Surrendered.removal {p : PlayerState} (hsurr : Surrendered s p m) :
    ∃ f g, Removal p none f g s m := by
  cases hsurr with
  | mk hps =>
      refine ⟨_, release, ⟨rfl, hps, rfl, fun q => ?_, fun q => ?_, fun q hq => ?_,
        fun _ => rfl, fun _ => rfl, fun q pos => ?_, fun q hq => ?_, fun q hq => ?_,
        fun q hb hqp _ => ?_, .inr rfl, deckCard_returned _ rfl rfl⟩⟩
      · split <;> rfl
      · by_cases hqp : q.id = p.id <;> simp [hqp, eliminate, credit]
      · split <;> exact hq
      · by_cases hqp : q.id = p.id <;> simp [hqp, eliminate, credit]
      · split
        · simp [eliminate]
        · exact hq
      · rw [if_pos hq]
        exact ⟨rfl, rfl, rfl, rfl⟩
      · rw [if_neg hqp, shareOf, if_neg (by simp [isRecipient, hb])]
        simp [credit]

/-- The titles of the eliminated player pass to the heir's list. -/
theorem Removal.sound {d : PlayerState} {heir : Option PlayerId} {f : PlayerState → PlayerState}
    {g : SpaceOwnership → SpaceOwnership} (h : Sound s) (hd : d ∈ s.seats)
    (hheir : ∀ c, heir = some c → Seated s c ∧ c ≠ d.id) (hr : Removal d heir f g s m) :
    Sound m := by
  refine h.convey (by rw [hr.frame]) hr.seats hr.spaces hr.id
    (fun p hp => hr.standing p (h.standing p hp)) (fun o => ?_) (fun p hp q hq => ?_)
    (fun o ho pid hpid => ?_) (hr.decks h.decks)
  · unfold onListed; split <;> simp [hr.position]
  · rcases ((hr.owned p q).mp hq).2 with hq | ⟨-, hq⟩
    · exact h.deeds p hp q hq
    · exact h.deeds d hd q hq
  · unfold onListed at hpid
    by_cases hmem : o.position ∈ d.ownedPositions
    · rw [if_pos hmem, hr.owner o] at hpid
      obtain ⟨⟨p, hp, rfl⟩, hne⟩ := hheir pid hpid
      exact ⟨p, hp, rfl, (hr.owned p _).mpr ⟨hne, .inr ⟨hpid, hmem⟩⟩⟩
    · rw [if_neg hmem] at hpid
      obtain ⟨p, hp, hid, hlist⟩ := h.titles o ho pid hpid
      refine ⟨p, hp, hid, (hr.owned p _).mpr ⟨fun hpd => hmem ?_, .inl hlist⟩⟩
      rwa [← eq_of_key_eq PlayerState.id h.ids hp hd hpd]

/-- A table with the same seats, spaces and decks. -/
theorem Sound.congr (h : Sound s) (hmode : m.gameMode = s.gameMode) (hseats : m.seats = s.seats)
    (hspaces : m.spaces = s.spaces) (hdeck : m.deck = s.deck) : Sound m :=
  h.map_seats id (by rw [hseats, List.map_id]) hmode hspaces (by rw [hdeck]; exact h.decks)
    (fun _ _ => rfl) (fun _ _ => rfl) h.standing

/-- A turn may be replaced by one whose player is seated and whose open
decision can be bought. -/
theorem WellFormed.withTurn (h : WellFormed s) {turn : TurnState}
    (hcurrent : Seated s turn.currentPlayerId)
    (hpending : ∀ q, turn.pendingBuyPosition = some q → Purchasable s.gameMode q) :
    WellFormed { s with turn } :=
  .of_records (s := s) (h.toSound.congr rfl rfl rfl rfl) rfl rfl hcurrent hpending h.auctions
    h.trades h.debts

/-- Net worth and display fields of the players do not matter. -/
theorem WellFormed.withPlayers (h : WellFormed s) {ps : List PlayerState}
    (hps : seatsOf ps = s.seats) : WellFormed { s with players := ps } :=
  .of_records (s := s) (h.toSound.congr rfl hps rfl rfl) rfl (congrArg (List.map (·.id)) hps)
    h.current h.pending h.auctions h.trades h.debts

theorem WinChecked.wellFormed (h : WellFormed s) (hc : WinChecked s m) : WellFormed m := by
  cases hc with
  | won _ _ =>
      exact .of_records (s := s) (h.toSound.congr rfl rfl rfl rfl) rfl rfl h.current h.pending
        h.auctions h.trades h.debts
  | unchanged _ => exact h

theorem TurnMoved.wellFormed (h : WellFormed s) (ht : TurnMoved s m) : WellFormed m := by
  cases ht with
  | @passed next round hnext _ => exact h.withTurn ⟨next, hnext, rfl⟩ (by simp [passTurn])
  | nobody _ => exact h

theorem AfterElimination.wellFormed (h : WellFormed s) (ha : AfterElimination s m) :
    WellFormed m := by
  cases ha with
  | ended hc _ => exact hc.wellFormed h
  | passed _ _ ht => exact ht.wellFormed h

/-- An elimination leaves every record alone, or clears the debt. -/
theorem Removal.wellFormed {d : PlayerState} {heir : Option PlayerId}
    {f : PlayerState → PlayerState} {g : SpaceOwnership → SpaceOwnership} (h : WellFormed s)
    (hd : d ∈ s.seats) (hheir : ∀ c, heir = some c → Seated s c ∧ c ≠ d.id)
    (hr : Removal d heir f g s m) : WellFormed m := by
  refine .of_records (s := s) (hr.sound h.toSound hd hheir) (by rw [hr.frame]) ?_
    (by rw [hr.frame]; exact h.current) (by rw [hr.frame]; exact h.pending)
    (by rw [hr.frame]; exact h.auctions) (by rw [hr.frame]; exact h.trades) ?_
  · rw [hr.seats, ids_map fun p _ => hr.id p]
  · rcases hr.debt with hdebt | hdebt
    · simp [hdebt]
    · rw [hdebt]; exact h.debts

theorem Liquidated.wellFormed {debt : BankruptcyState} {d : PlayerState} (h : WellFormed s)
    (hdebt : s.bankruptcy = some debt) (hdebtor : debt.debtorId = d.id) (hd : d ∈ s.seats)
    (hl : Liquidated s debt d m) : WellFormed m := by
  have hcreditor := (h.debts debt hdebt).creditor
  rw [hdebtor] at hcreditor
  obtain ⟨f, g, hr⟩ := hl.removal (h.debts _ hdebt).owed fun hc => (hcreditor _ hc).2 rfl
  exact hr.wellFormed h hd hcreditor

theorem Surrendered.wellFormed {p : PlayerState} (h : WellFormed s) (hp : p ∈ s.seats)
    (hsurr : Surrendered s p m) : WellFormed m := by
  obtain ⟨f, g, hr⟩ := hsurr.removal
  exact hr.wellFormed h hp (by simp)

theorem RollFrame.wellFormed {r : PlayerId} (h : WellFormed s) (hr : RollFrame r s m)
    (hseat : Seated s r) : WellFormed m := by
  obtain ⟨f, hseats, hf, -⟩ := hr.seats
  refine .of_records (s := s) (hr.sound h.toSound) (by rw [hr.frame]) ?_ ?_ (fun q hq => ?_) ?_ ?_
    (fun d hd => ?_)
  · rw [hseats, ids_map fun p _ => hf.id p]
  · rw [hr.frame]; exact h.current
  · rcases hr.pending q hq with hq | ⟨hq, -⟩
    · exact h.pending q hq
    · exact hq
  · rw [hr.frame]; exact h.auctions
  · rw [hr.frame]; exact h.trades
  · rcases hr.debt with hb | ⟨-, debt, hb, hdebtor, hpos, -, hc⟩
    · exact h.debts d (hb ▸ hd)
    · obtain rfl : debt = d := Option.some.inj (hb.symm.trans hd)
      refine ⟨hdebtor ▸ hseat, fun c hc' => ?_, hpos⟩
      obtain ⟨hne, pos, howner⟩ := hc c hc'
      have hpos : OnBoard s.gameMode pos := by
        by_contra hoff
        rw [ownershipAt_off h.layout hoff] at howner
        simp at howner
      obtain ⟨p, hp, hid, -⟩ := h.title hpos howner
      exact ⟨⟨p, hp, hid⟩, hdebtor ▸ hne⟩

/-- The step lemma: whatever a command is recorded to have done keeps a state
well formed. -/
theorem Dispatched.wellFormed {env : Env} {command : GameCommand} (h : WellFormed s)
    (hd : Dispatched s env command m) : WellFormed m := by
  have hids {ps : List PlayerState} {r : PlayerId} {f : PlayerState → PlayerState}
      (hps : seatsOf ps = editSeat r f s.seats) (hf : ∀ p, (f p).id = p.id) :
      (seatsOf ps).map (·.id) = s.seats.map (·.id) := by rw [hps, ids_editSeat hf]
  cases hd with
  | rolled _ hp _ hr => exact (hr.rollFrame h.toSound).wellFormed h ⟨_, hp, rfl⟩
  | @bought p position price ps _ hpend _ _ hp _ hps =>
      have hs := h.toSound.grant (m := { s with
          players := ps, spaces := editSpace position (grant p.id) s.spaces })
        (f := purchase position price) ⟨p, hp, rfl⟩ rfl hps rfl (fun _ => rfl)
        (fun _ => rfl) (fun p q => by simp [purchase]) (h.pending position hpend) rfl
      exact .of_records (s := s) (hs.congr rfl rfl rfl rfl) rfl (hids hps fun _ => rfl)
        h.current (by simp) h.auctions h.trades h.debts
  | @passed pid position _ hpend =>
      refine .of_records (s := s) (h.toSound.congr rfl rfl rfl rfl) rfl rfl h.current
        (by simp [startAuction]) (fun a ha => ?_) h.trades h.debts
      obtain rfl := Option.some.inj ha
      exact ⟨h.pending position hpend, by simp⟩
  | @ended _ next _ _ _ _ hnext _ => exact h.withTurn ⟨next, hnext, rfl⟩ (by simp [passTurn])
  | @bailed p ps _ hp _ _ hps =>
      have hs := h.toSound.keepEstate (m := { s with players := ps }) (g := id)
        ((KeepsEstate.bail env.jailFine).edit p.id) rfl hps (List.map_id _).symm
        (fun q hq => by split <;> exact h.standing q hq) (fun _ => rfl) (fun _ => rfl) h.decks
      exact .of_records (s := s) (hs.congr rfl rfl rfl rfl) rfl (hids hps fun _ => rfl)
        h.current h.pending h.auctions h.trades h.debts
  | @cardSpent p ps _ hp _ _ hps =>
      have hs := h.toSound.keepEstate (m := { s with
          players := ps, chanceDeck := s.chanceDeck ++ [chanceJailCard] }) (g := id)
        (KeepsEstate.spendJailCard.edit p.id) rfl hps (List.map_id _).symm
        (fun q hq => by split <;> exact h.standing q hq) (fun _ => rfl) (fun _ => rfl)
        (deckCard_returnJailCard h.decks)
      exact .of_records (s := s) (hs.congr rfl rfl rfl rfl) rfl (hids hps fun _ => rfl)
        h.current h.pending h.auctions h.trades h.debts
  | reworked _ _ hr =>
      have hs := hr.sound h.toSound
      cases hr with
      | mk _ hps _ _ _ =>
          exact .of_records (s := s) hs rfl (hids hps fun _ => rfl) h.current h.pending h.auctions
            h.trades h.debts
  | proposed hpid hprop =>
      cases hprop with
      | mk hne _ _ htarget hoffer hrequest =>
          refine .of_records (s := s) (h.toSound.congr rfl rfl rfl rfl) rfl rfl h.current h.pending
            h.auctions (fun t ht => ?_) h.debts
          obtain rfl := Option.some.inj ht
          exact ⟨hpid, htarget, hne, fun q hq => (hoffer.titles q hq).1,
            fun q hq => (hrequest.titles q hq).1⟩
  | responded hresp =>
      cases hresp with
      | rejected _ _ =>
          exact .of_records (s := s) (h.toSound.congr rfl rfl rfl rfl) rfl rfl h.current h.pending
            h.auctions (by simp [dropTrade]) h.debts
      | countered htrade _ _ hoffer =>
          have hformed := h.trades _ htrade
          refine .of_records (s := s) (h.toSound.congr rfl rfl rfl rfl) rfl rfl h.current h.pending
            h.auctions (fun t ht => ?_) h.debts
          obtain rfl := Option.some.inj ht
          exact ⟨hformed.proposer, hformed.target, hformed.distinct, hformed.offer,
            fun q hq => (hoffer.titles q hq).1⟩
      | accepted htrade _ _ hexec =>
          have hs := hexec.sound h.toSound (h.trades _ htrade)
          cases hexec with
          | mk _ _ hps =>
              refine .of_records (s := s) hs rfl ?_ h.current h.pending h.auctions (by simp) h.debts
              exact (congrArg (List.map (·.id)) hps).trans (ids_map fun p _ => swapSeat_id _ p)
  | bid hbid =>
      cases hbid with
      | mk hauction _ hp hid _ _ _ =>
          refine .of_records (s := s) (h.toSound.congr rfl rfl rfl rfl) rfl rfl h.current h.pending
            (fun a ha => ?_) h.trades h.debts
          obtain rfl := Option.some.inj ha
          exact ⟨(h.auctions _ hauction).property, fun b hb => Option.some.inj hb ▸ ⟨_, hp, hid⟩⟩
  | bankrupted hdebt hdebtor hd hl ha => exact ha.wellFormed (hl.wellFormed h hdebt hdebtor hd)
  | surrendered hp _ hsurr ha => exact ha.wellFormed (hsurr.wellFormed h hp)
  | auctionIdle _ => exact h
  | auctioned _ ha hr =>
      have hs := hr.sound h.toSound (h.auctions _ ha)
      cases hr with
      | unsold _ hps =>
          exact .of_records (s := s) hs rfl (congrArg (List.map (·.id)) hps) h.current h.pending
            (by simp) h.trades h.debts
      | sold _ hps =>
          exact .of_records (s := s) hs rfl (hids hps fun _ => rfl) h.current h.pending (by simp)
            h.trades h.debts
  | tradeIdle _ => exact h
  | tradeLapsed _ _ =>
      exact .of_records (s := s) (h.toSound.congr rfl rfl rfl rfl) rfl rfl h.current h.pending
        h.auctions (by simp [dropTrade]) h.debts
  | timerIdle _ => exact h
  | timerSkipped _ _ _ _ hps ht => exact ht.wellFormed (h.withPlayers hps)
  | timerSpent _ _ _ _ _ hps => exact h.withPlayers hps
  | timerForced _ hp _ _ _ hsurr ha => exact ha.wellFormed (hsurr.wellFormed h (mem_seats hp))

end Preservation

end Monopoly
