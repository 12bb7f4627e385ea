import Monopoly.Spec.Deals
import Monopoly.Spec.Replay

/-!
# Monopoly.Laws.TradeExchange

What an accepted trade moves: each of the two offers goes to the other party
as a whole, and nothing else changes hands.
-/

namespace Monopoly

/-- What is left of `p` by a trade that takes `given` and brings `taken`. -/
def trades (given taken : TradeOffer) (owned : List Nat) (p : PlayerState) : PlayerState :=
  { p with
    balance := p.balance - given.money + taken.money
    getOutOfJailCards := p.getOutOfJailCards - given.getOutOfJailCards + taken.getOutOfJailCards
    ownedPositions := owned }

/-- The party `p` has given the one offer away and received the other. -/
def Traded (given taken : TradeOffer) (p : PlayerState) (s' : GameState) : Prop :=
  ∃ p' ∈ s'.players, ∃ owned, p'.bare = (trades given taken owned p).bare ∧
    owned.Pairwise (· < ·) ∧
    (∀ q, q ∈ owned ↔ q ∈ taken.positions ∨ q ∈ p.ownedPositions ∧ q ∉ given.positions) ∧
    0 ≤ p'.balance ∧ 0 ≤ p'.getOutOfJailCards

/-- What executing the trade between `p` and `t` leads to. -/
structure ExchangeOutcome (s : GameState) (trade : TradeState) (p t : PlayerState)
    (s' : GameState) : Prop where
  ids : s'.players.map (·.id) = s.players.map (·.id)
  proposer : Traded trade.proposerOffer trade.targetRequest p s'
  target : Traded trade.targetRequest trade.proposerOffer t s'
  kept : ∀ q ∈ s.players, q.id ≠ p.id → q.id ≠ t.id → ∃ q' ∈ s'.players, q'.bare = q.bare
  cash : (s'.players.map (·.balance)).sum = (s.players.map (·.balance)).sum
  cards : (s'.players.map (·.getOutOfJailCards)).sum = (s.players.map (·.getOutOfJailCards)).sum
  positions : s'.spaces.map (·.position) = s.spaces.map (·.position)
  spaces : ∀ pos o, spaceAt s.spaces pos = .ok o → spaceAt s'.spaces pos = .ok { o with
    ownerId := if pos ∈ trade.proposerOffer.positions then some t.id
      else if pos ∈ trade.targetRequest.positions then some p.id
      else o.ownerId }
  titles : TitlesAgree s'
  bank : s'.bankHouses = s.bankHouses ∧ s'.bankHotels = s.bankHotels
  decks : s'.chanceDeck = s.chanceDeck ∧ s'.chestDeck = s.chestDeck

section Law

variable {s s' : GameState} {p t : PlayerState} {trade : TradeState} {call : Call}
  {pid : PlayerId} {tradeId : Nat} {counter : Option TradeOffer}

/-- What moves between two of the players stays in the sum. -/
theorem sum_swapped {g : PlayerState → Int} {c : Int} (hids : (s.players.map (·.id)).Nodup)
    (hp : p ∈ s.players) (ht : t ∈ s.players) (hpid : p.id = trade.proposerId)
    (htid : t.id = trade.targetId) (hg : ∀ q, g q.bare = g q)
    (hgain : ∀ q, q.id = trade.proposerId → g (swapSeat trade q) = g q + c)
    (hloss : ∀ q, q.id = trade.targetId → q.id ≠ trade.proposerId →
      g (swapSeat trade q) = g q - c)
    (hne : trade.proposerId ≠ trade.targetId) (hseats : s'.seats = s.seats.map (swapSeat trade)) :
    (s'.players.map g).sum = (s.players.map g).sum := by
  have hbare : ∀ s : GameState, (s.players.map g).sum = (s.seats.map g).sum := by
    intro s
    rw [GameState.seats, seatsOf, List.map_map]
    exact congrArg List.sum (List.map_congr_left fun q _ => (hg q).symm)
  rw [hbare s', hbare s, hseats]
  refine sum_move PlayerState.id (nodup_seats hids) (mem_seats ht) (mem_seats hp) (c := c)
    fun q _ => ?_
  rw [bare_id, bare_id, htid, hpid]
  by_cases hqp : q.id = trade.proposerId
  · rw [hgain q hqp, if_pos hqp, if_neg fun hqt => hne (hqp.symm.trans hqt), Int.zero_add]
  · rw [if_neg hqp]
    by_cases hqt : q.id = trade.targetId
    · rw [hloss q hqt hqp, if_pos hqt, Int.add_zero]
      rfl
    · rw [swapSeat, if_neg hqp, if_neg hqt, if_neg hqt, Int.add_zero, Int.add_zero]

/-- A position is offered by its owner, so by one of the two parties. -/
theorem not_offered_twice (hcoversP : Covers s.spaces p trade.proposerOffer)
    (hcoversT : Covers s.spaces t trade.targetRequest) (hne : p.id ≠ t.id) {q : Nat}
    (hq : q ∈ trade.proposerOffer.positions) : q ∉ trade.targetRequest.positions := by
  intro hq'
  obtain ⟨o, hat, howner, -⟩ := hcoversP.titles q hq
  obtain ⟨o', hat', howner', -⟩ := hcoversT.titles q hq'
  obtain rfl := Except.ok.inj (hat.symm.trans hat')
  exact hne (Option.some.inj (howner.symm.trans howner'))

/-- After the trade the lists and the records agree again. -/
theorem TitlesAgree.swapped {m : GameState} (htitles : TitlesAgree s)
    (hpid : p.id = trade.proposerId) (htid : t.id = trade.targetId) (hne : p.id ≠ t.id)
    (hcoversP : Covers s.spaces p trade.proposerOffer)
    (hcoversT : Covers s.spaces t trade.targetRequest)
    (hseats : m.seats = s.seats.map (swapSeat trade))
    (hspaces : Rewritten (swapSpace trade) s.spaces m.spaces) : TitlesAgree m := by
  refine titlesAgree_of_edits (swapSeat_id trade) hseats hspaces ?_ ?_ ?_
  · intro q hq
    unfold swapSeat
    split
    · exact nodup_pySortedSet _
    · split
      · exact nodup_pySortedSet _
      · exact htitles.nodup q hq
  · -- nobody lists or offers a position without a record
    intro q hq pos hpos
    have hlisted : pos ∈ q.ownedPositions ∨ pos ∈ trade.proposerOffer.positions ∨
        pos ∈ trade.targetRequest.positions := by
      have hlisted' := mem_swapSeat.mp hpos
      rw [bare_ownedPositions] at hlisted'
      grind
    rcases hlisted with hlisted | hoffer | hrequest
    · exact htitles.onFile hq pos hlisted
    · obtain ⟨o, hat, -⟩ := hcoversP.titles pos hoffer
      exact ⟨o, hat⟩
    · obtain ⟨o, hat, -⟩ := hcoversT.titles pos hrequest
      exact ⟨o, hat⟩
  · intro q hq pos o hat
    have hlisted : pos ∈ q.ownedPositions ↔ o.ownerId = some q.id := by
      rw [htitles.agree q hq pos, hat]
      simp
    have hoffer : pos ∈ trade.proposerOffer.positions → o.ownerId = some p.id := fun h => by
      obtain ⟨o', hat', howner', -⟩ := hcoversP.titles pos h
      rwa [Except.ok.inj (hat.symm.trans hat')]
    have hrequest : pos ∈ trade.targetRequest.positions → o.ownerId = some t.id := fun h => by
      obtain ⟨o', hat', howner', -⟩ := hcoversT.titles pos h
      rwa [Except.ok.inj (hat.symm.trans hat')]
    rw [mem_swapSeat, ownerId_swapSpace, position_of_spaceAt hat, bare_id, bare_ownedPositions,
      ← hpid, ← htid]
    by_cases hr : pos ∈ trade.targetRequest.positions
    · have ht := hrequest hr
      grind
    · by_cases ho : pos ∈ trade.proposerOffer.positions
      · have hp := hoffer ho
        grind
      · grind

theorem swapSeat_proposer (hpid : p.id = trade.proposerId) :
    ∃ owned, swapSeat trade p.bare =
        (trades trade.proposerOffer trade.targetRequest owned p).bare ∧ owned.Pairwise (· < ·) ∧
      ∀ q, q ∈ owned ↔ q ∈ trade.targetRequest.positions ∨
        q ∈ p.ownedPositions ∧ q ∉ trade.proposerOffer.positions := by
  refine ⟨_, (if_pos hpid).trans ?_, pairwise_pySortedSet (trade.targetRequest.positions.reverse ++
    pySortedSet (p.ownedPositions.filter (· ∉ trade.proposerOffer.positions))), fun q => by simp⟩
  simp only [PlayerState.bare, trades, PlayerState.mk.injEq, and_true, true_and]
  omega

theorem swapSeat_target (htid : t.id = trade.targetId) (hne : trade.proposerId ≠ trade.targetId)
    (hdisjoint : ∀ q ∈ trade.proposerOffer.positions, q ∉ trade.targetRequest.positions) :
    ∃ owned, swapSeat trade t.bare =
        (trades trade.targetRequest trade.proposerOffer owned t).bare ∧ owned.Pairwise (· < ·) ∧
      ∀ q, q ∈ owned ↔ q ∈ trade.proposerOffer.positions ∨
        q ∈ t.ownedPositions ∧ q ∉ trade.targetRequest.positions := by
  have hother : t.bare.id ≠ trade.proposerId := fun h => hne (h.symm.trans htid)
  refine ⟨_, ((if_neg hother).trans (if_pos htid)).trans ?_, pairwise_pySortedSet
    ((pySortedSet (trade.proposerOffer.positions.reverse ++ t.ownedPositions)).filter
      (· ∉ trade.targetRequest.positions)), fun q => ?_⟩
  · simp only [PlayerState.bare, trades, PlayerState.mk.injEq, and_true, true_and]
    omega
  · simp only [mem_pySortedSet, List.mem_filter, List.mem_append, List.mem_reverse,
      decide_eq_true_eq]
    constructor
    · rintro ⟨hq | hq, hnot⟩
      · exact .inl hq
      · exact .inr ⟨hq, hnot⟩
    · rintro (hq | ⟨hq, hnot⟩)
      · exact ⟨.inl hq, hdisjoint q hq⟩
      · exact ⟨.inr hq, hnot⟩

/-- A party can pay what it has offered, and is paid nothing negative. -/
theorem traded_of_seat {given taken : TradeOffer} {p' : PlayerState}
    (hcovers : Covers s.spaces p given) (htaken : 0 ≤ taken.money ∧ 0 ≤ taken.getOutOfJailCards)
    (hp' : p' ∈ s'.players) {owned : List Nat} (hbare : p'.bare = (trades given taken owned p).bare)
    (hsorted : owned.Pairwise (· < ·))
    (howned : ∀ q, q ∈ owned ↔ q ∈ taken.positions ∨
      q ∈ p.ownedPositions ∧ q ∉ given.positions) : Traded given taken p s' := by
  have hbalance := congrArg PlayerState.balance hbare
  have hcards := congrArg PlayerState.getOutOfJailCards hbare
  simp only [bare_balance, bare_getOutOfJailCards, trades] at hbalance hcards
  have hmoney := hcovers.money
  have hjail := hcovers.cards
  exact ⟨p', hp', owned, hbare, hsorted, howned, by omega, by omega⟩

/-- What an offered space becomes, as no position is offered by both. -/
theorem swapSpace_disjoint {o : SpaceOwnership}
    (hdisjoint : o.position ∈ trade.proposerOffer.positions →
      o.position ∉ trade.targetRequest.positions) :
    swapSpace trade o = { o with
      ownerId := if o.position ∈ trade.proposerOffer.positions then some trade.targetId
        else if o.position ∈ trade.targetRequest.positions then some trade.proposerId
        else o.ownerId } := by
  unfold swapSpace
  by_cases hr : o.position ∈ trade.targetRequest.positions
  · rw [if_pos hr, if_neg fun ho => hdisjoint ho hr, if_pos hr]
    rfl
  · rw [if_neg hr]
    split <;> simp [grant]

/-- Accepting is executing. -/
theorem respondTrade_swaps (hids : (s.players.map (·.id)).Nodup) (htrade : s.trade = some trade)
    (hne : trade.proposerId ≠ trade.targetId) {env : Env} :
    Ensures (dispatch s (.respondTrade pid tradeId .accept counter) env) fun r =>
      Swapped s trade r.1.1 := by
  refine sat_map.mpr (Sat.seq (R := Swapped s trade) ?_ fun m hm => hm)
  rw [respondTrade, htrade]
  exact .guard fun _ => .guard fun _ => executeTrade_swaps hids hne

/-- An accepted trade gives each party exactly the offer of the other. -/
theorem executed_trade_exchanges (hids : (s.players.map (·.id)).Nodup) (htitles : TitlesAgree s)
    (htrade : s.trade = some trade) (hne : trade.proposerId ≠ trade.targetId)
    (hoffer : 0 ≤ trade.proposerOffer.money ∧ 0 ≤ trade.proposerOffer.getOutOfJailCards)
    (hrequest : 0 ≤ trade.targetRequest.money ∧ 0 ≤ trade.targetRequest.getOutOfJailCards)
    (hcommand : call.command = .respondTrade pid tradeId .accept counter)
    (h : Accepted s call s') : ∃ p ∈ s.players, ∃ t ∈ s.players,
      p.id = trade.proposerId ∧ t.id = trade.targetId ∧ ExchangeOutcome s trade p t s' := by
  obtain ⟨command, env⟩ := call
  obtain rfl : command = .respondTrade pid tradeId .accept counter := hcommand
  obtain ⟨-, m, events, rng, hdispatch, hfinish⟩ := h.handled
  have hswapped : Swapped s trade m := (respondTrade_swaps hids htrade hne).of_ok hdispatch
  obtain ⟨⟨p, t, hgetP, hgetT, hcoversP, hcoversT⟩, hseats, hspaces, hframe⟩ := hswapped
  have htidy := (finishCommand_reply rfl events).of_ok hfinish
  obtain ⟨hp, hpid⟩ := getPlayer_found hgetP
  obtain ⟨ht, htid⟩ := getPlayer_found hgetT
  have hne' : p.id ≠ t.id := by rw [hpid, htid]; exact hne
  have hseats' : s'.seats = s.seats.map (swapSeat trade) := htidy.seats_eq.trans hseats
  have hspaces' : Rewritten (swapSpace trade) s.spaces s'.spaces := htidy.spaces ▸ hspaces
  refine ⟨p, hp, t, ht, hpid, htid, ?_⟩
  constructor
  · exact ids_of_seats hseats' (swapSeat_id trade)
  · obtain ⟨p', hp', hbare⟩ := exists_of_seats hseats' hp
    obtain ⟨owned, hswap, hsorted, howned⟩ := swapSeat_proposer hpid
    exact traded_of_seat hcoversP hrequest hp' (hbare.trans hswap) hsorted howned
  · obtain ⟨t', ht', hbare⟩ := exists_of_seats hseats' ht
    obtain ⟨owned, hswap, hsorted, howned⟩ := swapSeat_target htid hne fun q hq =>
      not_offered_twice hcoversP hcoversT hne' hq
    exact traded_of_seat hcoversT hoffer ht' (hbare.trans hswap) hsorted howned
  · intro q hq hqp hqt
    obtain ⟨q', hq', hbare⟩ := exists_of_seats hseats' hq
    refine ⟨q', hq', hbare.trans ?_⟩
    exact (if_neg fun h => hqp (h.trans hpid.symm)).trans
      (if_neg fun h => hqt (h.trans htid.symm))
  · refine sum_swapped (g := PlayerState.balance)
      (c := trade.targetRequest.money - trade.proposerOffer.money) hids hp ht hpid htid
      (fun _ => rfl) (fun q hq => ?_) (fun q hq hq' => ?_) hne hseats'
    · rw [swapSeat, if_pos hq]
    · rw [swapSeat, if_neg hq', if_pos hq]
  · refine sum_swapped (g := PlayerState.getOutOfJailCards)
      (c := trade.targetRequest.getOutOfJailCards - trade.proposerOffer.getOutOfJailCards) hids hp
      ht hpid htid (fun _ => rfl) (fun q hq => ?_) (fun q hq hq' => ?_) hne hseats'
    · rw [swapSeat, if_pos hq]
    · rw [swapSeat, if_neg hq', if_pos hq]
  · exact hspaces'.positions
  · intro pos o hat
    rw [hspaces'.at hat]
    obtain rfl := position_of_spaceAt hat
    rw [hpid, htid]
    exact congrArg Except.ok (swapSpace_disjoint (not_offered_twice hcoversP hcoversT hne'))
  · exact htitles.swapped hpid htid hne' hcoversP hcoversT hseats' hspaces'
  · rw [hframe] at htidy
    cases htidy
    exact ⟨rfl, rfl⟩
  · rw [hframe] at htidy
    cases htidy
    exact ⟨rfl, rfl⟩

/-- Both sides of a swap, with one position named twice. -/
def swapTerms : TradeState :=
  { id := 7, proposerId := 1, targetId := 2, status := .pending, expiresAt := 0,
    proposerOffer := { money := 100, positions := [6, 2, 6], getOutOfJailCards := 1 },
    targetRequest := { money := 30, positions := [40], getOutOfJailCards := 0 } }

/-- Players `1` and `2` have two spaces each and negotiate. -/
def bartering (s : GameState) : GameState :=
  { s with
    players := s.players.map fun p =>
      if p.id = 1 then { p with ownedPositions := [2, 6], getOutOfJailCards := 1 }
      else if p.id = 2 then { p with ownedPositions := [4, 40] }
      else p
    spaces := s.spaces.map fun o =>
      if o.position = 2 ∨ o.position = 6 then { o with ownerId := some 1 }
      else if o.position = 4 ∨ o.position = 40 then { o with ownerId := some 2 }
      else o
    trade := some swapTerms }

/-- Player `2` accepts. -/
theorem executed_trade_exchanges_barter : ∃ s s', ∃ p ∈ s.players, ∃ t ∈ s.players,
    Accepted s (callAt 0 [] (.respondTrade 2 7 .accept none)) s' ∧
    ExchangeOutcome s swapTerms p t s' := by
  obtain ⟨s, s', events, rng, hcheck, happly⟩ := exists_call (trio 1500) bartering
    (callAt 0 [] (.respondTrade 2 7 .accept none)) (fun s _ _ => titled s && decide
      ((s.players.map PlayerState.id).Nodup ∧ s.trade = some swapTerms)) (by decide +kernel)
  obtain ⟨htitled, hfacts⟩ := Bool.and_eq_true_iff.mp hcheck
  obtain ⟨hids, htrade⟩ := of_decide_eq_true hfacts
  have haccepted : Accepted s (callAt 0 [] (.respondTrade 2 7 .accept none)) s' :=
    ⟨events, rng, happly⟩
  obtain ⟨p, hp, t, ht, -, -, houtcome⟩ := executed_trade_exchanges hids (of_titled htitled)
    htrade (by decide) (by decide) (by decide) rfl haccepted
  exact ⟨s, s', p, hp, t, ht, haccepted, houtcome⟩

end Law

end Monopoly
