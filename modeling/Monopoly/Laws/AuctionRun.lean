import Monopoly.Spec.Queries
import Monopoly.Spec.Replay

/-!
# Monopoly.Laws.AuctionRun

Auctions from the decline that opens them to the timer that ends them: what
any sequence of bids, accepted or refused, and of early ticks leads to.
-/

namespace Monopoly

/-! ## attempts -/

/-- A bid, or a tick of the timer before the auction is due.  A call that is
refused leaves the state. -/
structure Attempt (s : GameState) (call : Call) (s' : GameState) : Prop where
  tries : (∃ pid amount, call.command = .placeBid pid amount) ∨ call.command = .advanceAuction ∧
    ∀ auction, s.auction = some auction →
      call.env.clock.nowMs < auction.startedAtMs + auction.timeRemainingMs
  outcome : Accepted s call s' ∨ s' = s ∧ ∃ e, apply s call.command call.env = .error e

/-- The bid of a call that was accepted. -/
def acceptedBid (t : Taken GameState Call) : Option AuctionBid :=
  match t.label.command, apply t.before t.label.command t.label.env with
  | .placeBid playerId amount, .ok _ => some { playerId, amount }
  | _, _ => none

/-- The accepted bids of a history, the oldest first. -/
def acceptedBids (h : List (Taken GameState Call)) : List AuctionBid :=
  h.reverse.filterMap acceptedBid

theorem acceptedBids_cons (t : Taken GameState Call) (h : List (Taken GameState Call)) :
    acceptedBids (t :: h) = acceptedBids h ++ (acceptedBid t).toList := by
  simp only [acceptedBids, List.reverse_cons, List.filterMap_append]
  cases hbid : acceptedBid t <;> simp [hbid]

/-! ## an auction under way -/

/-- The state with the auction's bids, and the highest bid read off them. -/
def withBids (s : GameState) (auction : AuctionState) (bids : List AuctionBid) : GameState :=
  { s with auction := some { auction with
      bids
      highestBid := (bids.getLast?.map (·.amount)).getD 0
      highestBidderId := bids.getLast?.map (·.playerId) } }

/-- But for `bids` nothing has happened since the auction was opened. -/
structure Underway (s : GameState) (auction : AuctionState) (bids : List AuctionBid)
    (m : GameState) : Prop where
  tidy : Tidied (withBids s auction bids) m
  increasing : bids.Pairwise fun a b => a.amount < b.amount
  bounded : ∀ bid ∈ bids, bid.amount ≤ (bids.getLast?.map (·.amount)).getD 0
  funded : ∀ bid ∈ bids, ∃ p ∈ s.seats, p.id = bid.playerId ∧ bid.amount ≤ p.balance

section Run

variable {s m m' : GameState} {auction : AuctionState} {bids : List AuctionBid} {call : Call}
  {h : List (Taken GameState Call)}

/-- An accepted bid is higher than those before it. -/
theorem Underway.bid {pid : PlayerId} {amount : Int} {placed : GameState}
    (h : Underway s auction bids m) (hbid : BidPlaced m pid amount placed)
    (htidy : Tidied placed m') :
    Underway s auction (bids ++ [{ playerId := pid, amount }]) m' := by
  obtain ⟨ha, -, hp, hpid, -, hfunds, hhigher⟩ := hbid
  rename_i auction' p
  obtain rfl := Option.some.inj (ha.symm.trans h.tidy.auction)
  have hseats : m.seats = s.seats := h.tidy.seats_eq
  constructor
  · refine Tidied.trans ?_ htidy
    have hlast : withBids s auction (bids ++ [{ playerId := pid, amount }]) =
        { s with auction := some { auction with
            bids := bids ++ [{ playerId := pid, amount }]
            highestBid := amount
            highestBidderId := some pid } } := by
      simp [withBids]
    rw [hlast]
    cases h.tidy with
    | mk hps => exact .mk hps
  · refine List.pairwise_append.mpr ⟨h.increasing, List.pairwise_singleton _ _, ?_⟩
    intro a hmem b hb
    obtain rfl := List.mem_singleton.mp hb
    exact Int.lt_of_le_of_lt (h.bounded a hmem) hhigher
  · intro a hmem
    simp only [List.getLast?_concat, Option.map_some, Option.getD_some]
    rcases List.mem_append.mp hmem with hmem | hmem
    · exact Int.le_of_lt (Int.lt_of_le_of_lt (h.bounded a hmem) hhigher)
    · obtain rfl := List.mem_singleton.mp hmem
      exact Int.le_refl _
  · intro a hmem
    rcases List.mem_append.mp hmem with hmem | hmem
    · exact h.funded a hmem
    · obtain rfl := List.mem_singleton.mp hmem
      exact ⟨p, hseats ▸ hp, hpid, hfunds⟩

/-- The timer has not run out. -/
theorem isAuctionExpired_iff (ha : s.auction = some auction) (nowMs : Int) :
    isAuctionExpired s nowMs = true ↔ auction.startedAtMs + auction.timeRemainingMs ≤ nowMs := by
  rw [isAuctionExpired, ha]
  show decide (max 0 (_ - (nowMs - _)) ≤ (0 : Int)) = true ↔ _
  rw [decide_eq_true_eq]
  omega

theorem Underway.attempt (hfree : s.bankruptcy = none)
    (hopen : s.status = .inProgress → ∀ w, survivors s.seats ≠ [w])
    (h : Underway s auction bids m) (ha : Attempt m call m') :
    Underway s auction (bids ++ (acceptedBid ⟨m, call, m'⟩).toList) m' := by
  obtain ⟨hcall, haccepted | ⟨rfl, e, he⟩⟩ := ha
  · obtain ⟨command, env⟩ := call
    obtain ⟨-, placed, events, rng, hdispatch, hfinish⟩ := haccepted.handled
    obtain ⟨events', rng', happly⟩ := haccepted
    rcases hcall with ⟨pid, amount, rfl⟩ | ⟨rfl, hearly⟩
    · have hbid : acceptedBid ⟨m, ⟨.placeBid pid amount, env⟩, m'⟩ =
          some { playerId := pid, amount } := by
        simp only [acceptedBid, happly]
      have hplaced : Ensures (dispatch m (.placeBid pid amount) env) fun r =>
          BidPlaced m pid amount r.1.1 :=
        sat_map.mpr ((placeBid_places pid amount).seq fun _ hb => hb)
      rw [hbid]
      exact h.bid (hplaced.of_ok hdispatch) ((finishCommand_reply rfl events).of_ok hfinish)
    · have hnone : acceptedBid ⟨m, ⟨.advanceAuction, env⟩, m'⟩ = none := rfl
      have hsame : Ensures (dispatch m .advanceAuction env) fun r => r.1.1 = m := by
        have hrunning : isAuctionExpired m env.clock.nowMs = false := by
          rw [Bool.eq_false_iff, Ne, isAuctionExpired_iff h.tidy.auction]
          exact Int.not_le.mpr (hearly _ h.tidy.auction)
        refine sat_map.mpr (sat_ite.mpr ⟨fun _ => rfl, fun hdue => absurd ?_ hdue⟩)
        rw [hrunning]
        rfl
      obtain rfl : placed = m := hsame.of_ok hdispatch
      have htidy := (finishCommand_tidies placed .advanceAuction env events
        (h.tidy.bankruptcy.trans hfree) fun hin w hw =>
          hopen (h.tidy.status ▸ hin) w (h.tidy.seats_eq ▸ hw)).of_ok hfinish
      rw [hnone, Option.toList_none, List.append_nil]
      exact { h with tidy := h.tidy.trans htidy }
  · have hnone : acceptedBid ⟨m', call, m'⟩ = none := by
      unfold acceptedBid
      split
      · rename_i happly
        rw [he] at happly
        cases happly
      · rfl
    rw [hnone, Option.toList_none, List.append_nil]
    exact h

/-- What the attempts have come to. -/
theorem underway_of_run (hstart : Underway s auction [] s) (hfree : s.bankruptcy = none)
    (hopen : s.status = .inProgress → ∀ w, survivors s.seats ≠ [w])
    (hrun : Run (· = s) Attempt h m) : Underway s auction (acceptedBids h) m := by
  induction hrun with
  | start hs => exact hs ▸ hstart
  | next _ ha ih =>
      rw [acceptedBids_cons]
      exact ih.attempt hfree hopen ha

end Run

/-! ## the auction as a whole -/

/-- The last bidder has paid the last bid and owns the space alone. -/
structure WonBy (s : GameState) (auction : AuctionState) (bid : AuctionBid) (s' : GameState) :
    Prop where
  winner : ∃ p ∈ s.players, p.id = bid.playerId ∧ bid.amount ≤ p.balance ∧
    ∃ p' ∈ s'.players, p'.bare = { p.bare with
      balance := p.balance - bid.amount
      ownedPositions := pySortedSet (p.ownedPositions ++ [auction.propertyPosition]) }
  kept : ∀ q ∈ s.players, q.id ≠ bid.playerId → ∃ q' ∈ s'.players, q'.bare = q.bare
  spaces : ∀ q o, spaceAt s.spaces q = .ok o → spaceAt s'.spaces q =
    .ok (if q = auction.propertyPosition then { o with ownerId := some bid.playerId } else o)
  sole : ∀ q ∈ s'.players, auction.propertyPosition ∈ q.ownedPositions ↔ q.id = bid.playerId

/-- What the accepted bids of an auction lead to. -/
structure AuctionOutcome (s : GameState) (auction : AuctionState) (bids : List AuctionBid)
    (s' : GameState) : Prop where
  increasing : bids.Pairwise fun a b => a.amount < b.amount
  ids : s'.players.map (·.id) = s.players.map (·.id)
  unsold : bids = [] → s'.seats = s.seats ∧ s'.spaces = s.spaces
  sold : ∀ bid, bids.getLast? = some bid → WonBy s auction bid s'
  titles : TitlesAgree s'
  closed : s'.auction = none
  phase : s'.turn.phase = if s.turn.doublesStreak > 0 then .preRoll else .postRoll

section Law

variable {s₀ s m s' : GameState} {auction : AuctionState} {bids : List AuctionBid}
  {opening call : Call} {h : List (Taken GameState Call)} {pid : PlayerId}

/-- A decline opens an auction without bids. -/
theorem passBuy_opens (hcommand : opening.command = .passBuy pid)
    (hpass : Accepted s₀ opening s) : ∃ auction, s.auction = some auction ∧ auction.bids = [] ∧
      auction.highestBid = 0 ∧ auction.highestBidderId = none := by
  obtain ⟨command, env⟩ := opening
  obtain rfl : command = .passBuy pid := hcommand
  obtain ⟨-, opened, events, rng, hdispatch, hfinish⟩ := hpass.handled
  have hopened : Ensures (dispatch s₀ (.passBuy pid) env) fun r =>
      ∃ position, r.1.1 = startAuction s₀ position env.clock.nowMs :=
    sat_map.mpr (.guard fun _ => .after fun pending _ => .after fun _ _ => .after fun _ _ =>
      ⟨pending, rfl⟩)
  obtain ⟨position, rfl⟩ : ∃ position, opened = _ := hopened.of_ok hdispatch
  obtain ⟨b, n, hb, hsettle, hs⟩ :=
    (finishCommand_stages (fun h => by cases h) events).of_ok hfinish
  have hn : n.auction = b.auction := by
    cases (trySettleDebt_billed b).of_ok hsettle
    rfl
  have hwin : (checkWinCondition n).auction = n.auction := by
    unfold checkWinCondition
    split <;> rfl
  exact ⟨_, hs.auction.trans (hwin.trans (hn.trans hb.auction)), rfl, rfl, rfl⟩

theorem withBids_nil (ha : s.auction = some auction) (hbids : auction.bids = [])
    (hbid : auction.highestBid = 0) (hbidder : auction.highestBidderId = none) :
    withBids s auction [] = s := by
  obtain ⟨position, bids, highestBid, highestBidderId, timeRemainingMs, startedAtMs⟩ := auction
  obtain rfl : bids = [] := hbids
  obtain rfl : highestBid = 0 := hbid
  obtain rfl : highestBidderId = none := hbidder
  simp only [withBids, List.getLast?_nil, Option.map_none, Option.getD_none, ← ha]

/-- The lists and the records agree after the award of a space that nobody
owned. -/
theorem TitlesAgree.awarded {bidder : PlayerId} {bid : Int} {position : Nat} {n : GameState}
    (htitles : TitlesAgree s) (hfile : OnFile s.spaces [position])
    (hunowned : ∀ o, spaceAt s.spaces position = .ok o → o.ownerId = none)
    (hseats : n.seats = editSeat bidder (award position bid) s.seats)
    (hspaces : Rewritten (Monopoly.onListed [position] (grant bidder)) s.spaces n.spaces) :
    TitlesAgree n := by
  refine titlesAgree_of_edits (f := fun p => if p.id = bidder then award position bid p else p)
    (fun p => by split <;> rfl) hseats hspaces ?_ ?_ ?_
  · intro p hp
    split
    · exact nodup_pySortedSet _
    · exact htitles.nodup p hp
  · intro p hp q hq
    split at hq
    · simp only [award, mem_pySortedSet, List.mem_append] at hq
      exact hq.elim (htitles.onFile hp q) (hfile q)
    · exact htitles.onFile hp q hq
  · intro p hp q o hat
    have hlisted : q ∈ p.ownedPositions ↔ o.ownerId = some p.id := by
      rw [htitles.agree p hp q, hat]
      simp
    have hfree : q = position → o.ownerId = none := fun h => hunowned o (h ▸ hat)
    have howner : (Monopoly.onListed [position] (grant bidder) o).ownerId =
        if q = position then some bidder else o.ownerId := by
      simp only [Monopoly.onListed, List.mem_singleton, position_of_spaceAt hat]
      split <;> rfl
    rw [howner, bare_id]
    by_cases hpb : p.id = bidder
    · rw [if_pos hpb]
      simp only [award, mem_pySortedSet, List.mem_append, List.mem_singleton, bare_ownedPositions]
      grind
    · rw [if_neg hpb, bare_ownedPositions]
      grind

/-- Two players stay in the game, whatever becomes of their money. -/
theorem not_survivor_of_map {f : PlayerState → PlayerState} {n : GameState} (hf : KeepsRoster f)
    (hseats : n.seats = s.seats.map f) (htwo : 2 ≤ (survivors s.players).length)
    (w : PlayerState) : survivors n.seats ≠ [w] := by
  intro hone
  have hseatCount : (survivors s.seats).length = (survivors s.players).length :=
    length_survivors_map (f := PlayerState.bare) ⟨fun _ => rfl, fun _ => rfl⟩ s.players
  have hcount := length_survivors_map hf s.seats
  rw [← hseats, hone, hseatCount] at hcount
  simp only [List.length_singleton] at hcount
  omega

/-- What the award says of the seats and the spaces, player by player and
record by record. -/
theorem wonBy_of_award {bid : AuctionBid} {p : PlayerState}
    (hfile : OnFile s.spaces [auction.propertyPosition]) (hp : p ∈ s.players)
    (hid : p.id = bid.playerId) (hfunds : bid.amount ≤ p.balance)
    (hseats : s'.seats = editSeat bid.playerId (award auction.propertyPosition bid.amount) s.seats)
    (hspaces : Rewritten (onListed [auction.propertyPosition] (grant bid.playerId)) s.spaces
      s'.spaces) (htitles : TitlesAgree s') : WonBy s auction bid s' := by
  constructor
  · obtain ⟨p', hp', hbare⟩ := exists_of_seats hseats hp
    exact ⟨p, hp, hid, hfunds, p', hp', hbare.trans (if_pos hid)⟩
  · intro q hq hne
    obtain ⟨q', hq', hbare⟩ := exists_of_seats hseats hq
    exact ⟨q', hq', hbare.trans (if_neg hne)⟩
  · intro q o hat
    rw [hspaces.at hat]
    obtain rfl := position_of_spaceAt hat
    simp only [onListed, List.mem_singleton]
    rfl
  · intro q hq
    obtain ⟨o, hat⟩ := hfile _ List.mem_cons_self
    rw [htitles.agree q hq, hspaces.at hat]
    simp [onListed, position_of_spaceAt hat, grant, eq_comm]

/-- The end of an auction. -/
theorem Underway.outcome (htitles : TitlesAgree s)
    (hunowned : ∀ o, spaceAt s.spaces auction.propertyPosition = .ok o → o.ownerId = none)
    (h : Underway s auction bids m) {n : GameState} {ended : AuctionState}
    (hended : m.auction = some ended) (hawarded : Awarded m ended n) (htidy : Tidied n s') :
    AuctionOutcome s auction bids s' := by
  obtain rfl := Option.some.inj (hended.symm.trans h.tidy.auction)
  have hseats : m.seats = s.seats := h.tidy.seats_eq
  have hspaces : m.spaces = s.spaces := h.tidy.spaces
  have hafter : afterAuction m.turn = afterAuction s.turn := by
    cases h.tidy
    rfl
  have hclosed : n.auction = none ∧ n.turn.phase = afterAuction s.turn := by
    cases hawarded <;> exact ⟨rfl, hafter⟩
  have hphase : s'.turn.phase = afterAuction s.turn := htidy.phase.trans hclosed.2
  have hauction : s'.auction = none := htidy.auction.trans hclosed.1
  cases hawarded with
  | unsold hnone hps =>
      have hnobody : bids = [] := by simpa using hnone
      subst hnobody
      have hseats' : s'.seats = s.seats := htidy.seats_eq.trans (hps.trans hseats)
      have hspaces' : s'.spaces = s.spaces := htidy.spaces.trans hspaces
      refine ⟨.nil, ?_, fun _ => ⟨hseats', hspaces'⟩, fun bid hbid => by simp at hbid, ?_, hauction,
        hphase⟩
      · exact ids_of_seats (f := fun p => p) (hseats'.trans (List.map_id' _).symm) fun _ => rfl
      · refine titlesAgree_of_edits (f := fun p => p) (g := id) (fun _ => rfl)
          (hseats'.trans (List.map_id' _).symm) (hspaces' ▸ .refl s.spaces) htitles.nodup
          (fun p hp q hq => htitles.onFile hp q hq) ?_
        intro p hp q o hat
        show q ∈ p.ownedPositions ↔ _
        rw [htitles.agree p hp q, hat]
        simp
  | @sold bidder ps spaces hbidder hfile hps hrewritten =>
      obtain ⟨bid, hlast, rfl⟩ : ∃ bid, bids.getLast? = some bid ∧ bid.playerId = bidder :=
        Option.map_eq_some_iff.mp hbidder
      have hamount : (bids.getLast?.map (·.amount)).getD 0 = bid.amount := by rw [hlast]; rfl
      have hps' : seatsOf ps = editSeat bid.playerId
          (award auction.propertyPosition bid.amount) s.seats := by
        rw [← hseats, ← hamount]
        exact hps
      have hseats' : s'.seats = editSeat bid.playerId
          (award auction.propertyPosition bid.amount) s.seats := htidy.seats_eq.trans hps'
      have hspaces' : Rewritten (onListed [auction.propertyPosition] (grant bid.playerId)) s.spaces
          s'.spaces := by
        rw [htidy.spaces, ← hspaces]
        exact hrewritten
      have htitles' : TitlesAgree s' :=
        htitles.awarded (hspaces ▸ hfile) hunowned hseats' hspaces'
      refine ⟨h.increasing, ?_, fun hnone => by simp [hnone] at hlast, fun bid' hbid' => ?_,
        htitles', hauction, hphase⟩
      · exact ids_of_seats hseats' fun p => by split <;> rfl
      · obtain rfl : bid = bid' := Option.some.inj (hlast.symm.trans hbid')
        obtain ⟨x, hx, hxid, hfunds⟩ := h.funded bid (List.mem_of_getLast? hlast)
        obtain ⟨p, hp, rfl⟩ := exists_player hx
        exact wonBy_of_award (hspaces ▸ hfile) hp hxid hfunds hseats' hspaces' htitles'

/-- The tick that ends the auction. -/
theorem Underway.closes (h : Underway s auction bids m) (hids : (s.players.map (·.id)).Nodup)
    (htitles : TitlesAgree s)
    (hunowned : ∀ o, spaceAt s.spaces auction.propertyPosition = .ok o → o.ownerId = none)
    (hfree : s.bankruptcy = none) (htwo : 2 ≤ (survivors s.players).length)
    (hcommand : call.command = .advanceAuction)
    (hdue : auction.startedAtMs + auction.timeRemainingMs ≤ call.env.clock.nowMs)
    (hclose : Accepted m call s') : AuctionOutcome s auction bids s' := by
  obtain ⟨command, env⟩ := call
  obtain rfl : command = .advanceAuction := hcommand
  obtain ⟨-, n, events, rng, hdispatch, hfinish⟩ := hclose.handled
  have hmids : (m.players.map (·.id)).Nodup := by
    rw [← ids_seatsOf, show seatsOf m.players = s.seats from h.tidy.seats_eq]
    exact nodup_seats hids
  have hresolved : Ensures (dispatch m .advanceAuction env) fun r =>
      Awarded m { auction with
        bids
        highestBid := (bids.getLast?.map (·.amount)).getD 0
        highestBidderId := bids.getLast?.map (·.playerId) } r.1.1 := by
    refine sat_map.mpr (sat_ite.mpr ⟨fun hearly => ?_, fun _ => ?_⟩)
    · rw [(isAuctionExpired_iff h.tidy.auction _).mpr hdue] at hearly
      cases hearly
    · exact (resolveAuction_awards hmids h.tidy.auction).seq fun _ hn => hn
  have hawarded := hresolved.of_ok hdispatch
  have hroster : ∃ f, KeepsRoster f ∧ n.seats = s.seats.map f ∧ n.bankruptcy = none := by
    have hdebt : m.bankruptcy = none := h.tidy.bankruptcy.trans hfree
    have hseats : m.seats = s.seats := h.tidy.seats_eq
    cases hawarded with
    | unsold _ hps => exact ⟨_, .refl, (hps.trans hseats).trans (List.map_id _).symm, hdebt⟩
    | sold _ _ hps _ => exact ⟨_, .edit (.award _ _) _, hseats ▸ hps, hdebt⟩
  obtain ⟨f, hf, hseats, hdebt⟩ := hroster
  have htidy := (finishCommand_tidies m .advanceAuction env events hdebt
    fun _ => not_survivor_of_map hf hseats htwo).of_ok hfinish
  exact h.outcome htitles hunowned h.tidy.auction hawarded htidy

/-- An attempt leaves the table well formed. -/
theorem Attempt.formed (hs : WellFormed s ∧ Live s) (h : Attempt s call s') :
    WellFormed s' ∧ Live s' := by
  obtain ⟨hw, hl⟩ := hs
  rcases h.outcome with haccepted | ⟨rfl, -⟩
  · obtain ⟨hmay, hstep⟩ := haccepted.stepped hw hl
    exact ⟨hstep.wellFormed hw, hstep.live hw hl hmay⟩
  · exact ⟨hw, hl⟩

/-- The timer of an auction is never refused, and crashes on no well formed
table. -/
theorem advanceAuction_returns (hs : WellFormed s ∧ Live s) (hin : s.status = .inProgress)
    (hcommand : call.command = .advanceAuction) : ∃ s', Accepted s call s' := by
  obtain ⟨command, env⟩ := call
  obtain rfl : command = .advanceAuction := hcommand
  have haddressed : Addressed s .advanceAuction :=
    ⟨fun pid hpid => by simp [GameCommand.playerIds, GameCommand.player] at hpid,
      fun pos hpos => by simp [GameCommand.positions] at hpos⟩
  cases happly : apply s .advanceAuction env with
  | ok r => exact ⟨_, _, _, happly⟩
  | error e =>
      have hillegal := (apply_sat hs.1 hs.2 env .advanceAuction).of_error happly hin haddressed
      have hunrefused := (apply_advanceAuction_unrefused s env).of_error happly
      exact absurd hillegal hunrefused

/-- Whatever is bid and refused before the auction is due: the accepted bids
rise, and the last bidder pays the last bid and owns the space.  The tick that
ends the auction crashes on no well formed table. -/
theorem auction_run (hin : s.status = .inProgress) (hopening : opening.command = .passBuy pid)
    (hpass : Accepted s₀ opening s) (hids : (s.players.map (·.id)).Nodup)
    (htitles : TitlesAgree s) (hauction : s.auction = some auction)
    (hunowned : ∀ o, spaceAt s.spaces auction.propertyPosition = .ok o → o.ownerId = none)
    (hfree : s.bankruptcy = none) (htwo : 2 ≤ (survivors s.players).length)
    (hrun : Run (· = s) Attempt h m) (hcommand : call.command = .advanceAuction)
    (hdue : auction.startedAtMs + auction.timeRemainingMs ≤ call.env.clock.nowMs) :
    (∀ s', Accepted m call s' → AuctionOutcome s auction (acceptedBids h) s') ∧
    (WellFormed s → Live s → ∃ s', Accepted m call s') := by
  obtain ⟨opened, hopened, hbids, hbid, hbidder⟩ := passBuy_opens hopening hpass
  obtain rfl := Option.some.inj (hauction.symm.trans hopened)
  have hnil := withBids_nil hauction hbids hbid hbidder
  have hstart : Underway s auction [] s := ⟨hnil.symm ▸ .mk rfl, .nil, by simp, by simp⟩
  have hm := underway_of_run hstart hfree
    (fun _ => not_survivor_of_map .refl (List.map_id _).symm htwo) hrun
  refine ⟨fun s' hclose => ?_, fun hw hl => ?_⟩
  · exact hm.closes hids htitles hunowned hfree htwo hcommand hdue hclose
  · have hformed : WellFormed m ∧ Live m := by
      refine Run.invariant (I := fun m => WellFormed m ∧ Live m) ?_ ?_ hrun
      · rintro _ rfl
        exact ⟨hw, hl⟩
      · exact fun _ _ _ hs hattempt => Attempt.formed hs hattempt
    exact advanceAuction_returns hformed (hm.tidy.status.trans hin) hcommand

/-- Player `1` declines a space and bids for it, player `2` outbids player `1`,
and the timer ticks before and after it is due. -/
def biddingWar : List Call :=
  [callAt 0 [0, 1] (.rollDice 1), callAt 0 [] (.passBuy 1), callAt 1 [] (.placeBid 1 10),
    callAt 2 [] (.placeBid 2 20), callAt 3 [] .advanceAuction, callAt 1000000 [] .advanceAuction]

/-- Player `2` wins. -/
theorem auction_run_two_bids : ∃ s auction h s',
    acceptedBids h = [{ playerId := 1, amount := 10 }, { playerId := 2, amount := 20 }] ∧
      AuctionOutcome s auction (acceptedBids h) s' := by
  obtain ⟨history, s', hrun, hlabels, hcheck⟩ := play_of_reaches (duo 1500) biddingWar
    (fun h _ => h[1]?.any fun (early : Taken GameState Call) =>
        h[4]?.any fun (pass : Taken GameState Call) => titled pass.after && decide
          (pass.after.status = .inProgress ∧
            (pass.after.players.map PlayerState.id).Nodup ∧ pass.after.bankruptcy = none ∧
            2 ≤ (survivors pass.after.players).length ∧
            (∃ auction ∈ pass.after.auction,
              auction.startedAtMs + auction.timeRemainingMs ≤ 1000000 ∧ ∀ o ∈ pass.after.spaces,
                o.position = auction.propertyPosition → o.ownerId = none) ∧
            (∃ auction ∈ early.before.auction, 3 < auction.startedAtMs + auction.timeRemainingMs) ∧
            acceptedBids ((h.take 4).drop 1) =
              [{ playerId := 1, amount := 10 }, { playerId := 2, amount := 20 }]))
    (by decide) (by decide +kernel)
  have hlatest : history.map (·.label) = biddingWar.reverse := by
    rw [← hlabels, ← List.map_reverse, List.reverse_reverse]
  simp only [biddingWar, List.reverse_cons, List.reverse_nil, List.nil_append, List.cons_append,
    List.map_eq_cons_iff, List.map_eq_nil_iff] at hlatest
  obtain ⟨close, _, rfl, hclose, early, _, rfl, htick, second, _, rfl, hsecond, first, _, rfl,
    hfirst, pass, _, rfl, hpass, roll, _, rfl, -, rfl⟩ := hlatest
  obtain ⟨htitled, hfacts⟩ := Bool.and_eq_true_iff.mp hcheck
  obtain ⟨hin, hids, hfree, htwo, ⟨auction, hauction, hdue, hunowned⟩,
    ⟨running, hrunning, hearly⟩, hbids⟩ := of_decide_eq_true hfacts
  cases hrun with | next hrun hclosed => ?_
  cases hrun with | next hrun hticked => ?_
  cases hrun with | next hrun houtbid => ?_
  cases hrun with | next hrun hbid => ?_
  cases hrun with | next hrun hdeclined => ?_
  subst hpass hfirst hsecond htick hclose
  have h₁ : Attempt _ (callAt 1 [] (.placeBid 1 10)) _ := ⟨.inl ⟨1, 10, rfl⟩, .inl hbid⟩
  have h₂ : Attempt _ (callAt 2 [] (.placeBid 2 20)) _ := ⟨.inl ⟨2, 20, rfl⟩, .inl houtbid⟩
  have h₃ : Attempt _ (callAt 3 [] .advanceAuction) _ := ⟨.inr ⟨rfl, fun a ha => by
    obtain rfl := Option.some.inj (ha.symm.trans hrunning)
    exact hearly⟩, .inl hticked⟩
  have hlaw := auction_run hin rfl hdeclined hids (of_titled htitled) hauction
    (fun o hat => hunowned o (by
      obtain ⟨j, -, hj, -⟩ := spaceAt_found hat
      exact List.mem_of_getElem? hj) (position_of_spaceAt hat)) hfree htwo
    ((((Run.start rfl : Run (· = _) Attempt [] _).next h₁).next h₂).next h₃)
    (rfl : (callAt 1000000 [] .advanceAuction).command = _) hdue
  exact ⟨_, auction, _, _, hbids, hlaw.1 _ hclosed⟩

end Law

end Monopoly
