import Monopoly.Spec.Replay

/-!
# Monopoly.Laws.Overlays

While a game is on, an auction is pending exactly in the phase `AUCTION` and
a trade exactly in the phase `TRADE_NEGOTIATION`, as long as no trade is
offered during an auction, nobody goes out during either, and neither is
opened on top of a debt that can be paid.
-/

namespace Monopoly

/-- The pending auction and the pending trade match the phase, and the
property under auction is unowned. -/
structure OverlaysMatch (s : GameState) : Prop where
  auction : s.auction ≠ none ↔ s.turn.phase = .auction
  trade : s.trade ≠ none ↔ s.turn.phase = .tradeNegotiation
  unowned : ∀ a, s.auction = some a → (ownershipAt s.spaces a.propertyPosition).ownerId = none

/-- The match as the calls keep it: a pending purchase is of an unowned space
and comes without an auction, and no debt that can be paid comes with either
overlay. -/
structure OverlaysHeld (s : GameState) : Prop extends OverlaysMatch s where
  purchase : ∀ q, s.turn.pendingBuyPosition = some q →
    s.auction = none ∧ (ownershipAt s.spaces q).ownerId = none
  unpaid : s.auction ≠ none ∨ s.trade ≠ none → ∀ debt, s.bankruptcy = some debt →
    s.cash debt.debtorId < debt.amountOwed

/-- The command opens an auction or a trade. -/
def GameCommand.opensOverlay : GameCommand → Bool
  | .passBuy _ | .proposeTrade .. => true
  | _ => false

/-- The call offers no trade during an auction, takes nobody out during an
auction or a trade but for the end of the game, and opens neither on top of
a debt that can be paid. -/
structure KeepsOverlays (s : GameState) (call : Call) : Prop where
  offer : ∀ pid target offer request, call.command = .proposeTrade pid target offer request →
    s.auction = none
  elimination : Eliminating s call.env call.command → s.auction ≠ none ∨ s.trade ≠ none →
    (survivors s.seats).length = 2
  payable : call.command.opensOverlay = true → ∀ debt, s.bankruptcy = some debt →
    s.cash debt.debtorId < debt.amountOwed

section Calls

variable {s m : GameState} {env : Env} {command : GameCommand}

namespace OverlaysHeld

/-- Nothing is pending but a purchase. -/
theorem clear (hauction : m.auction = none) (htrade : m.trade = none)
    (hphase : m.turn.phase ≠ .auction) (hphase' : m.turn.phase ≠ .tradeNegotiation)
    (hpurchase : ∀ q, m.turn.pendingBuyPosition = some q →
      (ownershipAt m.spaces q).ownerId = none) : OverlaysHeld m where
  auction := iff_of_false (by simp [hauction]) hphase
  trade := iff_of_false (by simp [htrade]) hphase'
  unowned a ha := by rw [hauction] at ha; cases ha
  purchase q hq := ⟨hauction, hpurchase q hq⟩
  unpaid h := by simp [hauction, htrade] at h

/-- The seats, the debt and the records stay. -/
theorem of_seats (h : OverlaysHeld s) (hseats : m.seats = s.seats)
    (hturn : m.turn.phase = s.turn.phase ∧ m.turn.pendingBuyPosition = s.turn.pendingBuyPosition)
    (hspaces : m.spaces = s.spaces) (hauction : m.auction = s.auction) (htrade : m.trade = s.trade)
    (hdebt : m.bankruptcy = s.bankruptcy) : OverlaysHeld m := by
  have hcash (pid : PlayerId) : m.cash pid = s.cash pid := by
    rw [GameState.cash, GameState.seat?, hseats]; rfl
  refine ⟨⟨?_, ?_, ?_⟩, ?_, ?_⟩
  · rw [hauction, hturn.1]; exact h.auction
  · rw [htrade, hturn.1]; exact h.trade
  · rw [hauction, hspaces]; exact h.unowned
  · rw [hturn.2, hauction, hspaces]; exact h.purchase
  · rw [hauction, htrade, hdebt]
    intro hpending debt hd
    rw [hcash]
    exact h.unpaid hpending debt hd

theorem no_auction (h : OverlaysHeld s) (hphase : s.turn.phase ≠ .auction) : s.auction = none := by
  by_contra hauction
  exact hphase (h.auction.mp hauction)

theorem no_trade (h : OverlaysHeld s) (hphase : s.turn.phase ≠ .tradeNegotiation) :
    s.trade = none := by
  by_contra htrade
  exact hphase (h.trade.mp htrade)

/-- A phase of the two gives the other away. -/
theorem auction_of_trade (h : OverlaysHeld s) (htrade : s.trade ≠ none) : s.auction = none :=
  h.no_auction fun hphase => by
    rw [h.trade.mp htrade] at hphase
    cases hphase

theorem trade_of_auction (h : OverlaysHeld s) (hauction : s.auction ≠ none) : s.trade = none :=
  h.no_trade fun hphase => by
    rw [h.auction.mp hauction] at hphase
    cases hphase

theorem unowned_pending (h : OverlaysHeld s) {q : Nat}
    (hq : s.turn.pendingBuyPosition = some q) : (ownershipAt s.spaces q).ownerId = none :=
  (h.purchase q hq).2

end OverlaysHeld

/-- Nobody goes out during an auction or a trade of a game that goes on. -/
theorem Eliminated.overlaysHeld {d : PlayerState} {e : GameState} (hw : WellFormed s) (hl : Live s)
    (hd : d ∈ s.seats) (hcurrent : d.id = s.turn.currentPlayerId)
    (he : Eliminated s d command e) (ha : AfterElimination e m) (hlm : Live m)
    (hin : m.status = .inProgress)
    (hok : s.auction ≠ none ∨ s.trade ≠ none → (survivors s.seats).length = 2) :
    OverlaysHeld m := by
  obtain ⟨hmany, next, round, rfl⟩ := he.handedOn hw hl hd hcurrent ha hlm hin
  obtain ⟨heir, f, g, -, hr⟩ := he.removal hw
  have hnone := not_or.mp fun hpending => hmany (hok hpending)
  have hauction : e.auction = none := by rw [hr.frame]; simpa using hnone.1
  have htrade : e.trade = none := by rw [hr.frame]; simpa using hnone.2
  refine .clear hauction htrade ?_ ?_ (by simp [passTurn])
  all_goals rcases openingPhase_cases next with h | h <;> simp [passTurn, h]

theorem Dispatched.overlaysHeld (hw : WellFormed s) (hl : Live s) (h : OverlaysHeld s)
    (hin : m.status = .inProgress) (hmay : MayAct s command)
    (hok : KeepsOverlays s ⟨command, env⟩) (hd : Dispatched s env command m) : OverlaysHeld m := by
  have hlm := hd.live hw hl hmay
  have hturn {turn : TurnState} (hturn : turn = s.turn) : turn.phase = s.turn.phase ∧
      turn.pendingBuyPosition = s.turn.pendingBuyPosition := by simp [hturn]
  -- where neither is pending, a handler that sets neither phase leaves it so
  have hclear {m : GameState} (hphases : s.turn.phase ≠ .auction ∧ s.turn.phase ≠ .tradeNegotiation)
      (hauction : m.auction = s.auction) (htrade : m.trade = s.trade)
      (hm : m.turn.phase ≠ .auction ∧ m.turn.phase ≠ .tradeNegotiation)
      (hpurchase : ∀ q, m.turn.pendingBuyPosition = some q →
        (ownershipAt m.spaces q).ownerId = none) : OverlaysHeld m :=
    .clear (hauction.trans (h.no_auction hphases.1)) (htrade.trans (h.no_trade hphases.2)) hm.1 hm.2
      hpurchase
  cases hd with
  | rolled hphase _ _ hr =>
      have hframe := hr.rollFrame hw.toSound
      have hphases : s.turn.phase ≠ .auction ∧ s.turn.phase ≠ .tradeNegotiation := by
        rcases hphase with h | h <;> simp [h]
      refine hclear hphases (by rw [hframe.frame]) (by rw [hframe.frame]) ?_ fun q hq => ?_
      · have hend := hr.phase hphase
        constructor <;> intro hm <;> simp [hm, rollPhases] at hend
      · rw [show m.spaces = s.spaces by rw [hframe.frame]]
        exact (hframe.pending q hq).elim h.unowned_pending And.right
  | bought hphase _ _ _ _ _ _ =>
      have hphases : s.turn.phase ≠ .auction ∧ s.turn.phase ≠ .tradeNegotiation := by
        rcases hphase with h | h <;> simp [h]
      refine hclear hphases rfl rfl ?_ (by simp)
      simp only
      split
      · simp
      · exact hphases
  | @passed _ position hphase hpending =>
      have hnone := h.no_trade (by rcases hphase with h | h <;> simp [h])
      refine ⟨⟨iff_of_true (by simp [startAuction]) rfl,
        iff_of_false (by simp [startAuction, hnone]) (by simp [startAuction]), fun a ha => ?_⟩,
        by simp [startAuction], fun _ => hok.payable rfl⟩
      obtain rfl := Option.some.inj ha
      exact h.unowned_pending hpending
  | @ended _ next _ hphase _ _ _ _ =>
      refine hclear (by rcases hphase with h | h | h <;> simp [h]) rfl rfl ?_ (by simp [passTurn])
      rcases openingPhase_cases next with h | h <;> simp [passTurn, h]
  | bailed hphase _ _ _ _ | cardSpent hphase _ _ _ _ =>
      exact hclear (by simp [hphase]) rfl rfl (by simp) fun q hq => h.unowned_pending hq
  | reworked _ hphase hr =>
      have hphases : s.turn.phase ≠ .auction ∧ s.turn.phase ≠ .tradeNegotiation := by
        constructor <;> intro hm <;> simp [hm, buildPhases] at hphase
      cases hr with
      | mk _ _ hpos howner _ =>
          refine hclear hphases rfl rfl hphases fun q hq => ?_
          exact unowned_map hw.layout (fun o => by split <;> simp [hpos])
            (fun o _ ho => by split <;> simp [howner, ho]) (h.unowned_pending hq)
  | proposed _ hprop =>
      have hnone := hok.offer _ _ _ _ rfl
      have hpayable := hok.payable rfl
      cases hprop
      exact ⟨⟨iff_of_false (by simp [hnone]) (by simp), iff_of_true (by simp) rfl,
        by simp [hnone]⟩, fun q hq => ⟨hnone, h.unowned_pending hq⟩, fun _ => hpayable⟩
  | responded hresp =>
      cases hresp with
      | rejected htrade _ =>
          exact .clear (h.auction_of_trade (by simp [htrade])) rfl (by simp [dropTrade])
            (by simp [dropTrade]) fun q hq => h.unowned_pending hq
      | countered htrade _ _ _ =>
          exact ⟨⟨h.auction, iff_of_true (by simp) (h.trade.mp (by simp [htrade])), h.unowned⟩,
            h.purchase, fun _ => h.unpaid (.inr (by simp [htrade]))⟩
      | accepted htrade _ _ hexec =>
          have hnone := h.auction_of_trade (by simp [htrade])
          cases hexec with
          | mk hoffer hrequest _ =>
              refine .clear hnone rfl (by simp) (by simp) fun q hq => ?_
              have hfree := h.unowned_pending hq
              refine unowned_map hw.layout (swapSpace_position _) (fun o ho hnone => ?_) hfree
              -- a space that changes hands had an owner
              rw [ownerId_swapSpace, ho]
              split
              · rename_i hmem
                rw [(hrequest.titles q hmem).2.1] at hfree
                cases hfree
              · split
                · rename_i hmem
                  rw [(hoffer.titles q hmem).2.1] at hfree
                  cases hfree
                · exact hnone
  | bid hbid =>
      cases hbid with
      | mk hauction hphase _ _ _ _ _ =>
          have hsome : s.auction ≠ none := by simp [hauction]
          have hunowned := h.unowned _ hauction
          refine ⟨⟨iff_of_true (by simp) hphase, h.trade, fun a ha => ?_⟩,
            fun q hq => absurd (h.purchase q hq).1 hsome, fun _ => h.unpaid (.inl hsome)⟩
          obtain rfl := Option.some.inj ha
          exact hunowned
  | bankrupted hdebt hdebtor hdm hliquidated ha =>
      exact (Eliminated.bankrupted hdebt hdebtor hliquidated).overlaysHeld hw hl hdm
        (hmay _ rfl rfl).symm ha hlm hin (hok.elimination trivial)
  | surrendered hp hact hsurr ha =>
      exact (Eliminated.surrendered hact hsurr).overlaysHeld hw hl hp (hmay _ rfl rfl).symm ha hlm
        hin (hok.elimination trivial)
  | auctionIdle _ | tradeIdle _ | timerIdle _ => exact h
  | auctioned _ hauction hr =>
      have hsome : s.auction ≠ none := by simp [hauction]
      have hnone := h.trade_of_auction hsome
      have hpurchase (q : Nat) (hq : s.turn.pendingBuyPosition = some q) : False :=
        hsome (h.purchase q hq).1
      have hafter : afterAuction s.turn ≠ .auction ∧ afterAuction s.turn ≠ .tradeNegotiation := by
        unfold afterAuction; split <;> simp
      cases hr with
      | unsold _ _ | sold _ _ =>
          exact .clear rfl hnone hafter.1 hafter.2 fun q hq => (hpurchase q hq).elim
  | tradeLapsed htrade _ =>
      exact .clear (h.auction_of_trade (by simp [htrade])) rfl (by simp [dropTrade])
        (by simp [dropTrade]) fun q hq => h.unowned_pending hq
  | timerSkipped hdue _ _ _ hps ht =>
      have hphase := isTurnExpired_phase hdue
      have hphases : s.turn.phase ≠ .auction ∧ s.turn.phase ≠ .tradeNegotiation := by
        constructor <;> intro hm <;> simp [hm, activeTurnPhases] at hphase
      cases ht with
      | @passed next _ _ _ =>
          refine hclear hphases rfl rfl ?_ (by simp [passTurn])
          rcases openingPhase_cases next with h | h <;> simp [passTurn, h]
      | nobody _ => exact h.of_seats hps (hturn rfl) rfl rfl rfl rfl
  | timerSpent _ _ _ _ _ hps => exact h.of_seats hps (hturn rfl) rfl rfl rfl rfl
  | timerForced hdue hp hid hmax hact hsurr ha =>
      have he : Eliminated s (PlayerState.bare _) .turnTimeout _ := .forced hact hsurr
      exact he.overlaysHeld hw hl (mem_seats hp) hid ha hlm hin
        (hok.elimination ⟨hdue, _, hp, hid, hmax, hact⟩)

theorem Settled.overlaysHeld (h : OverlaysHeld s) (hsettled : Settled s m) : OverlaysHeld m := by
  cases hsettled with
  | free _ | owing _ _ => exact h
  | paid hdebt hle _ =>
      have hnone := not_or.mp fun hpending =>
        absurd hle (Int.not_le.mpr (h.unpaid hpending _ hdebt))
      exact .clear (by simpa using hnone.1) (by simpa using hnone.2) (by simp) (by simp)
        fun q hq => h.unowned_pending hq

theorem Stepped.overlaysHeld {s' : GameState} (hw : WellFormed s) (hl : Live s)
    (h : s.status = .inProgress → OverlaysHeld s) (hmay : MayAct s command)
    (hok : KeepsOverlays s ⟨command, env⟩) (hin : s'.status = .inProgress)
    (hstep : Stepped s env command s') : OverlaysHeld s' := by
  have htidy {a b : GameState} (ha : OverlaysHeld a) (ht : Tidied a b) : OverlaysHeld b := by
    cases ht with
    | mk hps => exact ha.of_seats hps ⟨rfl, rfl⟩ rfl rfl rfl rfl
  cases hstep with
  | replied _ hd ht =>
      rw [ht.status] at hin
      exact htidy (hd.overlaysHeld hw hl (h (hd.inProgress hw hmay hin)) hin hmay hok) ht
  | played _ hd hsettled ht =>
      rw [ht.status, hsettled.status] at hin
      exact htidy (hsettled.overlaysHeld
        (hd.overlaysHeld hw hl (h (hd.inProgress hw hmay hin)) hin hmay hok)) ht

/-- The command ends the turn, rolls or buys. -/
def GameCommand.playsOn : GameCommand → Bool
  | .endTurn _ | .rollDice _ | .buyProperty .. => true
  | _ => false

theorem Stepped.not_playsOn {s' : GameState} (hphase : s.turn.phase = .auction)
    (hstep : Stepped s env command s') : command.playsOn = false := by
  have hhandler {m : GameState} (hd : Dispatched s env command m) : command.playsOn = false := by
    cases hd with
    | rolled hroll _ _ _ => simp [hphase] at hroll
    | bought hpost _ _ _ _ _ _ | ended hpost _ _ _ _ => simp [hphase] at hpost
    | reworked hcommand _ _ => cases command <;> simp [GameCommand.rework] at hcommand <;> rfl
    | _ => rfl
  cases hstep with
  | replied _ hd _ | played _ hd _ _ => exact hhandler hd

end Calls

/-- **The overlays match the phase.** In every game whose calls keep to the
overlays, while the game is on an auction is pending exactly in the phase
`AUCTION` and a trade exactly in `TRADE_NEGOTIATION`; the property under
auction is unowned, and nobody ends a turn, rolls or buys while it is. -/
theorem overlays_match_phase {h : List (Taken GameState Call)} {s : GameState} (hplay : Play h s)
    (hok : ∀ t ∈ h, KeepsOverlays t.before t.label) (hin : s.status = .inProgress) :
    OverlaysMatch s ∧ ∀ call s', s.auction ≠ none → Accepted s call s' →
      call.command.playsOn = false := by
  obtain ⟨hw, hl⟩ := Play.formed hplay
  have hheld : OverlaysHeld s := by
    refine Play.invariant_of (I := fun s => s.status = .inProgress → OverlaysHeld s)
      (fun args s hopens _ => ?_) (fun s call s' hw hl hI hok hmay hstep hin => ?_) hplay hok hin
    · have hfresh := hopens.fresh
      exact .clear hfresh.auction hfresh.trade (by simp [hfresh.turn.1]) (by simp [hfresh.turn.1])
        (by simp [hfresh.turn.2.2])
    · exact hstep.overlaysHeld hw hl hI hmay hok hin
  refine ⟨hheld.toOverlaysMatch, fun call s' hauction haccepted => ?_⟩
  exact (haccepted.stepped hw hl).2.not_playsOn (hheld.auction.mp hauction)

/-- Player `1` passes on position `4` and offers a trade during the auction. -/
def offerDuringAuction : List Call :=
  [callAt 0 [0, 1] (.rollDice 1), callAt 0 [] (.passBuy 1), callAt 0 [] (.proposeTrade 1 2 {} {})]

/-- An auction and a trade are pending together. -/
theorem offer_during_auction_breaks_match :
    ∃ h s, Play h s ∧ h.reverse.map (·.label) = offerDuringAuction ∧ s.status = .inProgress ∧
      s.auction ≠ none ∧ s.trade ≠ none ∧ ¬ OverlaysMatch s := by
  obtain ⟨h, s, hplay, hlabels, hcheck⟩ := play_of_reaches (duo 1500) offerDuringAuction
    (fun _ s => decide (s.status = .inProgress ∧
      s.auction ≠ none ∧ s.trade ≠ none)) (by decide) (by decide +kernel)
  obtain ⟨hin, hauction, htrade⟩ := of_decide_eq_true hcheck
  refine ⟨h, s, hplay, hlabels, hin, hauction, htrade, fun hmatch => ?_⟩
  have hphase := hmatch.trade.mp htrade
  rw [hmatch.auction.mp hauction] at hphase
  cases hphase

/-- The auction alone matches its phase. -/
theorem overlays_match_during_auction :
    ∃ h s, Play h s ∧ h.reverse.map (·.label) =
      [callAt 0 [0, 1] (.rollDice 1), callAt 0 [] (.passBuy 1)] ∧ s.auction ≠ none ∧
        OverlaysMatch s := by
  obtain ⟨h, s, hplay, hlabels, hcheck⟩ := play_of_reaches (duo 1500)
    [callAt 0 [0, 1] (.rollDice 1), callAt 0 [] (.passBuy 1)]
    (fun h s => (h.all fun (t : Taken GameState Call) =>
      decide (t.before.bankruptcy = none)) && decide (s.status = .inProgress ∧ s.auction ≠ none))
    (by decide) (by decide +kernel)
  obtain ⟨hfree, hstate⟩ := (Bool.and_eq_true _ _).mp hcheck
  obtain ⟨hin, hauction⟩ := of_decide_eq_true hstate
  refine ⟨h, s, hplay, hlabels, hauction, (overlays_match_phase hplay (fun t ht => ?_) hin).1⟩
  have hnone := of_decide_eq_true (List.all_eq_true.mp hfree t ht)
  have hcall := label_mem_of_reverse hlabels ht
  simp only [List.mem_cons, List.not_mem_nil, or_false] at hcall
  refine ⟨fun pid target offer request hcommand => ?_, fun hout => ?_, by simp [hnone]⟩
  all_goals rcases hcall with hcall | hcall <;> simp [hcall, callAt, Eliminating] at *

end Monopoly
