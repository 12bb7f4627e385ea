import Monopoly.Laws.AuctionRun
import Monopoly.Laws.DebtCoherence
import Monopoly.Laws.Jail
import Monopoly.Spec.Phases

/-!
# Monopoly.Laws.JailedTurns

The turn of a player who is in jail.  It cannot hang: the player may roll, or
may end the turn, or gets there by turning a purchase down and by waiting for
an auction or a trade to end.  What stands in the way of that is a debt.
`EndTurn` is refused while any debt is pending, whoever owes it, and a player
who surrenders, or is moved on by the timer, leaves the debt behind for the
players after them.

* `DebtOutOfJail` is the invariant: while a debt is pending, the current player
  is free and has no roll to make, so a roll cannot jail them over it;
* `PlaysOn` says that a player gets to a roll or to the end of the turn, and
  `TurnHeld.playsOn` finds the way;
* `jail_invariant` is the result, `Stuck` what the defect leads to.
-/

namespace Monopoly

/-! ## no debt in jail -/

/-- While a debt is pending, the current player is free and has no roll to
make; and the phase of a debt comes with one. -/
structure DebtOutOfJail (s : GameState) : Prop where
  free : s.bankruptcy ≠ none → ∀ p ∈ s.seats, p.id = s.turn.currentPlayerId → p.jailStatus = none
  streak : s.bankruptcy ≠ none → s.turn.doublesStreak = 0
  noRoll : s.bankruptcy ≠ none → s.turn.phase ≠ .preRoll ∧ s.turn.phase ≠ .jailDecision
  owed : s.turn.phase = .bankruptResolution → s.bankruptcy ≠ none

/-- The call leaves no debt behind for the next player: who surrenders over a
debt, or is forced out, is one of the last two, and the timer does not just
pass the turn on. -/
structure StrandsNoDebt (s : GameState) (call : Call) : Prop where
  surrender : Surrenders s call.env call.command → s.bankruptcy ≠ none →
    (survivors s.seats).length = 2
  timer : call.command = .turnTimeout → isTurnExpired s call.env.clock.nowMs = true →
    ¬ ForcedOut s call.env.clock.nowMs → s.bankruptcy = none

section Debts

variable {s m a e : GameState} {r : PlayerId} {env : Env} {command : GameCommand}

namespace DebtOutOfJail

theorem of_none (hnone : m.bankruptcy = none) (hphase : m.turn.phase ≠ .bankruptResolution) :
    DebtOutOfJail m :=
  ⟨fun h => absurd hnone h, fun h => absurd hnone h, fun h => absurd hnone h,
    fun h => absurd h hphase⟩

/-- The debt and the turn stay, and nobody goes to jail. -/
theorem keep (h : DebtOutOfJail s) (hjail : JailsNobody s m)
    (hcurrent : m.turn.currentPlayerId = s.turn.currentPlayerId)
    (hstreak : m.turn.doublesStreak = s.turn.doublesStreak)
    (hdebt : m.bankruptcy = s.bankruptcy)
    (hroll : s.bankruptcy ≠ none → m.turn.phase ≠ .preRoll ∧ m.turn.phase ≠ .jailDecision)
    (howed : m.turn.phase = .bankruptResolution → s.turn.phase = .bankruptResolution) :
    DebtOutOfJail m where
  free hm q hq hid := by
    by_contra hjailed
    obtain ⟨p, hp, hpq, hpj⟩ := hjail q hq hjailed
    exact hpj (h.free (hdebt ▸ hm) p hp (hpq.trans (hid.trans hcurrent)))
  streak hm := hstreak.trans (h.streak (hdebt ▸ hm))
  noRoll hm := hroll (hdebt ▸ hm)
  owed hm := hdebt ▸ h.owed (howed hm)

/-- The whole turn record stays. -/
theorem keepTurn (h : DebtOutOfJail s) (hjail : JailsNobody s m) (hturn : m.turn = s.turn)
    (hdebt : m.bankruptcy = s.bankruptcy) : DebtOutOfJail m :=
  h.keep hjail (by rw [hturn]) (by rw [hturn]) hdebt (hturn ▸ h.noRoll) (by rw [hturn]; exact id)

end DebtOutOfJail

/-- A landing that opens a debt jails nobody. -/
theorem Touchdown.debt_jailsNobody {leg : Leg} {stop : Option CardDef} {jailed : Bool}
    (hnone : a.bankruptcy = none) (ht : Touchdown r a leg stop m jailed)
    (hdebt : m.bankruptcy ≠ none) : jailed = false ∧ JailsNobody a m := by
  cases jailed with
  | false => exact ⟨rfl, ht.jailsNobody⟩
  | true => cases ht with
    | jailSpace _ _ | jailCard _ _ => exact absurd hnone hdebt

/-- A roll that opens a debt leaves its player free, with no doubles
counted. -/
theorem Rolled.debtor {p : PlayerState} {rng : Rng} {goSalary jailFine : Int}
    (hnone : s.bankruptcy = none) (hr : Rolled s p rng goSalary jailFine m)
    (hdebt : m.bankruptcy ≠ none) :
    m.turn.doublesStreak = 0 ∧ ∀ q ∈ m.seats, q.id = p.id → q.jailStatus = none := by
  cases hr with
  | jailed _ _ _ _ | stayed _ _ _ _ => exact absurd hnone hdebt
  | @moved leg stop s₁ sentToJail _ _ _ _ ht _ =>
      have hdebt₁ : s₁.bankruptcy ≠ none := hdebt
      obtain ⟨rfl, hjail⟩ := ht.debt_jailsNobody (a := comeToRest s p.id leg) hnone hdebt₁
      refine ⟨by simp [turnAfterMove, Option.isSome_iff_ne_none.mpr hdebt₁], fun q hq hid => ?_⟩
      by_contra hjailed
      obtain ⟨x, hx, hxq, hxj⟩ := hjail q hq hjailed
      rw [seats_comeToRest] at hx
      obtain ⟨y, -, rfl⟩ := mem_editSeat.mp hx
      by_cases hy : y.id = p.id
      · rw [if_pos hy] at hxj
        exact hxj rfl
      · rw [if_neg hy] at hxq
        exact hy (hxq.trans hid)

theorem Dispatched.debtOutOfJail (hw : WellFormed s) (hl : Live s) (h : DebtOutOfJail s)
    (hin : m.status = .inProgress) (hmay : MayAct s command)
    (hok : StrandsNoDebt s ⟨command, env⟩) (hd : Dispatched s env command m) :
    DebtOutOfJail m := by
  have hlm := hd.live hw hl hmay
  have hfree (hphase : s.turn.phase = .preRoll ∨ s.turn.phase = .jailDecision) :
      s.bankruptcy = none := by
    by_contra hdebt
    exact hphase.elim (h.noRoll hdebt).1 (h.noRoll hdebt).2
  cases hd with
  | @rolled p _ hphase hp _ hr =>
      have hnone := hfree hphase
      have hresolved : DebtPhase m := by
        refine hr.debtPhase hnone (iff_of_false (by simp [hnone]) ?_)
        rcases hphase with hphase | hphase <;> simp [hphase]
      have hcurrent : m.turn.currentPlayerId = p.id := by
        rw [(hr.rollFrame hw.toSound).frame]
        exact hmay _ rfl rfl
      refine ⟨fun hdebt q hq hid => ?_, fun hdebt => (hr.debtor hnone hdebt).1, fun hdebt => ?_,
        hresolved.mpr⟩
      · exact (hr.debtor hnone hdebt).2 q hq (hid.trans hcurrent)
      · simp [hresolved.mp hdebt]
  | bought hphase _ _ _ _ _ hps =>
      refine h.keep (.of_edit hps (fun _ => rfl) fun _ hp => hp) rfl rfl rfl (fun hdebt => ?_) ?_
      · simpa [h.streak hdebt] using h.noRoll hdebt
      · by_cases hpos : 0 < s.turn.doublesStreak <;> simp [hpos]
  | passed _ _ =>
      exact h.keep (.of_seats_eq rfl) rfl rfl rfl (by simp [startAuction]) (by simp [startAuction])
  | ended _ _ hnone _ _ => exact .of_none hnone (openingPhase_ne _)
  | bailed hphase _ _ _ _ | cardSpent hphase _ _ _ _ =>
      exact .of_none (hfree (.inr hphase)) (by simp)
  | reworked _ _ hr =>
      cases hr with
      | mk _ hps _ _ _ => exact h.keepTurn (.of_edit hps (fun _ => rfl) fun _ hp => hp) rfl rfl
  | proposed _ hprop =>
      cases hprop
      exact h.keep (.of_seats_eq rfl) rfl rfl rfl (by simp) (by simp)
  | responded hresp =>
      cases hresp with
      | rejected _ _ =>
          exact h.keep (.of_seats_eq rfl) rfl rfl rfl (by simp [dropTrade]) (by simp [dropTrade])
      | countered _ _ _ _ => exact h.keepTurn (.of_seats_eq rfl) rfl rfl
      | accepted _ _ _ hexec =>
          cases hexec with
          | mk _ _ hps =>
              refine h.keep (.of_map hps (fun _ => swapSeat_id _ _) fun p hp => ?_) rfl rfl rfl
                (by simp) (by simp)
              unfold swapSeat
              split <;> (try split) <;> exact hp
  | bid hbid => cases hbid; exact h.keepTurn (.of_seats_eq rfl) rfl rfl
  | bankrupted hdebt hdebtor hdm hliquidated ha =>
      have hout := (Eliminated.bankrupted hdebt hdebtor hliquidated).clears hw hl hdm
        (hmay _ rfl rfl).symm ha hlm hin hok.surrender trivial
      exact .of_none hout.1 hout.2
  | surrendered hp hact hsurr ha =>
      have hout := (Eliminated.surrendered hact hsurr).clears hw hl hp (hmay _ rfl rfl).symm ha hlm
        hin hok.surrender trivial
      exact .of_none hout.1 hout.2
  | timerForced hdue hp hid hmax hact hsurr ha =>
      have he : Eliminated s (PlayerState.bare _) .turnTimeout _ := .forced hact hsurr
      have hout := he.clears hw hl (mem_seats hp) hid ha hlm hin hok.surrender
        ⟨hdue, _, hp, hid, hmax, hact⟩
      exact .of_none hout.1 hout.2
  | timerSkipped hdue hp hid hmax hps ht _ =>
      have hnone := hok.timer rfl hdue fun hforced => by
        have := (hforced.current hw.playerIds hp hid).1
        omega
      cases ht with
      | passed _ _ => exact .of_none hnone (openingPhase_ne _)
      | nobody _ => exact h.keepTurn (.of_seats_eq hps) rfl rfl
  | timerSpent _ _ _ _ _ hps => exact h.keepTurn (.of_seats_eq hps) rfl rfl
  | auctioned _ _ hr =>
      -- a late auction grants no roll over a debt: no doubles is counted then
      have hroll (hdebt : s.bankruptcy ≠ none) : afterAuction s.turn = .postRoll := by
        simp [afterAuction, h.streak hdebt]
      have howed : afterAuction s.turn ≠ .bankruptResolution := by
        unfold afterAuction
        split <;> simp
      cases hr with
      | unsold _ hps =>
          exact h.keep (.of_seats_eq hps) rfl rfl rfl (fun hdebt => by simp [hroll hdebt])
            fun hphase => absurd hphase howed
      | sold _ hps =>
          exact h.keep (.of_edit hps (fun _ => rfl) fun _ hp => hp) rfl rfl rfl
            (fun hdebt => by simp [hroll hdebt]) fun hphase => absurd hphase howed
  | tradeLapsed _ _ =>
      exact h.keep (.of_seats_eq rfl) rfl rfl rfl (by simp [dropTrade]) (by simp [dropTrade])
  | auctionIdle _ | tradeIdle _ | timerIdle _ => exact h

theorem Tidied.debtOutOfJail (h : DebtOutOfJail s) (ht : Tidied s m) : DebtOutOfJail m := by
  have hseats := ht.seats_eq
  cases ht with
  | mk _ => exact h.keep (.of_seats_eq hseats) rfl rfl rfl h.noRoll id

theorem Settled.debtOutOfJail (h : DebtOutOfJail s) (hs : Settled s m) : DebtOutOfJail m := by
  cases hs with
  | free _ | owing _ _ => exact h
  | paid _ _ _ => exact .of_none rfl (by simp)

theorem Play.debtOutOfJail {h : List (Taken GameState Call)} (hplay : Play h s)
    (hok : ∀ t ∈ h, StrandsNoDebt t.before t.label) :
    s.status = .inProgress → DebtOutOfJail s := by
  refine Play.invariant_of (I := fun s => s.status = .inProgress → DebtOutOfJail s)
    (fun args s hopens _ => ?_) (fun s call s' hw hl hI hok hmay hstep hin => ?_) hplay hok
  · have hfresh := hopens.fresh
    exact .of_none hfresh.bankruptcy (by simp [hfresh.turn.1])
  · have hs := hI (hstep.inProgress hw hmay hin)
    cases hstep with
    | replied _ hd ht =>
        rw [ht.status] at hin
        exact ht.debtOutOfJail (hd.debtOutOfJail hw hl hs hin hmay hok)
    | played _ hd hsettled ht =>
        rw [ht.status, hsettled.status] at hin
        exact ht.debtOutOfJail (hsettled.debtOutOfJail (hd.debtOutOfJail hw hl hs hin hmay hok))

end Debts

/-! ## the way on -/

/-- The player gets to a roll or to the end of the turn: at once, or after
turning a purchase down and waiting for an auction or a trade to end. -/
inductive PlaysOn (pid : PlayerId) : GameState → Prop
  | roll {s : GameState} : (∀ env, ∃ s', Accepted s ⟨.rollDice pid, env⟩ s') → PlaysOn pid s
  | endTurn {s : GameState} : (∀ env, ∃ s', Accepted s ⟨.endTurn pid, env⟩ s') → PlaysOn pid s
  | after {s s' : GameState} {call : Call} :
      call.command ∈ [.passBuy pid, .advanceAuction, .expireTrade] → Accepted s call s' →
      PlaysOn pid s' → PlaysOn pid s

/-- The player `pid` has the turn in a game that is on, after a roll, with no
doubles counted and no debt pending. -/
structure TurnHeld (s : GameState) (pid : PlayerId) : Prop where
  formed : WellFormed s
  live : Live s
  status : s.status = .inProgress
  current : s.turn.currentPlayerId = pid
  streak : s.turn.doublesStreak = 0
  free : s.bankruptcy = none

/-- The handler leaves the game, the turn and the debt as they are. -/
structure SameTurn (s m : GameState) : Prop where
  status : m.status = s.status
  current : m.turn.currentPlayerId = s.turn.currentPlayerId
  streak : m.turn.doublesStreak = s.turn.doublesStreak
  debt : m.bankruptcy = s.bankruptcy

namespace TurnHeld

variable {s s' m : GameState} {pid : PlayerId} {call : Call}

/-- The turn is held after a call that leaves it alone, in the phase that the
handler has set, with the purchase and the auction that it has left. -/
theorem after {Q : TurnPhase → Option Nat → Option AuctionState → Prop} (h : TurnHeld s pid)
    (ha : Accepted s call s') (hd : ∀ m, Dispatched s call.env call.command m →
      SameTurn s m ∧ Q m.turn.phase m.turn.pendingBuyPosition m.auction) :
    TurnHeld s' pid ∧ Q s'.turn.phase s'.turn.pendingBuyPosition s'.auction := by
  obtain ⟨hmay, hstep⟩ := ha.stepped h.formed h.live
  have hw' := hstep.wellFormed h.formed
  have hl' := hstep.live h.formed h.live hmay
  have htidy {m : GameState} (hm : Dispatched s call.env call.command m) (ht : Tidied m s') :
      TurnHeld s' pid ∧ Q s'.turn.phase s'.turn.pendingBuyPosition s'.auction := by
    obtain ⟨hsame, hq⟩ := hd m hm
    cases ht with
    | mk _ =>
        exact ⟨⟨hw', hl', hsame.status.trans h.status, hsame.current.trans h.current,
          hsame.streak.trans h.streak, hsame.debt.trans h.free⟩, hq⟩
  cases hstep with
  | replied _ hm ht => exact htidy hm ht
  | played _ hm hsettled ht =>
      have hfree := (hd _ hm).1.debt.trans h.free
      cases hsettled with
      | free _ => exact htidy hm ht
      | owing hdebt _ | paid hdebt _ _ => rw [hfree] at hdebt; cases hdebt

theorem player (h : TurnHeld s pid) : ∃ p ∈ s.players, p.id = pid :=
  h.current ▸ h.formed.current.player

theorem accepts (h : TurnHeld s pid) {command : GameCommand} {env : Env}
    (hplayer : command.player.all (· = pid)) (hr : Returns (dispatch s command env)) :
    ∃ s', Accepted s ⟨command, env⟩ s' :=
  accepted_of_returns h.formed h.live (fun q hq _ => by simp_all [h.current]) hr

/-! ## the ways on from each phase -/

/-- With nothing to buy the turn can be ended. -/
theorem mayEnd (h : TurnHeld s pid)
    (hphase : s.turn.phase = .postRoll ∨ s.turn.phase = .mustPayRent)
    (hpending : s.turn.pendingBuyPosition = none) : PlaysOn pid s := by
  obtain ⟨p, hp, rfl⟩ := h.player
  refine .endTurn fun env => h.accepts (by simp [GameCommand.player]) ?_
  exact (handleEndTurn_returns h.formed hp (h.live h.status).1 hphase hpending
    h.free).keepRng _

/-- An auction that is due ends in the phase after a roll. -/
theorem endAuction (h : TurnHeld s pid) {auction : AuctionState}
    (hauction : s.auction = some auction) :
    ∃ call s', call.command = .advanceAuction ∧ Accepted s call s' ∧ TurnHeld s' pid ∧
      s'.turn.phase = .postRoll ∧ s'.turn.pendingBuyPosition = s.turn.pendingBuyPosition := by
  set call := callAt (auction.startedAtMs + auction.timeRemainingMs) [] .advanceAuction
  obtain ⟨s', ha⟩ := advanceAuction_returns ⟨h.formed, h.live⟩ h.status
    (show call.command = .advanceAuction from rfl)
  have hdue : isAuctionExpired s call.env.clock.nowMs = true := by
    simp [isAuctionExpired, hauction, auctionTimeRemaining, call, callAt]
  have hafter : afterAuction s.turn = .postRoll := by simp [afterAuction, h.streak]
  refine ⟨call, s', rfl, ha, h.after (Q := fun phase pending _ => phase = .postRoll ∧
    pending = s.turn.pendingBuyPosition) ha fun m hd => ?_⟩
  cases hd with
  | reworked hcommand _ _ => cases hcommand
  | auctionIdle hidle => rw [hdue] at hidle; cases hidle
  | auctioned _ _ hr => cases hr <;> exact ⟨⟨rfl, rfl, rfl, rfl⟩, hafter, rfl⟩

/-- A trade that has run out ends in the phase after a roll. -/
theorem endTrade (h : TurnHeld s pid) {trade : TradeState} (htrade : s.trade = some trade) :
    ∃ call s', call.command = .expireTrade ∧ Accepted s call s' ∧ TurnHeld s' pid ∧
      s'.turn.phase = .postRoll := by
  set env : Env := { (callAt 0 [] .expireTrade).env with clock := ⟨0, trade.expiresAt⟩ } with henv
  have hreturns : Returns (dispatch s .expireTrade env) := by
    rw [dispatch, Returns, sat_map, htrade, sat_ite]
    exact ⟨fun _ => trivial, fun _ => trivial⟩
  obtain ⟨s', ha⟩ := h.accepts rfl hreturns
  refine ⟨⟨.expireTrade, env⟩, s', rfl, ha,
    h.after (Q := fun phase _ _ => phase = .postRoll) ha fun m hd => ?_⟩
  cases hd with
  | reworked hcommand _ _ => cases hcommand
  | tradeIdle hidle => exact absurd (hidle trade htrade) (by simp [henv])
  | tradeLapsed _ _ => exact ⟨⟨rfl, rfl, rfl, rfl⟩, rfl⟩

/-- A purchase that is turned down goes to auction, and nothing is left to
buy. -/
theorem turnDown (h : TurnHeld s pid) (hphase : s.turn.phase = .postRoll) {pos : Nat}
    (hpending : s.turn.pendingBuyPosition = some pos) :
    ∃ call s', call.command = .passBuy pid ∧ Accepted s call s' ∧ TurnHeld s' pid ∧
      s'.turn.pendingBuyPosition = none ∧ s'.auction ≠ none := by
  obtain ⟨p, hp, rfl⟩ := h.player
  set call := callAt 0 [] (.passBuy p.id)
  have hreturns : Returns (dispatch s (.passBuy p.id) call.env) :=
    (handlePassBuy_returns h.formed hp hphase hpending _).keepRng _
  obtain ⟨s', ha⟩ := h.accepts (by simp [GameCommand.player]) hreturns
  refine ⟨call, s', rfl, ha, h.after (Q := fun _ pending auction => pending = none ∧
    auction ≠ none) ha fun m hd => ?_⟩
  cases hd with
  | reworked hcommand _ _ => cases hcommand
  | passed _ _ => exact ⟨⟨rfl, rfl, rfl, rfl⟩, rfl, by simp [startAuction]⟩

/-- After a roll: what there is to buy is turned down, and the auction over it
awaited. -/
theorem playsOn_postRoll (h : TurnHeld s pid) (hphase : s.turn.phase = .postRoll) :
    PlaysOn pid s := by
  cases hpending : s.turn.pendingBuyPosition with
  | none => exact h.mayEnd (.inl hphase) hpending
  | some pos =>
      obtain ⟨pass, s₁, hpass, ha₁, h₁, hnone, hauction⟩ := h.turnDown hphase hpending
      obtain ⟨auction, hauction⟩ := Option.ne_none_iff_exists'.mp hauction
      obtain ⟨tick, s₂, htick, ha₂, h₂, hphase₂, hsame⟩ := h₁.endAuction hauction
      exact .after (by simp [hpass]) ha₁
        (.after (by simp [htick]) ha₂ (h₂.mayEnd (.inl hphase₂) (hsame.trans hnone)))

/-- A turn that is held in a phase of the game goes on, but for a free roll. -/
theorem playsOn (h : TurnHeld s pid) (hphased : Phased s) (hrent : RentClear s)
    (hroll : s.turn.phase ≠ .preRoll) (hresolve : s.turn.phase ≠ .bankruptResolution) :
    PlaysOn pid s := by
  unfold Phased at hphased
  cases hphase : s.turn.phase with
  | preRoll => exact absurd hphase hroll
  | bankruptResolution => exact absurd hphase hresolve
  | postRoll => exact h.playsOn_postRoll hphase
  | mustPayRent => exact h.mayEnd (.inr hphase) (hrent hphase).1
  | jailDecision =>
      obtain ⟨p, hp, rfl⟩ := h.player
      exact .roll fun env => h.accepts (by simp [GameCommand.player])
        (handleRollDice_returns h.formed.toSound hp (.inr hphase) (by simp [hphase]) _ _ _)
  | auction =>
      simp only [hphase] at hphased
      obtain ⟨auction, hauction⟩ := Option.ne_none_iff_exists'.mp hphased
      obtain ⟨tick, s', htick, ha, h', hphase', -⟩ := h.endAuction hauction
      exact .after (by simp [htick]) ha (h'.playsOn_postRoll hphase')
  | tradeNegotiation =>
      simp only [hphase] at hphased
      obtain ⟨trade, htrade⟩ := Option.ne_none_iff_exists'.mp hphased
      obtain ⟨tick, s', htick, ha, h', hphase'⟩ := h.endTrade htrade
      exact .after (by simp [htick]) ha (h'.playsOn_postRoll hphase')
  | gameOver =>
      simp only [hphase, h.status] at hphased
      cases hphased
  | drawingCard =>
      simp only [hphase] at hphased

end TurnHeld

/-! ## every state of a game -/

section Games

variable {h : List (Taken GameState Call)} {s : GameState}

/-- **The jail invariant.** In a game that is on, whoever is in jail sits on
its position, is in the game and has one to three turns left; and when it is
their turn, no doubles is counted and they are not about to roll a free roll.
Where no call has left a debt behind for the next player, they get to a roll or
to the end of their turn. -/
theorem jail_invariant (hplay : Play h s) (hin : s.status = .inProgress) :
    (∀ p ∈ s.players, ∀ jail, p.jailStatus = some jail →
      p.position = (getGameConfig s.gameMode).jailPosition ∧ p.isBankrupt = false ∧
      1 ≤ jail.turnsRemaining ∧ jail.turnsRemaining ≤ 3) ∧
    (∀ p ∈ s.players, p.id = s.turn.currentPlayerId → p.jailStatus ≠ none →
      s.turn.doublesStreak = 0 ∧ s.turn.phase ≠ .preRoll) ∧
    ((∀ t ∈ h, StrandsNoDebt t.before t.label) → ∀ p ∈ s.players,
      p.id = s.turn.currentPlayerId → p.jailStatus ≠ none → PlaysOn p.id s) := by
  refine ⟨fun p hp jail hjail => ?_, fun p hp hid hjail => ?_, fun hok p hp hid hjail => ?_⟩
  · exact hplay.jailKept hin p.bare (mem_seats hp) jail hjail
  · obtain ⟨hphase, hstreak⟩ := hplay.rollsFree p.bare (mem_seats hp) hid hjail
    exact ⟨hstreak, hphase⟩
  · obtain ⟨hphase, hstreak⟩ := hplay.rollsFree p.bare (mem_seats hp) hid hjail
    have hdebts := hplay.debtOutOfJail hok hin
    have hfree : s.bankruptcy = none := by
      by_contra hdebt
      exact hjail (hdebts.free hdebt p.bare (mem_seats hp) hid)
    have hheld : TurnHeld s p.id :=
      ⟨hplay.formed.1, hplay.formed.2, hin, hid.symm, hstreak, hfree⟩
    exact hheld.playsOn hplay.phased hplay.rentClear hphase fun hresolve =>
      hdebts.owed hresolve hfree

/-- Player `1` goes to jail by three doubles, and player `3` rolls to a tax
above their cash; `out` is how player `3` then leaves the game, and player `1`
fails to roll a doubles. -/
def jailedBehind (out : GameCommand) : List Call :=
  [callAt 0 [4, 4] (.rollDice 1), callAt 0 [4, 4] (.rollDice 1), callAt 0 [4, 4] (.rollDice 1),
    callAt 0 [] (.endTurn 1), callAt 0 [3, 5] (.rollDice 2), callAt 0 [] (.endTurn 2),
    callAt 0 [0, 2] (.rollDice 3), callAt 0 [] out, callAt 0 [0, 1] (.rollDice 1)]

/-- Player `3` declares the bankruptcy, and player `1` gets on. -/
theorem jail_invariant_declared : ∃ h s p, Play h s ∧
    h.reverse.map (·.label) = jailedBehind (.declareBankruptcy 3) ∧ p ∈ s.players ∧
    p.id = s.turn.currentPlayerId ∧ p.jailStatus = some ⟨2⟩ ∧
    p.position = (getGameConfig s.gameMode).jailPosition ∧ s.turn.doublesStreak = 0 ∧
    s.turn.phase ≠ .preRoll ∧ PlaysOn p.id s := by
  obtain ⟨h, s, hplay, hlabels, hcheck⟩ := play_of_reaches (trio 10)
    (jailedBehind (.declareBankruptcy 3))
    (fun _ s => decide (s.status = .inProgress ∧ ∃ p ∈ s.players,
      p.id = s.turn.currentPlayerId ∧ p.jailStatus = some ⟨2⟩)) (by decide) (by decide +kernel)
  obtain ⟨hin, p, hp, hid, hjail⟩ := of_decide_eq_true hcheck
  obtain ⟨hcells, hcurrent, hon⟩ := jail_invariant hplay hin
  have hjailed : p.jailStatus ≠ none := by simp [hjail]
  obtain ⟨hstreak, hphase⟩ := hcurrent p hp hid hjailed
  refine ⟨h, s, p, hplay, hlabels, hp, hid, hjail, (hcells p hp _ hjail).1, hstreak, hphase,
    hon (fun t ht => ?_) p hp hid hjailed⟩
  have hcall : t.label ∈ jailedBehind (.declareBankruptcy 3) := label_mem_of_reverse hlabels ht
  simp only [jailedBehind, List.mem_cons, List.not_mem_nil, or_false] at hcall
  rcases hcall with hcall | hcall | hcall | hcall | hcall | hcall | hcall | hcall | hcall <;>
    exact ⟨by simp [hcall, callAt, Surrenders], by simp [hcall, callAt]⟩

end Games

/-! ## the turn behind a stranded debt -/

/-- The player has the turn after a roll, with a debt pending that is not
theirs and that its debtor cannot pay. -/
structure Stuck (s : GameState) (pid : PlayerId) : Prop where
  current : s.turn.currentPlayerId = pid
  phase : s.turn.phase = .postRoll
  pending : s.turn.pendingBuyPosition = none
  auction : s.auction = none
  trade : s.trade = none
  owed : ∃ debt, s.bankruptcy = some debt ∧ debt.debtorId ≠ pid ∧
    s.cash debt.debtorId < debt.amountOwed

/-- What the player could do to leave the jail, to end the turn or to clear the
debt. -/
def waysOn (pid : PlayerId) : List GameCommand :=
  [.rollDice pid, .payJailFine pid, .useJailCard pid, .endTurn pid, .passBuy pid,
    .declareBankruptcy pid]

namespace Stuck

variable {s s' : GameState} {pid : PlayerId} {call : Call}

theorem refused (h : Stuck s pid) (hw : WellFormed s) (hl : Live s)
    (hway : call.command ∈ waysOn pid) : ¬ Accepted s call s' := by
  obtain ⟨command, env⟩ := call
  obtain ⟨debt, hdebt, hdebtor, -⟩ := h.owed
  intro ha
  obtain ⟨-, m, hd⟩ := ha.dispatched hw hl
  simp only [waysOn, List.mem_cons, List.not_mem_nil, or_false] at hway hd
  rcases hway with rfl | rfl | rfl | rfl | rfl | rfl <;> cases hd
  case rolled hphase _ _ _ => simp [h.phase] at hphase
  case bailed hphase _ _ _ _ => simp [h.phase] at hphase
  case cardSpent hphase _ _ _ _ => simp [h.phase] at hphase
  case ended hnone _ _ _ => simp [hdebt] at hnone
  case passed hpending => simp [h.pending] at hpending
  case bankrupted hdebt' hdebtor' _ _ _ =>
    obtain rfl := Option.some.inj (hdebt.symm.trans hdebt')
    exact hdebtor hdebtor'
  all_goals simp_all [GameCommand.rework]

/-- The timers of the auction and of the trade find nothing to do. -/
theorem tick (h : Stuck s pid) (hw : WellFormed s) (hl : Live s)
    (htick : call.command = .advanceAuction ∨ call.command = .expireTrade)
    (ha : Accepted s call s') : Stuck s' pid := by
  obtain ⟨command, env⟩ := call
  obtain ⟨debt, hdebt, hdebtor, hshort⟩ := h.owed
  obtain ⟨-, hstep⟩ := ha.stepped hw hl
  have hidle {m : GameState} (hd : Dispatched s env command m) : m = s := by
    rcases htick with rfl | rfl <;> cases hd
    case auctioned hauction _ => simp [h.auction] at hauction
    case tradeLapsed htrade _ => simp [h.trade] at htrade
    all_goals simp_all [GameCommand.rework]
  have htidy (ht : Tidied s s') : Stuck s' pid := by
    have hcash := ht.cash
    cases ht with
    | mk _ => exact ⟨h.current, h.phase, h.pending, h.auction, h.trade, debt, hdebt, hdebtor,
        hcash debt.debtorId ▸ hshort⟩
  cases hstep with
  | replied _ hd ht =>
      obtain rfl := hidle hd
      exact htidy ht
  | played _ hd hsettled ht =>
      obtain rfl := hidle hd
      cases hsettled with
      | free hnone => simp [hdebt] at hnone
      | owing _ _ => exact htidy ht
      | paid hdebt' hpays _ =>
          obtain rfl := Option.some.inj (hdebt.symm.trans hdebt')
          exact absurd hpays (Int.not_le.mpr hshort)

theorem not_playsOn (h : Stuck s pid) (hw : WellFormed s) (hl : Live s) : ¬ PlaysOn pid s := by
  intro hon
  induction hon with
  | @roll s hroll =>
      obtain ⟨s', ha⟩ := hroll (callAt 0 [] .turnTimeout).env
      exact h.refused hw hl (by simp [waysOn]) ha
  | @endTurn s hend =>
      obtain ⟨s', ha⟩ := hend (callAt 0 [] .turnTimeout).env
      exact h.refused hw hl (by simp [waysOn]) ha
  | @after s s' call hcall ha _ ih =>
      simp only [List.mem_cons, List.not_mem_nil, or_false] at hcall
      obtain ⟨hmay, hstep⟩ := ha.stepped hw hl
      rcases hcall with hpass | htick
      · exact h.refused hw hl (by simp [waysOn, hpass]) ha
      · exact ih (h.tick hw hl htick ha) (hstep.wellFormed hw) (hstep.live hw hl hmay)

end Stuck

/-- Player `3` surrenders over the debt instead: player `1`, in jail and after
the roll, may neither roll nor leave the jail, end the turn or clear the
debt, and nothing they wait for changes that. -/
theorem stranded_debt_jams_jail : ∃ h s p, Play h s ∧
    h.reverse.map (·.label) = jailedBehind (.surrender 3) ∧ s.status = .inProgress ∧
    p ∈ s.players ∧ p.id = s.turn.currentPlayerId ∧ p.jailStatus ≠ none ∧
    (∀ command ∈ waysOn p.id, ∀ env s', ¬ Accepted s ⟨command, env⟩ s') ∧ ¬ PlaysOn p.id s := by
  obtain ⟨h, s, hplay, hlabels, hcheck⟩ := play_of_reaches (trio 10) (jailedBehind (.surrender 3))
    (fun _ s => decide (s.status = .inProgress ∧ s.turn.phase = .postRoll ∧
      s.turn.pendingBuyPosition = none ∧ s.auction = none ∧ s.trade = none ∧
      ∃ p ∈ s.players, p.id = s.turn.currentPlayerId ∧ p.jailStatus ≠ none ∧
        s.bankruptcy.any fun debt => decide (debt.debtorId ≠ p.id ∧
          s.cash debt.debtorId < debt.amountOwed)) ) (by decide) (by decide +kernel)
  obtain ⟨hin, hphase, hpending, hauction, htrade, p, hp, hid, hjail, hany⟩ :=
    of_decide_eq_true hcheck
  obtain ⟨debt, hdebt, howed⟩ := (Option.any_eq_true _ _).mp hany
  obtain ⟨hdebtor, hshort⟩ := of_decide_eq_true howed
  obtain ⟨hw, hl⟩ := hplay.formed
  have hstuck : Stuck s p.id :=
    ⟨hid.symm, hphase, hpending, hauction, htrade, debt, hdebt, hdebtor, hshort⟩
  exact ⟨h, s, p, hplay, hlabels, hin, hp, hid, hjail,
    fun command hway env s' => hstuck.refused hw hl hway, hstuck.not_playsOn hw hl⟩

end Monopoly
