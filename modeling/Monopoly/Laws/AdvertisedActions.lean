import Monopoly.Spec.Acceptance
import Monopoly.Spec.Replay

/-!
# Monopoly.Laws.AdvertisedActions

What `compute_actions` advertises, and what `apply` accepts.  The flags
repeat the guards of the handlers, but for the price of a purchase, the debt
of a turn that ends, the debtor of a bankruptcy, and the jail of a player
whose roll left the phase as it was.
-/

namespace Monopoly

/-! ## who may roll, and what a rent leaves behind -/

/-- A current player in jail has no roll to make outside the jail decision. -/
def RollsFree (s : GameState) : Prop :=
  ∀ p ∈ s.seats, p.id = s.turn.currentPlayerId → p.jailStatus ≠ none →
    s.turn.phase ≠ .preRoll ∧ s.turn.doublesStreak = 0

/-- After a rent was paid, no purchase and no debt is pending. -/
def RentClear (s : GameState) : Prop :=
  s.turn.phase = .mustPayRent → s.turn.pendingBuyPosition = none ∧ s.bankruptcy = none

/-- Everybody in jail was there before. -/
def JailsNobody (s m : GameState) : Prop :=
  ∀ q ∈ m.seats, q.jailStatus ≠ none → ∃ p ∈ s.seats, p.id = q.id ∧ p.jailStatus ≠ none

section Turns

variable {s m e a : GameState} {r pid : PlayerId} {env : Env} {command : GameCommand}

theorem JailsNobody.of_seats_eq (h : m.seats = s.seats) : JailsNobody s m :=
  fun q hq hjail => ⟨q, h ▸ hq, rfl, hjail⟩

theorem JailsNobody.of_map {f : PlayerState → PlayerState} (h : m.seats = s.seats.map f)
    (hid : ∀ p, (f p).id = p.id) (hjail : ∀ p, p.jailStatus = none → (f p).jailStatus = none) :
    JailsNobody s m := by
  intro q hq hqj
  rw [h] at hq
  obtain ⟨p, hp, rfl⟩ := List.mem_map.mp hq
  exact ⟨p, hp, (hid p).symm, fun hnone => hqj (hjail p hnone)⟩

theorem JailsNobody.of_edit {f : PlayerState → PlayerState} (h : m.seats = editSeat r f s.seats)
    (hid : ∀ p, (f p).id = p.id) (hjail : ∀ p, p.jailStatus = none → (f p).jailStatus = none) :
    JailsNobody s m :=
  .of_map h (fun p => by split <;> simp [hid]) fun p hp => by split <;> simp [hp, hjail]

theorem JailsNobody.trans (h : JailsNobody s m) (h' : JailsNobody m e) : JailsNobody s e := by
  intro q hq hqj
  obtain ⟨x, hx, hxq, hxj⟩ := h' q hq hqj
  obtain ⟨p, hp, hpx, hpj⟩ := h x hx hxj
  exact ⟨p, hp, hpx.trans hxq, hpj⟩

/-- The turn stays with its player, and no roll is granted but for a
doubles. -/
theorem RollsFree.keep (h : RollsFree s) (hjail : JailsNobody s m)
    (hcurrent : m.turn.currentPlayerId = s.turn.currentPlayerId)
    (hstreak : m.turn.doublesStreak = s.turn.doublesStreak)
    (hphase : m.turn.phase = .preRoll → s.turn.phase = .preRoll ∨ 0 < s.turn.doublesStreak) :
    RollsFree m := by
  intro q hq hid hqj
  obtain ⟨p, hp, hpq, hpj⟩ := hjail q hq hqj
  obtain ⟨hpre, hzero⟩ := h p hp (hpq.trans (hid.trans hcurrent)) hpj
  refine ⟨fun hm => ?_, hstreak.trans hzero⟩
  rcases hphase hm with hs | hpos
  · exact hpre hs
  · omega

/-- The turn passes to a player who starts it in the phase due. -/
theorem rollsFree_passTurn {next : PlayerState} {round : Nat} (hids : (e.seats.map (·.id)).Nodup)
    (hnext : next ∈ e.seats) : RollsFree { e with turn := passTurn e.turn next round } := by
  intro q hq hid hqj
  obtain rfl : q = next := eq_of_key_eq PlayerState.id hids hq hnext hid
  have hsome : q.jailStatus.isSome = true := Option.isSome_iff_ne_none.mpr hqj
  simp [passTurn, openingPhase, hsome]

theorem RollsFree.turnMoved (h : RollsFree e) (hids : (e.seats.map (·.id)).Nodup)
    (ht : TurnMoved e m) : RollsFree m := by
  cases ht with
  | passed hnext _ => exact rollsFree_passTurn hids hnext
  | nobody _ => exact h

theorem RollsFree.afterElimination (h : RollsFree e) (hids : (e.seats.map (·.id)).Nodup)
    (ha : AfterElimination e m) : RollsFree m := by
  cases ha with
  | passed _ _ ht => exact h.turnMoved hids ht
  | ended hc _ =>
      cases hc with
      | won _ _ => exact h.keep (.of_seats_eq rfl) rfl rfl (by simp)
      | unchanged _ => exact h

theorem Charged.jailsNobody {amount : Int} {creditor : Option PlayerId}
    (hc : Charged r amount creditor a m) : JailsNobody a m := by
  cases hc with
  | nothing _ hps | dropped _ _ _ hps | indebted _ _ _ hps => exact .of_seats_eq hps
  | paid _ _ hps => exact .of_map hps (fun _ => rfl) fun _ h => h

/-- A landing that does not send its player to jail sends nobody. -/
theorem Touchdown.jailsNobody {leg : Leg} {stop : Option CardDef}
    (ht : Touchdown r a leg stop m false) : JailsNobody a m := by
  cases ht with
  | taxed _ hc _ hps => exact hc.jailsNobody.trans (.of_seats_eq hps)
  | taxOwed _ hc _ | rented _ hc _ | rentOwed _ hc _ => exact hc.jailsNobody
  | charged _ hc => exact hc.jailsNobody
  | rested _ _ hps => exact .of_seats_eq hps
  | collected _ hps => exact .of_edit hps (fun _ => rfl) fun _ h => h
  | keptJailCard _ hps => exact .of_edit hps (fun _ => rfl) fun _ h => h
  | collectedFromEach _ _ hps =>
      refine .of_map hps (fun p => ?_) fun p hp => ?_
      · unfold collectEach; split <;> rfl
      · unfold collectEach; split <;> exact hp
  | paidEach _ hps =>
      refine .of_map hps (fun p => ?_) fun p hp => ?_
      · unfold payEach; split <;> [rfl; split <;> rfl]
      · unfold payEach; split <;> [exact hp; split <;> exact hp]

theorem Touchdown.rentClear {leg : Leg} {stop : Option CardDef} {jailed : Bool}
    (ha : a.turn.phase ≠ .mustPayRent) (ht : Touchdown r a leg stop m jailed) : RentClear m := by
  unfold RentClear
  cases ht with
  | rented _ _ hnone => exact fun _ => ⟨rfl, hnone⟩
  | charged _ hc => cases hc <;> simp [ha]
  | _ => simp [ha]

theorem Rolled.rentClear {p : PlayerState} {rng : Rng} {goSalary jailFine : Int}
    (hphase : s.turn.phase = .preRoll ∨ s.turn.phase = .jailDecision)
    (hr : Rolled s p rng goSalary jailFine m) : RentClear m := by
  cases hr with
  | jailed _ _ _ _ | stayed _ _ _ _ => simp [RentClear, stayTurn]
  | @moved leg stop s₁ sentToJail _ newStreak _ _ ht _ =>
      have hrest : (comeToRest s p.id leg).turn.phase ≠ .mustPayRent := by
        show s.turn.phase ≠ _
        rcases hphase with h | h <;> simp [h]
      have hclear := ht.rentClear hrest
      unfold RentClear at hclear ⊢
      unfold turnAfterMove
      split
      · split
        · simp
        · exact hclear
      · split
        · split <;> simp
        · exact hclear

theorem Rolled.rollsFree {p : PlayerState} {rng : Rng} {goSalary jailFine : Int} (hs : Sound s)
    (hr : Rolled s p rng goSalary jailFine m) (hcurrent : s.turn.currentPlayerId = p.id) :
    RollsFree m := by
  have hframe : m.turn.currentPlayerId = s.turn.currentPlayerId := by
    rw [(hr.rollFrame hs).frame]
  cases hr with
  | jailed _ _ _ _ | stayed _ _ _ _ => exact fun _ _ _ _ => ⟨by simp [stayTurn], rfl⟩
  | @moved leg stop s₁ sentToJail _ newStreak _ _ ht _ =>
      cases sentToJail with
      | true => exact fun _ _ _ _ => by simp [turnAfterMove]
      | false =>
          -- the roller left the jail, if there at all, and was not sent back
          intro q hq hid hqj
          obtain ⟨x, hx, hxq, hxj⟩ := ht.jailsNobody q hq hqj
          rw [seats_comeToRest] at hx
          obtain ⟨y, hy, rfl⟩ := mem_editSeat.mp hx
          have hyid : y.id = p.id := by
            have hxid : (if y.id = p.id then settleAt leg y else y).id = y.id := by
              split <;> rfl
            exact hxid.symm.trans (hxq.trans (hid.trans (hframe.trans hcurrent)))
          rw [if_pos hyid] at hxj
          exact absurd rfl hxj

theorem passTurn_phase (turn : TurnState) (next : PlayerState) (round : Nat) :
    (passTurn turn next round).phase ≠ .mustPayRent := by
  rcases openingPhase_cases next with hopen | hopen <;> simp [passTurn, hopen]

theorem AfterElimination.rentClear (h : RentClear e) (ha : AfterElimination e m) :
    RentClear m := by
  cases ha with
  | passed _ _ ht =>
      cases ht with
      | passed _ _ => exact fun hphase => absurd hphase (passTurn_phase _ _ _)
      | nobody _ => exact h
  | ended hc _ =>
      cases hc with
      | won _ _ => simp [RentClear]
      | unchanged _ => exact h

theorem Dispatched.rentClear (h : RentClear s) (hd : Dispatched s env command m) :
    RentClear m := by
  cases hd with
  | rolled hphase _ _ hr => exact hr.rentClear hphase
  | bought _ hpending _ _ _ _ _ =>
      intro hphase
      have hrent : s.turn.phase = .mustPayRent := by
        simp only at hphase
        split at hphase <;> [cases hphase; exact hphase]
      exact absurd (h hrent).1 (by simp [hpending])
  | ended _ _ _ _ _ => exact fun hphase => absurd hphase (passTurn_phase _ _ _)
  | reworked _ _ hr => cases hr; exact h
  | proposed _ hprop => cases hprop; simp [RentClear]
  | responded hresp =>
      cases hresp with
      | rejected _ _ => simp [RentClear, dropTrade]
      | countered _ _ _ _ => exact h
      | accepted _ _ _ hexec => cases hexec; simp [RentClear]
  | bid hbid => cases hbid; exact h
  | bankrupted _ _ _ hl ha =>
      refine ha.rentClear fun hphase => ?_
      cases hl with
      | toCreditor _ _ | toBank _ _ => exact ⟨(h hphase).1, rfl⟩
  | surrendered _ _ hsurr ha | timerForced _ _ _ _ _ hsurr ha =>
      cases hsurr
      refine AfterElimination.rentClear ?_ ha
      exact h
  | auctioned _ _ hr =>
      cases hr <;>
      · simp only [RentClear, afterAuction]
        split <;> simp
  | tradeLapsed _ _ => simp [RentClear, dropTrade]
  | timerSkipped _ _ _ _ _ ht =>
      cases ht with
      | passed _ _ => exact fun hphase => absurd hphase (passTurn_phase _ _ _)
      | nobody _ => exact h
  | passed _ _ => simp [RentClear, startAuction]
  | bailed _ _ _ _ _ | cardSpent _ _ _ _ _ => simp [RentClear]
  | auctionIdle _ | tradeIdle _ | timerIdle _ | timerSpent _ _ _ _ _ _ => exact h

/-- The current player has just left the jail. -/
theorem rollsFree_of_freed {f : PlayerState → PlayerState} (h : m.seats = editSeat r f s.seats)
    (hfree : ∀ p, (f p).jailStatus = none) (hcurrent : m.turn.currentPlayerId = r) :
    RollsFree m := by
  intro q hq hqid hqj
  rw [h] at hq
  obtain ⟨p, hp, rfl⟩ := mem_editSeat.mp hq
  by_cases hpr : p.id = r
  · rw [if_pos hpr] at hqj
    exact absurd (hfree p) hqj
  · rw [if_neg hpr, hcurrent] at hqid
    exact absurd hqid hpr

theorem Dispatched.rollsFree (hw : WellFormed s) (hmay : MayAct s command) (h : RollsFree s)
    (hd : Dispatched s env command m) : RollsFree m := by
  have hids : (m.seats.map (·.id)).Nodup := (hd.wellFormed hw).ids
  cases hd with
  | rolled _ _ _ hr => exact hr.rollsFree hw.toSound (hmay _ rfl rfl)
  | bought _ _ _ _ _ _ hps =>
      refine h.keep (.of_edit hps (fun _ => rfl) fun _ hp => hp) rfl rfl fun hphase => ?_
      by_cases hstreak : 0 < s.turn.doublesStreak
      · exact .inr hstreak
      · exact .inl (by simpa [hstreak] using hphase)
  | passed _ _ => exact h.keep (.of_seats_eq rfl) rfl rfl (by simp [startAuction])
  | ended _ _ _ hnext _ => exact rollsFree_passTurn hw.ids hnext
  | bailed _ _ _ _ hps =>
      exact rollsFree_of_freed hps (fun _ => rfl) (hmay _ rfl rfl)
  | cardSpent _ _ _ _ hps =>
      exact rollsFree_of_freed hps (fun _ => rfl) (hmay _ rfl rfl)
  | reworked _ _ hr =>
      cases hr with
      | mk _ hps _ _ _ =>
          exact h.keep (.of_edit hps (fun _ => rfl) fun _ hp => hp) rfl rfl
            fun hphase => .inl hphase
  | proposed _ hprop =>
      cases hprop
      exact h.keep (.of_seats_eq rfl) rfl rfl (by simp)
  | responded hresp =>
      cases hresp with
      | rejected _ _ => exact h.keep (.of_seats_eq rfl) rfl rfl (by simp [dropTrade])
      | countered _ _ _ _ => exact h
      | accepted _ _ _ hexec =>
          cases hexec with
          | mk _ _ hps =>
              refine h.keep (.of_map hps (fun _ => swapSeat_id _ _) fun p hp => ?_) rfl rfl
                (by simp)
              unfold swapSeat
              split <;> (try split) <;> exact hp
  | bid hbid => cases hbid; exact h
  | @bankrupted d debt e _ _ _ _ hl ha =>
      have hseats : m.seats = e.seats := by rw [ha.frame]; rfl
      refine RollsFree.afterElimination ?_ (hseats ▸ hids) ha
      cases hl with
      | toCreditor _ hps | toBank _ hps =>
          refine h.keep (.of_map hps (fun p => ?_) fun p hp => ?_) rfl rfl fun hphase => .inl hphase
          · split <;> (try split) <;> rfl
          · split <;> (try split) <;> first | rfl | exact hp
  | @surrendered d e _ _ _ hsurr ha | @timerForced d e _ _ _ _ _ _ hsurr ha =>
      have hseats : m.seats = e.seats := by rw [ha.frame]; rfl
      refine RollsFree.afterElimination ?_ (hseats ▸ hids) ha
      cases hsurr with
      | mk hps =>
          refine h.keep (.of_map hps (fun p => ?_) fun p hp => ?_) rfl rfl fun hphase => .inl hphase
          · split <;> rfl
          · split <;> first | rfl | exact hp
  | auctioned _ _ hr =>
      have hphase : afterAuction s.turn = .preRoll →
          s.turn.phase = .preRoll ∨ 0 < s.turn.doublesStreak := by
        unfold afterAuction
        split
        · exact fun _ => .inr ‹_›
        · simp
      cases hr with
      | unsold _ hps => exact h.keep (.of_seats_eq hps) rfl rfl hphase
      | sold _ hps => exact h.keep (.of_edit hps (fun _ => rfl) fun _ hp => hp) rfl rfl hphase
  | tradeLapsed _ _ => exact h.keep (.of_seats_eq rfl) rfl rfl (by simp [dropTrade])
  | @timerSkipped p ps _ _ _ _ _ hps ht =>
      have hsame : RollsFree { s with players := ps } :=
        h.keep (.of_seats_eq hps) rfl rfl fun hphase => .inl hphase
      have hsids : (GameState.seats { s with players := ps }).map (·.id) = s.seats.map (·.id) :=
        congrArg _ hps
      exact hsame.turnMoved (hsids ▸ hw.ids) ht
  | timerSpent _ _ _ _ _ hps =>
      exact h.keep (.of_seats_eq hps) rfl rfl fun hphase => .inl hphase
  | auctionIdle _ | tradeIdle _ | timerIdle _ => exact h

theorem Tidied.rollsFree (h : RollsFree s) (ht : Tidied s m) : RollsFree m := by
  have hseats := ht.seats_eq
  cases ht with
  | mk _ => exact h.keep (.of_seats_eq hseats) rfl rfl fun hphase => .inl hphase

theorem Settled.rollsFree (h : RollsFree s) (hs : Settled s m) : RollsFree m := by
  cases hs with
  | free _ | owing _ _ => exact h
  | paid _ _ hps => exact h.keep (.of_map hps (fun _ => rfl) fun _ hp => hp) rfl rfl (by simp)

theorem Play.rollsFree {h : List (Taken GameState Call)} (hplay : Play h s) : RollsFree s := by
  refine Play.invariant (fun args s hopens p hp _ hjail => ?_)
    (fun s call s' hw hl hI hmay hstepped => ?_) hplay
  · exact absurd (hopens.fresh.seats p hp).2.2.2.2.1 hjail
  · cases hstepped with
    | replied _ hd ht => exact ht.rollsFree (hd.rollsFree hw hmay hI)
    | played _ hd hsettled ht =>
        exact ht.rollsFree (hsettled.rollsFree (hd.rollsFree hw hmay hI))

theorem Play.rentClear {h : List (Taken GameState Call)} (hplay : Play h s) : RentClear s := by
  have htidied : ∀ {a b : GameState}, RentClear a → Tidied a b → RentClear b := by
    intro a b ha ht
    cases ht
    exact ha
  refine Play.invariant (fun args s hopens hphase => ?_)
    (fun s call s' hw hl hI hmay hstepped => ?_) hplay
  · exact ⟨hopens.fresh.turn.2.2, hopens.fresh.bankruptcy⟩
  · cases hstepped with
    | replied _ hd ht => exact htidied (hd.rentClear hI) ht
    | played _ hd hsettled ht =>
        refine htidied ?_ ht
        cases hsettled with
        | free _ | owing _ _ => exact hd.rentClear hI
        | paid _ _ _ => simp [RentClear]

end Turns

/-! ## flags -/

/-- The flags of an action set. -/
inductive Flag
  | canRoll
  | canBuy
  | canBuild
  | canMortgage
  | canUnmortgage
  | canTrade
  | canEndTurn
  | canPayJailFine
  | canUseJailCard
  | canBid
  | canDeclareBankruptcy
  | canSurrender

def ActionSet.has (actions : ActionSet) : Flag → Bool
  | .canRoll => actions.canRoll
  | .canBuy => actions.canBuy
  | .canBuild => actions.canBuild
  | .canMortgage => actions.canMortgage
  | .canUnmortgage => actions.canUnmortgage
  | .canTrade => actions.canTrade
  | .canEndTurn => actions.canEndTurn
  | .canPayJailFine => actions.canPayJailFine
  | .canUseJailCard => actions.canUseJailCard
  | .canBid => actions.canBid
  | .canDeclareBankruptcy => actions.canDeclareBankruptcy
  | .canSurrender => actions.canSurrender

/-- The commands of the player `pid` that a flag is about. -/
inductive Flag.Covers (s : GameState) (pid : PlayerId) : Flag → GameCommand → Prop
  | canRoll : Covers s pid .canRoll (.rollDice pid)
  | canBuy {pos : Nat} : s.turn.pendingBuyPosition = some pos →
      Covers s pid .canBuy (.buyProperty pid pos)
  | canBuild {pos : Nat} : Covers s pid .canBuild (.buildHouse pid pos)
  | canMortgage {pos : Nat} : Covers s pid .canMortgage (.mortgage pid pos)
  | canUnmortgage {pos : Nat} : Covers s pid .canUnmortgage (.unmortgage pid pos)
  | canTrade {target : PlayerState} {offer request : TradeOffer} : target ∈ s.players →
      target.id ≠ pid → Covers s pid .canTrade (.proposeTrade pid target.id offer request)
  | canEndTurn : Covers s pid .canEndTurn (.endTurn pid)
  | canPayJailFine : Covers s pid .canPayJailFine (.payJailFine pid)
  | canUseJailCard : Covers s pid .canUseJailCard (.useJailCard pid)
  | canBid {amount : Int} : Covers s pid .canBid (.placeBid pid amount)
  | canDeclareBankruptcy : Covers s pid .canDeclareBankruptcy (.declareBankruptcy pid)
  | canSurrender : Covers s pid .canSurrender (.surrender pid)

/-- Every flag that is up for a player covers a command that is accepted. -/
def FlagsKept (s : GameState) (env : Env) : Prop :=
  ∀ p ∈ s.players, ∃ actions, computeActions s p.id = .ok actions ∧
    ∀ flag, actions.has flag = true →
      ∃ command s', flag.Covers s p.id command ∧ Accepted s ⟨command, env⟩ s'

/-- When a flag is up for the player `p`. -/
def Flag.Up (s : GameState) (p : PlayerState) : Flag → Prop
  | .canRoll => p.id = s.turn.currentPlayerId ∧
      (s.turn.phase = .preRoll ∨ s.turn.phase = .jailDecision)
  | .canBuy => p.id = s.turn.currentPlayerId ∧ s.turn.phase = .postRoll ∧
      ∃ pos, s.turn.pendingBuyPosition = some pos ∧ (ownershipAt s.spaces pos).ownerId = none
  | .canBuild => p.id = s.turn.currentPlayerId ∧ s.turn.phase ∈ buildPhases ∧
      ∃ pos ∈ p.ownedPositions, canBuildOn s p.id pos = .ok true
  | .canMortgage => p.id = s.turn.currentPlayerId ∧ s.turn.phase ∈ buildPhases ∧
      ∃ pos ∈ p.ownedPositions, Monopoly.canMortgage s p.id pos = .ok true
  | .canUnmortgage => p.id = s.turn.currentPlayerId ∧ s.turn.phase ∈ buildPhases ∧
      ∃ pos ∈ p.ownedPositions, Monopoly.canUnmortgage s p.id pos = .ok true
  | .canTrade => p.id = s.turn.currentPlayerId ∧
      (s.turn.phase = .preRoll ∨ s.turn.phase = .postRoll) ∧ s.trade = none ∧
      s.turn.tradeOffersMade < maxTradeOffersPerTurn
  | .canEndTurn => p.id = s.turn.currentPlayerId ∧
      (s.turn.phase = .postRoll ∧ s.turn.pendingBuyPosition = none ∨
        s.turn.phase = .mustPayRent ∨
        s.turn.phase = .bankruptResolution ∧ s.bankruptcy = none)
  | .canPayJailFine => p.id = s.turn.currentPlayerId ∧ s.turn.phase = .jailDecision ∧
      jailFineAmount ≤ p.balance
  | .canUseJailCard => p.id = s.turn.currentPlayerId ∧ s.turn.phase = .jailDecision ∧
      0 < p.getOutOfJailCards
  | .canBid => s.turn.phase = .auction ∧ ∃ auction, s.auction = some auction ∧
      p.isBankrupt = false ∧ auction.highestBidderId ≠ some p.id ∧
      auction.highestBid < p.balance
  | .canDeclareBankruptcy => p.id = s.turn.currentPlayerId ∧ s.turn.phase = .bankruptResolution
  | .canSurrender => p.id = s.turn.currentPlayerId ∧
      s.turn.phase ∈ [.preRoll, .jailDecision, .postRoll, .mustPayRent]

section Flags

variable {s : GameState} {p : PlayerState}

/-- The search of `has_any_*` finds a position that passes the check, if
there is one. -/
theorem anyPosition_spec {check : Nat → Py Bool} {positions : List Nat}
    (h : ∀ q ∈ positions, Returns (check q)) :
    ∃ b, anyPosition check positions = .ok b ∧
      (b = true ↔ ∃ q ∈ positions, check q = .ok true) := by
  induction positions with
  | nil => exact ⟨false, rfl, by simp⟩
  | cons q rest ih =>
      obtain ⟨b, hb, -⟩ := (h q List.mem_cons_self).exists_ok
      obtain ⟨b', hb', hiff⟩ := ih fun r hr => h r (List.mem_cons_of_mem _ hr)
      cases b with
      | true => exact ⟨true, by simp only [anyPosition, hb, ok_bind]; rfl, by simp [hb]⟩
      | false =>
          refine ⟨b', by simp only [anyPosition, hb, ok_bind]; exact hb', hiff.trans ?_⟩
          simp [hb]

/-- The flags of a viewer, one by one. -/
theorem computeActions_spec (hw : WellFormed s) (hin : s.status = .inProgress)
    (hp : p ∈ s.players) : ∃ actions, computeActions s p.id = .ok actions ∧
      ∀ flag, actions.has flag = true ↔ flag.Up s p := by
  have hseat := seated_of_mem hp
  obtain ⟨canBuild, hbuild, hbuildIff⟩ := anyPosition_spec fun q hq =>
    (canBuildOn_sat hw.laid hseat (hw.owned hp q hq)).imp fun _ _ => trivial
  obtain ⟨canMort, hmort, hmortIff⟩ := anyPosition_spec fun q hq =>
    (canMortgage_sat hw.laid hseat (hw.owned hp q hq)).imp fun _ _ => trivial
  obtain ⟨canUnmort, hunmort, hunmortIff⟩ := anyPosition_spec fun q hq =>
    (canUnmortgage_sat hw.laid hseat (hw.owned hp q hq)).imp fun _ _ => trivial
  have hbuy : ∃ canBuy, canBuyPending s = .ok canBuy ∧ (canBuy = true ↔
      ∃ pos, s.turn.pendingBuyPosition = some pos ∧ (ownershipAt s.spaces pos).ownerId = none) := by
    unfold canBuyPending
    cases hpending : s.turn.pendingBuyPosition with
    | none => exact ⟨false, rfl, by simp⟩
    | some pos =>
        simp only [spaceAt_eq hw.layout (hw.pending pos hpending).onBoard, ok_bind]
        exact ⟨_, rfl, by simp⟩
  obtain ⟨canBuy, hbuy, hbuyIff⟩ := hbuy
  simp only [computeActions, hasAnyBuildable, hasAnyMortgageable, hasAnyUnmortgageable,
    hw.getPlayer hp, hbuild, hmort, hunmort, hbuy, ok_bind]
  by_cases hcurrent : p.id = s.turn.currentPlayerId
  · simp only [hcurrent, decide_true, Bool.not_true, Bool.false_eq_true, if_false]
    cases hphase : s.turn.phase with
    | auction =>
        cases hauction : s.auction with
        | none =>
            refine ⟨_, rfl, fun flag => ?_⟩
            cases flag <;> simp [ActionSet.has, Flag.Up, hphase, hauction, buildPhases]
        | some auction =>
            refine ⟨_, rfl, fun flag => ?_⟩
            cases flag <;>
              simp [ActionSet.has, Flag.Up, hphase, hauction, buildPhases, hcurrent, and_assoc]
    | preRoll =>
        refine ⟨_, rfl, fun flag => ?_⟩
        cases flag <;> simp [ActionSet.has, Flag.Up, hphase, buildPhases, hcurrent, hin,
          hbuildIff, hmortIff, hunmortIff]
    | postRoll =>
        refine ⟨_, rfl, fun flag => ?_⟩
        cases flag <;> simp [ActionSet.has, Flag.Up, hphase, buildPhases, hcurrent,
          hbuildIff, hmortIff, hunmortIff, hbuyIff]
    | bankruptResolution =>
        refine ⟨_, rfl, fun flag => ?_⟩
        cases flag <;> simp [ActionSet.has, Flag.Up, hphase, buildPhases, hcurrent,
          hbuildIff, hmortIff, hunmortIff]
    | jailDecision | mustPayRent | tradeNegotiation | drawingCard | gameOver =>
        refine ⟨_, rfl, fun flag => ?_⟩
        cases flag <;> simp [ActionSet.has, Flag.Up, hphase, buildPhases, hcurrent]
  · simp only [hcurrent, decide_false, Bool.not_false, if_true]
    cases hphase : s.turn.phase with
    | auction =>
        cases hauction : s.auction with
        | none =>
            refine ⟨_, rfl, fun flag => ?_⟩
            cases flag <;> simp [ActionSet.has, Flag.Up, hphase, hauction, hcurrent]
        | some auction =>
            refine ⟨_, rfl, fun flag => ?_⟩
            cases flag <;> simp [ActionSet.has, Flag.Up, hphase, hauction, hcurrent, and_assoc]
    | _ =>
        refine ⟨_, rfl, fun flag => ?_⟩
        cases flag <;> simp [ActionSet.has, Flag.Up, hphase, hcurrent]

end Flags

/-! ## the law -/

/-- What a flag leaves out does not fail: a current player in a jail decision
is in jail, or has neither the fine nor a card; an unowned space that is
offered can be paid for; no debt is pending where the turn may end; and the
bankruptcy that is resolved is the current player's. -/
structure FlagsGuarded (s : GameState) : Prop where
  jail : s.turn.phase = .jailDecision → ∀ p ∈ s.players, p.id = s.turn.currentPlayerId →
    p.jailStatus = none → p.balance < jailFineAmount ∧ p.getOutOfJailCards ≤ 0
  price : s.turn.phase = .postRoll → ∀ pos price, s.turn.pendingBuyPosition = some pos →
    (ownershipAt s.spaces pos).ownerId = none → (squareAt s.gameMode pos).price = some price →
    ∀ p ∈ s.players, p.id = s.turn.currentPlayerId → (price : Int) ≤ p.balance
  debt : s.turn.phase = .postRoll → s.turn.pendingBuyPosition = none → s.bankruptcy = none
  debtor : s.turn.phase = .bankruptResolution →
    ∃ debt, s.bankruptcy = some debt ∧ debt.debtorId = s.turn.currentPlayerId

section Law

variable {s m : GameState} {p : PlayerState} {pid : PlayerId} {env : Env} {flag : Flag}
  {h : List (Taken GameState Call)}

theorem Dispatched.of_payJailFine (hd : Dispatched s env (.payJailFine pid) m) :
    ∃ p ∈ s.seats, p.id = pid ∧ p.jailStatus ≠ none := by
  cases hd with
  | bailed _ hp hjail _ _ => exact ⟨_, hp, rfl, hjail⟩
  | reworked hcommand _ _ => cases hcommand

theorem Dispatched.of_useJailCard (hd : Dispatched s env (.useJailCard pid) m) :
    ∃ p ∈ s.seats, p.id = pid ∧ p.jailStatus ≠ none := by
  cases hd with
  | cardSpent _ hp hjail _ _ => exact ⟨_, hp, rfl, hjail⟩
  | reworked hcommand _ _ => cases hcommand

theorem Dispatched.of_buyProperty {pos : Nat} (hd : Dispatched s env (.buyProperty pid pos) m) :
    ∃ p ∈ s.seats, p.id = pid ∧ ∃ price, (squareAt s.gameMode pos).price = some price ∧
      (price : Int) ≤ p.balance := by
  cases hd with
  | bought _ _ _ hprice hp hfunds _ => exact ⟨_, hp, rfl, _, hprice, hfunds⟩
  | reworked hcommand _ _ => cases hcommand

theorem Dispatched.of_endTurn (hd : Dispatched s env (.endTurn pid) m) : s.bankruptcy = none := by
  cases hd with
  | ended _ _ hdebt _ _ => exact hdebt
  | reworked hcommand _ _ => cases hcommand

theorem Dispatched.of_declareBankruptcy (hd : Dispatched s env (.declareBankruptcy pid) m) :
    ∃ debt, s.bankruptcy = some debt ∧ debt.debtorId = pid := by
  cases hd with
  | bankrupted hdebt hid _ _ _ => exact ⟨_, hdebt, hid⟩
  | reworked hcommand _ _ => cases hcommand

/-- A flag that is up and kept covers a command that is dispatched. -/
theorem FlagsKept.dispatched (hw : WellFormed s) (hl : Live s) (hin : s.status = .inProgress)
    (hkept : FlagsKept s env) (hp : p ∈ s.players) (flag : Flag) (hup : flag.Up s p) :
    ∃ command m, flag.Covers s p.id command ∧ Dispatched s env command m := by
  obtain ⟨actions, hactions, hflags⟩ := hkept p hp
  obtain ⟨actions', hactions', hiff⟩ := computeActions_spec hw hin hp
  obtain rfl := Except.ok.inj (hactions.symm.trans hactions')
  obtain ⟨command, s', hcovers, ha⟩ := hflags flag ((hiff flag).mpr hup)
  obtain ⟨-, m, hd⟩ := ha.dispatched hw hl
  exact ⟨command, m, hcovers, hd⟩

/-- The flags that leave a guard out are kept only where it holds. -/
theorem FlagsKept.guarded (hw : WellFormed s) (hl : Live s) (hin : s.status = .inProgress)
    (hkept : FlagsKept s env) : FlagsGuarded s where
  jail hphase p hp hcurrent hfree := by
    have hnot : ∀ x ∈ s.seats, x.id = p.id → ¬ x.jailStatus ≠ none := by
      intro x hx hid
      rw [eq_of_key_eq PlayerState.id hw.ids hx (mem_seats hp) hid]
      exact not_not.mpr hfree
    constructor
    · by_contra hfunds
      obtain ⟨command, m, hcovers, hd⟩ := hkept.dispatched hw hl hin hp .canPayJailFine
        ⟨hcurrent, hphase, by omega⟩
      cases hcovers
      obtain ⟨x, hx, hid, hjail⟩ := hd.of_payJailFine
      exact hnot x hx hid hjail
    · by_contra hcards
      obtain ⟨command, m, hcovers, hd⟩ := hkept.dispatched hw hl hin hp .canUseJailCard
        ⟨hcurrent, hphase, by omega⟩
      cases hcovers
      obtain ⟨x, hx, hid, hjail⟩ := hd.of_useJailCard
      exact hnot x hx hid hjail
  price hphase pos price hpending hfree hprice p hp hcurrent := by
    obtain ⟨command, m, hcovers, hd⟩ := hkept.dispatched hw hl hin hp .canBuy
      ⟨hcurrent, hphase, pos, hpending, hfree⟩
    cases hcovers with
    | canBuy hpending' =>
        obtain rfl := Option.some.inj (hpending.symm.trans hpending')
        obtain ⟨x, hx, hid, price', hprice', hfunds⟩ := hd.of_buyProperty
        obtain rfl := Option.some.inj (hprice.symm.trans hprice')
        rwa [eq_of_key_eq PlayerState.id hw.ids hx (mem_seats hp) hid] at hfunds
  debt hphase hpending := by
    obtain ⟨p, hp, hcurrent⟩ := hw.current.player
    obtain ⟨command, m, hcovers, hd⟩ := hkept.dispatched hw hl hin hp .canEndTurn
      ⟨hcurrent, .inl ⟨hphase, hpending⟩⟩
    cases hcovers
    exact hd.of_endTurn
  debtor hphase := by
    obtain ⟨p, hp, hcurrent⟩ := hw.current.player
    obtain ⟨command, m, hcovers, hd⟩ := hkept.dispatched hw hl hin hp .canDeclareBankruptcy
      ⟨hcurrent, hphase⟩
    cases hcovers
    obtain ⟨debt, hdebt, hid⟩ := hd.of_declareBankruptcy
    exact ⟨debt, hdebt, hid.trans hcurrent⟩

/-- Where the guards hold that the flags leave out, every flag covers a
command that is accepted. -/
theorem FlagsGuarded.kept (hw : WellFormed s) (hl : Live s) (hin : s.status = .inProgress)
    (hfree : RollsFree s) (hrent : RentClear s) (hfine : env.jailFine = jailFineAmount)
    (hg : FlagsGuarded s) (hp : p ∈ s.players) (hup : flag.Up s p) :
    ∃ command s', flag.Covers s p.id command ∧ Accepted s ⟨command, env⟩ s' := by
  have hkept : ∀ {flag : Flag} {command : GameCommand}, flag.Covers s p.id command →
      MayAct s command → Returns (dispatch s command env) →
      ∃ command s', flag.Covers s p.id command ∧ Accepted s ⟨command, env⟩ s' := by
    intro flag command hcovers hmay hreturns
    obtain ⟨s', hs'⟩ := accepted_of_returns hw hl hmay hreturns
    exact ⟨command, s', hcovers, hs'⟩
  have hmay : ∀ {command : GameCommand}, p.id = s.turn.currentPlayerId →
      command.player = some p.id → MayAct s command := by
    intro command hcurrent hplayer pid hpid _
    exact hcurrent.symm.trans (Option.some.inj (hplayer.symm.trans hpid))
  cases flag with
  | canRoll =>
      obtain ⟨hcurrent, hphase⟩ := hup
      have hjail : s.turn.phase = .preRoll → p.jailStatus = none := by
        intro hpre
        by_contra hjail
        exact (hfree p.bare (mem_seats hp) hcurrent hjail).1 hpre
      exact hkept .canRoll (hmay hcurrent rfl)
        (handleRollDice_returns hw.toSound hp hphase hjail _ _ _)
  | canBuy =>
      obtain ⟨hcurrent, hphase, pos, hpending, hunowned⟩ := hup
      have hbought := handleBuyProperty_returns hw hp hphase hpending hunowned fun price hprice =>
        hg.price hphase pos price hpending hunowned hprice p hp hcurrent
      exact hkept (.canBuy hpending) (hmay hcurrent rfl) (hbought.keepRng _)
  | canBuild =>
      obtain ⟨hcurrent, hphase, pos, hpos, hcan⟩ := hup
      have hbuilt := buildHouse_returns hw.toSound hp (hw.owned hp pos hpos) hcan
      exact hkept .canBuild (hmay hcurrent rfl) ((hbuilt.inBuildPhase hphase _).keepRng _)
  | canMortgage =>
      obtain ⟨hcurrent, hphase, pos, hpos, hcan⟩ := hup
      have hpledged := mortgageProperty_returns hw.toSound hp (hw.owned hp pos hpos) hcan
      exact hkept .canMortgage (hmay hcurrent rfl) ((hpledged.inBuildPhase hphase _).keepRng _)
  | canUnmortgage =>
      obtain ⟨hcurrent, hphase, pos, hpos, hcan⟩ := hup
      have hredeemed := unmortgageProperty_returns hw.toSound hp (hw.owned hp pos hpos) hcan
      exact hkept .canUnmortgage (hmay hcurrent rfl) ((hredeemed.inBuildPhase hphase _).keepRng _)
  | canTrade =>
      obtain ⟨hcurrent, -, htrade, hlimit⟩ := hup
      obtain ⟨x, hx, -, hne⟩ := exists_other hw.ids (hl hin).2 p.id
      obtain ⟨t, ht, rfl⟩ := exists_player hx
      have hproposed := proposeTrade_returns hw.toSound hp ht (fun heq => hne heq.symm) htrade
        hlimit env.clock.now env.tradeId
      have hcovers : Flag.Covers s p.id .canTrade
          (.proposeTrade p.id t.id (modestOffer p) (modestOffer t)) := .canTrade ht hne
      refine hkept hcovers (hmay hcurrent rfl) (Returns.keepRng ?_ _)
      simpa only [Returns, sat_bind, sat_pure] using hproposed
  | canEndTurn =>
      obtain ⟨hcurrent, hphase⟩ := hup
      have hend : (s.turn.phase = .postRoll ∨ s.turn.phase = .mustPayRent) ∧
          s.turn.pendingBuyPosition = none ∧ s.bankruptcy = none := by
        rcases hphase with ⟨hpost, hpending⟩ | hmust | ⟨hresolving, hnone⟩
        · exact ⟨.inl hpost, hpending, hg.debt hpost hpending⟩
        · exact ⟨.inr hmust, hrent hmust⟩
        · obtain ⟨debt, hdebt, -⟩ := hg.debtor hresolving
          rw [hnone] at hdebt
          cases hdebt
      obtain ⟨hphase', hpending, hdebt⟩ := hend
      have hended := handleEndTurn_returns hw hp (hl hin).1 hphase' hpending hdebt
      exact hkept .canEndTurn (hmay hcurrent rfl) (hended.keepRng _)
  | canPayJailFine =>
      obtain ⟨hcurrent, hphase, hfunds⟩ := hup
      have hjail : p.jailStatus ≠ none := by
        intro hnone
        have := (hg.jail hphase p hp hcurrent hnone).1
        omega
      have hpaid := handlePayJailFine_returns hw.toSound hp hphase hjail (hfine ▸ hfunds)
      exact hkept .canPayJailFine (hmay hcurrent rfl) (hpaid.keepRng _)
  | canUseJailCard =>
      obtain ⟨hcurrent, hphase, hcards⟩ := hup
      have hjail : p.jailStatus ≠ none := by
        intro hnone
        have := (hg.jail hphase p hp hcurrent hnone).2
        omega
      have hused := handleUseJailCard_returns hw.toSound hp hphase hjail hcards
      exact hkept .canUseJailCard (hmay hcurrent rfl) (hused.keepRng _)
  | canBid =>
      obtain ⟨hphase, auction, hauction, hactive, -, hfunds⟩ := hup
      have hplaced := placeBid_returns hw.toSound hp hauction hphase hactive hfunds
      have hcovers : Flag.Covers s p.id .canBid (.placeBid p.id (auction.highestBid + 1)) := .canBid
      refine hkept hcovers (fun _ _ hreply => ?_) (Returns.keepRng ?_ _)
      · cases hreply
      · simpa only [Returns, sat_bind, sat_pure] using hplaced
  | canDeclareBankruptcy =>
      obtain ⟨hcurrent, hphase⟩ := hup
      obtain ⟨debt, hdebt, hid⟩ := hg.debtor hphase
      have hdeclares := handleDeclareBankruptcy_returns hw hdebt
      rw [hid.trans hcurrent.symm] at hdeclares
      exact hkept .canDeclareBankruptcy (hmay hcurrent rfl) (hdeclares.keepRng _)
  | canSurrender =>
      obtain ⟨hcurrent, -⟩ := hup
      obtain ⟨c, hc, hcid, hactive⟩ := (hl hin).1
      obtain rfl : c = p.bare :=
        eq_of_key_eq PlayerState.id hw.ids hc (mem_seats hp) (hcid.trans hcurrent.symm)
      have hgone := handleSurrender_returns hw hp hcurrent.symm hactive
      exact hkept .canSurrender (hmay hcurrent rfl) (hgone.keepRng _)

/-- **Advertised actions.** In a game that is on, every flag of every player
covers a command that is accepted exactly when the guards hold that the flags
leave out. -/
theorem flags_kept_iff (hplay : Play h s) (hin : s.status = .inProgress)
    (hfine : env.jailFine = jailFineAmount) : FlagsKept s env ↔ FlagsGuarded s := by
  obtain ⟨hw, hl⟩ := Play.formed hplay
  refine ⟨fun hkept => hkept.guarded hw hl hin, fun hg p hp => ?_⟩
  obtain ⟨actions, hactions, hiff⟩ := computeActions_spec hw hin hp
  exact ⟨actions, hactions, fun flag hflag => hg.kept hw hl hin (Play.rollsFree hplay)
    (Play.rentClear hplay) hfine hp ((hiff flag).mp hflag)⟩

/-- After a purchase the flags are kept. -/
theorem flags_kept_after_purchase :
    ∃ h s, Play h s ∧ s.status = .inProgress ∧ s.turn.phase = .postRoll ∧
      FlagsKept s (callAt 0 [] .advanceAuction).env := by
  obtain ⟨h, s, hplay, -, hcheck⟩ := play_of_reaches (duo 1500) firstPurchase
    (fun _ s => decide (s.status = .inProgress ∧ s.turn.phase = .postRoll ∧
      s.turn.pendingBuyPosition = none ∧ s.bankruptcy = none)) (by decide) (by decide +kernel)
  obtain ⟨hin, hphase, hpending, hnone⟩ := of_decide_eq_true hcheck
  refine ⟨h, s, hplay, hin, hphase, (flags_kept_iff hplay hin rfl).mpr ⟨?_, ?_, ?_, ?_⟩⟩
  · simp [hphase]
  · simp [hpending]
  · exact fun _ _ => hnone
  · simp [hphase]

/-- Player `1` gives the cash away and comes to an unowned street. -/
def giftAndWalk : List Call :=
  [callAt 0 [] (.proposeTrade 1 2 { money := 1500 } {}),
    callAt 0 [] (.respondTrade 2 7 .accept none),
    callAt 0 [] (.endTurn 1),
    callAt 0 [3, 5] (.rollDice 2),
    callAt 0 [] (.endTurn 2),
    callAt 0 [0, 1] (.rollDice 1)]

/-- The street is offered to a player who cannot pay for it. -/
theorem unaffordable_purchase_offered :
    ∃ h s, Play h s ∧ s.status = .inProgress ∧
      (∃ p ∈ s.players, p.balance = 0 ∧ (computeActions s p.id).map (·.canBuy) = .ok true) ∧
      ∀ env, ¬ FlagsKept s env := by
  obtain ⟨h, s, hplay, -, hcheck⟩ := play_of_reaches (duo 1500) giftAndWalk
    (fun _ s => decide (s.status = .inProgress ∧ s.turn.phase = .postRoll ∧
      s.turn.pendingBuyPosition = some 4 ∧ (ownershipAt s.spaces 4).ownerId = none ∧
      (squareAt s.gameMode 4).price = some 60 ∧
      ∃ p ∈ s.players, p.id = s.turn.currentPlayerId ∧ p.balance = 0 ∧
        (computeActions s p.id).map (·.canBuy) = .ok true)) (by decide) (by decide +kernel)
  obtain ⟨hin, hphase, hpending, hunowned, hprice, p, hp, hcurrent, hbroke, hflag⟩ :=
    of_decide_eq_true hcheck
  refine ⟨h, s, hplay, hin, ⟨p, hp, hbroke, hflag⟩, fun env hkept => ?_⟩
  obtain ⟨hw, hl⟩ := Play.formed hplay
  have hpaid := (hkept.guarded hw hl hin).price hphase 4 60 hpending hunowned hprice p hp hcurrent
  omega

end Law

end Monopoly
