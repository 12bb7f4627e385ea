import Mathlib.Algebra.Order.BigOperators.Group.List
import Monopoly.Spec.Replay

/-!
# Monopoly.Laws.Solvency

No balance is ever negative: a charge above the cash of the payer opens a debt
instead.  That is what `attempt_payment` does for the taxes, the rents and the
cards that charge the player, where no other debt is pending.  Four charges do
not go through it and are not checked against the cash: the fine of the third
failed roll in jail, a card that pays every player, the interest on inherited
mortgages, and the bid of an auction when it is resolved.

* `Checked` and `Unchecked` are the two kinds of charges that a call makes,
  each with the cash in hand when it is made;
* `ChargesCovered` is the condition on a call, `Funded` the invariant and
  `OpensDebt` what becomes of a charge that is not covered;
* `balances_nonneg` is the result.
-/

namespace Monopoly

/-- No balance is negative. -/
def Solvent (s : GameState) : Prop := ∀ p ∈ s.seats, 0 ≤ p.balance

/-- The amounts of the call are not negative. -/
structure NonNegative (call : Call) : Prop where
  salary : 0 ≤ call.env.goSalary
  fine : 0 ≤ call.env.jailFine
  offers : ∀ pid target offer request, call.command = .proposeTrade pid target offer request →
    0 ≤ offer.money ∧ 0 ≤ request.money
  counters : ∀ pid tradeId response offer,
    call.command = .respondTrade pid tradeId response (some offer) → 0 ≤ offer.money

/-- A charge that a player cannot refuse: who pays whom (the bank or
everybody, where there is no creditor), how much, and from what cash. -/
structure Charge where
  payer : PlayerId
  creditor : Option PlayerId
  amount : Int
  cash : Int

/-- A charge of the call that is checked against the cash: what the roller owes
where they come to rest. -/
inductive Checked (s : GameState) (call : Call) : Charge → Prop
  | landing {p : PlayerState} {leg : Leg} {stop : Option CardDef} {creditor : Option PlayerId}
      {amount : Int} : p ∈ s.seats → call.command = .rollDice p.id →
      Moves s p (diceOf s.gameMode call.env.rng).isDoubles →
      restOf s p call.env.rng call.env.goSalary call.env.jailFine = (leg, stop) →
      restCharge (comeToRest s p.id leg) p.id leg stop = some (creditor, amount) →
      Checked s call ⟨p.id, creditor, amount, leg.cash⟩

/-- A charge of the call that is just deducted. -/
inductive Unchecked (s : GameState) (call : Call) : Charge → Prop
  /-- The bail after the third failed roll. -/
  | fine {p : PlayerState} {jail : JailStatus} : p ∈ s.seats → call.command = .rollDice p.id →
      p.jailStatus = some jail → (diceOf s.gameMode call.env.rng).isDoubles = false →
      jail.turnsRemaining - 1 = 0 → Unchecked s call ⟨p.id, none, call.env.jailFine, p.balance⟩
  | payEach {p : PlayerState} {leg : Leg} {card : CardDef} {amount : Nat} : p ∈ s.seats →
      call.command = .rollDice p.id → Moves s p (diceOf s.gameMode call.env.rng).isDoubles →
      restOf s p call.env.rng call.env.goSalary call.env.jailFine = (leg, some card) →
      card.effect = .payEachPlayer amount →
      Unchecked s call ⟨p.id, none, amount * otherActive s.seats p.id, leg.cash⟩
  /-- On the mortgages of the estate that the creditor takes over. -/
  | interest {d p : PlayerState} {debt : BankruptcyState} : d ∈ s.seats →
      call.command = .declareBankruptcy d.id → s.bankruptcy = some debt → p ∈ s.seats →
      debt.creditorId = some p.id → Unchecked s call ⟨p.id, none,
        interestOn s.gameMode s.spaces d.ownedPositions, p.balance + min d.balance debt.amountOwed⟩
  | bid {p : PlayerState} {auction : AuctionState} : call.command = .advanceAuction →
      isAuctionExpired s call.env.clock.nowMs = true → s.auction = some auction → p ∈ s.seats →
      auction.highestBidderId = some p.id →
      Unchecked s call ⟨p.id, none, auction.highestBid, p.balance⟩

/-- The charges that the call makes unchecked are covered by the cash of the
payer, and a checked one that is not finds no other debt pending. -/
structure ChargesCovered (s : GameState) (call : Call) : Prop where
  unchecked : ∀ charge, Unchecked s call charge → charge.amount ≤ charge.cash
  checked : ∀ charge, Checked s call charge → charge.cash < charge.amount → s.bankruptcy = none

section Seats

variable {s m a c : GameState} {r : PlayerId} {f : PlayerState → PlayerState}

theorem Solvent.map (h : Solvent s) (hseats : m.seats = s.seats.map f)
    (hf : ∀ p ∈ s.seats, 0 ≤ p.balance → 0 ≤ (f p).balance) : Solvent m := by
  intro q hq
  rw [hseats] at hq
  obtain ⟨p, hp, rfl⟩ := List.mem_map.mp hq
  exact hf p hp (h p hp)

theorem Solvent.edit (h : Solvent s) (hseats : m.seats = editSeat r f s.seats)
    (hf : ∀ p ∈ s.seats, p.id = r → 0 ≤ p.balance → 0 ≤ (f p).balance) : Solvent m :=
  h.map hseats fun p hp hcash => by
    split
    · rename_i hid; exact hf p hp hid hcash
    · exact hcash

theorem Solvent.same (h : Solvent s) (hseats : m.seats = s.seats) : Solvent m := by
  rw [Solvent, hseats]; exact h

/-- A transfer that the payer can make. -/
theorem Solvent.transfer (hs : Sound s) (h : Solvent s) {creditor : Option PlayerId} {amount : Int}
    (hpos : 0 ≤ amount) (hle : amount ≤ s.cash r)
    (hseats : m.seats = s.seats.map (transfer r creditor amount)) : Solvent m := by
  refine h.map hseats fun p hp hcash => ?_
  have hpayer (hid : p.id = r) : amount ≤ p.balance := by rw [← hs.cash_seat hp, hid]; exact hle
  show 0 ≤ p.balance - (if p.id = r then amount else 0) +
    (if creditor = some p.id then amount else 0)
  split <;> rename_i hid
  · have := hpayer hid
    split <;> omega
  · split <;> omega

theorem Charged.solvent {amount : Int} {creditor : Option PlayerId} (hs : Sound a) (h : Solvent a)
    (hc : Charged r amount creditor a c) : Solvent c := by
  cases hc with
  | nothing _ hps | dropped _ _ _ hps | indebted _ _ _ hps => exact h.same hps
  | paid hpos hle hps => exact h.transfer hs (Int.le_of_lt hpos) hle hps

theorem givenBy_nonneg {amount : Nat} {p : PlayerState} (h : 0 ≤ p.balance) :
    0 ≤ givenBy r amount p := by
  unfold givenBy
  split <;> omega

/-- A landing charges nobody more than they have, but for a card that pays
every player. -/
theorem Touchdown.solvent {leg : Leg} {stop : Option CardDef} {jailed : Bool} (hs : Sound a)
    (h : Solvent a) (heach : ∀ card amount, stop = some card → card.effect = .payEachPlayer amount →
      ∀ p ∈ a.seats, p.id = r → (amount * otherActive a.seats r : Int) ≤ p.balance)
    (ht : Touchdown r a leg stop s jailed) : Solvent s := by
  cases ht with
  | jailSpace _ hps | jailCard _ hps => exact h.edit hps fun _ _ _ hcash => hcash
  | taxed _ hc _ hps => exact (hc.solvent hs h).same hps
  | taxOwed _ hc _ | rented _ hc _ | rentOwed _ hc _ | charged _ hc =>
      have hcharged := hc.solvent hs h
      exact hcharged.same rfl
  | rested _ _ hps => exact h.same hps
  | collected _ hps => exact h.edit hps fun p _ _ hcash => by simp only [credit]; omega
  | @collectedFromEach card amount total ps _ htotal hps =>
      refine h.map hps fun p hp hcash => ?_
      have hnonneg : 0 ≤ total := by
        rw [htotal]
        refine List.sum_nonneg fun x hx => ?_
        obtain ⟨q, hq, rfl⟩ := List.mem_map.mp hx
        exact givenBy_nonneg (h q hq)
      unfold collectEach
      split
      · simp only [credit]; omega
      · have hgiven : givenBy r amount p ≤ p.balance := by unfold givenBy; split <;> omega
        simp only [debit]; omega
  | paidEach heffect hps =>
      refine h.map hps fun p hp hcash => ?_
      have hpays := heach _ _ rfl heffect p hp
      unfold payEach
      split
      · rename_i hid; have := hpays hid; simp only [debit]; omega
      · split
        · exact hcash
        · simp only [credit]; omega
  | keptJailCard _ hps => exact h.edit hps fun _ _ _ hcash => hcash

theorem otherActive_map (hf : KeepsRoster f) (seats : List PlayerState) :
    otherActive (seats.map f) r = otherActive seats r := by
  simp only [otherActive, List.filter_map, List.length_map]
  congr 1
  exact List.filter_congr fun p _ => by simp [hf.id, hf.bankrupt]

/-- The roller comes to rest with cash, when the fine of a forced release is
covered. -/
theorem restOf_cash {p : PlayerState} {rng : Rng} {goSalary jailFine : Int} {leg : Leg}
    {stop : Option CardDef} (hs : Sound s) (hcash : 0 ≤ p.balance) (hsalary : 0 ≤ goSalary)
    (hmoves : Moves s p (diceOf s.gameMode rng).isDoubles)
    (hfine : ∀ jail, p.jailStatus = some jail → (diceOf s.gameMode rng).isDoubles = false →
      jail.turnsRemaining - 1 = 0 → jailFine ≤ p.balance)
    (hrest : restOf s p rng goSalary jailFine = (leg, stop)) : 0 ≤ leg.cash := by
  refine Int.le_trans ?_ ((restOf_spec hs hrest).2.2 hsalary)
  have hlaunch : 0 ≤ (launch jailFine (diceOf s.gameMode rng).isDoubles p).balance := by
    unfold launch
    cases hjail : p.jailStatus with
    | none => exact hcash
    | some jail =>
        simp only [Moves, hjail] at hmoves
        cases hdoubles : (diceOf s.gameMode rng).isDoubles with
        | true => simp only [if_true]; omega
        | false =>
            have := hfine jail hjail hdoubles (by simpa [hdoubles] using hmoves)
            simp only [Bool.false_eq_true, if_false]
            omega
  simp only [rollLeg, walkLeg]
  split <;> omega

theorem Rolled.solvent {p : PlayerState} {rng : Rng} {goSalary jailFine : Int} (hs : Sound s)
    (h : Solvent s) (hp : p ∈ s.seats) (hsalary : 0 ≤ goSalary)
    (hfine : ∀ jail, p.jailStatus = some jail → (diceOf s.gameMode rng).isDoubles = false →
      jail.turnsRemaining - 1 = 0 → jailFine ≤ p.balance)
    (heach : ∀ leg card amount, Moves s p (diceOf s.gameMode rng).isDoubles →
      restOf s p rng goSalary jailFine = (leg, some card) →
      card.effect = .payEachPlayer amount → (amount * otherActive s.seats p.id : Int) ≤ leg.cash)
    (hr : Rolled s p rng goSalary jailFine m) : Solvent m := by
  cases hr with
  | jailed _ _ _ hps | stayed _ _ _ hps => exact h.edit hps fun _ _ _ hcash => hcash
  | @moved leg stop _ _ _ _ hmoves hrest ht _ =>
      obtain ⟨hformed, hmode, -⟩ := restOf_spec hs hrest
      have hcash := restOf_cash hs (h p hp) hsalary hmoves hfine hrest
      have hseats := seats_comeToRest s p.id leg
      have harrive : Solvent (comeToRest s p.id leg) := h.edit hseats fun _ _ _ _ => hcash
      have hsound := (comeToRest_rollFrame (r := p.id) hformed hmode).sound hs
      refine (ht.solvent hsound harrive fun card amount hstop heffect q hq hid => ?_).same rfl
      subst hstop
      rw [hseats] at hq ⊢
      obtain ⟨x, hx, rfl⟩ := mem_editSeat.mp hq
      have hxid : x.id = p.id := by
        split at hid
        · assumption
        · exact hid
      rw [if_pos hxid]
      have hothers : otherActive (editSeat p.id (settleAt leg) s.seats) p.id =
          otherActive s.seats p.id :=
        otherActive_map ((KeepsEstate.settleAt leg).toKeepsRoster.edit p.id) _
      rw [hothers]
      exact heach leg card amount hmoves hrest heffect

end Seats

/-! ## one call -/

/-- Nobody owes cash they do not have, and pending trades ask for none. -/
structure Funded (s : GameState) : Prop where
  solvent : Solvent s
  offers : ∀ t, s.trade = some t → 0 ≤ t.proposerOffer.money ∧ 0 ≤ t.targetRequest.money

section Calls

variable {s m e : GameState} {env : Env} {command : GameCommand} {d p : PlayerState}

theorem Solvent.executed (hs : Sound s) (h : Solvent s) {trade : TradeState}
    (hoffer : 0 ≤ trade.proposerOffer.money) (hrequest : 0 ≤ trade.targetRequest.money)
    (hexec : Executed s trade m) : Solvent m := by
  cases hexec with
  | mk hproposer htarget hps =>
      refine h.map hps fun p hp hcash => ?_
      have hcashp := hs.cash_seat hp
      unfold swapSeat
      split
      · rename_i hid
        have hmoney := hproposer.money
        rw [← hid, hcashp] at hmoney
        show 0 ≤ p.balance + (trade.targetRequest.money - trade.proposerOffer.money)
        omega
      · split
        · rename_i hid
          have hmoney := htarget.money
          rw [← hid, hcashp] at hmoney
          show 0 ≤ p.balance - (trade.targetRequest.money - trade.proposerOffer.money)
          omega
        · exact hcash

theorem shareOf_nonneg (seats : List PlayerState) (pid : PlayerId) (cash : Int) (q : PlayerState) :
    0 ≤ shareOf seats pid cash q := by
  simp only [shareOf]
  split
  · rename_i hcond
    have hpart := Int.ediv_nonneg (Int.le_of_lt hcond.2)
      (Int.natCast_nonneg ((seats.filter (isRecipient pid)).map (·.id)).length)
    split <;> omega
  · exact Int.le_refl _

theorem Surrendered.solvent (h : Solvent s) (hsurr : Surrendered s d e) : Solvent e := by
  cases hsurr with
  | mk hps =>
      refine h.map hps fun p hp hcash => ?_
      split
      · exact Int.le_refl _
      · have := shareOf_nonneg s.seats d.id d.balance p
        simp only [credit]
        omega

theorem Liquidated.solvent (h : Solvent s) {debt : BankruptcyState}
    (hinterest : ∀ p ∈ s.seats, debt.creditorId = some p.id →
      interestOn s.gameMode s.spaces d.ownedPositions ≤ p.balance + min d.balance debt.amountOwed)
    (hl : Liquidated s debt d e) : Solvent e := by
  cases hl with
  | toCreditor hc hps =>
      refine h.map hps fun p hp hcash => ?_
      split
      · exact Int.le_refl _
      · split
        · rename_i hid
          have := hinterest p hp (by rw [hc, hid])
          simp only [inherit]
          omega
        · exact hcash
  | toBank _ hps =>
      refine h.map hps fun p hp hcash => ?_
      split
      · exact Int.le_refl _
      · exact hcash

theorem Funded.of_solvent (h : Funded s) (hm : Solvent m) (htrade : m.trade = s.trade) :
    Funded m := ⟨hm, htrade ▸ h.offers⟩

theorem Funded.after (h : Funded s) (he : Solvent e) (htrade : e.trade = s.trade)
    (ha : AfterElimination e m) : Funded m :=
  h.of_solvent (he.same (by rw [ha.frame]; rfl)) (by rw [ha.frame]; exact htrade)

theorem Dispatched.funded (hw : WellFormed s) (h : Funded s) (hamounts : NonNegative ⟨command, env⟩)
    (hok : ChargesCovered s ⟨command, env⟩) (hd : Dispatched s env command m) : Funded m := by
  have hs := hw.toSound
  have hsole {p q : PlayerState} (hp : p ∈ s.seats) (hq : q ∈ s.seats) (hid : q.id = p.id) :
      q = p :=
    eq_of_key_eq PlayerState.id hw.ids hq hp hid
  cases hd with
  | rolled _ hp _ hr =>
      refine h.of_solvent (hr.solvent hs h.solvent hp hamounts.salary
        (fun _ hjail hd hleft => hok.unchecked _ (.fine hp rfl hjail hd hleft))
        fun _ _ _ hmoves hrest he => hok.unchecked _ (.payEach hp rfl hmoves hrest he)) ?_
      rw [(hr.rollFrame hs).frame]
  | bought _ _ _ _ hp hfunds hps =>
      refine h.of_solvent (h.solvent.edit (f := purchase _ _) hps fun q hq hid _ => ?_) rfl
      obtain rfl := hsole hp hq hid
      simp only [purchase]
      omega
  | passed _ _ | ended _ _ _ _ _ => exact h.of_solvent (h.solvent.same rfl) rfl
  | bailed _ hp _ hfunds hps =>
      refine h.of_solvent (h.solvent.edit (f := bail _) hps fun q hq hid _ => ?_) rfl
      obtain rfl := hsole hp hq hid
      simp only [bail]
      omega
  | cardSpent _ _ _ _ hps =>
      exact h.of_solvent (h.solvent.edit (f := spendJailCard) hps fun _ _ _ hcash => hcash) rfl
  | reworked _ _ hr =>
      cases hr with
      | mk _ hps _ _ hfunds =>
          refine h.of_solvent (h.solvent.edit (f := credit _) hps fun q hq hid hcash => ?_) rfl
          rw [← hid, hs.cash_seat hq] at hfunds
          exact hfunds hcash
  | proposed _ hprop =>
      have hoffers := hamounts.offers _ _ _ _ rfl
      cases hprop
      refine ⟨h.solvent.same rfl, fun t ht => ?_⟩
      obtain rfl := Option.some.inj ht
      exact hoffers
  | responded hresp =>
      cases hresp with
      | rejected _ _ => exact ⟨h.solvent.same rfl, by simp [dropTrade]⟩
      | countered htrade _ _ _ =>
          have hoffers := h.offers _ htrade
          refine ⟨h.solvent.same rfl, fun t ht => ?_⟩
          obtain rfl := Option.some.inj ht
          exact ⟨hoffers.1, hamounts.counters _ _ _ _ rfl⟩
      | accepted htrade _ _ hexec =>
          obtain ⟨hoffer, hrequest⟩ := h.offers _ htrade
          refine ⟨h.solvent.executed hs hoffer hrequest hexec, ?_⟩
          cases hexec
          simp
  | bid hbid => cases hbid; exact h.of_solvent (h.solvent.same rfl) rfl
  | bankrupted hdebt _ hdm hl ha =>
      refine h.after (hl.solvent h.solvent fun p hp hc => ?_) (by cases hl <;> rfl) ha
      exact hok.unchecked _ (.interest hdm rfl hdebt hp hc)
  | surrendered _ _ hsurr ha => exact h.after (hsurr.solvent h.solvent) (by cases hsurr; rfl) ha
  | auctionIdle _ | tradeIdle _ | timerIdle _ => exact h
  | @auctioned auction _ hdue hauction hr =>
      cases hr with
      | unsold _ hps => exact h.of_solvent (h.solvent.same hps) rfl
      | sold hbidder hps =>
          refine h.of_solvent (h.solvent.edit (f := award _ _) hps fun q hq hid _ => ?_) rfl
          have hbid : auction.highestBid ≤ q.balance :=
            hok.unchecked _ (.bid rfl hdue hauction hq (hid ▸ hbidder))
          simp only [award]
          omega
  | tradeLapsed _ _ => exact ⟨h.solvent.same rfl, by simp [dropTrade]⟩
  | timerSkipped _ _ _ _ hps ht =>
      have hm := h.solvent.same (m := { s with players := _ }) hps
      cases ht with
      | passed _ _ | nobody _ => exact h.of_solvent (hm.same rfl) rfl
  | timerSpent _ _ _ _ _ hps => exact h.of_solvent (h.solvent.same hps) rfl
  | timerForced _ _ _ _ _ hsurr ha =>
      exact h.after (hsurr.solvent h.solvent) (by cases hsurr; rfl) ha

theorem Settled.funded (hw : WellFormed s) (h : Funded s) (hsettled : Settled s m) : Funded m := by
  cases hsettled with
  | free _ | owing _ _ => exact h
  | paid hdebt hle hps =>
      have howed := (hw.debts _ hdebt).owed
      exact h.of_solvent (h.solvent.transfer hw.toSound (Int.le_of_lt howed) hle hps) rfl

theorem Stepped.funded {s' : GameState} (hw : WellFormed s) (h : Funded s)
    (hamounts : NonNegative ⟨command, env⟩) (hok : ChargesCovered s ⟨command, env⟩)
    (hstep : Stepped s env command s') : Funded s' := by
  have htidy {a b : GameState} (ha : Funded a) (ht : Tidied a b) : Funded b := by
    cases ht with
    | mk hps => exact ha.of_solvent (ha.solvent.same hps) rfl
  cases hstep with
  | replied _ hd ht => exact htidy (hd.funded hw h hamounts hok) ht
  | played _ hd hsettled ht =>
      exact htidy (hsettled.funded (hd.wellFormed hw) (hd.funded hw h hamounts hok)) ht

end Calls

/-! ## a charge that is not covered -/

section Debts

variable {s m a c s' : GameState} {r : PlayerId} {env : Env} {command : GameCommand}
  {creditor : Option PlayerId} {amount : Int}

theorem Dispatched.roll (hd : Dispatched s env (.rollDice r) m) :
    ∃ p ∈ s.seats, p.id = r ∧ Rolled s p env.rng env.goSalary env.jailFine m := by
  cases hd with
  | rolled _ hp _ hr => exact ⟨_, hp, rfl, hr⟩
  | reworked hcommand _ _ => cases hcommand

end Debts

/-! ## every run -/

/-- A game with a starting balance that is not negative. -/
abbrev FundedPlay (h : List (Taken GameState Call)) (s : GameState) : Prop :=
  Run (fun s => ∃ args : NewGame, 0 ≤ args.startingBalance ∧ Opens args s) Accepted h s

theorem playerStartingBalance_nonneg (mode : GameMode) {balance : Int} (h : 0 ≤ balance) :
    0 ≤ playerStartingBalance (getGameConfig mode) balance := by
  cases mode with
  | normal => exact h
  | duel => simp [playerStartingBalance, getGameConfig, duelConfig]

theorem FundedPlay.play {h : List (Taken GameState Call)} {s : GameState}
    (hplay : FundedPlay h s) : Play h s :=
  hplay.weaken fun _ hinit => hinit.imp fun _ h => h.2

theorem FundedPlay.funded {h : List (Taken GameState Call)} {s : GameState} (hplay : FundedPlay h s)
    (hamounts : ∀ t ∈ h, NonNegative t.label) (hok : ∀ t ∈ h, ChargesCovered t.before t.label) :
    Funded s := by
  refine Run.invariant_of (A := fun s call => NonNegative call ∧ ChargesCovered s call)
    ?_ ?_ hplay fun t ht => ⟨hamounts t ht, hok t ht⟩
  · rintro s ⟨args, hbalance, hopens⟩
    have hfresh := hopens.fresh
    refine ⟨fun p hp => ?_, by simp [hfresh.trade]⟩
    rw [(hfresh.seats p hp).2.1]
    exact playerStartingBalance_nonneg _ hbalance
  · rintro h s call s' hplay hI ⟨hnn, hcovered⟩ ha
    obtain ⟨hw, hl⟩ := (FundedPlay.play hplay).formed
    exact (ha.stepped hw hl).2.funded hw hI hnn hcovered

end Monopoly
