import Monopoly.Spec.Replay

/-!
# Monopoly.Laws.DebtCoherence

While a game is on, a pending debt is the current player's, cannot be paid
and comes with the phase `BANKRUPT_RESOLUTION`, as long as nothing moves the
game on while a debt is pending.
-/

namespace Monopoly

/-- The debt is the current player's, who is in the game, as is the creditor. -/
structure OwedInTurn (s : GameState) (debt : BankruptcyState) : Prop where
  current : debt.debtorId = s.turn.currentPlayerId
  debtor : Active s debt.debtorId
  creditor : ∀ c, debt.creditorId = some c → c ≠ debt.debtorId ∧ Active s c

/-- What the handlers keep of the coherence. -/
structure DebtHeld (s : GameState) : Prop where
  owed : ∀ debt, s.bankruptcy = some debt → OwedInTurn s debt
  phase : DebtPhase s

/-- A pending debt is the current player's and cannot be paid, and it comes
with the phase `BANKRUPT_RESOLUTION`. -/
structure DebtCoherent (s : GameState) : Prop extends DebtHeld s where
  short : ∀ debt, s.bankruptcy = some debt → s.cash debt.debtorId < debt.amountOwed

/-- The call does not move the game on while a debt is pending, and a roll
does not end on property of a player who is out. -/
structure KeepsDebt (s : GameState) (call : Call) : Prop where
  phase : SetsPhase s call.env call.command → s.bankruptcy = none
  surrender : Surrenders s call.env call.command → s.bankruptcy ≠ none →
    (survivors s.seats).length = 2
  landing : ∀ p ∈ s.seats, call.command = .rollDice p.id → ∀ leg owner,
    restOf s p call.env.rng call.env.goSalary call.env.jailFine = (leg, none) →
    (ownershipAt s.spaces leg.position).ownerId = some owner →
    (ownershipAt s.spaces leg.position).isMortgaged = false → Active s owner

section Calls

variable {s m a c : GameState} {r : PlayerId} {env : Env} {command : GameCommand}
  {f : PlayerState → PlayerState}

/-! ## the creditor of a new debt -/

theorem Charged.creditor {amount : Int} {creditor : Option PlayerId} {debt : BankruptcyState}
    (hnone : a.bankruptcy = none) (hc : Charged r amount creditor a c)
    (hdebt : c.bankruptcy = some debt) : debt.creditorId = creditor := by
  cases hc with
  | nothing _ _ | paid _ _ _ | dropped _ _ _ _ => rw [hnone] at hdebt; cases hdebt
  | indebted _ _ _ _ =>
      obtain rfl := Option.some.inj hdebt
      rfl

theorem Touchdown.creditor {leg : Leg} {stop : Option CardDef} {jailed : Bool}
    {debt : BankruptcyState} {o : PlayerId} (hnone : a.bankruptcy = none)
    (ht : Touchdown r a leg stop s jailed) (hdebt : s.bankruptcy = some debt)
    (ho : debt.creditorId = some o) :
    stop = none ∧ (ownershipAt a.spaces leg.position).ownerId = some o ∧
      (ownershipAt a.spaces leg.position).isMortgaged = false := by
  cases ht with
  | jailSpace _ _ | jailCard _ _ | rested _ _ _ | collected _ _ | collectedFromEach _ _ _
  | paidEach _ _ | keptJailCard _ _ => rw [hnone] at hdebt; cases hdebt
  | taxed _ _ hfree _ | rented _ _ hfree => rw [hfree] at hdebt; cases hdebt
  | taxOwed _ hc _ | charged _ hc =>
      rw [hc.creditor hnone hdebt] at ho
      cases ho
  | rentOwed hcharge hc _ =>
      obtain ⟨howner, -, hlet⟩ := restCharge_owner hcharge
      rw [hc.creditor hnone hdebt] at ho
      exact ⟨rfl, ho ▸ howner, hlet⟩

theorem Rolled.creditor {p : PlayerState} {rng : Rng} {goSalary jailFine : Int}
    {debt : BankruptcyState} {o : PlayerId} (hnone : s.bankruptcy = none)
    (hr : Rolled s p rng goSalary jailFine m) (hdebt : m.bankruptcy = some debt)
    (ho : debt.creditorId = some o) :
    ∃ leg, restOf s p rng goSalary jailFine = (leg, none) ∧
      (ownershipAt s.spaces leg.position).ownerId = some o ∧
      (ownershipAt s.spaces leg.position).isMortgaged = false := by
  cases hr with
  | jailed _ _ _ _ | stayed _ _ _ _ => rw [hnone] at hdebt; cases hdebt
  | @moved leg stop _ _ _ _ _ hrest ht _ =>
      obtain ⟨rfl, howner⟩ := ht.creditor (a := comeToRest s p.id leg) hnone hdebt ho
      exact ⟨leg, hrest, howner⟩

/-! ## one call -/

namespace DebtHeld

theorem of_none (hnone : m.bankruptcy = none) (hphase : m.turn.phase ≠ .bankruptResolution) :
    DebtHeld m :=
  ⟨by simp [hnone], iff_of_false (by simp [hnone]) hphase⟩

/-- The roster, the turn and the debt stay. -/
theorem of_keep (h : DebtHeld s) (hf : KeepsRoster f) (hseats : m.seats = s.seats.map f)
    (hturn : m.turn = s.turn) (hdebt : m.bankruptcy = s.bankruptcy) : DebtHeld m where
  owed debt hd := by
    obtain ⟨hcurrent, hdebtor, hcreditor⟩ := h.owed debt (hdebt ▸ hd)
    exact ⟨by rw [hcurrent, hturn], hdebtor.map hf hseats,
      fun c hc => ⟨(hcreditor c hc).1, (hcreditor c hc).2.map hf hseats⟩⟩
  phase := by rw [DebtPhase, hdebt, hturn]; exact h.phase

theorem of_seats (h : DebtHeld s) (hseats : m.seats = s.seats) (hturn : m.turn = s.turn)
    (hdebt : m.bankruptcy = s.bankruptcy) : DebtHeld m :=
  h.of_keep .refl (hseats.trans (List.map_id' _).symm) hturn hdebt

end DebtHeld

theorem openingPhase_ne (p : PlayerState) : openingPhase p ≠ .bankruptResolution := by
  rcases openingPhase_cases p with h | h <;> simp [h]

/-- An elimination that does not end the game leaves no debt behind, where a
player who surrenders over a debt is one of the last two. -/
theorem Eliminated.clears {d : PlayerState} {e : GameState} (hw : WellFormed s) (hl : Live s)
    (hd : d ∈ s.seats) (hcurrent : d.id = s.turn.currentPlayerId)
    (he : Eliminated s d command e) (ha : AfterElimination e m) (hlm : Live m)
    (hin : m.status = .inProgress)
    (hok : Surrenders s env command → s.bankruptcy ≠ none → (survivors s.seats).length = 2)
    (hout : Eliminating s env command) :
    m.bankruptcy = none ∧ m.turn.phase ≠ .bankruptResolution := by
  obtain ⟨hmany, next, round, rfl⟩ := he.handedOn hw hl hd hcurrent ha hlm hin
  refine ⟨?_, openingPhase_ne next⟩
  show e.bankruptcy = none
  cases he with
  | bankrupted _ _ hl => cases hl <;> rfl
  | surrendered _ hsurr =>
      by_contra hdebt
      exact hmany (hok trivial (by cases hsurr; exact hdebt))
  | forced _ hsurr =>
      by_contra hdebt
      exact hmany (hok hout (by cases hsurr; exact hdebt))

theorem Dispatched.debtHeld (hw : WellFormed s) (hl : Live s) (h : DebtCoherent s)
    (hin : m.status = .inProgress) (hmay : MayAct s command) (hok : KeepsDebt s ⟨command, env⟩)
    (hd : Dispatched s env command m) : DebtHeld m := by
  have hlm := hd.live hw hl hmay
  have hsin := hd.inProgress hw hmay hin
  have hnobody : ¬ ∀ p ∈ m.seats, p.isBankrupt = true := fun hall => by
    obtain ⟨⟨p, hp, -, hact⟩, -⟩ := hlm hin
    rw [hall p hp] at hact
    cases hact
  have hfree (hphase : s.turn.phase ≠ .bankruptResolution) : s.bankruptcy = none := by
    by_contra hdebt
    exact hphase (h.phase.mp hdebt)
  have hquiet (hnone : s.bankruptcy = none) : s.turn.phase ≠ .bankruptResolution :=
    fun hphase => h.phase.mpr hphase hnone
  cases hd with
  | @rolled p _ hphase hp _ hr =>
      have hnone := hfree (by rcases hphase with h | h <;> simp [h])
      have hframe := hr.rollFrame hw.toSound
      obtain ⟨f, hseats, hf, -⟩ := hframe.seats
      have hcurrent : m.turn.currentPlayerId = s.turn.currentPlayerId := by rw [hframe.frame]
      refine ⟨fun debt hdebt => ?_, hr.debtPhase hnone h.phase⟩
      rcases hframe.debt with hsame | ⟨-, debt', hdebt', hdebtor, -, -, howner⟩
      · rw [hsame, hnone] at hdebt
        cases hdebt
      · obtain rfl := Option.some.inj (hdebt'.symm.trans hdebt)
        have hroller : p.id = s.turn.currentPlayerId := (hmay _ rfl rfl).symm
        refine ⟨by rw [hdebtor, hcurrent, hroller], ?_, fun c hc => ⟨hdebtor ▸ (howner c hc).1, ?_⟩⟩
        · rw [hdebtor, hroller]
          exact (hl hsin).1.map hf.toKeepsRoster hseats
        · obtain ⟨leg, hrest, hc', hlet⟩ := hr.creditor hnone hdebt hc
          exact (hok.landing p hp rfl leg c hrest hc' hlet).map hf.toKeepsRoster hseats
  | bought hphase _ _ _ _ _ _ =>
      have hne : s.turn.phase ≠ .bankruptResolution := by rcases hphase with h | h <;> simp [h]
      exact .of_none (hfree hne) (by simp only; split <;> simp [hne])
  | passed hphase _ =>
      exact .of_none (hfree (by rcases hphase with h | h <;> simp [h])) (by simp [startAuction])
  | ended _ _ hnone _ _ => exact .of_none hnone (openingPhase_ne _)
  | bailed hphase _ _ _ _ | cardSpent hphase _ _ _ _ =>
      exact .of_none (hfree (by simp [hphase])) (by simp)
  | reworked _ _ hr =>
      cases hr with
      | mk _ hps _ _ _ =>
          exact h.of_keep ((KeepsEstate.credit _).toKeepsRoster.edit _) hps rfl rfl
  | proposed _ hprop =>
      have hnone := hok.phase trivial
      cases hprop
      exact .of_none hnone (by simp)
  | responded hresp =>
      cases hresp with
      | rejected _ _ =>
          exact .of_none (hok.phase (by simp [SetsPhase])) (by simp [dropTrade])
      | countered _ _ _ _ => exact h.of_seats rfl rfl rfl
      | accepted _ _ _ hexec =>
          have hnone := hok.phase (by simp [SetsPhase])
          cases hexec
          exact .of_none hnone (by simp)
  | bid hbid => cases hbid; exact h.of_seats rfl rfl rfl
  | bankrupted hdebt hdebtor hdm hliquidated ha =>
      have hout := (Eliminated.bankrupted hdebt hdebtor hliquidated).clears hw hl hdm
        (hmay _ rfl rfl).symm ha hlm hin hok.surrender trivial
      exact .of_none hout.1 hout.2
  | surrendered hp hact hsurr ha =>
      have hout := (Eliminated.surrendered hact hsurr).clears hw hl hp (hmay _ rfl rfl).symm ha hlm
        hin hok.surrender trivial
      exact .of_none hout.1 hout.2
  | auctionIdle _ | tradeIdle _ | timerIdle _ => exact h.toDebtHeld
  | auctioned hdue _ hr =>
      have hnone := hok.phase hdue
      cases hr with
      | unsold _ _ | sold _ _ => exact .of_none hnone (by simp only [afterAuction]; split <;> simp)
  | tradeLapsed htrade hdue => exact .of_none (hok.phase ⟨_, htrade, hdue⟩) (by simp [dropTrade])
  | timerSkipped hdue _ _ _ hps ht =>
      have hphase := isTurnExpired_phase hdue
      have hnone := hfree fun h => by simp [h, activeTurnPhases] at hphase
      cases ht with
      | passed _ _ => exact .of_none hnone (openingPhase_ne _)
      | nobody hall => exact absurd hall hnobody
  | timerSpent _ _ _ _ _ hps => exact h.of_seats hps rfl rfl
  | timerForced hdue hp hid hmax hact hsurr ha =>
      have he : Eliminated s (PlayerState.bare _) .turnTimeout _ := .forced hact hsurr
      have hout := he.clears hw hl (mem_seats hp) hid ha hlm hin hok.surrender
        ⟨hdue, _, hp, hid, hmax, hact⟩
      exact .of_none hout.1 hout.2

theorem DebtCoherent.tidied (h : DebtCoherent s) (ht : Tidied s m) : DebtCoherent m := by
  have hcash := ht.cash
  have hkeep {pid : PlayerId} (hact : Active s pid) : Active m pid :=
    hact.map .refl (ht.seats_eq.trans (List.map_id' _).symm)
  cases ht with
  | mk hps =>
      refine ⟨⟨fun debt hdebt => ?_, h.phase⟩,
        fun debt hdebt => by rw [hcash]; exact h.short _ hdebt⟩
      obtain ⟨hcurrent, hdebtor, hcreditor⟩ := h.owed debt hdebt
      exact ⟨hcurrent, hkeep hdebtor, fun c hc => ⟨(hcreditor c hc).1, hkeep (hcreditor c hc).2⟩⟩

/-- The settlement leaves only debts that cannot be paid. -/
theorem Settled.debtCoherent (h : DebtHeld s) (hsettled : Settled s m) : DebtCoherent m := by
  cases hsettled with
  | free hnone => exact ⟨h, by simp [hnone]⟩
  | owing hdebt hlt =>
      refine ⟨h, fun debt' hdebt' => ?_⟩
      obtain rfl := Option.some.inj (hdebt.symm.trans hdebt')
      exact hlt
  | paid _ _ _ => exact ⟨.of_none rfl (by simp), by simp⟩

theorem Stepped.debtCoherent {s' : GameState} (hw : WellFormed s) (hl : Live s)
    (h : s.status = .inProgress → DebtCoherent s) (hmay : MayAct s command)
    (hok : KeepsDebt s ⟨command, env⟩) (hin : s'.status = .inProgress)
    (hstep : Stepped s env command s') : DebtCoherent s' := by
  cases hstep with
  | @replied m _ hreply hd ht =>
      rw [ht.status] at hin
      have hs := h (hd.inProgress hw hmay hin)
      refine DebtCoherent.tidied ⟨hd.debtHeld hw hl hs hin hmay hok, fun debt hdebt => ?_⟩ ht
      -- the replies move cash only where no debt is pending
      cases hd with
      | responded hresp =>
          cases hresp with
          | rejected _ _ => exact hs.short debt hdebt
          | countered _ _ _ _ => exact hs.short debt hdebt
          | accepted _ _ _ hexec =>
              have hnone := hok.phase (by simp [SetsPhase])
              cases hexec
              exact absurd (hnone.symm.trans hdebt) (by simp)
      | bid hbid => cases hbid; exact hs.short debt hdebt
      | reworked hcommand _ _ =>
          cases command <;> simp [GameCommand.isReply, GameCommand.rework] at *
      | _ => simp [GameCommand.isReply] at hreply
  | played _ hd hsettled ht =>
      rw [ht.status, hsettled.status] at hin
      have hs := h (hd.inProgress hw hmay hin)
      exact (hsettled.debtCoherent (hd.debtHeld hw hl hs hin hmay hok)).tidied ht

end Calls

/-- **Bankruptcy coherence.** In every game whose calls keep to the debt, a
pending debt of an unfinished game is the current player's, is owed to
another active player or the bank, cannot be paid, and comes with the phase
`BANKRUPT_RESOLUTION`, which does not occur without one. -/
theorem debt_coherent_while_on {h : List (Taken GameState Call)} {s : GameState} (hplay : Play h s)
    (hok : ∀ t ∈ h, KeepsDebt t.before t.label) (hin : s.status = .inProgress) :
    DebtCoherent s := by
  refine Play.invariant_of (I := fun s => s.status = .inProgress → DebtCoherent s)
    (fun args s hopens _ => ?_) (fun s call s' hw hl hI hok hmay hstep hin => ?_) hplay hok hin
  · have hfresh := hopens.fresh
    exact ⟨.of_none hfresh.bankruptcy (by simp [hfresh.turn.1]), by simp [hfresh.bankruptcy]⟩
  · exact hstep.debtCoherent hw hl hI hmay hok hin

/-- With `100` in hand player `1` rolls to the income tax, and has a trade
turned down; the turn timer passes the turn on with the debt pending. -/
def strandedDebt : List Call :=
  [callAt 0 [0, 2] (.rollDice 1),
    callAt 0 [] (.proposeTrade 1 2 {} {}),
    callAt 0 [] (.respondTrade 2 7 .reject none),
    callAt 90000 [] .turnTimeout]

/-- Player `2` has the turn in the phase `PRE_ROLL` with the debt of player
`1` pending. -/
theorem stranded_debt_breaks_coherence :
    ∃ h s, Play h s ∧ h.reverse.map (·.label) = strandedDebt ∧ s.status = .inProgress ∧
      ∃ debt, s.bankruptcy = some debt ∧ debt.debtorId ≠ s.turn.currentPlayerId ∧
        s.turn.phase ≠ .bankruptResolution := by
  obtain ⟨h, s, hplay, hlabels, hcheck⟩ := play_of_reaches (duo 100) strandedDebt
    (fun _ s => s.bankruptcy.any fun debt =>
      decide (s.status = .inProgress ∧ debt.debtorId ≠ s.turn.currentPlayerId ∧
        s.turn.phase ≠ .bankruptResolution)) (by decide) (by decide +kernel)
  obtain ⟨debt, hdebt, hchecked⟩ := (Option.any_eq_true _ _).mp hcheck
  obtain ⟨hin, hdebtor, hphase⟩ := of_decide_eq_true hchecked
  exact ⟨h, s, hplay, hlabels, hin, debt, hdebt, hdebtor, hphase⟩

/-- The roll to the income tax alone leaves a coherent debt. -/
theorem debt_coherent_income_tax :
    ∃ h s, Play h s ∧ h.reverse.map (·.label) = [callAt 0 [0, 2] (.rollDice 1)] ∧
      s.bankruptcy ≠ none ∧ DebtCoherent s := by
  obtain ⟨h, s, hplay, hlabels, hcheck⟩ := play_of_reaches (duo 100)
    [callAt 0 [0, 2] (.rollDice 1)]
    (fun h s => (h.all fun (t : Taken GameState Call) => decide (∀ p ∈ t.before.seats,
      (ownershipAt t.before.spaces
        (restOf t.before p ⟨[0, 2]⟩ 200 50).1.position).ownerId = none)) &&
      decide (s.status = .inProgress ∧ s.bankruptcy ≠ none)) (by decide) (by decide +kernel)
  obtain ⟨hfree, hstate⟩ := (Bool.and_eq_true _ _).mp hcheck
  obtain ⟨hin, hdebt⟩ := of_decide_eq_true hstate
  refine ⟨h, s, hplay, hlabels, hdebt, debt_coherent_while_on hplay (fun t ht => ?_) hin⟩
  have hcall : t.label = callAt 0 [0, 2] (.rollDice 1) := by
    simpa using label_mem_of_reverse hlabels ht
  have hunowned := of_decide_eq_true (List.all_eq_true.mp hfree t ht)
  refine ⟨by simp [hcall, callAt, SetsPhase], by simp [hcall, callAt, Surrenders],
    fun p hp _ leg owner hrest howner _ => ?_⟩
  have hnone := hunowned p hp
  rw [hcall] at hrest
  rw [show restOf t.before p ⟨[0, 2]⟩ 200 50 = (leg, none) from hrest, howner] at hnone
  cases hnone

end Monopoly
