import Monopoly.Spec.Replay

/-!
# Monopoly.Laws.TurnRecord

The bookkeeping of the turns of a game that is on.  A call goes on with the
player whose turn it is, and then the turn has its number, its offers and
its doubles, or it passes the turn to somebody else, and then the record
starts afresh.
-/

namespace Monopoly

def GameCommand.isProposal : GameCommand → Bool
  | .proposeTrade .. => true
  | _ => false

/-- The call changes the player whose turn it is. -/
def PassesTurn (t : Taken GameState Call) : Prop :=
  t.after.turn.currentPlayerId ≠ t.before.turn.currentPlayerId

instance (t : Taken GameState Call) : Decidable (PassesTurn t) :=
  inferInstanceAs (Decidable (_ ≠ _))

/-- The calls of the turn at the end of a history, the latest first. -/
def callsOfTurn (h : List (Taken GameState Call)) : List (Taken GameState Call) :=
  h.takeWhile fun t => decide (¬PassesTurn t)

/-- The trades that were proposed in the turn at the end of a history. -/
def offersOfTurn (h : List (Taken GameState Call)) : Nat :=
  (callsOfTurn h).countP (·.label.command.isProposal)

/-- What is left of the last turn in the record of a new one. -/
structure Cleared (turn : TurnState) : Prop where
  dice : turn.diceRoll = none
  streak : turn.doublesStreak = 0
  offers : turn.tradeOffersMade = 0
  pending : turn.pendingBuyPosition = none

theorem cleared_passTurn (turn : TurnState) (next : PlayerState) (round : Nat) :
    Cleared (passTurn turn next round) := ⟨rfl, rfl, rfl, rfl⟩

/-- What a call does to the record of the turn, where `offers` is how many
trades it proposes. -/
inductive TurnStep (offers : Nat) (turn turn' : TurnState) : Prop
  | same : turn'.turnNumber = turn.turnNumber →
      turn'.currentPlayerId = turn.currentPlayerId →
      turn'.tradeOffersMade = turn.tradeOffersMade + offers →
      (offers = 0 ∨ turn'.tradeOffersMade ≤ maxTradeOffersPerTurn) →
      (turn'.doublesStreak = turn.doublesStreak ∨
        turn'.doublesStreak < doublesJailThreshold) → TurnStep offers turn turn'
  | passed : turn'.turnNumber = turn.turnNumber + 1 →
      turn'.currentPlayerId ≠ turn.currentPlayerId → Cleared turn' → TurnStep offers turn turn'

/-! ## one call -/

section Steps

variable {s m e : GameState} {env : Env} {command : GameCommand} {turn turn' : TurnState}

theorem TurnStep.refl (turn : TurnState) : TurnStep 0 turn turn :=
  .same rfl rfl rfl (.inl rfl) (.inl rfl)

/-- The phase, the dice, the purchase and the display fields do not
matter. -/
theorem TurnStep.of_kept (hnumber : turn'.turnNumber = turn.turnNumber)
    (hplayer : turn'.currentPlayerId = turn.currentPlayerId)
    (hoffers : turn'.tradeOffersMade = turn.tradeOffersMade)
    (hstreak : turn'.doublesStreak = turn.doublesStreak) : TurnStep 0 turn turn' :=
  .same hnumber hplayer hoffers (.inl rfl) (.inl hstreak)

theorem TurnStep.of_passTurn {offers : Nat} {next : PlayerState} (round : Nat)
    (hother : next.id ≠ turn.currentPlayerId) : TurnStep offers turn (passTurn turn next round) :=
  .passed rfl hother (cleared_passTurn turn next round)

/-- A roll starts no third doubles: that one sends the player to jail. -/
theorem Rolled.turnStep {p : PlayerState} {rng : Rng} {goSalary jailFine : Int} (hs : Sound s)
    (hr : Rolled s p rng goSalary jailFine m) : TurnStep 0 s.turn m.turn := by
  have hframe := (hr.rollFrame hs).frame
  have hnumber : m.turn.turnNumber = s.turn.turnNumber := by rw [hframe]
  have hplayer : m.turn.currentPlayerId = s.turn.currentPlayerId := by rw [hframe]
  have hoffers : m.turn.tradeOffersMade = s.turn.tradeOffersMade := by rw [hframe]
  refine .same hnumber hplayer hoffers (.inl rfl) (.inr ?_)
  have hzero : 0 < doublesJailThreshold := by decide
  cases hr with
  | jailed _ _ _ _ | stayed _ _ _ _ => exact hzero
  | moved hmoves _ _ hstreak =>
      simp only [turnAfterMove]
      split
      · exact hzero
      split
      · rename_i hextra
        obtain ⟨hdoubles, hfree⟩ := Bool.and_eq_true_iff.mp hextra
        rw [Option.isNone_iff_eq_none] at hfree
        simp only [Moves, hfree] at hmoves
        have hless : s.turn.doublesStreak + 1 < doublesJailThreshold := by
          by_contra hnot
          exact hmoves ⟨hdoubles, Nat.le_of_not_lt hnot⟩
        rw [if_pos hdoubles] at hstreak
        split
        · exact hstreak ▸ hless
        · exact hstreak ▸ hless
      · exact hzero

/-- The turn of a player who is out goes to somebody who is not. -/
theorem AfterElimination.turnStep {d : PlayerState} {heir : Option PlayerId}
    {f : PlayerState → PlayerState} {g : SpaceOwnership → SpaceOwnership}
    (hcurrent : d.id = s.turn.currentPlayerId) (hr : Removal d heir f g s e)
    (ha : AfterElimination e m) : TurnStep 0 s.turn m.turn := by
  have hturn : e.turn = s.turn := by rw [hr.frame]
  cases ha with
  | ended hc _ =>
      rw [← hturn]
      cases hc with
      | won _ _ => exact .of_kept rfl rfl rfl rfl
      | unchanged _ => exact .refl _
  | passed _ _ ht =>
      rw [← hturn]
      cases ht with
      | nobody _ => exact .refl _
      | @passed next _ hnext hactive =>
          refine .of_passTurn _ fun hsame => ?_
          rw [hr.seats] at hnext
          obtain ⟨q, -, rfl⟩ := List.mem_map.mp hnext
          have hq : q.id = d.id := by rw [← hr.id, hsame, hturn, hcurrent]
          rw [hr.bankrupt, hq, decide_eq_true rfl, Bool.or_true] at hactive
          cases hactive

theorem Dispatched.turnStep (hw : WellFormed s) (hl : Live s) (hin : s.status = .inProgress)
    (hmay : MayAct s command) (hd : Dispatched s env command m) :
    TurnStep command.isProposal.toNat s.turn m.turn := by
  obtain ⟨-, htwo⟩ := hl hin
  have hout {d : PlayerState} {e : GameState} {command : GameCommand}
      (hcurrent : d.id = s.turn.currentPlayerId) (he : Eliminated s d command e)
      (ha : AfterElimination e m) : TurnStep 0 s.turn m.turn := by
    obtain ⟨heir, f, g, -, hr⟩ := he.removal hw
    exact ha.turnStep hcurrent hr
  cases hd with
  | rolled _ _ _ hr => exact hr.turnStep hw.toSound
  | bought _ _ _ _ _ _ _ | passed _ _ | bailed _ _ _ _ _ | cardSpent _ _ _ _ _ =>
      exact .of_kept rfl rfl rfl rfl
  | ended _ _ _ _ _ hother => exact .of_passTurn _ (hother htwo)
  | reworked hcommand _ hr =>
      have hno : command.isProposal = false := by
        cases command <;> first | rfl | cases hcommand
      rw [hno]
      cases hr
      exact .refl _
  | proposed _ hprop =>
      cases hprop with
      | mk _ _ hlimit _ _ _ => exact .same rfl rfl rfl (.inr hlimit) (.inl rfl)
  | responded hresp =>
      cases hresp with
      | rejected _ _ => exact .of_kept rfl rfl rfl rfl
      | countered _ _ _ _ => exact .refl _
      | accepted _ _ _ hexec =>
          cases hexec
          exact .of_kept rfl rfl rfl rfl
  | bid hbid =>
      cases hbid
      exact .refl _
  | bankrupted hdebt hdebtor _ hliq ha =>
      exact hout (hmay _ rfl rfl).symm (.bankrupted hdebt hdebtor hliq) ha
  | surrendered _ hactive hsurr ha =>
      exact hout (hmay _ rfl rfl).symm (.surrendered hactive hsurr) ha
  | auctionIdle _ | tradeIdle _ | timerIdle _ | timerSpent _ _ _ _ _ _ => exact .refl _
  | auctioned _ _ hr => cases hr <;> exact .of_kept rfl rfl rfl rfl
  | tradeLapsed _ _ => exact .of_kept rfl rfl rfl rfl
  | timerSkipped _ _ _ _ _ ht hother =>
      cases ht with
      | passed _ _ => exact .of_passTurn _ (hother htwo)
      | nobody _ => exact .refl _
  | @timerForced p _ _ _ _ hid _ hactive hsurr ha =>
      exact hout (d := p.bare) hid (.forced hactive hsurr) ha

/-- The rest of a call touches the phase and the display fields. -/
theorem TurnStep.refreshed {offers : Nat} (h : TurnStep offers turn turn') (phase : TurnPhase)
    (turnDeadlineMs : Option Int) (actionsAvailable : ActionSet) :
    TurnStep offers turn { turn' with phase, turnDeadlineMs, actionsAvailable } := by
  cases h with
  | same hnumber hplayer hoffers hlimit hstreak =>
      exact .same hnumber hplayer hoffers hlimit hstreak
  | passed hnumber hplayer hclear =>
      exact .passed hnumber hplayer ⟨hclear.dice, hclear.streak, hclear.offers, hclear.pending⟩

theorem Stepped.turnStep {s' : GameState} (hw : WellFormed s) (hl : Live s)
    (hin : s.status = .inProgress) (hmay : MayAct s command)
    (hstep : Stepped s env command s') : TurnStep command.isProposal.toNat s.turn s'.turn := by
  cases hstep with
  | replied _ hd ht =>
      cases ht
      exact (hd.turnStep hw hl hin hmay).refreshed _ _ _
  | played _ hd hsettled ht =>
      cases ht
      cases hsettled with
      | free _ | owing _ _ | paid _ _ _ => exact (hd.turnStep hw hl hin hmay).refreshed _ _ _

end Steps

/-! ## every run -/

section Runs

variable {h : List (Taken GameState Call)} {s s' : GameState} {call : Call}

theorem offersOfTurn_of_passes (hpasses : PassesTurn ⟨s, call, s'⟩) :
    offersOfTurn (⟨s, call, s'⟩ :: h) = 0 := by
  rw [offersOfTurn, callsOfTurn, List.takeWhile_cons_of_neg (by simpa using hpasses)]
  rfl

theorem offersOfTurn_of_stays (hstays : ¬PassesTurn ⟨s, call, s'⟩) :
    offersOfTurn (⟨s, call, s'⟩ :: h) = offersOfTurn h + call.command.isProposal.toNat := by
  rw [offersOfTurn, callsOfTurn, List.takeWhile_cons_of_pos (by simpa using hstays),
    List.countP_cons, offersOfTurn, callsOfTurn]
  cases call.command.isProposal <;> rfl

/-- The turn's record at the end of a history. -/
structure OnRecord (h : List (Taken GameState Call)) (turn : TurnState) : Prop where
  counted : turn.tradeOffersMade = offersOfTurn h
  offers : turn.tradeOffersMade ≤ maxTradeOffersPerTurn
  streak : turn.doublesStreak < doublesJailThreshold

theorem OnRecord.of_cleared {turn : TurnState} (hnone : offersOfTurn h = 0)
    (hclear : Cleared turn) : OnRecord h turn where
  counted := hclear.offers.trans hnone.symm
  offers := by simp [hclear.offers]
  streak := by simp [hclear.streak, doublesJailThreshold]

theorem OnRecord.next (hrecord : OnRecord h s.turn)
    (hstep : TurnStep call.command.isProposal.toNat s.turn s'.turn) :
    OnRecord (⟨s, call, s'⟩ :: h) s'.turn := by
  cases hstep with
  | same _ hplayer hoffers hlimit hstreak =>
      constructor
      · rw [hoffers, hrecord.counted, offersOfTurn_of_stays (fun hpasses => hpasses hplayer)]
      · rcases hlimit with hzero | hlimit
        · rw [hoffers, hzero]
          exact hrecord.offers
        · exact hlimit
      · rcases hstreak with hsame | hless
        · exact hsame ▸ hrecord.streak
        · exact hless
  | passed _ hplayer hclear => exact .of_cleared (offersOfTurn_of_passes hplayer) hclear

theorem Opens.cleared {args : NewGame} (hopens : Opens args s) : Cleared s.turn := by
  obtain ⟨-, uuid4, -, rng, hnew⟩ := hopens
  refine Sat.of_ok (E := fun _ => True) (Q := fun r => Cleared r.1.turn) ?_ hnew
  exact .after fun _ _ => ⟨rfl, rfl, rfl, rfl⟩

theorem Play.onRecord (hplay : Play h s) (hin : s.status = .inProgress) :
    OnRecord h s.turn := by
  induction hplay with
  | start hopens =>
      obtain ⟨args, hopens⟩ := hopens
      exact .of_cleared rfl hopens.cleared
  | next hplay ha ih =>
      obtain ⟨hw, hl⟩ := Play.formed hplay
      obtain ⟨hmay, hstep⟩ := ha.stepped hw hl
      have hbefore := hstep.inProgress hw hmay hin
      exact (ih hbefore).next (hstep.turnStep hw hl hbefore hmay)

/-- In a game that is on, a call counts one turn on exactly when it changes
the player, who then has a fresh record; and at any time the offers made are
those of the turn, at most three, and the doubles at most two. -/
theorem turn_bookkeeping (hplay : Play h s) :
    (∀ t ∈ h, t.before.status = .inProgress →
      (PassesTurn t ↔ t.after.turn.turnNumber = t.before.turn.turnNumber + 1) ∧
      (¬PassesTurn t ↔ t.after.turn.turnNumber = t.before.turn.turnNumber) ∧
      (PassesTurn t → t.after.turn.diceRoll = none ∧ t.after.turn.doublesStreak = 0 ∧
        t.after.turn.tradeOffersMade = 0 ∧ t.after.turn.pendingBuyPosition = none)) ∧
    (s.status = .inProgress → s.turn.tradeOffersMade = offersOfTurn h ∧
      s.turn.tradeOffersMade ≤ 3 ∧ s.turn.doublesStreak ≤ 2) := by
  refine ⟨fun t ht hin => ?_, fun hin => ?_⟩
  · obtain ⟨h', hbefore⟩ := hplay.reached_of_mem ht
    obtain ⟨hw, hl⟩ := Play.formed hbefore
    obtain ⟨hmay, hstep⟩ := (hplay.step_of_mem ht).stepped hw hl
    cases hstep.turnStep hw hl hin hmay with
    | same hnumber hplayer _ _ _ =>
        have hstays : ¬PassesTurn t := fun hpasses => hpasses hplayer
        refine ⟨iff_of_false hstays ?_, iff_of_true hstays hnumber, fun hp => absurd hp hstays⟩
        omega
    | passed hnumber hplayer hclear =>
        refine ⟨iff_of_true hplayer hnumber, iff_of_false (not_not_intro hplayer) ?_,
          fun _ => ⟨hclear.dice, hclear.streak, hclear.offers, hclear.pending⟩⟩
        omega
  · have hrecord := hplay.onRecord hin
    exact ⟨hrecord.counted, hrecord.offers, Nat.le_of_lt_succ hrecord.streak⟩

/-- The first offer of the first turn is counted. -/
theorem turn_bookkeeping_offer : ∃ h s, Play h s ∧ s.status = .inProgress ∧
    s.turn.currentPlayerId = 1 ∧ offersOfTurn h = 1 ∧ s.turn.tradeOffersMade = 1 := by
  obtain ⟨h, s, hplay, -, hcheck⟩ := play_of_reaches (duo 1500)
    [callAt 0 [] (.proposeTrade 1 2 {} {})]
    (fun h s => decide (s.status = .inProgress ∧ s.turn.currentPlayerId = 1 ∧
      offersOfTurn h = 1)) (by decide) (by decide +kernel)
  obtain ⟨hin, hcurrent, hoffers⟩ := of_decide_eq_true hcheck
  exact ⟨h, s, hplay, hin, hcurrent, hoffers,
    ((turn_bookkeeping hplay).2 hin).1.trans hoffers⟩

end Runs

end Monopoly
