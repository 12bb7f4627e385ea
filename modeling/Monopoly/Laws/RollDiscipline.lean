import Monopoly.Spec.Replay

/-!
# Monopoly.Laws.RollDiscipline

Every roll of a turn but its first follows a doubles that was not rolled in
jail, as long as no other roll comes to rest on a card that is carried out
in place and leaves the phase as it was.
-/

namespace Monopoly

/-! ## the rolls of a turn -/

def GameCommand.isRoll : GameCommand → Bool
  | .rollDice _ => true
  | _ => false

/-- The rolls of the turn that is on in `s` at the end of a history, the
latest first. -/
def turnRolls (h : List (Taken GameState Call)) (s : GameState) : List (Taken GameState Call) :=
  (h.takeWhile fun t => decide (t.before.turn.turnNumber = s.turn.turnNumber)).filter
    (·.label.command.isRoll)

/-- The call rolls a doubles for a player who is not in jail. -/
def FreeDoubles (s : GameState) (call : Call) : Prop :=
  (diceOf s.gameMode call.env.rng).isDoubles = true ∧
    ∃ p ∈ s.seats, call.command = .rollDice p.id ∧ p.jailStatus = none

/-- Every roll follows, among the rolls of its turn, a doubles that was not
rolled in jail. -/
def RollsEarned : List (Taken GameState Call) → Prop
  | [] => True
  | t :: h => RollsEarned h ∧ (t.label.command.isRoll = true →
      ∀ last, (turnRolls h t.before).head? = some last → FreeDoubles last.before last.label)

/-- A roll other than a doubles out of jail does not come to rest on a card
that is carried out in place: a card that sends the player to jail, or asks
for more than the player has, is none. -/
def StopsRoll (s : GameState) (call : Call) : Prop :=
  ∀ p ∈ s.seats, call.command = .rollDice p.id → ¬ FreeDoubles s call →
    Moves s p (diceOf s.gameMode call.env.rng).isDoubles → ∀ leg card,
    restOf s p call.env.rng call.env.goSalary call.env.jailFine = (leg, some card) →
    card.effect = .goToJail ∨ s.bankruptcy = none ∧
      ∃ amount, cardCharge s p.id card.effect = some amount ∧ 0 < amount ∧ leg.cash < amount

/-- No roll is open: the phase is none of the two a player rolls in, and no
doubles is left to be rolled for. -/
structure RollClosed (turn : TurnState) : Prop where
  preRoll : turn.phase ≠ .preRoll
  jailDecision : turn.phase ≠ .jailDecision
  streak : turn.doublesStreak = 0

section Rolls

variable {s m a : GameState} {r : PlayerId} {env : Env} {command : GameCommand}

/-- The phases a landing ends in that is not carried out in place. -/
def landedPhases : List TurnPhase := [.postRoll, .mustPayRent, .bankruptResolution]

theorem Touchdown.landed {leg : Leg} {stop : Option CardDef} {jailed : Bool}
    (ht : Touchdown r a leg stop s jailed)
    (hok : ∀ card, stop = some card → card.effect = .goToJail ∨ a.bankruptcy = none ∧
      ∃ amount, cardCharge a r card.effect = some amount ∧ 0 < amount ∧ a.cash r < amount) :
    s.turn.phase ∈ landedPhases := by
  cases ht with
  | jailSpace _ _ | jailCard _ _ | taxed _ _ _ _ | taxOwed _ _ _ | rented _ _ _
  | rentOwed _ _ _ | rested _ _ _ => simp [landedPhases]
  | collected heffect _ | collectedFromEach heffect _ _ | paidEach heffect _
  | keptJailCard heffect _ =>
      have := hok _ rfl
      simp [heffect, cardCharge] at this
  | charged hcharge hc =>
      rcases hok _ rfl with hjail | ⟨hnone, amount, hcharge', hpos, hshort⟩
      · simp [hjail, cardCharge] at hcharge
      · obtain rfl := Option.some.inj (hcharge'.symm.trans hcharge)
        cases hc with
        | nothing hle _ => omega
        | paid _ hle _ => omega
        | dropped _ _ hdebt _ => exact absurd hnone hdebt
        | indebted _ _ _ _ => simp [landedPhases]

theorem cardCharge_comeToRest (s : GameState) (r : PlayerId) (leg : Leg) (effect : CardEffect) :
    cardCharge (comeToRest s r leg) r effect = cardCharge s r effect := by
  have hholdings : (comeToRest s r leg).holdings r = s.holdings r := by
    rw [GameState.holdings, GameState.holdings,
      seat?_map (seats_comeToRest s r leg) fun p => by split <;> rfl]
    cases s.seat? r with
    | none => rfl
    | some p => simp only [Option.map_some, Option.elim_some]; split <;> rfl
  cases effect with
  | repairs perHouse perHotel => simp only [cardCharge, hholdings]; rfl
  | _ => rfl

/-- A roll that is no free doubles leaves no roll open. -/
theorem Rolled.closes {p : PlayerState} {rng : Rng} {goSalary jailFine : Int} (hs : Sound s)
    (hp : p ∈ s.seats)
    (hfree : ¬ ((diceOf s.gameMode rng).isDoubles = true ∧ p.jailStatus = none))
    (hok : Moves s p (diceOf s.gameMode rng).isDoubles → ∀ leg card,
      restOf s p rng goSalary jailFine = (leg, some card) →
      card.effect = .goToJail ∨ s.bankruptcy = none ∧
        ∃ amount, cardCharge s p.id card.effect = some amount ∧ 0 < amount ∧ leg.cash < amount)
    (hr : Rolled s p rng goSalary jailFine m) : RollClosed m.turn := by
  cases hr with
  | jailed hjail hdoubles _ _ => exact absurd ⟨hdoubles, hjail⟩ hfree
  | stayed _ _ _ _ => exact ⟨by simp [stayTurn], by simp [stayTurn], rfl⟩
  | @moved leg stop s₁ sentToJail _ newStreak hmoves hrest ht _ =>
      have hextra : grantsExtraRoll p (diceOf s.gameMode rng).isDoubles = false := by
        rw [grantsExtraRoll, ← Bool.not_eq_true, Bool.and_eq_true, Option.isNone_iff_eq_none]
        exact hfree
      obtain ⟨hformed, hmode, -⟩ := restOf_spec hs hrest
      have hsound := (comeToRest_rollFrame (r := p.id) hformed hmode).sound hs
      have hseat : settleAt leg p ∈ (comeToRest s p.id leg).seats := by
        rw [seats_comeToRest]
        exact mem_editSeat.mpr ⟨p, hp, if_pos rfl⟩
      have hcash : (comeToRest s p.id leg).cash p.id = leg.cash := hsound.cash_seat hseat
      have hlanded := ht.landed fun card hstop => by
        rw [hcash, cardCharge_comeToRest]
        exact hok hmoves leg card (hstop ▸ hrest)
      have hphase : s₁.turn.phase ≠ .preRoll ∧ s₁.turn.phase ≠ .jailDecision := by
        constructor <;> intro h <;> simp [h, landedPhases] at hlanded
      simp only [turnAfterMove, hextra]
      split
      · refine ⟨?_, ?_, rfl⟩ <;> simp only <;> split <;> simp [hphase]
      · exact ⟨hphase.1, hphase.2, rfl⟩

/-! ## one call -/

theorem RollClosed.of_eq {turn turn' : TurnState} (h : RollClosed turn)
    (hphase : turn'.phase = turn.phase) (hstreak : turn'.doublesStreak = turn.doublesStreak) :
    RollClosed turn' :=
  ⟨hphase ▸ h.preRoll, hphase ▸ h.jailDecision, hstreak ▸ h.streak⟩

/-- The turn goes on to the next one, or no roll is open in it. -/
def TurnOver (turn turn' : TurnState) : Prop :=
  turn'.turnNumber ≠ turn.turnNumber ∨ RollClosed turn'

theorem TurnMoved.turnOver {e : GameState} (ht : TurnMoved e m) (hturn : e.turn = s.turn)
    (h : RollClosed s.turn) : TurnOver s.turn m.turn := by
  cases ht with
  | passed _ _ => exact .inl (by simp [passTurn, hturn])
  | nobody _ => exact .inr (hturn ▸ h)

theorem AfterElimination.turnOver {e : GameState} (hturn : e.turn = s.turn)
    (h : RollClosed s.turn) (ha : AfterElimination e m) : TurnOver s.turn m.turn := by
  cases ha with
  | ended hc _ =>
      cases hc with
      | won _ _ => exact .inr ⟨by simp, by simp, hturn ▸ h.streak⟩
      | unchanged _ => exact .inr (hturn ▸ h)
  | passed _ _ ht => exact ht.turnOver hturn h

/-- No command but a roll opens a roll. -/
theorem Dispatched.turnOver (hquiet : command.isRoll = false) (h : RollClosed s.turn)
    (hd : Dispatched s env command m) : TurnOver s.turn m.turn := by
  cases hd with
  | rolled _ _ _ _ => cases hquiet
  | bought _ _ _ _ _ _ _ =>
      have hstreak : ¬ s.turn.doublesStreak > 0 := by simp [h.streak]
      simp only [if_neg hstreak]
      exact .inr (h.of_eq rfl rfl)
  | passed _ _ => exact .inr ⟨by simp [startAuction], by simp [startAuction], h.streak⟩
  | ended _ _ _ _ _ => exact .inl (by simp [passTurn])
  | bailed hjail _ _ _ _ | cardSpent hjail _ _ _ _ => exact absurd hjail h.jailDecision
  | reworked _ _ hr => cases hr; exact .inr h
  | proposed _ hprop => cases hprop; exact .inr ⟨by simp, by simp, h.streak⟩
  | responded hresp =>
      cases hresp with
      | rejected _ _ => exact .inr ⟨by simp [dropTrade], by simp [dropTrade], h.streak⟩
      | countered _ _ _ _ => exact .inr h
      | accepted _ _ _ hexec => cases hexec; exact .inr ⟨by simp, by simp, h.streak⟩
  | bid hbid => cases hbid; exact .inr h
  | bankrupted _ _ _ hl ha => exact ha.turnOver (by cases hl <;> rfl) h
  | surrendered _ _ hsurr ha => exact ha.turnOver (by cases hsurr; rfl) h
  | auctionIdle _ | tradeIdle _ | timerIdle _ => exact .inr h
  | auctioned _ _ hr =>
      have hafter : afterAuction s.turn = .postRoll := by simp [afterAuction, h.streak]
      cases hr with
      | unsold _ _ | sold _ _ => exact .inr ⟨by simp [hafter], by simp [hafter], h.streak⟩
  | tradeLapsed _ _ => exact .inr ⟨by simp [dropTrade], by simp [dropTrade], h.streak⟩
  | timerSkipped _ _ _ _ _ ht => exact ht.turnOver rfl h
  | timerSpent _ _ _ _ _ _ => exact .inr h
  | timerForced _ _ _ _ _ hsurr ha => exact ha.turnOver (by cases hsurr; rfl) h

theorem Settled.turnOver {turn : TurnState} (h : TurnOver turn s.turn) (hsettled : Settled s m) :
    TurnOver turn m.turn := by
  cases hsettled with
  | free _ | owing _ _ => exact h
  | paid _ _ _ => exact h.imp id fun h => ⟨by simp, by simp, h.streak⟩

theorem Tidied.turnOver {turn : TurnState} (h : TurnOver turn s.turn) (ht : Tidied s m) :
    TurnOver turn m.turn := by
  cases ht with
  | mk _ => exact h.imp id fun h => h.of_eq rfl rfl

theorem Stepped.turnOver {s' : GameState} (hquiet : command.isRoll = false)
    (h : RollClosed s.turn) (hstep : Stepped s env command s') : TurnOver s.turn s'.turn := by
  cases hstep with
  | replied _ hd ht => exact ht.turnOver (hd.turnOver hquiet h)
  | played _ hd hsettled ht => exact ht.turnOver (hsettled.turnOver (hd.turnOver hquiet h))

/-- What a roll requires, and what a roll that is no free doubles leaves. -/
theorem Stepped.rolled {s' : GameState} (hw : WellFormed s) (hroll : command.isRoll = true)
    (hstep : Stepped s env command s') :
    (s.turn.phase = .preRoll ∨ s.turn.phase = .jailDecision) ∧
      s'.turn.turnNumber = s.turn.turnNumber ∧
      (¬ FreeDoubles s ⟨command, env⟩ → StopsRoll s ⟨command, env⟩ → RollClosed s'.turn) := by
  cases hstep with
  | replied hreply _ _ => cases command <;> simp [GameCommand.isReply, GameCommand.isRoll] at *
  | @played m n _ _ hd hsettled ht =>
      cases hd with
      | rolled hphase hp _ hr =>
          have hnumber : s'.turn.turnNumber = m.turn.turnNumber := by
            cases ht; cases hsettled <;> rfl
          refine ⟨hphase, hnumber.trans (by rw [(hr.rollFrame hw.toSound).frame]),
            fun hfree hok => ?_⟩
          have hclosed : RollClosed m.turn := hr.closes hw.toSound hp
            (fun hdoubles => hfree ⟨hdoubles.1, _, hp, rfl, hdoubles.2⟩) (hok _ hp rfl hfree)
          exact (ht.turnOver (hsettled.turnOver (.inr hclosed))).resolve_left fun hne =>
            hne hnumber
      | reworked hcommand _ _ =>
          cases command <;> simp [GameCommand.rework, GameCommand.isRoll] at *
      | _ => simp [GameCommand.isRoll] at hroll

end Rolls

/-! ## every run -/

section Runs

variable {h : List (Taken GameState Call)} {s s' : GameState} {call : Call}

theorem turnRolls_next (hnumber : s'.turn.turnNumber ≠ s.turn.turnNumber) :
    turnRolls (⟨s, call, s'⟩ :: h) s' = [] := by
  rw [turnRolls, List.takeWhile_cons_of_neg (by simpa using Ne.symm hnumber)]
  rfl

theorem turnRolls_cons (hnumber : s'.turn.turnNumber = s.turn.turnNumber) :
    turnRolls (⟨s, call, s'⟩ :: h) s' =
      if call.command.isRoll then ⟨s, call, s'⟩ :: turnRolls h s else turnRolls h s := by
  rw [turnRolls, List.takeWhile_cons_of_pos (by simp [hnumber]), List.filter_cons, turnRolls,
    hnumber]

/-- The last roll of the turn was a free doubles, or no roll is open. -/
def LastRollSettles (h : List (Taken GameState Call)) (s : GameState) : Prop :=
  ∀ last, (turnRolls h s).head? = some last →
    FreeDoubles last.before last.label ∨ RollClosed s.turn

theorem Play.lastRollSettles (hplay : Play h s) (hok : ∀ t ∈ h, StopsRoll t.before t.label) :
    LastRollSettles h s := by
  induction hplay with
  | start _ => simp [LastRollSettles, turnRolls]
  | @next h s s' call hplay ha ih =>
      obtain ⟨hw, hl⟩ := Play.formed hplay
      have hstep := (ha.stepped hw hl).2
      have hprev := ih fun t ht => hok t (List.mem_cons_of_mem _ ht)
      intro last hlast
      by_cases hnumber : s'.turn.turnNumber = s.turn.turnNumber
      · rw [turnRolls_cons hnumber] at hlast
        split at hlast
        · rename_i hroll
          obtain rfl := Option.some.inj hlast
          by_cases hfree : FreeDoubles s call
          · exact .inl hfree
          · exact .inr ((hstep.rolled hw hroll).2.2 hfree (hok _ List.mem_cons_self))
        · rename_i hroll
          refine (hprev last hlast).imp id fun hclosed => ?_
          exact (hstep.turnOver (by simpa using hroll) hclosed).resolve_left fun hne => hne hnumber
      · rw [turnRolls_next hnumber] at hlast
        cases hlast

/-- **Roll discipline.** In every game whose other rolls come to rest off
the cards carried out in place, every roll of a turn but its first follows a
doubles that was not rolled in jail, and a roll that is none leaves neither
of the phases a player rolls in. -/
theorem rolls_are_earned (hplay : Play h s) (hok : ∀ t ∈ h, StopsRoll t.before t.label) :
    RollsEarned h ∧ ∀ t ∈ h, t.label.command.isRoll = true → ¬ FreeDoubles t.before t.label →
      t.after.turn.phase ≠ .preRoll ∧ t.after.turn.phase ≠ .jailDecision := by
  induction hplay with
  | start _ => exact ⟨trivial, by simp⟩
  | @next h s s' call hplay ha ih =>
      obtain ⟨hw, hl⟩ := Play.formed hplay
      have hstep := (ha.stepped hw hl).2
      have hbefore : ∀ t ∈ h, StopsRoll t.before t.label := fun t ht =>
        hok t (List.mem_cons_of_mem _ ht)
      obtain ⟨hearned, hclosed⟩ := ih hbefore
      refine ⟨⟨hearned, fun hroll last hlast => ?_⟩, List.forall_mem_cons.mpr ⟨?_, hclosed⟩⟩
      · refine (Play.lastRollSettles hplay hbefore last hlast).resolve_right fun hclosed => ?_
        rcases (hstep.rolled hw hroll).1 with hphase | hphase
        · exact hclosed.preRoll hphase
        · exact hclosed.jailDecision hphase
      · intro hroll hfree
        have hclosed := (hstep.rolled hw hroll).2.2 hfree (hok _ List.mem_cons_self)
        exact ⟨hclosed.preRoll, hclosed.jailDecision⟩

end Runs

/-- Both players roll to the jail as visitors; player `1` goes on to a
Community Chest card that pays, and rolls again. -/
def rollAfterCard : List Call :=
  [callAt 0 [3, 5] (.rollDice 1),
    callAt 0 [] (.endTurn 1),
    callAt 0 [3, 5] (.rollDice 2),
    callAt 0 [] (.endTurn 2),
    callAt 0 [0, 5] (.rollDice 1),
    callAt 0 [0, 1] (.rollDice 1)]

/-- The last roll follows a roll of `1` and `6`. -/
theorem card_roll_breaks_discipline :
    ∃ h s, Play h s ∧ h.reverse.map (·.label) = rollAfterCard ∧ ¬ RollsEarned h := by
  obtain ⟨h, s, hplay, hlabels, hcheck⟩ := play_of_reaches (duo 1500) rollAfterCard
    (fun h _ => match h with
      | [] => false
      | t :: rest => t.label.command.isRoll && (turnRolls rest t.before).head?.any
          fun (last : Taken GameState Call) =>
            !(diceOf last.before.gameMode last.label.env.rng).isDoubles)
    (by decide) (by decide +kernel)
  refine ⟨h, s, hplay, hlabels, fun hearned => ?_⟩
  cases h with
  | nil => cases hcheck
  | cons t rest =>
      obtain ⟨hroll, hany⟩ := (Bool.and_eq_true _ _).mp hcheck
      obtain ⟨last, hlast, hdice⟩ := (Option.any_eq_true _ _).mp hany
      rw [(hearned.2 hroll last hlast).1] at hdice
      cases hdice

/-- The first two turns alone. -/
theorem rolls_are_earned_two_turns :
    ∃ h s, Play h s ∧ h.reverse.map (·.label) = rollAfterCard.take 3 ∧ RollsEarned h := by
  obtain ⟨h, s, hplay, hlabels, hcheck⟩ := play_of_reaches (duo 1500) (rollAfterCard.take 3)
    (fun h _ => h.all fun (t : Taken GameState Call) =>
      decide (t.label.command.isRoll = true → ∀ p ∈ t.before.seats,
        (restOf t.before p t.label.env.rng 200 50).2 = none)) (by decide) (by decide +kernel)
  refine ⟨h, s, hplay, hlabels,
    (rolls_are_earned hplay fun t ht p hp hroll _ _ leg card hrest => ?_).1⟩
  have hchecked := of_decide_eq_true (List.all_eq_true.mp hcheck t ht) (by rw [hroll]; rfl) p hp
  have hsettings : ∀ call ∈ rollAfterCard.take 3,
      call.env.goSalary = 200 ∧ call.env.jailFine = 50 := by
    decide
  obtain ⟨hsalary, hfine⟩ := hsettings _ (label_mem_of_reverse hlabels ht)
  rw [hsalary, hfine] at hrest
  rw [hrest] at hchecked
  cases hchecked

end Monopoly
