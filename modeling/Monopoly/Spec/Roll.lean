import Monopoly.Engine.Roll
import Monopoly.Spec.Follow

/-!
# Monopoly.Spec.Roll

What an accepted `RollDice` does: the roller goes to jail for the third
doubles, stays in jail, or moves, comes to rest and touches down.
-/

namespace Monopoly

/-! ## the move of a roll -/

/-- The dice of a roll. -/
def diceOf (mode : GameMode) (rng : Rng) : DiceRoll :=
  let dice := (rollDiceCount rng (getGameConfig mode).diceCount).1
  { die1 := dice.1, die2 := dice.2, isDoubles := decide (dice.1 = dice.2) }

/-- The generator after the dice. -/
def afterDice (mode : GameMode) (rng : Rng) : Rng :=
  (rollDiceCount rng (getGameConfig mode).diceCount).2

/-- The player as the move starts: a jailed one is let out, against the fine
unless the roll is a doubles. -/
def launch (jailFine : Int) (doubles : Bool) (p : PlayerState) : PlayerState :=
  match p.jailStatus with
  | none => p
  | some _ =>
      { p with jailStatus := none, balance := p.balance - (if doubles then 0 else jailFine) }

/-- The walk of `p` by the dice, from `cash` in hand, with the salary
collected where it passes GO. -/
def walkLeg (s : GameState) (p : PlayerState) (cash : Int) (roll : DiceRoll) (rng : Rng)
    (goSalary : Int) : Leg :=
  let steps := roll.die1 + roll.die2
  { mode := s.gameMode
    decks := s.deck
    position := walkTo s.gameMode p.position steps
    cash := cash + (if boardSize s.gameMode ≤ p.position - 1 + steps then goSalary else 0)
    diceTotal := steps
    multiplier := 1
    rng := rng }

/-- The first leg of the move of a roll. -/
def rollLeg (s : GameState) (p : PlayerState) (rng : Rng) (goSalary jailFine : Int) : Leg :=
  let roll := diceOf s.gameMode rng
  walkLeg s p (launch jailFine roll.isDoubles p).balance roll (afterDice s.gameMode rng) goSalary

/-- Where the move of a roll comes to rest, and the card carried out there. -/
def restOf (s : GameState) (p : PlayerState) (rng : Rng) (goSalary jailFine : Int) :
    Leg × Option CardDef :=
  follow goSalary landingFuel (rollLeg s p rng goSalary jailFine)

/-- A seat at the end of a move. -/
def settleAt (leg : Leg) (p : PlayerState) : PlayerState :=
  { p with jailStatus := none, position := leg.position, balance := leg.cash }

/-- The table when the roller has come to rest. -/
def comeToRest (s : GameState) (r : PlayerId) (leg : Leg) : GameState :=
  { s with
    players := editSeat r (settleAt leg) s.players
    chanceDeck := leg.decks .chance
    chestDeck := leg.decks .communityChest }

/-- The roll moves the player: a free player short of the third doubles, and
a jailed one who rolls doubles or has run out of turns. -/
def Moves (s : GameState) (p : PlayerState) (doubles : Bool) : Prop :=
  match p.jailStatus with
  | none => ¬ (doubles = true ∧ s.turn.doublesStreak + 1 ≥ doublesJailThreshold)
  | some jail => doubles = true ∨ jail.turnsRemaining - 1 = 0

/-- The extra roll of a doubles: not for a roll out of jail. -/
def grantsExtraRoll (p : PlayerState) (doubles : Bool) : Bool := doubles && p.jailStatus.isNone

/-- What an accepted roll of the player `p` does. -/
inductive Rolled (s : GameState) (p : PlayerState) (rng : Rng) (goSalary jailFine : Int) :
    GameState → Prop
  | jailed {ps : List PlayerState} :
      p.jailStatus = none → (diceOf s.gameMode rng).isDoubles = true →
      s.turn.doublesStreak + 1 ≥ doublesJailThreshold →
      seatsOf ps = editSeat p.id (sendToJail · s.gameMode) s.seats →
      Rolled s p rng goSalary jailFine
        { s with players := ps, turn := stayTurn s.turn (diceOf s.gameMode rng) }
  | stayed {jail : JailStatus} {ps : List PlayerState} :
      p.jailStatus = some jail → (diceOf s.gameMode rng).isDoubles = false →
      0 < jail.turnsRemaining - 1 →
      seatsOf ps = editSeat p.id (fun q => { q with
        jailStatus := some { turnsRemaining := jail.turnsRemaining - 1 } }) s.seats →
      Rolled s p rng goSalary jailFine
        { s with players := ps, turn := stayTurn s.turn (diceOf s.gameMode rng) }
  | moved {leg : Leg} {stop : Option CardDef} {s' : GameState} {sentToJail : Bool}
      {activeCard : Option ActiveCard} {newStreak : Nat} :
      Moves s p (diceOf s.gameMode rng).isDoubles →
      restOf s p rng goSalary jailFine = (leg, stop) →
      Touchdown p.id (comeToRest s p.id leg) leg stop s' sentToJail →
      newStreak = (if (diceOf s.gameMode rng).isDoubles then s.turn.doublesStreak + 1 else 0) →
      Rolled s p rng goSalary jailFine { s' with
        activeCard
        turn := turnAfterMove s' (diceOf s.gameMode rng)
          (grantsExtraRoll p (diceOf s.gameMode rng).isDoubles) sentToJail newStreak }

section Rules

variable {s : GameState} {p q : PlayerState} {rng : Rng} {goSalary jailFine : Int}

/-- The walk puts the record `p` of the player in the seat, on the new
position and with the salary. -/
theorem walk_eq (hs : Sound s) (hq : q ∈ s.players) (hid : q.id = p.id)
    (howned : p.ownedPositions = q.ownedPositions) (hpos : p.position = q.position)
    (steps : Nat) :
    ∃ ps m events,
      walk s p steps goSalary = .ok ({ s with players := ps }, m, events) ∧
      seatsOf ps = editSeat p.id (fun _ => m.bare) s.seats ∧
      m.bare = { p.bare with
        position := walkTo s.gameMode p.position steps
        balance := p.balance +
          (if boardSize s.gameMode ≤ p.position - 1 + steps then goSalary else 0) } ∧
      Sound { s with players := ps } := by
  have hboard : OnBoard s.gameMode p.position := hpos ▸ hs.standing q.bare (mem_seats hq)
  set dest := walkTo s.gameMode p.position steps
  set passes := decide (boardSize s.gameMode ≤ p.position - 1 + steps) with hpasses
  let moved : PlayerState := { p with position := dest }
  set ps := editSeat p.id (fun _ => moved) s.players with hpsdef
  have hassign : assignPlayer s.players p.id moved = .ok ps := by
    rw [hpsdef, ← hid]; exact assignPlayer_eq hs.playerIds hq fun _ => moved
  have hps : seatsOf ps = editSeat p.id (fun _ => moved.bare) s.seats :=
    seatsOf_editSeat fun _ => rfl
  have hdest : OnBoard s.gameMode dest := onBoard_walkTo _ _ _
  have hs1 : Sound { s with players := ps } :=
    hs.store (q := q.bare) (v := moved.bare) (mem_seats hq) (by rw [bare_id, hid]; exact hps)
      hid.symm howned hdest rfl
  have hmem : moved.bare ∈ seatsOf ps := by
    rw [hps]; exact mem_editSeat.mpr ⟨q.bare, mem_seats hq, if_pos hid⟩
  obtain ⟨ps', m, events, hgo, hps', hbare, hmem'⟩ :=
    collectGoBonus_eq (s := { s with players := ps }) (p := moved) hs1 hmem goSalary passes
  have hseats : seatsOf ps' = editSeat p.id (fun _ => m.bare) s.seats := by
    rw [show seatsOf ps' = editSeat p.id (credit _) (seatsOf ps) from hps', hps, hbare]
    exact editSeat_editSeat _ fun _ _ => rfl
  have hsal : (if passes = true then goSalary else 0) =
      if boardSize s.gameMode ≤ p.position - 1 + steps then goSalary else 0 := by
    rw [hpasses]; simp
  have hm : m.bare = { p.bare with
      position := dest
      balance := p.balance +
        (if boardSize s.gameMode ≤ p.position - 1 + steps then goSalary else 0) } := by
    rw [hbare, hsal]; rfl
  refine ⟨ps', m, .playerMoved p.id p.displayName p.token p.position dest steps .dice :: events,
    ?_, hseats, hm, ?_⟩
  · simp only [walk, advancePosition_eq hboard, ok_bind]
    show (assignPlayer s.players p.id moved >>= _) = _
    simp only [hassign, ok_bind]
    show (collectGoBonus { s with players := ps } moved goSalary passes >>= _) = _
    simp only [hgo, ok_bind]
    rfl
  · exact hs.store (q := q.bare) (v := m.bare) (mem_seats hq) (by rw [bare_id, hid]; exact hseats)
      (by rw [hm]; exact hid.symm) (by rw [hm]; exact howned) (by rw [hm]; exact hdest) rfl

/-- The move of a roll: the table has the player's seat as `q`, and the move
starts from the record `p`. -/
theorem executeMove_sat (hs : Sound s) (hq : q ∈ s.players) (hid : q.id = p.id)
    (hp : p.bare = { q.bare with balance := p.balance, jailStatus := none })
    (roll : DiceRoll) (extraRoll : Bool) :
    Sat (fun _ => False) (executeMove s p roll extraRoll rng goSalary) fun r =>
      let rest := follow goSalary landingFuel (walkLeg s q p.balance roll rng goSalary)
      ∃ s' sentToJail activeCard,
        Touchdown p.id (comeToRest s p.id rest.1) rest.1 rest.2 s' sentToJail ∧
        r.1.1 = { s' with
          activeCard
          turn := turnAfterMove s' roll (roll.isDoubles && extraRoll) sentToJail
            (if roll.isDoubles then s.turn.doublesStreak + 1 else 0) } := by
  have howned : p.ownedPositions = q.ownedPositions := by
    rw [← bare_ownedPositions, hp]; rfl
  have hpos : p.position = q.position := by rw [← bare_position, hp]; rfl
  obtain ⟨ps, m, events, hwalk, hps, hm, hw⟩ :=
    walk_eq hs hq hid howned hpos (roll.die1 + roll.die2)
  have hmid : m.id = p.id := by rw [← bare_id, hm]; rfl
  have hmem : m.bare ∈ seatsOf ps := by
    rw [hps]; exact mem_editSeat.mpr ⟨q.bare, mem_seats hq, if_pos hid⟩
  have hland := resolveLanding_sat roll goSalary rng hw hmem
  have hleg : legOf { s with players := ps } m (roll.die1 + roll.die2) 1 rng =
      walkLeg s q p.balance roll rng goSalary := by
    have h1 : m.position = walkTo s.gameMode q.position (roll.die1 + roll.die2) := by
      rw [← bare_position, hm, ← hpos]
    have h2 : m.balance = p.balance + (if boardSize s.gameMode ≤
        q.position - 1 + (roll.die1 + roll.die2) then goSalary else 0) := by
      rw [← bare_balance, hm, ← hpos]
    simp only [legOf, h1, h2]
    rfl
  rw [hleg, hmid] at hland
  simp only [executeMove, hwalk, ok_bind, sat_bind, sat_pure]
  refine hland.imp fun L hL => ?_
  obtain ⟨s', activeCard, ht, heq⟩ := hL
  have hsame : ∀ leg,
      SameTable (comeToRest s p.id leg) (arrive { s with players := ps } p.id leg) := by
    intro leg
    refine ⟨rfl, ?_⟩
    show seatsOf (editSeat p.id (atLeg leg) ps) = seatsOf (editSeat p.id (settleAt leg) s.players)
    rw [seatsOf_editSeat (g := atLeg leg) fun _ => rfl,
      seatsOf_editSeat (g := settleAt leg) fun _ => rfl, hps,
      editSeat_editSeat _ fun _ _ => hmid ▸ rfl, ← hid]
    refine editAt_congr PlayerState.id hs.ids (mem_seats hq) ?_
    show atLeg leg m.bare = settleAt leg q.bare
    rw [hm, hp]
    rfl
  refine ⟨s', L.sentToJail, activeCard, ht.of_sameTable (hsame _), ?_⟩
  rw [heq]
  rfl

/-- `players[idx] = update_player_net_worth(v, ..)` for the seat of `q`. -/
theorem storePlayer_eq {v : PlayerState} (hs : Sound s) (hq : q ∈ s.players) (hid : v.id = q.id)
    (howned : v.ownedPositions = q.ownedPositions) {g : PlayerState → PlayerState}
    (hg : g q.bare = v.bare) :
    ∃ ps, storePlayer s v = .ok { s with players := ps } ∧
      seatsOf ps = editSeat q.id g s.seats := by
  have hval : updatePlayerNetWorth v s.spaces s.gameMode = .ok (revalue s.spaces s.gameMode v) :=
    updatePlayerNetWorth_eq hs.layout fun pos hpos => hs.owned hq pos (howned ▸ hpos)
  have hassign := assignPlayer_eq hs.playerIds hq fun _ => revalue s.spaces s.gameMode v
  refine ⟨editSeat q.id (fun _ => revalue s.spaces s.gameMode v) s.players, ?_, ?_⟩
  · simp only [storePlayer, hval, hid, hassign, ok_bind]
    rfl
  · have hconst : seatsOf (editSeat q.id (fun _ => revalue s.spaces s.gameMode v) s.players) =
        editSeat q.id (fun _ => v.bare) s.seats := seatsOf_editSeat fun _ => rfl
    rw [hconst]
    exact editAt_congr PlayerState.id hs.ids (mem_seats hq) hg.symm

/-- A record with another jail status and another balance is stored, and the
table can still be evaluated. -/
theorem storePlayer_freed {v : PlayerState} (hs : Sound s) (hq : q ∈ s.players)
    (hv : v.bare = { q.bare with jailStatus := v.jailStatus, balance := v.balance }) :
    ∃ ps x, storePlayer s v = .ok { s with players := ps } ∧
      seatsOf ps = editSeat q.id (fun _ => v.bare) s.seats ∧ Sound { s with players := ps } ∧
      x ∈ ps ∧ x.bare = v.bare := by
  have hid : v.id = q.id := by rw [← bare_id, hv]; rfl
  have howned : v.ownedPositions = q.ownedPositions := by rw [← bare_ownedPositions, hv]; rfl
  obtain ⟨ps, hstore, hps⟩ := storePlayer_eq (g := fun _ => v.bare) hs hq hid howned rfl
  have hs1 : Sound { s with players := ps } :=
    hs.store (q := q.bare) (v := v.bare) (mem_seats hq) hps hid howned
      (by rw [hv]; exact hs.standing q.bare (mem_seats hq)) rfl
  have hmem : v.bare ∈ seatsOf ps := by
    rw [hps]; exact mem_editSeat.mpr ⟨q.bare, mem_seats hq, if_pos rfl⟩
  obtain ⟨x, hx, hxb⟩ := List.mem_map.mp hmem
  exact ⟨ps, x, hstore, hps, hs1, hx, hxb⟩

theorem Touchdown.comeToRest_of {s₁ s' : GameState} {r : PlayerId} {leg : Leg}
    {stop : Option CardDef} {jailed : Bool}
    (h₁ : s₁ = { s with players := s₁.players })
    (hseats : editSeat r (settleAt leg) s₁.seats = editSeat r (settleAt leg) s.seats)
    (ht : Touchdown r (comeToRest s₁ r leg) leg stop s' jailed) :
    Touchdown r (comeToRest s r leg) leg stop s' jailed := by
  refine ht.of_sameTable ⟨by rw [h₁]; rfl, ?_⟩
  show seatsOf (editSeat r (settleAt leg) s₁.players) =
    seatsOf (editSeat r (settleAt leg) s.players)
  rw [seatsOf_editSeat (g := settleAt leg) fun _ => rfl,
    seatsOf_editSeat (g := settleAt leg) fun _ => rfl]
  exact hseats

theorem rollFree_sat (hs : Sound s) (hq : q ∈ s.players) (hfree : q.jailStatus = none) :
    Sat (fun _ => False)
      (rollFree s q (diceOf s.gameMode rng) (afterDice s.gameMode rng) goSalary) fun r =>
      Rolled s q.bare rng goSalary jailFine r.1.1 := by
  simp only [rollFree, sat_ite, sat_bind, sat_pure]
  refine ⟨?_, fun hmove => ?_⟩
  · rintro ⟨hd, hthree⟩
    obtain ⟨ps, hstore, hps⟩ := storePlayer_eq (v := sendToJail q s.gameMode)
      (g := (sendToJail · s.gameMode)) hs hq rfl rfl rfl
    rw [if_pos hd] at hthree
    simp only [hstore, sat_ok]
    exact .jailed hfree hd hthree hps
  · have hq' : q.bare = { q.bare with balance := q.balance, jailStatus := none } := by
      rw [← hfree]; rfl
    refine (executeMove_sat hs hq rfl hq' _ _).imp fun r hr => ?_
    obtain ⟨s', sentToJail, activeCard, ht, heq⟩ := hr
    rw [heq]
    have hextra : ((diceOf s.gameMode rng).isDoubles && (diceOf s.gameMode rng).isDoubles) =
        grantsExtraRoll q.bare (diceOf s.gameMode rng).isDoubles := by
      simp [grantsExtraRoll, hfree]
    have hleg : walkLeg s q q.balance (diceOf s.gameMode rng) (afterDice s.gameMode rng) goSalary =
        rollLeg s q.bare rng goSalary jailFine := by
      simp only [rollLeg, launch, bare_jailStatus, hfree]
      rfl
    rw [hextra]
    rw [hleg] at ht
    refine .moved ?_ rfl ht rfl
    simp only [Moves, bare_jailStatus, hfree]
    rintro ⟨hd, hthree⟩
    exact hmove ⟨hd, by rw [if_pos hd]; exact hthree⟩

theorem rollInJail_sat (hs : Sound s) (hq : q ∈ s.players) {jail : JailStatus}
    (hjail : q.jailStatus = some jail) :
    Sat (fun _ => False)
      (rollInJail s q jail (diceOf s.gameMode rng) (afterDice s.gameMode rng) goSalary jailFine)
      fun r => Rolled s q.bare rng goSalary jailFine r.1.1 := by
  have hextra (b : Bool) : (b && false) = grantsExtraRoll q.bare b := by
    simp [grantsExtraRoll, hjail]
  simp only [rollInJail, sat_ite, sat_bind]
  refine ⟨fun hd => ?_, fun hd => ⟨fun hleft => ?_, fun hleft => ?_⟩⟩
  · refine (executeMove_sat (p := { q with jailStatus := none }) hs hq rfl rfl _ _).imp
      fun r hr => ?_
    obtain ⟨s', sentToJail, activeCard, ht, heq⟩ := hr
    rw [heq, hextra]
    have hleg : walkLeg s q q.balance (diceOf s.gameMode rng) (afterDice s.gameMode rng) goSalary =
        rollLeg s q.bare rng goSalary jailFine := by
      simp only [rollLeg, launch, bare_jailStatus, hjail, hd, if_true, Int.sub_zero]
      rfl
    simp only [hleg] at ht
    exact .moved (by simp [Moves, hjail, hd]) rfl ht rfl
  · obtain ⟨ps, hstore, hps⟩ := storePlayer_eq
      (v := { q with jailStatus := some { turnsRemaining := jail.turnsRemaining - 1 } })
      (g := fun x => { x with
        jailStatus := some { turnsRemaining := jail.turnsRemaining - 1 } }) hs hq rfl rfl rfl
    simp only [hstore, sat_ok, sat_pure]
    exact .stayed hjail (by simpa using hd) hleft hps
  · let freed : PlayerState := { q with jailStatus := none, balance := q.balance - jailFine }
    obtain ⟨ps, x, hstore, hps, hs1, hx, hxb⟩ := storePlayer_freed (v := freed) hs hq rfl
    have hxpos : x.position = q.position := by rw [← bare_position, hxb]; rfl
    show Sat _ (storePlayer s freed) _
    simp only [hstore, sat_ok]
    refine (executeMove_sat (s := { s with players := ps }) (p := freed) hs1 hx
      (id_eq_of_bare hxb) (by rw [hxb]; rfl) _ _).imp fun r hr => ?_
    obtain ⟨s', sentToJail, activeCard, ht, heq⟩ := hr
    rw [heq, hextra]
    have hd' : (diceOf s.gameMode rng).isDoubles = false := by simpa using hd
    have hleg : walkLeg { s with players := ps } x freed.balance (diceOf s.gameMode rng)
        (afterDice s.gameMode rng) goSalary = rollLeg s q.bare rng goSalary jailFine := by
      simp only [rollLeg, launch, bare_jailStatus, hjail, hd', Bool.false_eq_true, if_false,
        walkLeg, hxpos]
      rfl
    rw [hleg] at ht
    have hsettle (leg : Leg) :
        editSeat q.id (settleAt leg) (GameState.seats { s with players := ps }) =
          editSeat q.id (settleAt leg) s.seats := by
      rw [show GameState.seats { s with players := ps } = _ from hps,
        editSeat_editSeat q.id (g := fun _ => freed.bare) fun _ _ => rfl]
      exact editAt_congr PlayerState.id hs.ids (mem_seats hq)
        (show settleAt leg freed.bare = settleAt leg q.bare from rfl)
    exact .moved (by simp [Moves, hjail]; omega) rfl (ht.comeToRest_of rfl (hsettle _)) rfl

theorem handleRollDice_sat {pid : PlayerId} (hs : Sound s) (hpid : Seated s pid) :
    Sat PyError.IsIllegalMove (handleRollDice s pid rng goSalary jailFine) fun r =>
      (s.turn.phase = .preRoll ∨ s.turn.phase = .jailDecision) ∧
      ∃ p ∈ s.seats, p.id = pid ∧ (p.jailStatus ≠ none → s.turn.phase = .jailDecision) ∧
        Rolled s p rng goSalary jailFine r.1.1 := by
  obtain ⟨q, hq, rfl⟩ := hpid.player
  have hnever : ∀ e, False → PyError.IsIllegalMove e := fun _ h => h.elim
  simp only [handleRollDice, sat_bind, sat_illegalIf, hs.getPlayer hq, sat_ok]
  refine ⟨fun _ => trivial, fun hphase => ⟨fun _ => trivial, fun hjailPhase => ?_⟩⟩
  have hphase' : s.turn.phase = .preRoll ∨ s.turn.phase = .jailDecision := by
    by_cases h : s.turn.phase = .preRoll
    · exact .inl h
    · exact .inr (by simpa [h] using hphase)
  have hjailed : q.bare.jailStatus ≠ none → s.turn.phase = .jailDecision := by
    intro hj
    rcases hphase' with h | h
    · exact absurd ⟨Option.isSome_iff_ne_none.mpr hj, h⟩ hjailPhase
    · exact h
  cases hjail : q.jailStatus with
  | none =>
      exact (rollFree_sat hs hq hjail).mono hnever fun r hr =>
        ⟨hphase', q.bare, mem_seats hq, rfl, hjailed, hr⟩
  | some jail =>
      exact (rollInJail_sat hs hq hjail).mono hnever fun r hr =>
        ⟨hphase', q.bare, mem_seats hq, rfl, hjailed, hr⟩

end Rules

end Monopoly
