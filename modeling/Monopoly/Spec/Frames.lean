import Monopoly.Spec.Dispatch

/-!
# Monopoly.Spec.Frames

What a roll leaves alone: titles, holdings and eliminations, and the seats
of eliminated players.
-/

namespace Monopoly

/-- A change of seats that keeps who the players are and who is eliminated. -/
structure KeepsRoster (f : PlayerState → PlayerState) : Prop where
  id : ∀ p, (f p).id = p.id
  bankrupt : ∀ p, (f p).isBankrupt = p.isBankrupt

/-- A change of seats that also keeps what the players list. -/
structure KeepsEstate (f : PlayerState → PlayerState) : Prop extends KeepsRoster f where
  owned : ∀ p, (f p).ownedPositions = p.ownedPositions

namespace KeepsRoster

theorem refl : KeepsRoster fun p => p := ⟨fun _ => rfl, fun _ => rfl⟩

/-- An edit of one seat that keeps the roster. -/
theorem edit {f : PlayerState → PlayerState} (hf : KeepsRoster f) (r : PlayerId) :
    KeepsRoster fun p => if p.id = r then f p else p where
  id p := by split <;> simp [hf.id]
  bankrupt p := by split <;> simp [hf.bankrupt]

theorem purchase (position price : Nat) : KeepsRoster (purchase position price) :=
  ⟨fun _ => rfl, fun _ => rfl⟩

theorem award (position : Nat) (bid : Int) : KeepsRoster (award position bid) :=
  ⟨fun _ => rfl, fun _ => rfl⟩

end KeepsRoster

namespace KeepsEstate

variable {f g : PlayerState → PlayerState}

theorem refl : KeepsEstate fun p => p := ⟨.refl, fun _ => rfl⟩

theorem comp (hf : KeepsEstate f) (hg : KeepsEstate g) : KeepsEstate fun p => f (g p) where
  id p := (hf.id _).trans (hg.id p)
  bankrupt p := (hf.bankrupt _).trans (hg.bankrupt p)
  owned p := (hf.owned _).trans (hg.owned p)

/-- An edit of one seat that keeps the estate. -/
theorem edit (hf : KeepsEstate f) (r : PlayerId) : KeepsEstate fun p => if p.id = r then f p else p
    where
  toKeepsRoster := hf.toKeepsRoster.edit r
  owned p := by split <;> simp [hf.owned]

theorem transfer (payer : PlayerId) (creditor : Option PlayerId) (amount : Int) :
    KeepsEstate (transfer payer creditor amount) := ⟨⟨fun _ => rfl, fun _ => rfl⟩, fun _ => rfl⟩

theorem credit (amount : Int) : KeepsEstate (credit amount) :=
  ⟨⟨fun _ => rfl, fun _ => rfl⟩, fun _ => rfl⟩

theorem bail (fine : Int) : KeepsEstate (bail fine) := ⟨⟨fun _ => rfl, fun _ => rfl⟩, fun _ => rfl⟩

theorem spendJailCard : KeepsEstate spendJailCard := ⟨⟨fun _ => rfl, fun _ => rfl⟩, fun _ => rfl⟩

theorem sendToJail (mode : GameMode) : KeepsEstate (sendToJail · mode) :=
  ⟨⟨fun _ => rfl, fun _ => rfl⟩, fun _ => rfl⟩

theorem settleAt (leg : Leg) : KeepsEstate (settleAt leg) :=
  ⟨⟨fun _ => rfl, fun _ => rfl⟩, fun _ => rfl⟩

theorem collectEach (r : PlayerId) (amount total : Int) :
    KeepsEstate (collectEach r amount total) where
  id p := by unfold Monopoly.collectEach; split <;> rfl
  bankrupt p := by unfold Monopoly.collectEach; split <;> rfl
  owned p := by unfold Monopoly.collectEach; split <;> rfl

theorem payEach (r : PlayerId) (amount total : Int) : KeepsEstate (payEach r amount total) where
  id p := by unfold Monopoly.payEach; split <;> [rfl; split <;> rfl]
  bankrupt p := by unfold Monopoly.payEach; split <;> [rfl; split <;> rfl]
  owned p := by unfold Monopoly.payEach; split <;> [rfl; split <;> rfl]

end KeepsEstate

/-- The player owns nothing. -/
def Unlanded (s : GameState) (pid : PlayerId) : Prop :=
  ∀ pos, (ownershipAt s.spaces pos).ownerId ≠ some pid

/-- What a roll of `r` changes: seats, without their estate and without the
seats of eliminated bystanders, the decks, the debt and the turn, which
stays with its player. -/
structure RollFrame (r : PlayerId) (s s' : GameState) : Prop where
  frame : s' = { s with
    players := s'.players
    turn := { s.turn with
      phase := s'.turn.phase
      diceRoll := s'.turn.diceRoll
      pendingBuyPosition := s'.turn.pendingBuyPosition
      doublesStreak := s'.turn.doublesStreak }
    bankruptcy := s'.bankruptcy
    activeCard := s'.activeCard
    chanceDeck := s'.chanceDeck
    chestDeck := s'.chestDeck }
  seats : ∃ f, s'.seats = s.seats.map f ∧ KeepsEstate f ∧
    (∀ p, OnBoard s.gameMode p.position → OnBoard s.gameMode (f p).position) ∧
    ∀ p, p.isBankrupt = true → p.id ≠ r → Unlanded s p.id → f p = p
  decks : (∀ kind, ∀ id ∈ s.deck kind, DeckCard s.gameMode kind id) →
    ∀ kind, ∀ id ∈ s'.deck kind, DeckCard s.gameMode kind id
  pending : ∀ q, s'.turn.pendingBuyPosition = some q → s.turn.pendingBuyPosition = some q ∨
    Purchasable s.gameMode q ∧ (ownershipAt s.spaces q).ownerId = none
  debt : s'.bankruptcy = s.bankruptcy ∨ s.bankruptcy = none ∧ ∃ debt, s'.bankruptcy = some debt ∧
    debt.debtorId = r ∧ 0 < debt.amountOwed ∧ s'.cash r < debt.amountOwed ∧
    ∀ c, debt.creditorId = some c → c ≠ r ∧ ∃ pos, (ownershipAt s.spaces pos).ownerId = some c

namespace RollFrame

variable {r : PlayerId} {s a b : GameState}

/-- A landing after a change that leaves the debt alone. -/
theorem trans (h : RollFrame r s a) (ha : a.bankruptcy = s.bankruptcy) (h' : RollFrame r a b) :
    RollFrame r s b := by
  obtain ⟨f, hf, hkf, hpf, hsf⟩ := h.seats
  obtain ⟨g, hg, hkg, hpg, hsg⟩ := h'.seats
  have hmode : a.gameMode = s.gameMode := by rw [h.frame]
  have hspaces : a.spaces = s.spaces := by rw [h.frame]
  refine ⟨?_, ⟨fun p => g (f p), ?_, hkg.comp hkf, ?_, ?_⟩, ?_, ?_, ?_⟩
  · rw [h'.frame, h.frame]
  · rw [hg, hf, List.map_map]
    rfl
  · intro p hp
    rw [← hmode]
    exact hpg _ (hmode ▸ hpf p hp)
  · intro p hb hr hu
    show g (f p) = p
    rw [hsf p hb hr hu]
    exact hsg p hb hr (by rw [Unlanded, hspaces]; exact hu)
  · rw [← hmode]
    intro hd
    exact h'.decks (by rw [hmode] at hd ⊢; exact h.decks hd)
  · intro q hq
    rcases h'.pending q hq with hq | hq
    · exact h.pending q hq
    · exact .inr (hmode ▸ hspaces ▸ hq)
  · have hdebt := h'.debt
    rwa [ha, hspaces] at hdebt

end RollFrame

section Rolls

variable {r : PlayerId} {s a c : GameState}

/-- The players, one seat edited, and nothing else of the table. -/
theorem RollFrame.of_edit {f : PlayerState → PlayerState}
    (hseats : s.seats = editSeat r f a.seats) (hf : KeepsEstate f)
    (hpos : ∀ p, OnBoard a.gameMode p.position → OnBoard a.gameMode (f p).position)
    (hframe : s = { a with
      players := s.players
      turn := { a.turn with
        phase := s.turn.phase
        diceRoll := s.turn.diceRoll
        pendingBuyPosition := s.turn.pendingBuyPosition
        doublesStreak := s.turn.doublesStreak }
      activeCard := s.activeCard })
    (hpending : ∀ q, s.turn.pendingBuyPosition = some q → a.turn.pendingBuyPosition = some q) :
    RollFrame r a s where
  frame := by rw [hframe]
  seats := ⟨_, hseats, hf.edit r, fun p hp => by split <;> [exact hpos p hp; exact hp],
    fun p _ hr _ => if_neg hr⟩
  decks h := by rw [hframe]; exact h
  pending q hq := .inl (hpending q hq)
  debt := .inl (by rw [hframe])

/-- A charge, with the creditor an owner other than the payer. -/
theorem Charged.rollFrame {amount : Int} {creditor : Option PlayerId} {c s' : GameState}
    (hc : Charged r amount creditor a c)
    (hcreditor : ∀ o, creditor = some o →
      o ≠ r ∧ ∃ pos, (ownershipAt a.spaces pos).ownerId = some o)
    (hframe : s' = { c with
      players := s'.players
      turn := { c.turn with
        phase := s'.turn.phase
        pendingBuyPosition := s'.turn.pendingBuyPosition } })
    (hpending : ∀ q, s'.turn.pendingBuyPosition = some q → a.turn.pendingBuyPosition = some q)
    (hseats : s'.seats = c.seats) : RollFrame r a s' := by
  have hkeep {s' : GameState} (hseats : s'.seats = a.seats) : ∃ f, s'.seats = a.seats.map f ∧
      KeepsEstate f ∧ (∀ p, OnBoard a.gameMode p.position → OnBoard a.gameMode (f p).position) ∧
      ∀ p, p.isBankrupt = true → p.id ≠ r → Unlanded a p.id → f p = p :=
    ⟨fun p => p, by rw [hseats, List.map_id'], .refl, fun _ h => h, fun _ _ _ _ => rfl⟩
  cases hc with
  | nothing _ hps => exact ⟨by rw [hframe], hkeep (hseats.trans hps), by rw [hframe]; exact id,
      fun q hq => .inl (hpending q hq), .inl (by rw [hframe])⟩
  | dropped _ _ _ hps => exact ⟨by rw [hframe], hkeep (hseats.trans hps),
      by rw [hframe]; exact id, fun q hq => .inl (hpending q hq), .inl (by rw [hframe])⟩
  | paid _ _ hps =>
      refine ⟨by rw [hframe], ⟨_, hseats.trans hps, .transfer r creditor amount, fun _ h => h, ?_⟩,
        by rw [hframe]; exact id, fun q hq => .inl (hpending q hq), .inl (by rw [hframe])⟩
      intro p _ hr hu
      have hno : creditor ≠ some p.id := fun h => by
        obtain ⟨pos, hpos⟩ := (hcreditor p.id h).2
        exact hu pos hpos
      simp [transfer, hr, hno]
  | indebted hpos hlt hnone hps =>
      refine ⟨by rw [hframe], hkeep (hseats.trans hps), by rw [hframe]; exact id,
        fun q hq => .inl (hpending q hq),
        .inr ⟨hnone, ⟨r, creditor, amount⟩, by rw [hframe], rfl, hpos, ?_, hcreditor⟩⟩
      have hcash : s'.cash r = a.cash r := by
        rw [GameState.cash, GameState.seat?, hseats.trans hps]; rfl
      rw [hcash]
      exact hlt

/-- A touchdown keeps titles, holdings and eliminations. -/
theorem Touchdown.rollFrame {leg : Leg} {stop : Option CardDef} {jailed : Bool}
    (ht : Touchdown r a leg stop s jailed) : RollFrame r a s := by
  have hbank : ∀ o, (none : Option PlayerId) = some o →
      o ≠ r ∧ ∃ pos, (ownershipAt a.spaces pos).ownerId = some o := by simp
  cases ht with
  | jailSpace _ hps =>
      exact .of_edit hps (.sendToJail _) (fun _ _ => onBoard_jailPosition _) rfl (by simp)
  | jailCard _ hps =>
      exact .of_edit hps (.sendToJail _) (fun _ _ => onBoard_jailPosition _) rfl fun _ h => h
  | taxed _ hc _ hps => exact hc.rollFrame hbank rfl (by simp) hps
  | @taxOwed amount c _ hc _ =>
      have hturn : c.turn.pendingBuyPosition = a.turn.pendingBuyPosition := by cases hc <;> rfl
      exact hc.rollFrame hbank rfl (fun q hq => hturn ▸ hq) rfl
  | rented hcharge hc _ =>
      obtain ⟨howner, hne, -⟩ := restCharge_owner hcharge
      exact hc.rollFrame (fun o ho => Option.some.inj ho ▸ ⟨hne, _, howner⟩) rfl (by simp) rfl
  | @rentOwed owner rent c hcharge hc _ =>
      obtain ⟨howner, hne, -⟩ := restCharge_owner hcharge
      have hturn : c.turn.pendingBuyPosition = a.turn.pendingBuyPosition := by cases hc <;> rfl
      exact hc.rollFrame (fun o ho => Option.some.inj ho ▸ ⟨hne, _, howner⟩) rfl
        (fun q hq => hturn ▸ hq) rfl
  | rested _ hpending hps =>
      exact ⟨rfl, ⟨fun p => p, hps.trans (List.map_id' _).symm, .refl, fun _ h => h,
        fun _ _ _ _ => rfl⟩, fun h => h, fun q hq => .inr (hpending q hq), .inl rfl⟩
  | collected _ hps => exact .of_edit hps (.credit _) (fun _ h => h) rfl fun _ h => h
  | charged _ hc =>
      have hturn : s.turn.pendingBuyPosition = a.turn.pendingBuyPosition := by cases hc <;> rfl
      exact hc.rollFrame hbank rfl (fun q hq => hturn ▸ hq) rfl
  | @collectedFromEach card amount total ps _ _ hps =>
      refine ⟨rfl, ⟨_, hps, .collectEach _ _ _, fun p hp => by simpa using hp, ?_⟩, fun h => h,
        fun q hq => .inl hq, .inl rfl⟩
      intro p hb hr _
      rw [collectEach, if_neg hr, givenBy, if_pos (.inr hb)]
      simp [debit]
  | @paidEach card amount ps _ hps =>
      refine ⟨rfl, ⟨_, hps, .payEach _ _ _, fun p hp => by simpa using hp, ?_⟩, fun h => h,
        fun q hq => .inl hq, .inl rfl⟩
      intro p hb hr _
      rw [payEach, if_neg hr, if_pos hb]
  | keptJailCard _ hps =>
      exact .of_edit hps (f := fun p => { p with getOutOfJailCards := p.getOutOfJailCards + 1 })
        ⟨⟨fun _ => rfl, fun _ => rfl⟩, fun _ => rfl⟩ (fun _ h => h) rfl fun _ h => h

/-- The leg of a roll starts well formed when the decks hold cards of their
kind. -/
theorem legFormed_rollLeg (h : ∀ kind, ∀ id ∈ s.deck kind, DeckCard s.gameMode kind id)
    (p : PlayerState) (rng : Rng) (goSalary jailFine : Int) :
    LegFormed (rollLeg s p rng goSalary jailFine) :=
  ⟨onBoard_walkTo _ _ _, h⟩

/-- Where a roll comes to rest. -/
theorem restOf_spec {p : PlayerState} {rng : Rng} {goSalary jailFine : Int} {leg : Leg}
    {stop : Option CardDef} (hs : Sound s)
    (hrest : restOf s p rng goSalary jailFine = (leg, stop)) :
    LegFormed leg ∧ leg.mode = s.gameMode ∧
      (0 ≤ goSalary → (rollLeg s p rng goSalary jailFine).cash ≤ leg.cash) := by
  have hspec := follow_spec goSalary landingFuel
    (legFormed_rollLeg hs.decks p rng goSalary jailFine)
  rwa [show follow goSalary landingFuel _ = (leg, stop) from hrest] at hspec

theorem seats_comeToRest (s : GameState) (r : PlayerId) (leg : Leg) :
    (comeToRest s r leg).seats = editSeat r (settleAt leg) s.seats :=
  seatsOf_editSeat fun _ => rfl

/-- Walking and drawing on the way keep them too. -/
theorem comeToRest_rollFrame {leg : Leg} (hleg : LegFormed leg) (hmode : leg.mode = s.gameMode) :
    RollFrame r s (comeToRest s r leg) where
  frame := rfl
  seats := by
    refine ⟨_, seats_comeToRest s r leg, (KeepsEstate.settleAt leg).edit r, ?_,
      fun p _ hr _ => if_neg hr⟩
    intro p hp
    split
    · exact hmode ▸ hleg.onBoard
    · exact hp
  decks _ kind := by
    rw [← hmode]
    cases kind with
    | chance => exact hleg.decks .chance
    | communityChest => exact hleg.decks .communityChest
  pending q hq := .inl hq
  debt := .inl rfl

/-- What follows a move writes the turn only in the phase and the fields of the
roll. -/
theorem turnAfterMove_frame (working : GameState) (roll : DiceRoll) (extraRoll sentToJail : Bool)
    (newStreak : Nat) :
    turnAfterMove working roll extraRoll sentToJail newStreak = { working.turn with
      phase := (turnAfterMove working roll extraRoll sentToJail newStreak).phase
      diceRoll := some roll
      doublesStreak :=
        (turnAfterMove working roll extraRoll sentToJail newStreak).doublesStreak } := by
  unfold turnAfterMove
  split
  · rfl
  · split
    · split <;> rename_i hp <;> simp [hp]
    · rfl

/-- An accepted roll keeps titles, holdings and eliminations, and the seats of
eliminated bystanders. -/
theorem Rolled.rollFrame {p : PlayerState} {rng : Rng} {goSalary jailFine : Int} {s' : GameState}
    (hs : Sound s) (hr : Rolled s p rng goSalary jailFine s') : RollFrame p.id s s' := by
  cases hr with
  | jailed _ _ _ hps =>
      exact .of_edit hps (.sendToJail _) (fun _ _ => onBoard_jailPosition _) rfl
        (by simp [stayTurn])
  | stayed _ _ _ hps =>
      exact .of_edit hps ⟨⟨fun _ => rfl, fun _ => rfl⟩, fun _ => rfl⟩ (fun _ h => h) rfl
        (by simp [stayTurn])
  | @moved leg stop s₁ sentToJail activeCard newStreak _ hrest ht _ =>
      obtain ⟨hformed, hmode, -⟩ := restOf_spec hs hrest
      have hland := (comeToRest_rollFrame (s := s) (r := p.id) hformed hmode).trans rfl
        ht.rollFrame
      have hturn := turnAfterMove_frame s₁ (diceOf s.gameMode rng)
        (grantsExtraRoll p (diceOf s.gameMode rng).isDoubles) sentToJail newStreak
      generalize turnAfterMove s₁ (diceOf s.gameMode rng)
        (grantsExtraRoll p (diceOf s.gameMode rng).isDoubles) sentToJail newStreak = turn at hturn
      have hpending : turn.pendingBuyPosition = s₁.turn.pendingBuyPosition := by rw [hturn]
      have hturn' : turn = { s.turn with
          phase := turn.phase
          diceRoll := turn.diceRoll
          pendingBuyPosition := turn.pendingBuyPosition
          doublesStreak := turn.doublesStreak } := by
        rw [hturn, congrArg GameState.turn hland.frame]
      refine ⟨?_, hland.seats, hland.decks, fun q hq => hland.pending q (hpending ▸ hq), hland.debt⟩
      have hframe := congrArg (fun x : GameState => { x with activeCard, turn }) hland.frame
      refine hframe.trans ?_
      conv_lhs => rw [hturn']

/-- The phases a roll can end in. -/
def rollPhases : List TurnPhase :=
  [.preRoll, .jailDecision, .postRoll, .mustPayRent, .bankruptResolution]

/-- A charge leaves the phase alone unless it opens a debt. -/
theorem Charged.phase {amount : Int} {creditor : Option PlayerId}
    (hc : Charged r amount creditor a c) :
    c.turn.phase = a.turn.phase ∨ c.turn.phase = .bankruptResolution := by
  cases hc with
  | nothing _ _ | paid _ _ _ | dropped _ _ _ _ => exact .inl rfl
  | indebted _ _ _ _ => exact .inr rfl

/-- After a touchdown the phase is the one before or one of those a roll ends
in. -/
theorem Touchdown.phase {leg : Leg} {stop : Option CardDef} {jailed : Bool}
    (ht : Touchdown r a leg stop s jailed) :
    s.turn.phase = a.turn.phase ∨ s.turn.phase ∈ rollPhases := by
  cases ht with
  | charged _ hc => exact hc.phase.imp id fun h => by simp [h, rollPhases]
  | jailSpace _ _ | jailCard _ _ | taxed _ _ _ _ | taxOwed _ _ _ | rented _ _ _
  | rentOwed _ _ _ | rested _ _ _ => exact .inr (by simp [rollPhases])
  | collected _ _ | collectedFromEach _ _ _ | paidEach _ _ | keptJailCard _ _ => exact .inl rfl

/-- A roll ends in one of `rollPhases`. -/
theorem Rolled.phase {p : PlayerState} {rng : Rng} {goSalary jailFine : Int} {s' : GameState}
    (hr : Rolled s p rng goSalary jailFine s')
    (hphase : s.turn.phase = .preRoll ∨ s.turn.phase = .jailDecision) :
    s'.turn.phase ∈ rollPhases := by
  have hbefore : s.turn.phase ∈ rollPhases := by
    rcases hphase with h | h <;> simp [h, rollPhases]
  cases hr with
  | jailed _ _ _ _ | stayed _ _ _ _ => simp [stayTurn, rollPhases]
  | moved _ _ ht _ =>
      have hland := ht.phase.elim (fun h => (h ▸ hbefore : _ ∈ rollPhases)) id
      simp only [turnAfterMove]
      split
      · split
        · simp [rollPhases]
        · exact hland
      · split
        · split <;> simp [rollPhases]
        · exact hland

/-- The phase `BANKRUPT_RESOLUTION` goes with a pending debt. -/
def DebtPhase (s : GameState) : Prop := s.bankruptcy ≠ none ↔ s.turn.phase = .bankruptResolution

/-- A charge opens a debt and the phase for it together. -/
theorem Charged.debtPhase {amount : Int} {creditor : Option PlayerId} (h : DebtPhase a)
    (hc : Charged r amount creditor a c) : DebtPhase c := by
  cases hc with
  | nothing _ _ | paid _ _ _ | dropped _ _ _ _ => exact h
  | indebted _ _ _ _ => exact iff_of_true (by simp) rfl

/-- So does a touchdown; and a player sent to jail owes nothing. -/
theorem Touchdown.debtPhase {leg : Leg} {stop : Option CardDef} {jailed : Bool}
    (hnone : a.bankruptcy = none) (h : DebtPhase a) (ht : Touchdown r a leg stop s jailed) :
    DebtPhase s ∧ (jailed = true → s.bankruptcy = none) := by
  have hpost {b : GameState} {phase : TurnPhase} (hb : b.bankruptcy = none)
      (hphase : b.turn.phase = phase) (hne : phase ≠ .bankruptResolution) : DebtPhase b :=
    iff_of_false (by simp [hb]) (hphase ▸ hne)
  cases ht with
  | jailSpace _ _ | jailCard _ _ => exact ⟨hpost hnone rfl (by simp), fun _ => hnone⟩
  | taxed _ _ hfree _ | rented _ _ hfree =>
      exact ⟨hpost hfree rfl (by simp), by simp⟩
  | taxOwed _ _ hdebt | rentOwed _ _ hdebt => exact ⟨iff_of_true hdebt rfl, by simp⟩
  | rested _ _ _ => exact ⟨hpost hnone rfl (by simp), by simp⟩
  | charged _ hc => exact ⟨hc.debtPhase h, by simp⟩
  | collected _ _ | collectedFromEach _ _ _ | paidEach _ _ | keptJailCard _ _ =>
      exact ⟨h, by simp⟩

/-- A roll from a state without a debt ends in `BANKRUPT_RESOLUTION` exactly
when it opens one. -/
theorem Rolled.debtPhase {p : PlayerState} {rng : Rng} {goSalary jailFine : Int} {s' : GameState}
    (hnone : s.bankruptcy = none) (h : DebtPhase s)
    (hr : Rolled s p rng goSalary jailFine s') : DebtPhase s' := by
  cases hr with
  | jailed _ _ _ _ | stayed _ _ _ _ => exact iff_of_false (by simp [hnone]) (by simp [stayTurn])
  | @moved leg stop s₁ sentToJail _ _ _ _ ht _ =>
      obtain ⟨hphase, hjail⟩ := ht.debtPhase (a := comeToRest s p.id leg) hnone h
      simp only [DebtPhase, turnAfterMove]
      split
      · rename_i hcond
        cases sentToJail with
        | true => exact iff_of_false (by simp [hjail rfl]) (by simp)
        | false => exact hphase
      · rename_i hcond
        have hfree : s₁.bankruptcy = none := by
          simpa using (not_or.mp hcond).2
        split
        · split <;> exact iff_of_false (by simp [hfree]) (by simp)
        · exact hphase

end Rolls

end Monopoly
