import Monopoly.Spec.Play

/-!
# Monopoly.Spec.Phases

What the phase of a turn says about what is pending.  An auction and a trade
set their phase when they are opened and leave it when they are closed, so
each of the two phases comes with its overlay, though not the other way
round: a trade that is answered while an auction is open sets the phase after
a roll and leaves the auction behind.

A turn opens in one of the phases of a roll, whoever passed it on, and a
roll, a purchase or a payment ends in one; only the two overlays and the end
of the game have phases of their own.  `Phased` is kept by every call from
every well formed state, so it holds in every state of a game.
-/

namespace Monopoly

/-- The phase of an auction comes with an auction, that of a trade with a trade
and that of the end with a finished game; no phase is left over. -/
def Phased (s : GameState) : Prop :=
  match s.turn.phase with
  | .auction => s.auction ≠ none
  | .tradeNegotiation => s.trade ≠ none
  | .gameOver => s.status = .finished
  | .drawingCard => False
  | _ => True

section Phases

variable {s m e : GameState} {env : Env} {command : GameCommand}

/-- In a phase of the roll there is nothing to say. -/
theorem Phased.of_roll (h : s.turn.phase ∈ rollPhases) : Phased s := by
  unfold Phased
  cases hphase : s.turn.phase <;> simp [hphase, rollPhases] at h ⊢

/-- The phase stays, and so does what it comes with. -/
theorem Phased.keep (h : Phased s) (hphase : m.turn.phase = s.turn.phase)
    (hauction : s.auction ≠ none → m.auction ≠ none) (htrade : s.trade ≠ none → m.trade ≠ none)
    (hstatus : s.status = .finished → m.status = .finished) : Phased m := by
  unfold Phased at h ⊢
  rw [hphase]
  split at h
  · exact hauction h
  · exact htrade h
  · exact hstatus h
  · exact h
  · trivial

/-- The next turn opens with a roll, or with the decision of a jailed player.
-/
theorem passTurn_rolls (turn : TurnState) (next : PlayerState) (round : Nat) :
    (passTurn turn next round).phase ∈ rollPhases := by
  rcases openingPhase_cases next with h | h <;> simp [passTurn, h, rollPhases]

/-- The turn moves on in a phase of the roll, or stays what it was. -/
theorem TurnMoved.phased (h : Phased e) (ht : TurnMoved e m) : Phased m := by
  cases ht with
  | passed _ _ => exact .of_roll (passTurn_rolls _ _ _)
  | nobody _ => exact h

/-- An elimination ends the game, passes the turn on, or leaves it alone. -/
theorem AfterElimination.phased (h : Phased e) (ha : AfterElimination e m) : Phased m := by
  cases ha with
  | ended hc _ =>
      cases hc with
      | won _ _ => exact rfl
      | unchanged _ => exact h
  | passed _ _ ht => exact ht.phased h

/-- After an auction the turn goes on with the roll that a doubles has earned,
or after it. -/
theorem afterAuction_phase (turn : TurnState) : afterAuction turn ∈ rollPhases := by
  unfold afterAuction
  split <;> simp [rollPhases]

/-- One case for each handler: the opening of an overlay sets its phase, the
rest leaves the phase or sets one of the roll. -/
theorem Dispatched.phased (h : Phased s) (hd : Dispatched s env command m) : Phased m := by
  cases hd with
  | rolled hphase _ _ hr => exact .of_roll (hr.phase hphase)
  | bought hphase _ _ _ _ _ _ =>
      refine .of_roll ?_
      show (if s.turn.doublesStreak > 0 then TurnPhase.preRoll else s.turn.phase) ∈ rollPhases
      split
      · simp [rollPhases]
      · rcases hphase with h | h <;> simp [h, rollPhases]
  | passed _ _ =>
      exact (by simp [startAuction] : (startAuction s _ _).auction ≠ none)
  | ended _ _ _ _ _ => exact .of_roll (passTurn_rolls _ _ _)
  | bailed _ _ _ _ _ | cardSpent _ _ _ _ _ => exact .of_roll (by simp [rollPhases])
  | reworked _ _ hr => cases hr; exact h.keep rfl id id id
  | proposed _ hprop => cases hprop; exact Option.some_ne_none _
  | responded hresp =>
      cases hresp with
      | rejected _ _ => exact .of_roll (by simp [dropTrade, rollPhases])
      | countered _ _ _ _ => exact h.keep rfl id (fun _ => Option.some_ne_none _) id
      | accepted _ _ _ hexec => cases hexec; exact .of_roll (by simp [rollPhases])
  | bid hbid =>
      cases hbid
      exact h.keep rfl (fun _ => Option.some_ne_none _) id id
  | bankrupted _ _ _ hl ha =>
      refine ha.phased ?_
      cases hl <;> exact h.keep rfl id id id
  | surrendered _ _ hsurr ha | timerForced _ _ _ _ _ hsurr ha =>
      refine ha.phased ?_
      cases hsurr
      exact h.keep rfl id id id
  | auctionIdle _ | tradeIdle _ | timerIdle _ => exact h
  | auctioned _ _ hr => cases hr <;> exact .of_roll (afterAuction_phase _)
  | tradeLapsed _ _ => exact .of_roll (by simp [dropTrade, rollPhases])
  | timerSkipped _ _ _ _ _ ht =>
      refine ht.phased ?_
      exact h.keep rfl id id id
  | timerSpent _ _ _ _ _ _ => exact h.keep rfl id id id

/-- A debt that is settled leaves the turn after its roll. -/
theorem Settled.phased (h : Phased s) (hs : Settled s m) : Phased m := by
  cases hs with
  | free _ | owing _ _ => exact h
  | paid _ _ _ => exact .of_roll (by simp [rollPhases])

/-- The rest of the call refreshes what is on display. -/
theorem Tidied.phased (h : Phased s) (ht : Tidied s m) : Phased m := by
  cases ht
  exact h.keep rfl id id id

/-- So one call keeps it, -/
theorem Stepped.phased (h : Phased s) (hstep : Stepped s env command m) : Phased m := by
  cases hstep with
  | replied _ hd ht => exact ht.phased (hd.phased h)
  | played _ hd hs ht => exact ht.phased (hs.phased (hd.phased h))

/-- and it holds in every state of a game. -/
theorem Play.phased {h : List (Taken GameState Call)} (hplay : Play h s) : Phased s := by
  refine Play.invariant (I := Phased) (fun args s hopens => ?_)
    (fun s call s' _ _ hI _ hstep => hstep.phased hI) hplay
  exact .of_roll (by simp [hopens.fresh.turn.1, rollPhases])

end Phases

end Monopoly
