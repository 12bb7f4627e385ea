import Monopoly.Spec.Acceptance
import Monopoly.Spec.Queries

/-!
# Monopoly.Spec.Redisplay

Calls whose handler reports nothing: unless a debt can be settled or the game
is won, the end of the call only refreshes what the handler has left.
-/

namespace Monopoly

/-- The players without their strikes. -/
def unstruck (players : List PlayerState) : List PlayerState :=
  players.map fun p => { p with afkStrikes := 0 }

/-- The state again, but for what a call refreshes: the strikes, the card on
display, the deadline and the flags. -/
structure Redisplayed (a b : GameState) : Prop where
  frame : b = { a with
    players := b.players
    activeCard := b.activeCard
    turn := { a.turn with
      turnDeadlineMs := b.turn.turnDeadlineMs
      actionsAvailable := b.turn.actionsAvailable } }
  players : unstruck b.players = unstruck a.players

/-! ## the refresh -/

section Refresh

variable {s a b c : GameState} {command : GameCommand} {env : Env}

theorem Redisplayed.refl (a : GameState) : Redisplayed a a := ⟨rfl, rfl⟩

theorem Redisplayed.trans (h : Redisplayed a b) (h' : Redisplayed b c) : Redisplayed a c := by
  obtain ⟨hb, hplayers⟩ := h
  obtain ⟨hc, hplayers'⟩ := h'
  refine ⟨?_, hplayers'.trans hplayers⟩
  rw [hc, hb]

theorem unstruck_resetStrikes (pid : PlayerId) (players : List PlayerState) :
    unstruck (resetStrikes pid players) = unstruck players := by
  induction players with
  | nil => rfl
  | cons p rest ih =>
      simp only [resetStrikes]
      split
      · rfl
      · exact congrArg (_ :: ·) ih

theorem redisplayed_resetActor (a : GameState) (command : GameCommand) :
    Redisplayed a (resetActor a command) := by
  unfold resetActor
  split
  · exact ⟨rfl, unstruck_resetStrikes _ _⟩
  · exact .refl a

theorem redisplayed_clearActiveCard (s a : GameState) (command : GameCommand) :
    Redisplayed a (clearActiveCard s a command) := by
  unfold clearActiveCard
  split
  · exact ⟨rfl, rfl⟩
  · exact .refl a

theorem redisplayed_withTurnDeadline (a : GameState) (nowMs : Int) :
    Redisplayed a (withTurnDeadline a nowMs) := ⟨rfl, rfl⟩

/-- What the timer and the log do at the end of a call without events. -/
theorem redisplayed_appendLog_nil (a : GameState) (nowMs : Int) (clock : Clock) :
    Redisplayed a (appendLog (withTurnDeadline a nowMs) [] clock) := by
  refine ⟨?_, rfl⟩
  simp only [appendLog, withTurnDeadline, List.map_nil, List.append_nil]

theorem Settled.eq_of_owing (h : Settled a b) (howing : Owing a) : b = a := by
  cases h with
  | free _ | owing _ _ => rfl
  | paid hdebt hle _ => exact absurd (howing _ hdebt) (Int.not_lt.mpr hle)

/-- While two players are active, the game is not won. -/
theorem checkWinCondition_contested
    (htwo : a.status = .inProgress → 2 ≤ (survivors a.seats).length) :
    checkWinCondition a = a := by
  have hcheck := checkWinCondition_spec a
  generalize checkWinCondition a = c at hcheck
  cases hcheck with
  | won hin hone => have h := htwo hin; simp [hone] at h
  | unchanged _ => rfl

theorem Redisplayed.tidied (h : Redisplayed a b) : Tidied a b := by
  obtain ⟨hframe, hplayers⟩ := h
  have hbare := congrArg (List.map PlayerState.bare) hplayers
  simp only [unstruck, List.map_map] at hbare
  rw [hframe]
  exact .mk hbare

theorem owing_iff_of_tidied (h : Tidied a b) : Owing b ↔ Owing a := by
  simp only [Owing, h.bankruptcy, h.cash]

/-- The debt that is pending, if any, is not settled. -/
theorem Owing.settles (howing : Owing a) (hw : WellFormed a) (h : Tidied a b) :
    trySettleDebt b = .ok b := by
  obtain ⟨n, hn, hsettled⟩ := (h.wellFormed hw).settles.exists_ok
  rw [hn, hsettled.eq_of_owing ((owing_iff_of_tidied h).mpr howing)]

theorem settles_of_debtless (hdebt : a.bankruptcy = none) (h : Tidied a b) :
    trySettleDebt b = .ok b := by
  rw [trySettleDebt, h.bankruptcy, hdebt]
  rfl

/-- The end of a call without events that neither settles a debt nor wins the
game: a refresh, and the flags. -/
theorem finishCommand_quiet (hsettles : ∀ b, Tidied a b → trySettleDebt b = .ok b)
    (htwo : a.status = .inProgress → 2 ≤ (survivors a.seats).length) :
    ∃ b, Redisplayed a b ∧ finishCommand s command env a [] = withActions b := by
  have hreset := redisplayed_resetActor a command
  unfold finishCommand
  cases command.isReply with
  | true => exact ⟨_, hreset.trans (redisplayed_withTurnDeadline _ env.clock.nowMs), rfl⟩
  | false =>
      have hclear := hreset.trans (redisplayed_clearActiveCard s _ command)
      have htidy := hclear.tidied
      refine ⟨_, hclear.trans (redisplayed_appendLog_nil _ env.clock.nowMs env.clock), ?_⟩
      simp only [Bool.false_eq_true, if_false, hsettles _ htidy, ok_bind]
      rw [checkWinCondition_contested (by rw [htidy.status, htidy.seats_eq]; exact htwo)]

/-- It leaves what the handler has left, refreshed, if the flags can be
computed. -/
theorem finishCommand_redisplayed (hsettles : ∀ b, Tidied a b → trySettleDebt b = .ok b)
    (htwo : a.status = .inProgress → 2 ≤ (survivors a.seats).length) :
    Ensures (finishCommand s command env a []) fun s' => Redisplayed a s' ∧
      ∃ actions, computeActions a a.turn.currentPlayerId = .ok actions := by
  obtain ⟨b, hb, hfinish⟩ := finishCommand_quiet (s := s) hsettles htwo
  rw [hfinish]
  refine .after fun actions hactions => ⟨hb.trans ⟨rfl, rfl⟩, actions, ?_⟩
  rwa [hb.tidied.computeActions, hb.tidied.currentPlayerId] at hactions

theorem finishCommand_returns (hsettles : ∀ b, Tidied a b → trySettleDebt b = .ok b)
    (htwo : a.status = .inProgress → 2 ≤ (survivors a.seats).length)
    (hactions : ∃ actions, computeActions a a.turn.currentPlayerId = .ok actions) :
    ∃ s', finishCommand s command env a [] = .ok s' := by
  obtain ⟨b, hb, hfinish⟩ := finishCommand_quiet (s := s) hsettles htwo
  obtain ⟨actions, hactions⟩ := hactions
  rw [← hb.tidied.computeActions, ← hb.tidied.currentPlayerId] at hactions
  rw [hfinish, withActions, hactions]
  exact ⟨_, rfl⟩

end Refresh

/-! ## calls -/

section Calls

variable {s s' m : GameState} {call : Call} {rng : Rng}

/-- The call whose handler leaves `m` and reports nothing is accepted. -/
theorem accepted_of_quiet (hmay : assertMayAct s call.command = .ok ())
    (hdispatch : dispatch s call.command call.env = .ok ((m, []), rng))
    (hsettles : ∀ b, Tidied m b → trySettleDebt b = .ok b)
    (htwo : m.status = .inProgress → 2 ≤ (survivors m.seats).length)
    (hactions : ∃ actions, computeActions m m.turn.currentPlayerId = .ok actions) :
    ∃ s', Accepted s call s' := by
  obtain ⟨s', hs'⟩ : ∃ s', finishCommand s call.command call.env m [] = .ok s' :=
    finishCommand_returns hsettles htwo hactions
  refine ⟨s', [], rng, ?_⟩
  simp only [apply, hmay, hdispatch, hs', ok_bind]
  rfl

/-- What its acceptance leaves is `m`, refreshed. -/
theorem Accepted.redisplays (h : Accepted s call s')
    (hdispatch : dispatch s call.command call.env = .ok ((m, []), rng))
    (hsettles : ∀ b, Tidied m b → trySettleDebt b = .ok b)
    (htwo : m.status = .inProgress → 2 ≤ (survivors m.seats).length) : Redisplayed m s' ∧
      ∃ actions, computeActions m m.turn.currentPlayerId = .ok actions := by
  obtain ⟨-, m', events, rng', hm', hfinish⟩ := h.handled
  obtain ⟨hm, -⟩ := Prod.mk.inj (Except.ok.inj (hm'.symm.trans hdispatch))
  obtain ⟨rfl, rfl⟩ := Prod.mk.inj hm
  exact (finishCommand_redisplayed hsettles htwo).of_ok hfinish

end Calls

end Monopoly
