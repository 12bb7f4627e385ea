import Monopoly.Spec.Passing
import Monopoly.Spec.Replay

/-!
# Monopoly.Laws.TurnPassing

The two ways the turn is passed on agree: `EndTurn`, which counts in the
list of the active players, and `advance_turn_off_player`, which scans the
seats, lead to the same state.
-/

namespace Monopoly

section Law

variable {s s' : GameState} {p : PlayerState} {events : List GameEvent}

/-- Where the `EndTurn` of a current player who is in the game is accepted,
its result is the state `advance_turn_off_player` returns for that player. -/
theorem turn_paths_agree (hids : (s.players.map (·.id)).Nodup) (hp : p ∈ s.players)
    (hcurrent : p.id = s.turn.currentPlayerId) (hin : p.isBankrupt = false)
    (h : handleEndTurn s s.turn.currentPlayerId = .ok (s', events)) :
    advanceTurnOffPlayer s s.turn.currentPlayerId = .ok s' := by
  obtain ⟨i, hi⟩ := List.mem_iff_getElem?.mp hp
  have hended : s' = handOn s (nextAround inGame s.players i) :=
    (handleEndTurn_eq hids hi hcurrent hin _).of_ok h
  rw [hended, ← hcurrent]
  exact advanceTurnOffPlayer_eq hids hi

/-- The second player of the game is out, and the first has rolled. -/
def secondOut (s : GameState) : GameState :=
  { s with
    players := editSeat 2 (fun p => { p with isBankrupt := true }) s.players
    turn := { s.turn with phase := .postRoll } }

/-- The turn goes from player `1` past an eliminated player to player `3`. -/
theorem turn_paths_agree_gap : ∃ s s' events,
    handleEndTurn s s.turn.currentPlayerId = .ok (s', events) ∧ s'.turn.currentPlayerId = 3 ∧
      advanceTurnOffPlayer s s.turn.currentPlayerId = .ok s' := by
  obtain ⟨s, hcheck⟩ := exists_new (trio 1500) (fun s =>
    match handleEndTurn (secondOut s) (secondOut s).turn.currentPlayerId with
    | .error _ => false
    | .ok (s', _) => decide (s'.turn.currentPlayerId = 3 ∧
        ((secondOut s).players.map (·.id)).Nodup ∧ ∃ p ∈ (secondOut s).players,
          p.id = (secondOut s).turn.currentPlayerId ∧ p.isBankrupt = false)) (by decide +kernel)
  split at hcheck
  · cases hcheck
  · rename_i s' events hended
    obtain ⟨hnext, hids, p, hp, hid, hin⟩ := of_decide_eq_true hcheck
    exact ⟨_, s', events, hended, hnext, turn_paths_agree hids hp hid hin hended⟩

end Law

end Monopoly
