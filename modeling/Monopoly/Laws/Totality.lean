import Monopoly.Spec.Replay

/-!
# Monopoly.Laws.Totality

The engine never crashes during play.
-/

namespace Monopoly

/-- **Totality.** In a game that is on, a command about the game's own
players and positions is accepted or rejected as an illegal move. -/
theorem apply_never_crashes {h : List (Taken GameState Call)} {s : GameState} (hplay : Play h s)
    (hin : s.status = .inProgress) {command : GameCommand} (haddressed : Addressed s command)
    (env : Env) :
    (∃ s' events rng, apply s command env = .ok ((s', events), rng)) ∨
      ∃ message, apply s command env = .error (.illegalMove message) := by
  obtain ⟨hw, hl⟩ := Play.formed hplay
  have hsat := apply_sat hw hl env command
  cases happly : apply s command env with
  | ok r => exact .inl ⟨r.1.1, r.1.2, r.2, rfl⟩
  | error e =>
      have hillegal := hsat.of_error happly hin haddressed
      cases e with
      | illegalMove message => exact .inr ⟨message, rfl⟩
      | keyError | stopIteration | indexError | valueError | zeroDivisionError | runtimeError
      | recursionError => exact hillegal.elim

/-- After a roll, a purchase and the end of the turn, player `2` rolls onto the
Chance at `8`: the roll is accepted, and a card is shown. -/
theorem roll_onto_card_never_crashes : ∃ h s s' events rng, Play h s ∧ h.length = 3 ∧
    apply s (.rollDice 2) (callAt 0 [2, 3] .advanceAuction).env = .ok ((s', events), rng) ∧
    s'.activeCard.isSome = true := by
  obtain ⟨h, s, hplay, hlabels, hcheck⟩ := play_of_reaches (duo 1500)
    (firstPurchase ++ [callAt 0 [] (.endTurn 1)])
    (fun _ s => decide (s.status = .inProgress) && (s.seats.any (fun p => decide (p.id = 2)) &&
      (apply s (.rollDice 2) (callAt 0 [2, 3] .advanceAuction).env).toOption.any fun r =>
        r.1.1.activeCard.isSome))
    (by decide) (by decide +kernel)
  simp only [Bool.and_eq_true, decide_eq_true_eq, List.any_eq_true] at hcheck
  obtain ⟨hin, ⟨p, hp, hid⟩, hdrawn⟩ := hcheck
  have hlength : h.length = 3 := by simpa [firstPurchase] using congrArg List.length hlabels
  have haddressed : Addressed s (.rollDice 2) := by
    refine ⟨fun pid hpid => ?_, by simp [GameCommand.positions]⟩
    obtain rfl : pid = 2 := by simpa [GameCommand.playerIds, GameCommand.player] using hpid
    exact ⟨p, hp, hid⟩
  obtain ⟨s', events, rng, happly⟩ | ⟨message, hrefused⟩ :=
    apply_never_crashes hplay hin haddressed (callAt 0 [2, 3] .advanceAuction).env
  · rw [happly] at hdrawn
    exact ⟨h, s, s', events, rng, hplay, hlength, happly, hdrawn⟩
  · rw [hrefused] at hdrawn
    cases hdrawn

end Monopoly
