import Monopoly.Spec.Acceptance
import Monopoly.Spec.Estates
import Monopoly.Spec.Replay
import Monopoly.Spec.Rounds
import Monopoly.Spec.Trail

/-!
# Monopoly.Laws.SentToJail

Being sent to jail ends the roll.  There are four ways: the third doubles,
the corner, a card, and a card that a go-back card leads to.  Whichever it
was, the roller is in jail, nothing is offered or owed, no doubles counts,
and the turn can be ended.
-/

namespace Monopoly

/-- The roll has put `r` in jail, once, and is over. -/
structure EndsInJail (r : PlayerId) (s' : GameState) (events : List GameEvent) : Prop where
  roller : ∃ p ∈ s'.players, p.id = r ∧ p.position = (getGameConfig s'.gameMode).jailPosition ∧
    p.jailStatus = some { turnsRemaining := 3 }
  phase : s'.turn.phase = .postRoll
  streak : s'.turn.doublesStreak = 0
  pending : s'.turn.pendingBuyPosition = none
  debt : s'.bankruptcy = none
  once : events.countP GameEvent.isSentToJail = 1

section Rolls

variable {s m s' : GameState} {p : PlayerState} {pid : PlayerId} {env : Env}
  {events : List GameEvent} {rng : Rng} {x : Spot} {h : List (Taken GameState Call)}

/-- The roll that emits a `SentToJail` is the one whose events lead to jail. -/
theorem Roams.endsInJail (hr : Roams s p (m, events) x) (hp : p ∈ s.players)
    (hjail : ∃ e ∈ events, e.isSentToJail = true) (hdebt : s.bankruptcy = none)
    (hpending : s.turn.pendingBuyPosition = none) : EndsInJail p.id m events := by
  obtain ⟨hcount, hposition⟩ := Trail.jailed_count hr.trail
  have hx : x.jailed = true := by
    by_contra hfree
    rw [if_neg hfree] at hcount
    obtain ⟨e, he, hsent⟩ := hjail
    exact List.countP_eq_zero.mp hcount e he hsent
  obtain ⟨⟨hoffer, hfree⟩, hphase, hstreak⟩ := hr.arrested hx
  obtain ⟨v, hid, hpos, hstatus, hpieces⟩ := hr.piece
  have hmem : v ∈ m.pieces := by
    rw [show m.pieces = _ from hpieces]
    exact mem_editSeat.mpr ⟨p.piece, List.mem_map_of_mem hp, if_pos rfl⟩
  obtain ⟨q, hq, rfl⟩ := List.mem_map.mp hmem
  refine ⟨⟨q, hq, hid, ?_, hstatus hx⟩, hphase, hstreak, ?_, hfree.trans hdebt, ?_⟩
  · rw [show m.gameMode = s.gameMode from hr.gameMode]
    exact hpos.trans (hposition hx)
  · exact hoffer.elim id fun hkept => hkept.trans hpending
  · rw [hcount, if_pos hx]

theorem Tidied.endsInJail (ht : Tidied m s') (h : EndsInJail pid m events) :
    EndsInJail pid s' events := by
  obtain ⟨⟨p, hp, hid, hpos, hstatus⟩, hphase, hstreak, hpending, hdebt, honce⟩ := h
  have hmem : p.bare ∈ s'.seats := by
    rw [ht.seats_eq]
    exact mem_seats hp
  obtain ⟨q, hq, hbare⟩ := exists_player hmem
  have hqp : q.piece = p.piece := piece_eq_of_bare hbare
  cases ht with
  | mk _ =>
      refine ⟨⟨q, hq, (id_eq_of_piece hqp).trans hid, ?_, ?_⟩, hphase, hstreak, hpending, hdebt,
        honce⟩
      · rw [← piece_position, hqp]
        exact hpos
      · rw [← bare_jailStatus, hbare]
        exact hstatus

/-- The game is on after the roll, with the same players. -/
theorem Rolled.live {goSalary jailFine : Int} (hs : Sound s) (hl : Live s)
    (hin : s.status = .inProgress) (hr : Rolled s p rng goSalary jailFine m) :
    m.status = .inProgress ∧ m.turn.currentPlayerId = s.turn.currentPlayerId ∧
      2 ≤ (survivors m.seats).length := by
  have hframe := hr.rollFrame hs
  obtain ⟨f, hseats, hf, -⟩ := hframe.seats
  refine ⟨?_, ?_, ?_⟩
  · rw [hframe.frame]
    exact hin
  · rw [hframe.frame]
  · rw [hseats, length_survivors_map hf.toKeepsRoster]
    exact (hl hin).2

/-- Whoever is sent to jail by a roll, on whatever way, is in jail once it is
over, and may end the turn. -/
theorem sent_to_jail_ends_roll (hplay : Play h s) (hin : s.status = .inProgress)
    (hdebt : s.bankruptcy = none) (hpending : s.turn.pendingBuyPosition = none)
    (happly : apply s (.rollDice pid) env = .ok ((s', events), rng))
    (hjail : ∃ e ∈ events, e.isSentToJail = true) :
    EndsInJail pid s' events ∧ ∀ env', ∃ s'', Accepted s' ⟨.endTurn pid, env'⟩ s'' := by
  obtain ⟨hw, hl⟩ := Play.formed hplay
  obtain ⟨hmay, m, hdispatch, hfinish⟩ := apply_parts happly
  have hcurrent : s.turn.currentPlayerId = pid := assertMayAct_sat.of_ok hmay pid rfl rfl
  have hpid : Seated s pid := hcurrent ▸ hw.current
  obtain ⟨-, q, -, -, -, hrolled⟩ := (handleRollDice_sat hw.toSound hpid).of_ok hdispatch
  obtain ⟨hstatus, hsame, htwo⟩ := hrolled.live hw.toSound hl hin
  obtain ⟨p, hp, hid, x, hroams⟩ := (handleRollDice_roams hw.playerIds pid _ _ _).of_ok hdispatch
  have hended := hroams.endsInJail hp hjail hdebt hpending
  rw [hid] at hended
  have htidy : Tidied m s' := by
    refine (finishCommand_tidies s (.rollDice pid) env events hended.debt fun _ w hw => ?_).of_ok
      hfinish
    simp only [hw, List.length_singleton] at htwo
    omega
  have hends := htidy.endsInJail hended
  have hafter : Accepted s ⟨.rollDice pid, env⟩ s' := ⟨events, rng, happly⟩
  obtain ⟨hw', hl'⟩ := Play.formed (hplay.next hafter)
  refine ⟨hends, fun env' => ?_⟩
  obtain ⟨r, hr, rfl, -⟩ := hends.roller
  have hcurrent' : s'.turn.currentPlayerId = r.id := by
    rw [htidy.currentPlayerId, show m.turn.currentPlayerId = _ from hsame, hcurrent]
  have hreturns := handleEndTurn_returns hw' hr (hl' (htidy.status.trans hstatus)).1
    (.inl hends.phase) hends.pending hends.debt
  refine accepted_of_returns hw' hl' (fun pid' hplayer _ => ?_) (hreturns.keepRng _)
  obtain rfl := Option.some.inj hplayer
  exact hcurrent'

/-- Player `1` has rolled two doubles; the third sends them to jail. -/
theorem third_doubles_end_in_jail : ∃ s s' events rng,
    apply s (.rollDice 1) (callAt 0 [0, 0] (.rollDice 1)).env = .ok ((s', events), rng) ∧
    s.turn.doublesStreak = 2 ∧ EndsInJail 1 s' events ∧
    ∃ s'', Accepted s' (callAt 0 [] (.endTurn 1)) s'' := by
  obtain ⟨h, s, hplay, -, hcheck⟩ := play_of_reaches (duo 1500)
    [callAt 0 [1, 1] (.rollDice 1), callAt 0 [2, 2] (.rollDice 1)]
    (fun _ s => (apply s (.rollDice 1) (callAt 0 [0, 0] (.rollDice 1)).env).toOption.any
      fun (r : Handled × Rng) => decide (s.status = .inProgress ∧ s.bankruptcy = none ∧
        s.turn.pendingBuyPosition = none ∧ s.turn.doublesStreak = 2 ∧
        ∃ e ∈ r.1.2, e.isSentToJail = true)) (by decide) (by decide +kernel)
  obtain ⟨⟨⟨s', events⟩, rng⟩, happly, hfacts⟩ := ok_of_any hcheck
  obtain ⟨hin, hdebt, hpending, hstreak, hjail⟩ := of_decide_eq_true hfacts
  obtain ⟨hends, hturn⟩ := sent_to_jail_ends_roll hplay hin hdebt hpending happly hjail
  exact ⟨s, s', events, rng, happly, hstreak, hends, hturn _⟩

end Rolls

end Monopoly
