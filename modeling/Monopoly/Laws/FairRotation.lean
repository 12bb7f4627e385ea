import Monopoly.Laws.Placements
import Monopoly.Laws.TurnRecord
import Monopoly.Spec.Rounds

/-!
# Monopoly.Laws.FairRotation

The turns go round the table.  Whoever passes the turn on, `EndTurn` or the
timer, and whichever seats are empty: as many turns later as there are
players in the game, everybody has been on turn once.
-/

namespace Monopoly

/-- Whose turn it became in a history, from the first change on. -/
def newTurns (h : List (Taken GameState Call)) : List PlayerId :=
  ((h.filter fun t => decide (PassesTurn t)).map (·.after.turn.currentPlayerId)).reverse

/-- Everybody who is in the game in `s` has been on turn once, in the order
of the table, and one round has gone by. -/
structure FullRound (s : GameState) (turns : List PlayerId) (s' : GameState) : Prop where
  everybody : ∀ pid, pid ∈ turns ↔ ∃ p ∈ s.players, p.id = pid ∧ p.isBankrupt = false
  once : turns.Nodup
  order : ∃ i, (activeIds s)[i]? = some s.turn.currentPlayerId ∧
    turns = (activeIds s).rotate (i + 1)
  last : turns.getLast? = some s.turn.currentPlayerId
  number : s'.turn.turnNumber = s.turn.turnNumber + (activeIds s).length
  round : s'.turn.roundNumber = s.turn.roundNumber + 1

/-- The turns that have gone by since `s`, where the `i`-th active player was
on turn. -/
structure Rotated (s : GameState) (i : Nat) (turns : List PlayerId) (s' : GameState) : Prop where
  roster : s'.roster = s.roster
  current : (activeIds s)[(i + turns.length) % (activeIds s).length]? =
    some s'.turn.currentPlayerId
  each : ∀ k, k < turns.length → turns[k]? = (activeIds s)[(i + 1 + k) % (activeIds s).length]?
  number : s'.turn.turnNumber = s.turn.turnNumber + turns.length
  round : s'.turn.roundNumber =
    s.turn.roundNumber + (i + turns.length) / (activeIds s).length

section Law

variable {s s' a b : GameState} {p : PlayerState} {call : Call} {i : Nat}
  {h : List (Taken GameState Call)}

theorem newTurns_stays (hsame : ¬PassesTurn ⟨a, call, b⟩) :
    newTurns (⟨a, call, b⟩ :: h) = newTurns h := by
  rw [newTurns, List.filter_cons_of_neg (by simpa using hsame)]
  rfl

theorem newTurns_passes (hpasses : PassesTurn ⟨a, call, b⟩) :
    newTurns (⟨a, call, b⟩ :: h) = newTurns h ++ [b.turn.currentPlayerId] := by
  rw [newTurns, List.filter_cons_of_pos (by simpa using hpasses), List.map_cons,
    List.reverse_cons]
  rfl

/-- Who is out in the new state, and was not before, was eliminated. -/
theorem eliminates_of_without {pid : PlayerId} (hp : p ∈ a.players) (hid : p.id = pid)
    (hin : p.isBankrupt = false) (hb : b.roster = a.roster.map (Seating.without pid)) :
    Eliminates ⟨a, call, b⟩ pid := by
  refine ⟨⟨p, hp, hid, hin⟩, ?_⟩
  have hmem : p.seating.without pid ∈ b.roster := by
    rw [hb]
    exact List.mem_map_of_mem (List.mem_map_of_mem hp)
  obtain ⟨q, hq, hseat⟩ := List.mem_map.mp hmem
  have hout : q.seating = { p.seating with isBankrupt := true } := hseat.trans (if_pos hid)
  exact ⟨q, hq, (congrArg Seating.id hout).trans hid, congrArg Seating.isBankrupt hout⟩

/-- One more call. -/
theorem Rotated.next (hr : Rotated s i (newTurns h) a) (hids : (s.players.map (·.id)).Nodup)
    (htwo : 2 ≤ (activeIds s).length) (hcall : Accepted a call b)
    (hstays : ∀ pid, ¬Eliminates ⟨a, call, b⟩ pid) :
    Rotated s i (newTurns (⟨a, call, b⟩ :: h)) b := by
  have hids' : (a.players.map (·.id)).Nodup := by
    rw [ids_of_roster hr.roster]
    exact hids
  have hactive := activeIds_of_roster hr.roster
  have hj := hr.current
  rw [← hactive] at hj
  obtain ⟨p, hp, hid, hin⟩ := mem_activeIds.mp (List.mem_of_getElem? hj)
  rcases hcall.standing hids' hp hid hin hj with hsame | hhands | hwithout
  · have hcurrent : b.turn.currentPlayerId = a.turn.currentPlayerId :=
      congrArg Standing.currentPlayerId hsame
    rw [newTurns_stays (not_not.mpr hcurrent)]
    refine ⟨?_, hcurrent ▸ hr.current, hr.each, ?_, ?_⟩
    · exact (congrArg Standing.roster hsame).trans hr.roster
    · exact (congrArg Standing.turnNumber hsame).trans hr.number
    · exact (congrArg Standing.roundNumber hsame).trans hr.round
  · obtain ⟨hroster, hnext, hnumber, hround⟩ := hhands
    rw [hactive, mod_succ] at hnext
    rw [hactive] at hround
    have hpasses : PassesTurn ⟨a, call, b⟩ := by
      intro hsame
      obtain ⟨hlt, hget⟩ := List.getElem?_eq_some_iff.mp hnext
      obtain ⟨hlt', hget'⟩ := List.getElem?_eq_some_iff.mp hr.current
      exact mod_succ_ne htwo _ ((nodup_activeIds hids).getElem_inj_iff.mp
        (hget.trans (hsame.trans hget'.symm)))
    have hlen : (newTurns h ++ [b.turn.currentPlayerId]).length = (newTurns h).length + 1 := by simp
    rw [newTurns_passes hpasses]
    refine ⟨hroster.trans hr.roster, by rw [hlen]; exact hnext, fun k hk => ?_, ?_, ?_⟩
    · rcases Nat.lt_succ_iff_lt_or_eq.mp (hlen ▸ hk) with hk | rfl
      · rw [List.getElem?_append_left hk]
        exact hr.each k hk
      · rw [List.getElem?_concat_length, ← hnext, Nat.add_right_comm]
    · rw [hlen, hnumber, hr.number, Nat.add_assoc]
    · rw [hlen, hround, hr.round, ← Nat.add_assoc i, laps_succ (by omega), Nat.add_assoc]
  · exact absurd (eliminates_of_without hp hid hin hwithout) (hstays _)

/-- Any number of calls. -/
theorem rotated_of_run (hids : (s.players.map (·.id)).Nodup) (htwo : 2 ≤ (activeIds s).length)
    (hi : (activeIds s)[i]? = some s.turn.currentPlayerId) (hrun : Run (· = s) Accepted h s')
    (hstays : ∀ t ∈ h, ∀ pid, ¬Eliminates t pid) : Rotated s i (newTurns h) s' := by
  induction hrun with
  | start hs =>
      obtain ⟨hlt, -⟩ := List.getElem?_eq_some_iff.mp hi
      subst hs
      refine ⟨rfl, ?_, fun k hk => absurd hk (Nat.not_lt_zero k), rfl, ?_⟩
      · rw [show newTurns [] = [] from rfl, List.length_nil, Nat.add_zero, Nat.mod_eq_of_lt hlt]
        exact hi
      · rw [show newTurns [] = [] from rfl, List.length_nil, Nat.add_zero, Nat.div_eq_of_lt hlt,
          Nat.add_zero]
  | next _ hcall ih =>
      have hrotated := ih fun t ht => hstays t (List.mem_cons_of_mem _ ht)
      exact hrotated.next hids htwo hcall (hstays _ List.mem_cons_self)

/-- As many changes of the turn as there are players in the game, at least
two, lead once round the table. -/
theorem fair_rotation (hids : (s.players.map (·.id)).Nodup) (hp : p ∈ s.players)
    (hcurrent : p.id = s.turn.currentPlayerId) (hin : p.isBankrupt = false)
    (htwo : 2 ≤ (activeIds s).length) (hrun : Run (· = s) Accepted h s')
    (hstays : ∀ t ∈ h, ∀ pid, ¬Eliminates t pid)
    (hchanges : (newTurns h).length = (activeIds s).length) : FullRound s (newTurns h) s' := by
  obtain ⟨i, hi⟩ := List.mem_iff_getElem?.mp (mem_activeIds.mpr ⟨p, hp, hcurrent, hin⟩)
  obtain ⟨hlt, -⟩ := List.getElem?_eq_some_iff.mp hi
  obtain ⟨-, hlast, heach, hnumber, hround⟩ := rotated_of_run hids htwo hi hrun hstays
  have hrotate : newTurns h = (activeIds s).rotate (i + 1) :=
    eq_rotate_of_getElem? hchanges fun k hk => heach k hk
  refine ⟨fun pid => ?_, ?_, ⟨i, hi, hrotate⟩, ?_, hchanges ▸ hnumber, ?_⟩
  · rw [hrotate, List.mem_rotate, mem_activeIds]
  · rw [hrotate]
    exact List.nodup_rotate.mpr (nodup_activeIds hids)
  · have hindex : i + 1 + ((newTurns h).length - 1) = i + (activeIds s).length := by omega
    rw [List.getLast?_eq_getElem?, heach _ (by omega), hindex, Nat.add_mod_right,
      Nat.mod_eq_of_lt hlt]
    exact hi
  · rw [hround, hchanges, Nat.add_div_right _ (by omega), Nat.div_eq_of_lt hlt]

/-- Player `2` is out, and player `1` has rolled. -/
def gapAtTwo (s : GameState) : GameState :=
  { s with
    players := editSeat 2 (fun p => { p with isBankrupt := true }) s.players
    turn := { s.turn with phase := .postRoll } }

/-- Player `1` ends the turn, and the timer skips player `3`. -/
def onceRound : List Call := [callAt 0 [] (.endTurn 1), callAt 1000000 [] .turnTimeout]

theorem fair_rotation_gap : ∃ s h s', Run (· = s) Accepted h s' ∧
    h.reverse.map (·.label) = onceRound ∧ FullRound s [3, 1] s' := by
  obtain ⟨s, hcheck⟩ := exists_new (trio 1500) (fun s =>
    (replay (gapAtTwo s) onceRound).toOption.any
      fun (r : List (Taken GameState Call) × GameState) => decide (newTurns r.1 = [3, 1] ∧
        ((gapAtTwo s).players.map PlayerState.id).Nodup ∧ (activeIds (gapAtTwo s)).length = 2 ∧
        (∃ p ∈ (gapAtTwo s).players, p.id = (gapAtTwo s).turn.currentPlayerId ∧
          p.isBankrupt = false) ∧
        ∀ t ∈ r.1, ∀ p ∈ t.before.players, ¬Eliminates t p.id)) (by decide +kernel)
  obtain ⟨⟨h, s'⟩, hreplay, hfacts⟩ := ok_of_any hcheck
  obtain ⟨hturns, hids, hlen, ⟨p, hp, hid, hin⟩, hstays⟩ := of_decide_eq_true hfacts
  have hstart : Run (· = gapAtTwo s) Accepted [] (gapAtTwo s) := .start rfl
  obtain ⟨hrun, hlabels⟩ := replay_run hstart hreplay
  rw [List.append_nil] at hrun
  dsimp only at hturns hstays
  refine ⟨_, h, s', hrun, hlabels, hturns ▸ fair_rotation hids hp hid hin (by omega) hrun
    (fun t ht pid hgone => ?_) (by rw [hturns, hlen]; rfl)⟩
  obtain ⟨⟨q, hq, rfl, -⟩, -⟩ := id hgone
  exact hstays t ht q hq hgone

end Law

end Monopoly
