import Monopoly.Engine.Apply
import Monopoly.Lib.Rotation
import Monopoly.Spec.Elimination

/-!
# Monopoly.Spec.Passing

Who is next.  Both places that pass the turn on, the `EndTurn` handler and
`advance_turn_off_player`, go round the table to the next player who is in
the game; nothing but distinct ids is assumed of the table.
-/

namespace Monopoly

/-- The player is not eliminated. -/
def inGame (p : PlayerState) : Bool := !p.isBankrupt

theorem survivors_eq (players : List PlayerState) : survivors players = players.filter inGame :=
  List.filter_congr fun p _ => by simp [inGame]

/-- The state once the turn has gone to the next player round the table, and
`round` counts up where that leads past the last seat. -/
def handOn (s : GameState) : Option (PlayerState × Bool) → GameState
  | none => s
  | some (next, wrapped) =>
      { s with turn := passTurn s.turn next (s.turn.roundNumber + if wrapped then 1 else 0) }

section Passing

variable {players : List PlayerState} {s : GameState} {p : PlayerState} {i : Nat}

/-! ## the scan over the seats -/

/-- The part of the scan that has come past the last seat. -/
theorem nextActiveFrom_over {start n offset : Nat} (hover : players.length ≤ start + offset)
    (hround : start + offset - players.length + n ≤ players.length) :
    nextActiveFrom players start n offset =
      .ok ((((players.drop (start + offset - players.length)).take n).find? inGame).map
        (·, true)) := by
  induction n generalizing offset with
  | zero => rfl
  | succ n ih =>
      have hlt : start + offset - players.length < players.length := by omega
      have hmod : (start + offset) % players.length = start + offset - players.length := by
        rw [Nat.mod_eq_sub_mod hover, Nat.mod_eq_of_lt hlt]
      rw [nextActiveFrom, pyMod_natCast _ (by omega), ok_bind, hmod, pyGet_natCast hlt, ok_bind,
        List.drop_eq_getElem_cons hlt, List.take_succ_cons]
      cases hout : players[start + offset - players.length].isBankrupt with
      | false => simp [inGame, hout, hover]; rfl
      | true =>
          rw [ih (by omega) (by omega),
            show start + (offset + 1) - players.length = start + offset - players.length + 1 by
              omega]
          simp [inGame, hout]

/-- The part of the scan before the last seat is passed. -/
theorem nextActiveFrom_within {start n offset d : Nat} (hd : start + offset + d = players.length) :
    nextActiveFrom players start (d + n) offset =
      match (players.drop (start + offset)).find? inGame with
      | some next => .ok (some (next, false))
      | none => nextActiveFrom players start n (offset + d) := by
  induction d generalizing offset with
  | zero => rw [List.drop_eq_nil_of_le (by omega), Nat.zero_add]; rfl
  | succ d ih =>
      have hlt : start + offset < players.length := by omega
      rw [show d + 1 + n = d + n + 1 by omega, nextActiveFrom, pyMod_natCast _ (by omega), ok_bind,
        Nat.mod_eq_of_lt hlt, pyGet_natCast hlt, ok_bind, List.drop_eq_getElem_cons hlt]
      cases hout : players[start + offset].isBankrupt with
      | false =>
          rw [List.find?_cons_of_pos (by simp [inGame, hout])]
          simp [show ¬players.length ≤ start + offset by omega]
          rfl
      | true =>
          rw [List.find?_cons_of_neg (by simp [inGame, hout]), ih (by omega),
            show offset + 1 + d = offset + (d + 1) by omega]
          simp [Nat.add_assoc]

/-- The scan goes once round the table. -/
theorem nextActiveFrom_eq (hi : i < players.length) :
    nextActiveFrom players i players.length 1 = .ok (nextAround inGame players i) := by
  have hd : i + 1 + (players.length - (i + 1)) = players.length := by omega
  have hwithin := nextActiveFrom_within (n := i + 1) hd
  rw [show players.length - (i + 1) + (i + 1) = players.length by omega] at hwithin
  rw [hwithin, nextAround]
  cases (players.drop (i + 1)).find? inGame with
  | some next => rfl
  | none =>
      simp only [Option.map_none, Option.none_or]
      rw [nextActiveFrom_over (by omega) (by omega),
        show i + (1 + (players.length - (i + 1))) - players.length = 0 by omega, List.drop_zero]

theorem advanceTurnOffPlayer_eq (hids : (s.players.map (·.id)).Nodup)
    (hi : s.players[i]? = some p) :
    advanceTurnOffPlayer s p.id = .ok (handOn s (nextAround inGame s.players i)) := by
  obtain ⟨hlt, hpi⟩ := List.getElem?_eq_some_iff.mp hi
  obtain ⟨j, hj, hget⟩ := nextPlayerIdx_eq hids (List.mem_of_getElem? hi)
  obtain ⟨hlt', hpj⟩ := List.getElem?_eq_some_iff.mp hget
  obtain rfl : j = i := (List.Nodup.of_map _ hids).getElem_inj_iff.mp (hpj.trans hpi.symm)
  rw [advanceTurnOffPlayer, hj, ok_bind, nextActiveFrom_eq hlt, ok_bind]
  cases nextAround inGame s.players j with
  | none => rfl
  | some found => rfl

/-- The same, read off the seats. -/
theorem handOn_seats (s : GameState) (i : Nat) :
    handOn s (nextAround inGame s.players i) = handOn s (nextAround inGame s.seats i) := by
  rw [GameState.seats, seatsOf, nextAround_map PlayerState.bare s.players]
  rw [show inGame ∘ PlayerState.bare = inGame from rfl]
  cases nextAround inGame s.players i <;> rfl

/-! ## the step among those who are in the game -/

/-- What an accepted `EndTurn` returns. -/
theorem handleEndTurn_eq (hids : (s.players.map (·.id)).Nodup) (hi : s.players[i]? = some p)
    (hcurrent : p.id = s.turn.currentPlayerId) (hin : p.isBankrupt = false) (pid : PlayerId) :
    Ensures (handleEndTurn s pid) fun r => r.1 = handOn s (nextAround inGame s.players i) := by
  have hactive : inGame p = true := by rw [inGame, hin]; rfl
  have hj := getElem?_filter_countP hi hactive
  have hids' : (((s.players.filter inGame)).map (·.id)).Nodup :=
    hids.sublist (List.filter_sublist.map _)
  obtain ⟨j, hindex, hget⟩ := nextPlayerIdx_eq hids' (List.mem_of_getElem? hj)
  obtain ⟨hlt, hpj⟩ := List.getElem?_eq_some_iff.mp hget
  obtain ⟨hlt', hpj'⟩ := List.getElem?_eq_some_iff.mp hj
  obtain rfl : j = (s.players.take i).countP inGame :=
    (List.Nodup.of_map _ hids').getElem_inj_iff.mp (hpj.trans hpj'.symm)
  obtain ⟨next, hnext, haround⟩ := nextAround_true hlt
  rw [nextAround_filter hi hactive, haround]
  refine .guard fun _ => .guard fun _ => .guard fun _ => ?_
  obtain ⟨hltn, hpn⟩ := List.getElem?_eq_some_iff.mp hnext
  have hmod : pyMod (((s.players.take i).countP inGame : Int) + 1)
      (s.players.filter inGame).length = _ := pyMod_natCast (_ + 1) (by omega)
  rw [survivors_eq, ← hcurrent]
  dsimp only
  rw [hindex, ok_bind, hmod, ok_bind, pyGet_natCast hltn, ok_bind, hpn]
  refine .after fun player _ => ?_
  simp [handOn, passTurn]

end Passing

end Monopoly
