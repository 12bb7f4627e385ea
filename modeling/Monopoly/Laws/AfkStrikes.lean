import Monopoly.Laws.Placements
import Monopoly.Spec.Replay
import Monopoly.Spec.Rounds

/-!
# Monopoly.Laws.AfkStrikes

The strikes of a player count the timers that ran out on their turns since
they last gave a command, in their own turn or in another's.  The third one
takes the player out.
-/

namespace Monopoly

/-- The call is a timer that has run out on the player's turn. -/
def TimesOut (pid : PlayerId) (t : Taken GameState Call) : Prop :=
  t.label.command = .turnTimeout ∧ isTurnExpired t.before t.label.env.clock.nowMs = true ∧
    t.before.turn.currentPlayerId = pid

instance (pid : PlayerId) (t : Taken GameState Call) : Decidable (TimesOut pid t) :=
  inferInstanceAs (Decidable (_ ∧ _))

/-- The calls since the player's last command, or since the start. -/
def sinceCommandOf (pid : PlayerId) (h : List (Taken GameState Call)) :
    List (Taken GameState Call) :=
  h.takeWhile fun t => decide (t.label.command.player ≠ some pid)

/-- How often the timer ran out on the player since their last command. -/
def timeoutsOf (pid : PlayerId) (h : List (Taken GameState Call)) : Nat :=
  (sinceCommandOf pid h).countP fun t => decide (TimesOut pid t)

/-- The strikes of the player are on record, and there is room for one more. -/
structure Tallied (h : List (Taken GameState Call)) (p : PlayerState) : Prop where
  count : p.afkStrikes = timeoutsOf p.id h
  few : p.afkStrikes < maxAfkStrikes

section Law

variable {s s' : GameState} {p : PlayerState} {call : Call} {pid : PlayerId} {env : Env}
  {h : List (Taken GameState Call)}

/-! ## counting -/

theorem timeoutsOf_own (hown : call.command.player = some pid) :
    timeoutsOf pid (⟨s, call, s'⟩ :: h) = 0 := by
  rw [timeoutsOf, sinceCommandOf, List.takeWhile_cons_of_neg (by simpa using hown)]
  rfl

theorem timeoutsOf_next {t : Taken GameState Call} (hother : t.label.command.player ≠ some pid) :
    timeoutsOf pid (t :: h) = timeoutsOf pid h + if TimesOut pid t then 1 else 0 := by
  rw [timeoutsOf, sinceCommandOf, List.takeWhile_cons_of_pos (by simpa using hother),
    List.countP_cons]
  simp only [decide_eq_true_eq]
  rfl

/-- A command of somebody else marks a player only when it is the timer, run
out on that player. -/
theorem marks_of_other (s' : GameState) (hother : call.command.player ≠ some p.id) :
    call.command.marks s call.env p =
      if TimesOut p.id ⟨s, call, s'⟩ then p.timedOut s.turn.turnNumber else p := by
  obtain ⟨command, env⟩ := call
  cases command with
  | declareBankruptcy pid | surrender pid =>
      refine (if_neg fun hid => hother (congrArg some hid.symm)).trans ?_
      exact (if_neg fun h => by cases h.1).symm
  | turnTimeout =>
      simp only [GameCommand.marks, TimesOut, true_and, eq_comm (a := p.id)]
      split
      · simp [*]
      · simp [*]
  | _ => exact (if_neg fun h => by cases h.1).symm

/-- One more call: a player who is still in the game afterwards. -/
theorem Tallied.next (htally : p.isBankrupt = false → Tallied h p)
    (hin : (call.leaves s p).isBankrupt = false) :
    Tallied (⟨s, call, s'⟩ :: h) (call.leaves s p) := by
  by_cases hown : call.command.player = some p.id
  · have hid := Call.leaves_id call s p
    have hzero : (call.leaves s p).afkStrikes = 0 := by
      rw [Call.leaves, if_pos hown]
      rfl
    refine ⟨?_, ?_⟩
    · rw [hzero, hid, timeoutsOf_own hown]
    · rw [hzero]
      decide
  · rw [Call.leaves, if_neg hown, marks_of_other s' hown] at hin ⊢
    by_cases hexpires : TimesOut p.id ⟨s, call, s'⟩
    · rw [if_pos hexpires, PlayerState.timedOut] at hin ⊢
      by_cases hthird : maxAfkStrikes ≤ p.afkStrikes + 1 ∧ p.isBankrupt = false
      · rw [if_pos hthird] at hin
        cases hin
      · rw [if_neg hthird] at hin ⊢
        have hin' : p.isBankrupt = false := hin
        refine ⟨?_, Nat.lt_of_not_le fun hmax => hthird ⟨hmax, hin'⟩⟩
        show p.afkStrikes + 1 = timeoutsOf p.id _
        rw [timeoutsOf_next hown, if_pos hexpires, (htally hin').count]
    · rw [if_neg hexpires] at hin ⊢
      obtain ⟨hcount, hfew⟩ := htally hin
      refine ⟨?_, hfew⟩
      rw [timeoutsOf_next hown, if_neg hexpires, hcount, Nat.add_zero]

/-! ## runs -/

theorem Opens.unstruck {args : NewGame} (hopens : Opens args s) (hp : p ∈ s.players) :
    p.afkStrikes = 0 := by
  obtain ⟨-, uuid4, -, rng, hnew⟩ := hopens
  rw [newGame_players hnew] at hp
  obtain ⟨i, hi, rfl⟩ := List.mem_mapIdx.mp hp
  rfl

theorem Play.tallied (hplay : Play h s) (hp : p ∈ s.players) (hin : p.isBankrupt = false) :
    Tallied h p := by
  induction hplay generalizing p with
  | start hopens =>
      obtain ⟨args, hopens⟩ := hopens
      have hzero := hopens.unstruck hp
      refine ⟨hzero, ?_⟩
      rw [hzero]
      decide
  | @next h s s' call hplay hcall ih =>
      obtain ⟨q, hq, -, hleft⟩ := hcall.profile (Play.formed hplay).1.playerIds hp
      have hin' : (call.leaves s q.profile).isBankrupt = false := by
        rw [← hleft]
        exact hin
      have hnext : Tallied (⟨s, call, s'⟩ :: h) (call.leaves s q.profile) :=
        Tallied.next (fun hinq => ⟨(ih hq hinq).count, (ih hq hinq).few⟩) hin'
      rw [← hleft] at hnext
      exact ⟨hnext.count, hnext.few⟩

/-! ## the timer -/

/-- Who is surrendered by the timer is told so. -/
theorem handleTurnTimeout_reports (hids : (s.players.map (·.id)).Nodup) (hp : p ∈ s.players)
    (nowMs : Int) :
    Ensures (handleTurnTimeout s nowMs) fun r =>
      (.playerSurrendered p.id p.displayName "afk" ∈ r.2 ↔ isTurnExpired s nowMs = true ∧
        s.turn.currentPlayerId = p.id ∧ maxAfkStrikes ≤ p.afkStrikes + 1) := by
  by_cases hexpired : isTurnExpired s nowMs = true
  · by_cases hcurrent : p.id = s.turn.currentPlayerId
    · rw [handleTurnTimeout_due hids hp hcurrent hexpired]
      simp only [sat_ite, sat_map]
      refine ⟨fun hmax => ?_, fun hmax => ?_⟩
      · refine ensures_iff.mpr fun _ _ => iff_of_true List.mem_cons_self ?_
        exact ⟨hexpired, hcurrent.symm, hmax⟩
      · exact ensures_iff.mpr fun _ _ => iff_of_false (by simp) fun h => hmax h.2.2
    · suffices hother : Ensures (handleTurnTimeout s nowMs) fun r =>
          (.playerSurrendered p.id p.displayName "afk") ∉ r.2 from
        hother.imp fun _ hno => iff_of_false hno fun h => hcurrent h.2.1.symm
      unfold handleTurnTimeout
      simp only [hexpired, Bool.not_true, Bool.false_eq_true, if_false]
      refine .after fun _ _ => .after fun _ _ => ?_
      simp only [sat_ite]
      refine ⟨fun _ => .after fun _ _ => ?_, fun _ => .after fun _ _ => ?_⟩
      · simp [hcurrent]
      · simp
  · rw [handleTurnTimeout, if_pos (by simpa using hexpired)]
    exact iff_of_false List.not_mem_nil fun h => hexpired h.1

/-- The timer takes the player out who has two strikes when it runs out on
them, and nobody else. -/
theorem eliminates_timeout_iff (hids : (s.players.map (·.id)).Nodup) (hp : p ∈ s.players)
    (hin : p.isBankrupt = false) (hcall : Accepted s ⟨.turnTimeout, env⟩ s') :
    Eliminates ⟨s, ⟨.turnTimeout, env⟩, s'⟩ p.id ↔
      TimesOut p.id ⟨s, ⟨.turnTimeout, env⟩, s'⟩ ∧ maxAfkStrikes ≤ p.afkStrikes + 1 := by
  obtain ⟨q, hq, hid, hleft⟩ := hcall.profile_left hids hp
  have hids' : (s'.players.map (·.id)).Nodup := by
    rw [hcall.ids hids]
    exact hids
  have hout : Eliminates ⟨s, ⟨.turnTimeout, env⟩, s'⟩ p.id ↔ q.profile.isBankrupt = true := by
    refine ⟨fun h => ?_, fun h => ⟨⟨p, hp, rfl, hin⟩, q, hq, hid, h⟩⟩
    obtain ⟨-, r, hr, hrid, hrout⟩ := h
    obtain rfl : r = q := eq_of_key_eq PlayerState.id hids' hr hq (hrid.trans hid.symm)
    exact hrout
  have hother : (GameCommand.turnTimeout).player ≠ some p.profile.id := fun h => by cases h
  rw [hout, hleft, Call.leaves, if_neg hother, marks_of_other s' hother]
  have hkept : ¬p.isBankrupt = true := by
    rw [hin]
    decide
  by_cases hexpires : TimesOut p.id ⟨s, ⟨.turnTimeout, env⟩, s'⟩
  · rw [if_pos (show TimesOut p.profile.id _ from hexpires), PlayerState.timedOut]
    by_cases hmax : maxAfkStrikes ≤ p.afkStrikes + 1
    · rw [if_pos ⟨hmax, hin⟩]
      exact iff_of_true rfl ⟨hexpires, hmax⟩
    · rw [if_neg fun h => hmax h.1]
      exact iff_of_false hkept fun h => hmax h.2
  · rw [if_neg (show ¬TimesOut p.profile.id _ from hexpires)]
    exact iff_of_false hkept fun h => hexpires h.1

/-- The timer runs out on a player for the third time since they last gave a
command exactly when it finds them with two strikes. -/
theorem timeoutsOf_third {t : Taken GameState Call} (hcommand : t.label.command = .turnTimeout)
    (htally : Tallied h p) :
    TimesOut p.id t ∧ maxAfkStrikes ≤ p.afkStrikes + 1 ↔ timeoutsOf p.id (t :: h) = 3 := by
  obtain ⟨hcount, hfew⟩ := htally
  have hother : t.label.command.player ≠ some p.id := by
    rw [hcommand]
    exact fun h => by cases h
  rw [timeoutsOf_next hother, ← hcount]
  rw [maxAfkStrikes] at hfew ⊢
  by_cases hexpires : TimesOut p.id t
  · rw [if_pos hexpires]
    exact ⟨fun h => by omega, fun h => ⟨hexpires, by omega⟩⟩
  · rw [if_neg hexpires]
    exact iff_of_false (fun h => hexpires h.1) (by omega)

/-- At any time the strikes of a player who is in the game count the timers
that ran out on them since they last gave a command, and are at most two; and
a timer surrenders the player, and says so, exactly when it is the third. -/
theorem afk_strikes_count (hplay : Play h s) (hp : p ∈ s.players) (hin : p.isBankrupt = false) :
    p.afkStrikes = timeoutsOf p.id h ∧ p.afkStrikes ≤ 2 ∧
    ∀ (env : Env) (s' : GameState) (events : List GameEvent) (rng : Rng),
      apply s .turnTimeout env = .ok ((s', events), rng) →
      (Eliminates ⟨s, ⟨.turnTimeout, env⟩, s'⟩ p.id ↔
        timeoutsOf p.id (⟨s, ⟨.turnTimeout, env⟩, s'⟩ :: h) = 3) ∧
      (.playerSurrendered p.id p.displayName "afk" ∈ events ↔
        timeoutsOf p.id (⟨s, ⟨.turnTimeout, env⟩, s'⟩ :: h) = 3) := by
  have htally := hplay.tallied hp hin
  have hids := (Play.formed hplay).1.playerIds
  refine ⟨htally.count, Nat.le_of_lt_succ htally.few, fun env s' events rng happly => ?_⟩
  rw [← timeoutsOf_third rfl htally]
  refine ⟨eliminates_timeout_iff hids hp hin ⟨events, rng, happly⟩, ?_⟩
  obtain ⟨-, m, hdispatch, -⟩ := apply_parts happly
  have hreports : Ensures (dispatch s .turnTimeout env) fun r =>
      (.playerSurrendered p.id p.displayName "afk" ∈ r.1.2 ↔
        isTurnExpired s env.clock.nowMs = true ∧ s.turn.currentPlayerId = p.id ∧
          maxAfkStrikes ≤ p.afkStrikes + 1) :=
    sat_map.mpr (handleTurnTimeout_reports hids hp env.clock.nowMs)
  rw [hreports.of_ok hdispatch, TimesOut]
  simp only [true_and, and_assoc]

/-- At a table of two the timer runs out on everybody; the fifth time is the
third for the first player. -/
theorem afk_strikes_count_third : ∃ h s s' p env, Play h s ∧ p ∈ s.players ∧ p.id = 1 ∧
    p.afkStrikes = 2 ∧ Accepted s ⟨.turnTimeout, env⟩ s' ∧
    Eliminates ⟨s, ⟨.turnTimeout, env⟩, s'⟩ p.id := by
  obtain ⟨h, s₂, hplay, hlabels, hcheck⟩ := play_of_reaches (duo 1500)
    ([callAt 1000000 [] .turnTimeout, callAt 2000000 [] .turnTimeout,
      callAt 3000000 [] .turnTimeout] ++
      [callAt 4000000 [] .turnTimeout, callAt 5000000 [] .turnTimeout])
    (fun h _ => decide (timeoutsOf 1 h = 3 ∧ timeoutsOf 1 h.tail = 2) && h.head?.any fun t =>
      t.before.players.any fun p => decide (p.id = 1 ∧ p.isBankrupt = false))
    (by decide) (by decide +kernel)
  obtain ⟨h₀, s, s₁, rfl, hplay₀, ha₁, happly⟩ := last_two_of_play hplay hlabels
  obtain ⟨hcounts, hany⟩ := Bool.and_eq_true_iff.mp hcheck
  obtain ⟨hthree, htwo⟩ := of_decide_eq_true hcounts
  obtain ⟨p, hp, hplayer⟩ := List.any_eq_true.mp hany
  obtain ⟨hid, hin⟩ := of_decide_eq_true hplayer
  obtain ⟨events, rng, happly⟩ := happly
  obtain ⟨hcount, -, htimer⟩ := afk_strikes_count (hplay₀.next ha₁) hp hin
  rw [hid] at hcount htimer
  exact ⟨_, s₁, s₂, p, _, hplay₀.next ha₁, hp, hid, hcount.trans htwo, ⟨events, rng, happly⟩,
    hid ▸ (htimer _ _ _ _ happly).1.mpr hthree⟩

end Law

end Monopoly
