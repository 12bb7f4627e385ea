import Monopoly.Spec.Estates
import Monopoly.Spec.Play

/-!
# Monopoly.Spec.Rounds

What a call does to the table and to the turn.  Most calls leave both alone;
`EndTurn` and the turn timer pass the turn on to the next player who is in
the game, and a bankruptcy or a surrender takes one player out.  Of the
profiles of the players a call changes one at most: somebody goes out, is
struck by the timer, or acts and loses their strikes.
-/

namespace Monopoly

/-- The command ends a turn or takes a player out of the game. -/
def GameCommand.EndsTurn (s : GameState) (env : Env) : GameCommand → Prop
  | .endTurn _ | .declareBankruptcy _ | .surrender _ => True
  | .turnTimeout => isTurnExpired s env.clock.nowMs = true
  | _ => False

/-- The ids of the players who are in the game, round the table. -/
def activeIds (s : GameState) : List PlayerId := (survivors s.players).map (·.id)

/-- The player once out of the game. -/
def PlayerState.retired (turnNumber : Nat) (p : PlayerState) : PlayerState :=
  { p with isBankrupt := true, eliminatedAt := some turnNumber }

/-- The player with one more strike. -/
def PlayerState.struck (p : PlayerState) : PlayerState :=
  { p with afkStrikes := p.afkStrikes + 1 }

/-- The player with no strikes. -/
def PlayerState.unstruck (p : PlayerState) : PlayerState :=
  { p with afkStrikes := 0 }

/-- The seat once the player with the id is out. -/
def Seating.without (pid : PlayerId) (r : Seating) : Seating :=
  if r.id = pid then { r with isBankrupt := true } else r

section Standings

variable {s s' m : GameState} {p : PlayerState} {command : GameCommand} {env : Env} {i j : Nat}

/-- Who is still in the game is read off the roster alone. -/
theorem activeIds_eq (s : GameState) :
    activeIds s = (s.roster.filter fun r => !r.isBankrupt).map (·.id) := by
  rw [activeIds, survivors_eq, GameState.roster, rosterOf, List.filter_map, List.map_map]
  rfl

theorem activeIds_of_roster (h : s'.roster = s.roster) : activeIds s' = activeIds s := by
  rw [activeIds_eq, activeIds_eq, h]

theorem ids_roster (s : GameState) : s.roster.map (·.id) = s.players.map (·.id) := List.map_map

theorem ids_of_roster (h : s'.roster = s.roster) :
    s'.players.map (·.id) = s.players.map (·.id) := by
  rw [← ids_roster, h, ids_roster]

/-- Nobody stands twice in the order of play. -/
theorem nodup_activeIds (hids : (s.players.map (·.id)).Nodup) : (activeIds s).Nodup :=
  hids.sublist (List.filter_sublist.map _)

theorem mem_activeIds {pid : PlayerId} :
    pid ∈ activeIds s ↔ ∃ p ∈ s.players, p.id = pid ∧ p.isBankrupt = false := by
  simp only [activeIds, survivors, List.mem_map, List.mem_filter, decide_eq_true_eq,
    Bool.not_eq_true]
  constructor
  · rintro ⟨p, ⟨hp, hin⟩, hid⟩
    exact ⟨p, hp, hid, hin⟩
  · rintro ⟨p, hp, hid, hin⟩
    exact ⟨p, ⟨hp, hin⟩, hid⟩

/-! ## the end of a call -/

/-- The end of a call changes no seat of the roster. -/
theorem Tidied.roster (h : Tidied s s') : s'.roster = s.roster := by
  cases h with
  | mk hps => exact rosterOf_of_seats hps

theorem standing_resetActor (m : GameState) (command : GameCommand) :
    (resetActor m command).standing = m.standing := by
  have hroster : (resetActor m command).roster = m.roster :=
    (tidied_resetActor m command).roster
  have hturn : (resetActor m command).turn = m.turn := by
    unfold resetActor
    split <;> rfl
  rw [GameState.standing, GameState.standing, hroster, hturn]

/-- The strikes are all that the end of a call changes of the lineup. -/
theorem finishCommand_lineup (s : GameState) (command : GameCommand) (env : Env) (m : GameState)
    (events : List GameEvent) :
    Ensures (finishCommand s command env m events) fun s' =>
      s'.lineup = (resetActor m command).lineup := by
  unfold finishCommand
  simp only [sat_ite]
  refine ⟨fun _ => .after fun _ _ => rfl, fun _ => ?_⟩
  have hcard : (clearActiveCard s (resetActor m command) command).lineup =
      (resetActor m command).lineup := by
    unfold clearActiveCard
    split <;> rfl
  refine (trySettleDebt_ground _).seq fun a ha => .after fun _ _ => ?_
  exact (checkWinCondition_lineup a).trans ((lineup_of_ground ha).trans hcard)

/-- What follows every handler changes neither the roster nor whose turn it is.
-/
theorem finishCommand_standing (s : GameState) (command : GameCommand) (env : Env) (m : GameState)
    (events : List GameEvent) :
    Ensures (finishCommand s command env m events) fun s' => s'.standing = m.standing :=
  (finishCommand_lineup s command env m events).imp fun _ h =>
    (standing_of_lineup h).trans (standing_resetActor m command)

/-! ## calls within a turn -/

/-- A command that does not end the turn leaves the lineup alone. -/
theorem dispatch_lineup (hwithin : ¬command.EndsTurn s env) :
    Ensures (dispatch s command env) fun r => r.1.1.lineup = s.lineup := by
  cases command with
  | rollDice pid =>
      exact (handleRollDice_ground s pid _ _ _).imp fun _ h => lineup_of_ground h
  | buyProperty pid pos => exact sat_map.mpr (handleBuyProperty_lineup s pid pos)
  | passBuy pid =>
      refine sat_map.mpr ?_
      exact .after fun _ _ => .after fun _ _ => .after fun _ _ => .after fun _ _ => rfl
  | endTurn pid => exact absurd trivial hwithin
  | payJailFine pid => exact sat_map.mpr (handlePayJailFine_lineup s pid _)
  | useJailCard pid => exact sat_map.mpr (handleUseJailCard_lineup s pid)
  | buildHouse pid pos =>
      exact sat_map.mpr (.after fun _ _ => (buildHouse_lineup s pid pos).seq fun _ h => h)
  | sellHouse pid pos =>
      exact sat_map.mpr (.after fun _ _ => (sellHouse_lineup s pid pos).seq fun _ h => h)
  | mortgage pid pos =>
      exact sat_map.mpr (.after fun _ _ => (mortgageProperty_lineup s pid pos).seq fun _ h => h)
  | unmortgage pid pos =>
      exact sat_map.mpr (.after fun _ _ => (unmortgageProperty_lineup s pid pos).seq fun _ h => h)
  | proposeTrade pid target offer request =>
      exact sat_map.mpr ((proposeTrade_lineup s pid target offer request _ _).seq fun _ h => h)
  | respondTrade pid tradeId response counter =>
      exact sat_map.mpr ((respondTrade_lineup s pid tradeId response counter _).seq fun _ h => h)
  | placeBid pid amount => exact sat_map.mpr ((placeBid_lineup s pid amount).seq fun _ h => h)
  | declareBankruptcy pid => exact absurd trivial hwithin
  | surrender pid => exact absurd trivial hwithin
  | turnTimeout =>
      refine sat_map.mpr ?_
      rw [handleTurnTimeout, if_pos (by simpa [GameCommand.EndsTurn] using hwithin)]
      rfl
  | advanceAuction =>
      refine sat_map.mpr ?_
      simp only [sat_ite]
      exact ⟨fun _ => rfl, fun _ => (resolveAuction_lineup s).seq fun _ h => h⟩
  | expireTrade =>
      refine sat_map.mpr ?_
      cases s.trade with
      | none => rfl
      | some trade =>
          simp only [sat_ite]
          exact ⟨fun _ => rfl, fun _ => expireTrade_lineup s⟩

/-- The same of roster and turn together. -/
theorem dispatch_standing (hwithin : ¬command.EndsTurn s env) :
    Ensures (dispatch s command env) fun r => r.1.1.standing = s.standing :=
  (dispatch_lineup hwithin).imp fun _ h => standing_of_lineup h

/-! ## passing the turn on -/

/-- The turn has gone from the `j`-th player who is in the game to the next,
and past the last of them into a new round. -/
structure HandedOn (s : GameState) (j : Nat) (s' : GameState) : Prop where
  roster : s'.roster = s.roster
  current : (activeIds s)[(j + 1) % (activeIds s).length]? = some s'.turn.currentPlayerId
  number : s'.turn.turnNumber = s.turn.turnNumber + 1
  round : s'.turn.roundNumber =
    s.turn.roundNumber + if (j + 1) % (activeIds s).length ≤ j then 1 else 0

theorem HandedOn.of_standing (h : HandedOn s j m) (hs : s'.standing = m.standing) :
    HandedOn s j s' := by
  have hroster : s'.roster = m.roster := congrArg Standing.roster hs
  have hcurrent : s'.turn.currentPlayerId = m.turn.currentPlayerId :=
    congrArg Standing.currentPlayerId hs
  have hnumber : s'.turn.turnNumber = m.turn.turnNumber := congrArg Standing.turnNumber hs
  have hround : s'.turn.roundNumber = m.turn.roundNumber := congrArg Standing.roundNumber hs
  exact ⟨hroster.trans h.roster, hcurrent ▸ h.current, hnumber.trans h.number,
    hround.trans h.round⟩

theorem HandedOn.of_start (h : HandedOn m j s') (hroster : m.roster = s.roster)
    (hturn : m.turn = s.turn) : HandedOn s j s' := by
  obtain ⟨hroster', hcurrent, hnumber, hround⟩ := h
  rw [activeIds_of_roster hroster] at hcurrent hround
  rw [hturn] at hnumber hround
  exact ⟨hroster'.trans hroster, hcurrent, hnumber, hround⟩

/-- `hand_on` to the next player around the table who is in the game is a step
to the next index of the order of play. -/
theorem handOn_hands (hids : (s.players.map (·.id)).Nodup) (hi : s.players[i]? = some p)
    (hin : p.isBankrupt = false) (hj : (activeIds s)[j]? = some p.id) :
    HandedOn s j (handOn s (nextAround inGame s.players i)) := by
  have hactive : inGame p = true := by rw [inGame, hin]; rfl
  have hplace := getElem?_filter_countP hi hactive
  obtain ⟨hlt, hpj⟩ := List.getElem?_eq_some_iff.mp hj
  have hlen : (activeIds s).length = (s.players.filter inGame).length := by
    rw [activeIds, survivors_eq, List.length_map]
  obtain ⟨hlt', -⟩ := List.getElem?_eq_some_iff.mp hplace
  obtain rfl : (s.players.take i).countP inGame = j := by
    have hat : (activeIds s)[(s.players.take i).countP inGame]? = some p.id := by
      rw [activeIds, survivors_eq, List.getElem?_map, hplace]
      rfl
    obtain ⟨hlt'', hat'⟩ := List.getElem?_eq_some_iff.mp hat
    exact (nodup_activeIds hids).getElem_inj_iff.mp (hat'.trans hpj.symm)
  obtain ⟨next, hnext, haround⟩ := nextAround_true hlt'
  rw [nextAround_filter hi hactive, haround]
  refine ⟨rfl, ?_, rfl, ?_⟩
  · rw [hlen, activeIds, survivors_eq, List.getElem?_map, hnext]
    rfl
  · rw [hlen]
    show s.turn.roundNumber + _ = _
    simp

/-- An accepted `EndTurn` hands the turn on to the next in the order of play.
-/
theorem handleEndTurn_hands (hids : (s.players.map (·.id)).Nodup) (hp : p ∈ s.players)
    (hcurrent : p.id = s.turn.currentPlayerId) (hin : p.isBankrupt = false)
    (hj : (activeIds s)[j]? = some s.turn.currentPlayerId) (pid : PlayerId) :
    Ensures (handleEndTurn s pid) fun r => HandedOn s j r.1 := by
  obtain ⟨i, hi⟩ := List.mem_iff_getElem?.mp hp
  refine (handleEndTurn_eq hids hi hcurrent hin pid).imp fun r hr => ?_
  rw [hr]
  exact handOn_hands hids hi hin (hcurrent ▸ hj)

/-! ## leaving the game -/

/-- Passing the turn off a player changes no profile. -/
theorem advanceTurnOffPlayer_profiles (s : GameState) (pid : PlayerId) :
    Ensures (advanceTurnOffPlayer s pid) fun s' => s'.profiles = s.profiles := by
  refine .after fun start _ => .after fun next _ => ?_
  cases next <;> rfl

theorem distributeFrom_profiles (pid : PlayerId) (share remainder : Int) (n : Nat)
    (players : List PlayerState) :
    profilesOf (distributeFrom pid share remainder n players) = profilesOf players := by
  induction players generalizing n with
  | nil => rfl
  | cons p rest ih =>
      unfold distributeFrom
      split
      · exact congrArg (p.profile :: ·) (ih (n + 1))
      · exact congrArg (p.profile :: ·) (ih n)

theorem splitCash_profiles (players : List PlayerState) (pid : PlayerId) (cash : Int) :
    profilesOf (splitCash players pid cash) = profilesOf players := by
  simp only [splitCash]
  split
  · exact distributeFrom_profiles _ _ _ _ _
  · rfl

theorem transferToCreditor_profile (mode : GameMode) (creditorId : PlayerId) (posns : List Nat)
    (spaces : List SpaceOwnership) (creditor : PlayerState) :
    Ensures (transferToCreditor mode creditorId posns spaces creditor) fun r =>
      r.2.profile = creditor.profile := by
  induction posns generalizing spaces creditor with
  | nil => rfl
  | cons pos rest ih =>
      refine .after fun ownership _ => .after fun spaces _ => ?_
      simp only [sat_ite]
      exact ⟨fun _ => .after fun _ _ => ih _ _, fun _ => ih _ _⟩

/-- Dividing up an estate changes no profile: it moves cash, titles and cards.
-/
theorem settleAssets_profiles (s : GameState) (debtor : PlayerState) (debt : BankruptcyState) :
    Ensures (settleAssets s debtor debt) fun settled =>
      profilesOf settled.players = s.profiles := by
  unfold settleAssets
  cases debt.creditorId with
  | none => exact .after fun _ _ => rfl
  | some creditorId =>
      refine .after fun creditor hcreditor => ?_
      obtain ⟨hlisted, rfl⟩ := listed_of_getPlayer hcreditor
      refine (transferToCreditor_profile _ _ _ _ _).seq fun r hr => ?_
      have hpaid : r.2.profile = creditor.profile := hr
      rw [← id_eq_of_profile hpaid]
      refine (assignPlayer_profiles (v := { r.2 with
        ownedPositions := pySortedSet (creditor.ownedPositions ++ debtor.ownedPositions)
        getOutOfJailCards := creditor.getOutOfJailCards + debtor.getOutOfJailCards }) ?_).seq
        fun _ h => h
      exact Listed.reseated hlisted hpaid

theorem ids_profilesOf (players : List PlayerState) :
    (profilesOf players).map (·.id) = players.map (·.id) := List.map_map

/-- The record of the player at the index is replaced by one who is out. -/
theorem profilesOf_set_retired {players players' : List PlayerState} {v : PlayerState} {n : Nat}
    (hids : (players.map (·.id)).Nodup) (hi : players[i]? = some p)
    (hkept : profilesOf players' = profilesOf players) (hv : v.profile = p.profile.retired n) :
    profilesOf (players'.set i v) = editSeat p.id (·.retired n) (profilesOf players) := by
  have hget : (profilesOf players)[i]? = some p.profile := by
    rw [profilesOf, List.getElem?_map, hi, Option.map_some]
  have hids' : ((profilesOf players).map (·.id)).Nodup := by
    rw [ids_profilesOf]
    exact hids
  rw [profilesOf, List.map_set, hv]
  show (profilesOf players').set i _ = _
  rw [hkept]
  exact set_eq_editAt PlayerState.id hids' hget _

/-- Going out takes the player out of the roster and leaves the others where
they are. -/
theorem roster_retired {pid : PlayerId} {n : Nat}
    (h : s'.profiles = editSeat pid (·.retired n) s.profiles) :
    s'.roster = s.roster.map (Seating.without pid) := by
  rw [GameState.roster, ← rosterOf_profilesOf, show profilesOf s'.players = _ from h, rosterOf,
    editSeat, editAt, List.map_map, GameState.profiles, profilesOf, List.map_map, GameState.roster,
    rosterOf, List.map_map]
  refine List.map_congr_left fun q _ => ?_
  by_cases hq : q.id = pid
  · simp [Function.comp, PlayerState.seating, PlayerState.profile, Seating.without,
      PlayerState.retired, hq]
  · simp [Function.comp, PlayerState.seating, PlayerState.profile, Seating.without, hq]

/-- A surrender changes one profile, that of the player who goes out. -/
theorem resolveSurrender_profiles (hids : (s.players.map (·.id)).Nodup) (hp : p ∈ s.players)
    (hin : p.isBankrupt = false) :
    Ensures (resolveSurrender s p.id) fun m =>
      m.profiles = editSeat p.id (·.retired s.turn.turnNumber) s.profiles := by
  have hget : getPlayerByIdFromState s p.id = .ok p := getPlayerById_eq hids hp
  obtain ⟨i, hi, hgi⟩ := nextPlayerIdx_eq hids hp
  simp only [resolveSurrender, hget, hi, ok_bind, hin, Bool.false_eq_true, if_false]
  refine .after fun cleared _ => (refreshAllNetWorth_profiles _ _ _).seq fun ps hps => ?_
  have hout := hps.trans (profilesOf_set_retired (n := s.turn.turnNumber) hids hgi
    (splitCash_profiles s.players p.id p.balance) rfl)
  have hwon := fun e : GameState => congrArg Lineup.profiles (checkWinCondition_lineup e)
  simp only [sat_ite, sat_pure]
  refine ⟨fun _ => (hwon _).trans hout, fun _ => ⟨fun _ => ?_, fun _ => (hwon _).trans hout⟩⟩
  exact (advanceTurnOffPlayer_profiles _ _).imp fun _ h => h.trans ((hwon _).trans hout)

/-- A bankruptcy changes one profile, that of the debtor. -/
theorem resolveBankruptcy_profiles {debt : BankruptcyState}
    (hids : (s.players.map (·.id)).Nodup) (hdebt : s.bankruptcy = some debt)
    (hdebtor : debt.debtorId = p.id) (hp : p ∈ s.players) :
    Ensures (resolveBankruptcy s p.id) fun m =>
      m.profiles = editSeat p.id (·.retired s.turn.turnNumber) s.profiles := by
  have hget : getPlayerByIdFromState s p.id = .ok p := getPlayerById_eq hids hp
  obtain ⟨i, hi, hgi⟩ := nextPlayerIdx_eq hids hp
  unfold resolveBankruptcy
  simp only [hdebt, hdebtor, ne_eq, not_true_eq_false, if_false, hget, hi, ok_bind]
  refine (settleAssets_profiles s p debt).seq fun settled hsettled => ?_
  refine (refreshAllNetWorth_profiles _ _ _).seq fun ps hps => ?_
  have hout := hps.trans (profilesOf_set_retired (n := s.turn.turnNumber) hids hgi hsettled rfl)
  have hwon := fun e : GameState => congrArg Lineup.profiles (checkWinCondition_lineup e)
  simp only [afterElimination, sat_ite, sat_pure]
  refine ⟨fun _ => (hwon _).trans hout, fun _ => ?_⟩
  exact (advanceTurnOffPlayer_profiles _ _).imp fun _ h => h.trans ((hwon _).trans hout)

theorem handleDeclareBankruptcy_profiles (hids : (s.players.map (·.id)).Nodup) (pid : PlayerId) :
    Ensures (handleDeclareBankruptcy s pid) fun r =>
      r.1.profiles = editSeat pid (·.retired s.turn.turnNumber) s.profiles := by
  unfold handleDeclareBankruptcy
  cases hdebt : s.bankruptcy with
  | none => trivial
  | some debt =>
      refine .guard fun hdebtor => ?_
      by_cases hseated : ∃ p ∈ s.players, p.id = pid
      · obtain ⟨p, hp, rfl⟩ := hseated
        exact (resolveBankruptcy_profiles hids hdebt (not_not.mp hdebtor) hp).seq fun _ h => h
      · have hoff : getPlayerByIdFromState s pid = .error .keyError :=
          getPlayerById_off fun p hp hid => hseated ⟨p, hp, hid⟩
        rw [resolveBankruptcy, hdebt]
        simp only [hdebtor, if_false, hoff, error_bind]
        trivial

theorem handleSurrender_profiles (hids : (s.players.map (·.id)).Nodup) (pid : PlayerId) :
    Ensures (handleSurrender s pid) fun r =>
      r.1.profiles = editSeat pid (·.retired s.turn.turnNumber) s.profiles := by
  refine .after fun p hplayer => .guard fun hin => ?_
  obtain ⟨hp, rfl⟩ := getPlayer_found hplayer
  exact (resolveSurrender_profiles hids hp (by simpa using hin)).seq fun _ h => h

/-! ## the turn timer -/

/-- The current player has one more strike. -/
def GameState.strike (s : GameState) : GameState :=
  { s with players := editSeat s.turn.currentPlayerId PlayerState.struck s.players }

/-- A timer that has run out. -/
theorem handleTurnTimeout_due (hids : (s.players.map (·.id)).Nodup) (hp : p ∈ s.players)
    (hcurrent : p.id = s.turn.currentPlayerId) {nowMs : Int}
    (hexpired : isTurnExpired s nowMs = true) :
    handleTurnTimeout s nowMs =
      if maxAfkStrikes ≤ p.afkStrikes + 1 then
        (resolveSurrender s.strike p.id).map
          (·, [.playerSurrendered p.id p.displayName "afk"])
      else (advanceTurnOffPlayer s.strike p.id).map
        (·, [.turnTimedOut p.id p.displayName (p.afkStrikes + 1)]) := by
  have hget : getPlayerByIdFromState s p.id = .ok p := getPlayerById_eq hids hp
  have hassign : assignPlayer s.players p.id p.struck =
      .ok (editSeat p.id PlayerState.struck s.players) := assignPlayer_eq hids hp _
  unfold handleTurnTimeout
  simp only [hexpired, Bool.not_true, Bool.false_eq_true, if_false]
  rw [← hcurrent, hget, ok_bind]
  show (assignPlayer s.players p.id p.struck >>= _) = _
  rw [hassign, ok_bind, GameState.strike, ← hcurrent]
  rfl

theorem profiles_strike (s : GameState) :
    s.strike.profiles = editSeat s.turn.currentPlayerId PlayerState.struck s.profiles :=
  profilesOf_editSeat fun _ => rfl

theorem roster_strike (s : GameState) : s.strike.roster = s.roster := by
  simp only [GameState.roster, GameState.strike, rosterOf, editSeat, editAt, List.map_map,
    List.map_inj_left, Function.comp]
  intro q _
  split <;> rfl

theorem ids_strike (hids : (s.players.map (·.id)).Nodup) : (s.strike.players.map (·.id)).Nodup := by
  rw [ids_of_roster (roster_strike s)]
  exact hids

theorem struck_mem (hp : p ∈ s.players) (hcurrent : p.id = s.turn.currentPlayerId) :
    p.struck ∈ s.strike.players :=
  mem_editSeat.mpr ⟨p, hp, if_pos hcurrent⟩

/-- A timer that has run out passes the turn on or takes the current player
out. -/
theorem handleTurnTimeout_hands (hids : (s.players.map (·.id)).Nodup) (hp : p ∈ s.players)
    (hcurrent : p.id = s.turn.currentPlayerId) (hin : p.isBankrupt = false)
    (hj : (activeIds s)[j]? = some s.turn.currentPlayerId) {nowMs : Int}
    (hexpired : isTurnExpired s nowMs = true) :
    Ensures (handleTurnTimeout s nowMs) fun r =>
      HandedOn s j r.1 ∨ r.1.roster = s.roster.map (Seating.without s.turn.currentPlayerId) := by
  have hids' := ids_strike hids
  have hp' := struck_mem hp hcurrent
  rw [handleTurnTimeout_due hids hp hcurrent hexpired, ← hcurrent]
  simp only [sat_ite, sat_map]
  refine ⟨fun _ => ?_, fun _ => ?_⟩
  · refine (resolveSurrender_profiles hids' hp' hin).imp fun m hm => .inr ?_
    rw [roster_retired hm, roster_strike]
    rfl
  · obtain ⟨i, hi⟩ := List.mem_iff_getElem?.mp hp'
    have hhands : HandedOn s.strike j (handOn s.strike (nextAround inGame s.strike.players i)) :=
      handOn_hands hids' hi hin (by
        rw [activeIds_of_roster (roster_strike s)]
        exact hcurrent ▸ hj)
    have hadvance : advanceTurnOffPlayer s.strike p.id = _ :=
      advanceTurnOffPlayer_eq (p := p.struck) hids' hi
    rw [hadvance]
    exact .inl (hhands.of_start (roster_strike s) rfl)

/-! ## what a call leaves of the players -/

/-- The player once the timer has run out on them: the third strike of one
who is in the game takes them out. -/
def PlayerState.timedOut (turnNumber : Nat) (p : PlayerState) : PlayerState :=
  if maxAfkStrikes ≤ p.afkStrikes + 1 ∧ p.isBankrupt = false then p.struck.retired turnNumber
  else p.struck

/-- What the handler of a command does to the profile of a player. -/
def GameCommand.marks (s : GameState) (env : Env) (command : GameCommand) (p : PlayerState) :
    PlayerState :=
  match command with
  | .declareBankruptcy pid | .surrender pid =>
      if p.id = pid then p.retired s.turn.turnNumber else p
  | .turnTimeout =>
      if isTurnExpired s env.clock.nowMs = true then
        if p.id = s.turn.currentPlayerId then p.timedOut s.turn.turnNumber else p
      else p
  | _ => p

theorem editSeat_profiles_congr (hids : (s.players.map (·.id)).Nodup) (hp : p ∈ s.players)
    {f g : PlayerState → PlayerState} (hfg : f p.profile = g p.profile) :
    editSeat p.id f s.profiles = editSeat p.id g s.profiles := by
  have hids' : (s.profiles.map (·.id)).Nodup := by
    rw [GameState.profiles, ids_profilesOf]
    exact hids
  exact editAt_congr PlayerState.id hids' (List.mem_map_of_mem hp) hfg

/-- The turn timer changes one profile, that of the player in turn: one strike
more, or out. -/
theorem handleTurnTimeout_profiles (hids : (s.players.map (·.id)).Nodup) {nowMs : Int}
    (hexpired : isTurnExpired s nowMs = true) :
    Ensures (handleTurnTimeout s nowMs) fun r =>
      r.1.profiles = editSeat s.turn.currentPlayerId (·.timedOut s.turn.turnNumber) s.profiles := by
  by_cases hseated : ∃ p ∈ s.players, p.id = s.turn.currentPlayerId
  · obtain ⟨p, hp, hcurrent⟩ := hseated
    have hids' := ids_strike hids
    have hp' := struck_mem hp hcurrent
    rw [handleTurnTimeout_due hids hp hcurrent hexpired]
    have hstruck := profiles_strike s
    rw [← hcurrent] at hstruck ⊢
    -- with the strike alone the player is still in the game, or was out before
    have hkept : ¬(maxAfkStrikes ≤ p.afkStrikes + 1 ∧ p.isBankrupt = false) →
        s.strike.profiles = editSeat p.id (·.timedOut s.turn.turnNumber) s.profiles := by
      intro h
      rw [hstruck]
      exact editSeat_profiles_congr hids hp (if_neg h).symm
    simp only [sat_ite, sat_map]
    refine ⟨fun hmax => ?_, fun hmax => ?_⟩
    · by_cases hin : p.isBankrupt = false
      · refine (resolveSurrender_profiles hids' hp' hin).imp fun m hm => hm.trans ?_
        rw [hstruck]
        refine (editSeat_editSeat p.id (g := PlayerState.struck) fun _ hq => hq).trans ?_
        exact editSeat_profiles_congr hids hp (if_pos ⟨hmax, hin⟩).symm
      · have hget : getPlayerByIdFromState s.strike p.id = .ok p.struck :=
          getPlayerById_eq hids' hp'
        have hout : p.isBankrupt = true := (Bool.not_eq_false p.isBankrupt).mp hin
        rw [resolveSurrender, hget, ok_bind, if_pos (show p.struck.isBankrupt = true from hout)]
        exact hkept fun h => hin h.2
    · refine (advanceTurnOffPlayer_profiles _ _).imp fun m hm => hm.trans ?_
      exact hkept fun h => hmax h.1
  · have hoff : getPlayerByIdFromState s s.turn.currentPlayerId = .error .keyError :=
      getPlayerById_off fun p hp hid => hseated ⟨p, hp, hid⟩
    simp only [handleTurnTimeout, hexpired, hoff, Bool.not_true, Bool.false_eq_true, if_false,
      error_bind]
    trivial

/-- What a command does to the profiles before the common end: `marks` says it
seat by seat. -/
theorem dispatch_profiles (hids : (s.players.map (·.id)).Nodup) (command : GameCommand)
    (env : Env) :
    Ensures (dispatch s command env) fun r =>
      r.1.1.profiles = s.profiles.map (command.marks s env) := by
  by_cases hends : command.EndsTurn s env
  · cases command with
    | endTurn pid =>
        refine sat_map.mpr ?_
        refine .after fun _ _ => .after fun _ _ => .after fun _ _ => .after fun _ _ => ?_
        exact .after fun _ _ => .after fun _ _ => .after fun _ _ => (List.map_id _).symm
    | declareBankruptcy pid => exact sat_map.mpr (handleDeclareBankruptcy_profiles hids pid)
    | surrender pid => exact sat_map.mpr (handleSurrender_profiles hids pid)
    | turnTimeout =>
        have hexpired : isTurnExpired s env.clock.nowMs = true := hends
        have hmarks : GameCommand.turnTimeout.marks s env = fun p =>
            if p.id = s.turn.currentPlayerId then p.timedOut s.turn.turnNumber else p :=
          funext fun _ => if_pos hexpired
        rw [hmarks]
        exact sat_map.mpr (handleTurnTimeout_profiles hids hexpired)
    | _ => exact absurd hends id
  · refine (dispatch_lineup hends).imp fun r hr => ?_
    have hsame : command.marks s env = id := by
      funext p
      cases command with
      | turnTimeout => exact if_neg hends
      | declareBankruptcy | surrender => exact absurd trivial hends
      | _ => rfl
    rw [hsame, List.map_id]
    exact congrArg Lineup.profiles hr

/-- Resetting strikes is an edit of the one seat. -/
theorem resetStrikes_eq {players : List PlayerState} (hids : (players.map (·.id)).Nodup)
    (pid : PlayerId) :
    resetStrikes pid players = editSeat pid PlayerState.unstruck players := by
  induction players with
  | nil => rfl
  | cons p rest ih =>
      obtain ⟨hfirst, hrest⟩ := List.nodup_cons.mp hids
      have hcons : editSeat pid PlayerState.unstruck (p :: rest) =
          (if p.id = pid then p.unstruck else p) :: editSeat pid PlayerState.unstruck rest := rfl
      rw [resetStrikes, hcons]
      split
      · rename_i h
        rw [if_pos h.1, editSeat, editAt_off fun q hq hid =>
          hfirst (List.mem_map.mpr ⟨q, hq, hid.trans h.1.symm⟩)]
        rfl
      · rename_i h
        rw [ih hrest]
        split
        · rename_i hid
          have hzero : p.afkStrikes = 0 := by
            by_contra hne
            exact h ⟨hid, hne⟩
          rw [PlayerState.unstruck, ← hzero]
        · rfl

/-- Whoever acts loses their strikes, and nobody else does. -/
theorem profiles_resetActor (hids : (m.players.map (·.id)).Nodup) (command : GameCommand) :
    (resetActor m command).profiles = m.profiles.map fun p =>
      if command.player = some p.id then p.unstruck else p := by
  unfold resetActor
  cases command.player with
  | none => simp
  | some pid =>
      show profilesOf (resetStrikes pid m.players) = _
      rw [resetStrikes_eq hids]
      refine (profilesOf_editSeat (g := PlayerState.unstruck) fun _ => rfl).trans ?_
      refine List.map_congr_left fun p _ => ?_
      simp only [Option.some.injEq, eq_comm]

@[simp] theorem marks_id (s : GameState) (env : Env) (command : GameCommand) (p : PlayerState) :
    (command.marks s env p).id = p.id := by
  unfold GameCommand.marks PlayerState.timedOut
  (repeat' split) <;> rfl

@[simp] theorem marks_userId (s : GameState) (env : Env) (command : GameCommand)
    (p : PlayerState) : (command.marks s env p).userId = p.userId := by
  unfold GameCommand.marks PlayerState.timedOut
  (repeat' split) <;> rfl

/-- What an accepted call leaves of the profile of a player: whoever acts has
no strikes. -/
def Call.leaves (call : Call) (s : GameState) (p : PlayerState) : PlayerState :=
  if call.command.player = some p.id then (call.command.marks s call.env p).unstruck
  else call.command.marks s call.env p

theorem Call.leaves_id (call : Call) (s : GameState) (p : PlayerState) :
    (call.leaves s p).id = p.id := by
  unfold Call.leaves
  split <;> exact marks_id _ _ _ _

/-- What an accepted call does to the profiles, seat by seat. -/
theorem Accepted.profiles {call : Call} (hids : (s.players.map (·.id)).Nodup)
    (h : Accepted s call s') : s'.profiles = s.profiles.map (call.leaves s) := by
  obtain ⟨-, m, events, rng, hdispatch, hfinish⟩ := h.handled
  have hm := (dispatch_profiles hids _ _).of_ok hdispatch
  have hids' : (m.players.map (·.id)).Nodup := by
    rw [← ids_profilesOf, show profilesOf m.players = _ from hm, List.map_map,
      show (fun p => p.id) ∘ call.command.marks s call.env = (·.id) from
        funext fun _ => marks_id _ _ _ _, GameState.profiles, ids_profilesOf]
    exact hids
  have hs' := congrArg Lineup.profiles ((finishCommand_lineup _ _ _ _ _).of_ok hfinish)
  have hreset := profiles_resetActor hids' call.command
  rw [hm, List.map_map] at hreset
  refine (hs'.trans hreset).trans (List.map_congr_left fun p _ => ?_)
  simp only [Function.comp, Call.leaves, marks_id]

/-- No call adds, removes or reorders players. -/
theorem Accepted.ids {call : Call} (hids : (s.players.map (·.id)).Nodup)
    (h : Accepted s call s') : s'.players.map (·.id) = s.players.map (·.id) := by
  rw [← ids_profilesOf, show profilesOf s'.players = _ from h.profiles hids, List.map_map,
    show (fun p => p.id) ∘ call.leaves s = (·.id) from funext fun _ => Call.leaves_id call s _,
    GameState.profiles, ids_profilesOf]

/-- A player after the call was there before it. -/
theorem Accepted.profile {call : Call} (hids : (s.players.map (·.id)).Nodup)
    (h : Accepted s call s') {q : PlayerState} (hq : q ∈ s'.players) :
    ∃ p ∈ s.players, p.id = q.id ∧ q.profile = call.leaves s p.profile := by
  have hmem : q.profile ∈ s'.profiles := List.mem_map_of_mem hq
  rw [h.profiles hids, GameState.profiles, profilesOf, List.map_map] at hmem
  obtain ⟨p, hp, hleft⟩ := List.mem_map.mp hmem
  refine ⟨p, hp, ?_, hleft.symm⟩
  show _ = q.profile.id
  rw [← hleft]
  exact (Call.leaves_id call s p.profile).symm

/-- A player before the call is there after it. -/
theorem Accepted.profile_left {call : Call} (hids : (s.players.map (·.id)).Nodup)
    (h : Accepted s call s') (hp : p ∈ s.players) :
    ∃ q ∈ s'.players, q.id = p.id ∧ q.profile = call.leaves s p.profile := by
  have hmem : call.leaves s p.profile ∈ s'.profiles := by
    rw [h.profiles hids]
    exact List.mem_map_of_mem (List.mem_map_of_mem hp)
  obtain ⟨q, hq, hleft⟩ := List.mem_map.mp hmem
  refine ⟨q, hq, ?_, hleft⟩
  show q.profile.id = _
  rw [hleft]
  exact Call.leaves_id call s p.profile

/-- Nobody changes their seat, whoever goes out. -/
theorem Accepted.userIds {call : Call} (hids : (s.players.map (·.id)).Nodup)
    (h : Accepted s call s') : s'.players.map (·.userId) = s.players.map (·.userId) := by
  have hview : ∀ a : GameState, a.profiles.map (·.userId) = a.players.map (·.userId) :=
    fun _ => List.map_map
  rw [← hview, h.profiles hids, List.map_map, ← hview]
  refine List.map_congr_left fun p _ => ?_
  simp only [Function.comp, Call.leaves]
  split <;> exact marks_userId _ _ _ _

/-- A call goes on with the turn, passes it on, or takes the current player
out. -/
theorem Accepted.standing {call : Call} (hids : (s.players.map (·.id)).Nodup)
    (hp : p ∈ s.players) (hcurrent : p.id = s.turn.currentPlayerId) (hin : p.isBankrupt = false)
    (hj : (activeIds s)[j]? = some s.turn.currentPlayerId) (h : Accepted s call s') :
    s'.standing = s.standing ∨ HandedOn s j s' ∨
      s'.roster = s.roster.map (Seating.without s.turn.currentPlayerId) := by
  obtain ⟨hmay, m, events, rng, hdispatch, hfinish⟩ := h.handled
  have hs' := (finishCommand_standing _ _ _ _ _).of_ok hfinish
  have hroster : s'.roster = m.roster := congrArg Standing.roster hs'
  suffices hm : m.standing = s.standing ∨ HandedOn s j m ∨
      m.roster = s.roster.map (Seating.without s.turn.currentPlayerId) by
    rcases hm with hm | hm | hm
    · exact .inl (hs'.trans hm)
    · exact .inr (.inl (hm.of_standing hs'))
    · exact .inr (.inr (hroster.trans hm))
  obtain ⟨command, env⟩ := call
  by_cases hends : command.EndsTurn s env
  · have hactor := assertMayAct_sat.of_ok hmay
    refine .inr ?_
    refine Sat.of_ok (E := fun _ => True) (Q := fun r => HandedOn s j r.1.1 ∨
      r.1.1.roster = s.roster.map (Seating.without s.turn.currentPlayerId)) ?_ hdispatch
    cases command with
    | endTurn pid =>
        exact sat_map.mpr ((handleEndTurn_hands hids hp hcurrent hin hj pid).imp fun _ h => .inl h)
    | declareBankruptcy pid =>
        rw [hactor pid rfl rfl]
        exact sat_map.mpr ((handleDeclareBankruptcy_profiles hids pid).imp fun _ h =>
          .inr (roster_retired h))
    | surrender pid =>
        rw [hactor pid rfl rfl]
        exact sat_map.mpr ((handleSurrender_profiles hids pid).imp fun _ h =>
          .inr (roster_retired h))
    | turnTimeout => exact sat_map.mpr (handleTurnTimeout_hands hids hp hcurrent hin hj hends)
    | _ => exact absurd hends id
  · exact .inl ((dispatch_standing hends).of_ok hdispatch)

end Standings

end Monopoly
