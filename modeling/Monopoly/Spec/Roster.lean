import Monopoly.Engine.Apply
import Monopoly.Spec.Table

/-!
# Monopoly.Spec.Roster

Who sits at the table, who is still in the game and whose turn it is.
Nothing is assumed of the state: a lookup finds the first player with an id,
and a record is written back where that player was found.

The module has three views of a state, each of which forgets more than the
one before.  The ground is the profiles of the players, the turn's player and
numbers, and the spaces with the bank's stock; the lineup leaves out spaces
and stock; the standing keeps of each player who they are and whether they
are out.  A view that a call leaves alone is a frame condition for everything
that depends on it: the order of turns, the count of strikes, the buildings
on the board.

Rolls keep the ground.  Buying, building, mortgaging, auctions and trades
keep the lineup.  Only the end of a turn, the turn timer, bankruptcy and
surrender change it, and they are treated in `Spec.Rounds`.
-/

namespace Monopoly

/-- A player as one of those at the table. -/
structure Seating where
  id : PlayerId
  userId : UserId
  isBankrupt : Bool
  deriving DecidableEq

/-- Who a player is and whether they are out. -/
def PlayerState.seating (p : PlayerState) : Seating := ⟨p.id, p.userId, p.isBankrupt⟩

/-- The seatings of the players, in the order of the table. -/
def rosterOf (players : List PlayerState) : List Seating := players.map PlayerState.seating

/-- The seatings of a state. -/
def GameState.roster (s : GameState) : List Seating := rosterOf s.players

/-- The table, and whose turn it is. -/
structure Standing where
  roster : List Seating
  currentPlayerId : PlayerId
  turnNumber : Nat
  roundNumber : Nat

/-- The seatings, with the turn. -/
def GameState.standing (s : GameState) : Standing :=
  ⟨s.roster, s.turn.currentPlayerId, s.turn.turnNumber, s.turn.roundNumber⟩

/-- What no move and no payment changes of a player. -/
def PlayerState.profile (p : PlayerState) : PlayerState :=
  { p with
    position := 0
    balance := 0
    ownedPositions := []
    getOutOfJailCards := 0
    jailStatus := none
    netWorth := 0 }

/-- The profiles of the players, in the order of the table. -/
def profilesOf (players : List PlayerState) : List PlayerState := players.map PlayerState.profile

/-- The profiles of a state. -/
def GameState.profiles (s : GameState) : List PlayerState := profilesOf s.players

/-- The players, and whose turn it is. -/
structure Lineup where
  profiles : List PlayerState
  currentPlayerId : PlayerId
  turnNumber : Nat
  roundNumber : Nat

/-- The profiles, with the turn. -/
def GameState.lineup (s : GameState) : Lineup :=
  ⟨s.profiles, s.turn.currentPlayerId, s.turn.turnNumber, s.turn.roundNumber⟩

/-- What no roll changes. -/
structure Ground where
  lineup : Lineup
  spaces : List SpaceOwnership
  bankHouses : Int
  bankHotels : Int

/-- The lineup, with the spaces and the stock of the bank. -/
def GameState.ground (s : GameState) : Ground :=
  ⟨s.lineup, s.spaces, s.bankHouses, s.bankHotels⟩

/-- The player who is found under the id of `p` has the profile of `p`. -/
def Listed (players : List PlayerState) (p : PlayerState) : Prop :=
  (profilesOf players).find? (fun r => decide (r.id = p.id)) = some p.profile

/-! ## writing records back -/

section Records

variable {players : List PlayerState} {p q v : PlayerState} {pid : PlayerId}
  {spaces : List SpaceOwnership} {mode : GameMode}

@[simp] theorem profilesOf_cons (p : PlayerState) (players : List PlayerState) :
    profilesOf (p :: players) = p.profile :: profilesOf players := rfl

/-- The seats say who is who and who is out, -/
theorem rosterOf_seatsOf (players : List PlayerState) :
    rosterOf (seatsOf players) = rosterOf players := List.map_map

/-- so equal seats are equal seatings. -/
theorem rosterOf_of_seats {players' : List PlayerState} (h : seatsOf players' = seatsOf players) :
    rosterOf players' = rosterOf players := by
  rw [← rosterOf_seatsOf, h, rosterOf_seatsOf]

/-- The profiles say so too, -/
theorem rosterOf_profilesOf (players : List PlayerState) :
    rosterOf (profilesOf players) = rosterOf players := List.map_map

/-- and equal profiles are equal seatings. -/
theorem rosterOf_of_profiles {players' : List PlayerState}
    (h : profilesOf players' = profilesOf players) : rosterOf players' = rosterOf players := by
  rw [← rosterOf_profilesOf, h, rosterOf_profilesOf]

/-- An edit of a player is one of the profile, if it reads the profile only. -/
theorem profilesOf_editSeat {f g : PlayerState → PlayerState}
    (hfg : ∀ p, (f p).profile = g p.profile) :
    profilesOf (editSeat pid f players) = editSeat pid g (profilesOf players) := by
  simp only [profilesOf, editSeat, editAt, List.map_map, List.map_inj_left, Function.comp]
  intro p _
  by_cases hp : p.id = pid
  · rw [if_pos hp, if_pos (show p.profile.id = pid from hp), hfg]
  · rw [if_neg hp, if_neg (show ¬p.profile.id = pid from hp)]

/-- Whoever is found by an id is a player of the table with that id: -/
theorem listed_of_find (h : players.find? (fun p => decide (p.id = pid)) = some p) :
    Listed players p ∧ p.id = pid := by
  have hpid : p.id = pid := by simpa using List.find?_some h
  refine ⟨?_, hpid⟩
  rw [Listed, profilesOf, List.find?_map, hpid]
  exact congrArg (Option.map PlayerState.profile) h

/-- by `get_player_by_id`, -/
theorem listed_of_getPlayer (h : getPlayerById players pid = .ok p) :
    Listed players p ∧ p.id = pid := by
  unfold getPlayerById at h
  cases hfind : players.find? (fun p => decide (p.id = pid)) with
  | none => simp [hfind, orRaise] at h
  | some q =>
      obtain rfl : q = p := by simpa [hfind, orRaise] using h
      exact listed_of_find hfind

/-- or by the generator expressions of the handlers. -/
theorem listed_of_next (h : pyNext (fun p => decide (p.id = pid)) players = .ok p) :
    Listed players p ∧ p.id = pid := by
  unfold pyNext at h
  cases hfind : players.find? (fun p => decide (p.id = pid)) with
  | none => simp [hfind, orRaise] at h
  | some q =>
      obtain rfl : q = p := by simpa [hfind, orRaise] using h
      exact listed_of_find hfind

/-- Being a player of the table is a matter of profiles. -/
theorem Listed.of_profiles {players' : List PlayerState} (h : Listed players p)
    (hprofiles : profilesOf players' = profilesOf players) : Listed players' p := by
  rw [Listed, hprofiles]
  exact h

/-- A record is replaced by one with the same profile. -/
theorem profilesOf_set {i : Nat} (h : (profilesOf players)[i]? = some v.profile) :
    profilesOf (players.set i v) = profilesOf players := by
  obtain ⟨hlt, hget⟩ := List.getElem?_eq_some_iff.mp h
  rw [profilesOf, List.map_set, ← hget]
  exact List.set_getElem_self hlt

/-- Two writes of players with the old profiles keep the profiles. -/
theorem profilesOf_set_set {w : PlayerState} {i j : Nat}
    (hi : (profilesOf players)[i]? = some v.profile)
    (hj : (profilesOf players)[j]? = some w.profile) :
    profilesOf ((players.set i v).set j w) = profilesOf players := by
  rw [← profilesOf_set hi] at hj
  exact (profilesOf_set hj).trans (profilesOf_set hi)

/-- A player of the table is found at an index that has their profile. -/
theorem Listed.at_index (h : Listed players v) {i : Nat}
    (hindex : players.findIdx? (fun p => decide (p.id = v.id)) = some i) :
    (profilesOf players)[i]? = some v.profile := by
  obtain ⟨r, hr, -⟩ := findIdx?_key_get hindex
  have hfind : players.find? (fun p => decide (p.id = v.id)) = some r := by
    rw [List.find?_eq_bind_findIdx?_getElem?, hindex]
    exact hr
  obtain ⟨hlisted, hid⟩ := listed_of_find hfind
  rw [Listed, hid] at hlisted
  have hsame : r.profile = v.profile := Option.some.inj (hlisted.symm.trans h)
  rw [profilesOf, List.getElem?_map, hr, Option.map_some, hsame]

/-- The same for the index of the turn order. -/
theorem Listed.at_next (h : Listed players v) {i : Nat}
    (hindex : nextPlayerIdx players v.id = .ok i) :
    (profilesOf players)[i]? = some v.profile := by
  unfold nextPlayerIdx pyNextIdx at hindex
  cases hfound : players.findIdx? (fun p => decide (p.id = v.id)) with
  | none => simp [hfound, orRaise] at hindex
  | some j =>
      obtain rfl : j = i := by simpa [hfound, orRaise] using hindex
      exact h.at_index hfound

/-- A player is written back where a player with their profile was found. -/
theorem assignPlayer_profiles (h : Listed players v) :
    Ensures (assignPlayer players v.id v) fun ps => profilesOf ps = profilesOf players :=
  .after fun _ hindex => profilesOf_set (h.at_next hindex)

/-- The same for the write of `movement.py`. -/
theorem putPlayer_profiles (h : Listed players v) :
    Ensures (putPlayer players v) fun ps => profilesOf ps = profilesOf players := by
  unfold putPlayer playerIndex
  cases hindex : players.findIdx? (fun p => decide (p.id = v.id)) with
  | none => trivial
  | some i => exact profilesOf_set (h.at_index hindex)

/-- The cache of a player is in no view that does not look at it: -/
theorem updatePlayerNetWorth_view {V : Type} {view : PlayerState → V}
    (hview : ∀ p netWorth, view { p with netWorth } = view p) (p : PlayerState)
    (spaces : List SpaceOwnership) (mode : GameMode) :
    Ensures (updatePlayerNetWorth p spaces mode) fun q => view q = view p :=
  .after fun _ _ => hview _ _

/-- The worth of the players is all that a refresh changes. -/
theorem refreshAllNetWorth_view {V : Type} {view : PlayerState → V}
    (hview : ∀ p netWorth, view { p with netWorth } = view p) (players : List PlayerState)
    (spaces : List SpaceOwnership) (mode : GameMode) :
    Ensures (refreshAllNetWorth players spaces mode) fun ps => ps.map view = players.map view := by
  unfold refreshAllNetWorth
  induction players with
  | nil => rfl
  | cons p rest ih =>
      rw [List.mapM_cons]
      refine (updatePlayerNetWorth_view hview p spaces mode).seq fun q hq => ih.seq fun qs hqs => ?_
      simp only [sat_pure, List.map_cons, hq, hqs]

/-- not in the seat, -/
theorem updatePlayerNetWorth_bare (p : PlayerState) (spaces : List SpaceOwnership)
    (mode : GameMode) : Ensures (updatePlayerNetWorth p spaces mode) fun q => q.bare = p.bare :=
  updatePlayerNetWorth_view (fun _ _ => rfl) p spaces mode

/-- of whichever player, -/
theorem refreshAllNetWorth_bare (players : List PlayerState) (spaces : List SpaceOwnership)
    (mode : GameMode) :
    Ensures (refreshAllNetWorth players spaces mode) fun ps => seatsOf ps = seatsOf players :=
  refreshAllNetWorth_view (fun _ _ => rfl) players spaces mode

/-- and not in the profiles. -/
theorem refreshAllNetWorth_profiles (players : List PlayerState) (spaces : List SpaceOwnership)
    (mode : GameMode) :
    Ensures (refreshAllNetWorth players spaces mode) fun ps => profilesOf ps = profilesOf players :=
  refreshAllNetWorth_view (fun _ _ => rfl) players spaces mode

/-- One player at a time. -/
theorem updatePlayerNetWorth_profile (p : PlayerState) (spaces : List SpaceOwnership)
    (mode : GameMode) :
    Ensures (updatePlayerNetWorth p spaces mode) fun q => q.profile = p.profile :=
  updatePlayerNetWorth_view (fun _ _ => rfl) p spaces mode

/-- A profile says who it is of. -/
theorem id_eq_of_profile (h : q.profile = p.profile) : q.id = p.id := by
  show q.profile.id = p.profile.id
  rw [h]

/-- Whoever has the profile of a listed player is listed. -/
theorem Listed.reseated (h : Listed players p) (hq : q.profile = p.profile) : Listed players q := by
  rw [Listed, id_eq_of_profile hq, hq]
  exact h

/-- Collecting from everybody moves money only. -/
theorem takeFromOthers_profiles (pid : PlayerId) (amount : Int) (players : List PlayerState) :
    Ensures (takeFromOthers pid amount spaces mode players) fun x =>
      profilesOf x.1 = profilesOf players := by
  induction players with
  | nil => rfl
  | cons other rest ih =>
      unfold takeFromOthers
      simp only [sat_ite]
      refine ⟨fun _ => ih.seq fun x hx => congrArg (other.profile :: ·) hx, fun _ => ?_⟩
      refine (updatePlayerNetWorth_profile _ _ _).seq fun paid hpaid => ih.seq fun x hx => ?_
      have hsame : paid.profile = other.profile := hpaid
      simp only [sat_pure, profilesOf_cons, hsame, hx]

/-- So does paying everybody. -/
theorem giveToOthers_profiles (pid : PlayerId) (amount : Int) (players : List PlayerState) :
    Ensures (giveToOthers pid amount spaces mode players) fun ps =>
      profilesOf ps = profilesOf players := by
  induction players with
  | nil => rfl
  | cons other rest ih =>
      unfold giveToOthers
      simp only [sat_ite]
      refine ⟨fun _ => ih.seq fun ps hps => congrArg (other.profile :: ·) hps, fun _ => ?_⟩
      refine (updatePlayerNetWorth_profile _ _ _).seq fun paid hpaid => ih.seq fun ps hps => ?_
      have hsame : paid.profile = other.profile := hpaid
      simp only [sat_pure, profilesOf_cons, hsame, hps]

end Records

/-! ## what a roll leaves alone -/

section Settings

variable {s s' : GameState} {p : PlayerState} {pid : PlayerId} {players : List PlayerState}

/-- Players with the old profiles leave the lineup, -/
theorem lineup_players (s : GameState) (h : profilesOf players = s.profiles) :
    ({ s with players } : GameState).lineup = s.lineup := by
  rw [GameState.lineup, GameState.profiles, h]
  rfl

/-- and the ground. -/
theorem ground_players (s : GameState) (h : profilesOf players = s.profiles) :
    ({ s with players } : GameState).ground = s.ground :=
  congrArg (fun x => (⟨x, s.spaces, s.bankHouses, s.bankHotels⟩ : Ground)) (lineup_players s h)

/-- The lineup settles the standing, -/
theorem standing_of_lineup (h : s'.lineup = s.lineup) : s'.standing = s.standing := by
  have hroster : s'.roster = s.roster := rosterOf_of_profiles (congrArg Lineup.profiles h)
  have hcurrent : s'.turn.currentPlayerId = s.turn.currentPlayerId :=
    congrArg Lineup.currentPlayerId h
  have hnumber : s'.turn.turnNumber = s.turn.turnNumber := congrArg Lineup.turnNumber h
  have hround : s'.turn.roundNumber = s.turn.roundNumber := congrArg Lineup.roundNumber h
  rw [GameState.standing, GameState.standing, hroster, hcurrent, hnumber, hround]

/-- the ground settles the lineup, -/
theorem lineup_of_ground (h : s'.ground = s.ground) : s'.lineup = s.lineup :=
  congrArg Ground.lineup h

/-- and with it the profiles. -/
theorem profiles_of_ground (h : s'.ground = s.ground) : s'.profiles = s.profiles :=
  congrArg (fun x => x.lineup.profiles) h

/-- So the players of the table are those of the ground. -/
theorem Listed.of_ground (h : Listed s.players p) (hground : s'.ground = s.ground) :
    Listed s'.players p :=
  h.of_profiles (profiles_of_ground hground)

/-- A player is written back with the profile they had. -/
theorem setPlayer_ground (h : Listed s.players p) :
    Ensures (setPlayer s p) fun s' => s'.ground = s.ground := by
  refine (updatePlayerNetWorth_profile p _ _).seq fun q hq => ?_
  refine (putPlayer_profiles (h.reseated hq)).seq fun players hplayers => ?_
  refine (refreshAllNetWorth_profiles players _ _).seq fun players' hplayers' => ?_
  exact ground_players s (hplayers'.trans hplayers)

/-- The same for the write of a roll, which renews the cache as well. -/
theorem storePlayer_ground (h : Listed s.players p) :
    Ensures (storePlayer s p) fun s' => s'.ground = s.ground := by
  refine (updatePlayerNetWorth_profile p _ _).seq fun q hq => ?_
  rw [← id_eq_of_profile hq]
  refine (assignPlayer_profiles (h.reseated hq)).seq fun players hplayers => ?_
  exact ground_players s hplayers

/-- A payment moves money between players, -/
theorem transferFunds_ground (s : GameState) (pid : PlayerId) (creditor : Option PlayerId)
    (amount : Int) :
    Ensures (transferFunds s pid creditor amount) fun s' => s'.ground = s.ground := by
  refine .after fun payer hpayer => ?_
  obtain ⟨hlisted, hid⟩ := listed_of_next hpayer
  refine (updatePlayerNetWorth_profile _ _ _).seq fun paid hpaid => ?_
  rw [show pid = paid.id from (id_eq_of_profile hpaid).trans hid |>.symm]
  refine (assignPlayer_profiles (Listed.reseated hlisted hpaid)).seq fun players hplayers => ?_
  cases creditor with
  | none => exact ground_players s hplayers
  | some c =>
      refine .after fun owner howner => ?_
      obtain ⟨hlisted', hid'⟩ := listed_of_next howner
      refine (updatePlayerNetWorth_profile _ _ _).seq fun credited hcredited => ?_
      rw [show c = credited.id from (id_eq_of_profile hcredited).trans hid' |>.symm]
      refine (assignPlayer_profiles (Listed.reseated hlisted' hcredited)).seq fun ps hps => ?_
      exact ground_players s (hps.trans hplayers)

/-- or opens a debt, -/
theorem attemptPayment_ground (s : GameState) (pid : PlayerId) (amount : Int)
    (creditor : Option PlayerId) :
    Ensures (attemptPayment s pid amount creditor) fun s' => s'.ground = s.ground := by
  unfold attemptPayment
  simp only [sat_ite]
  refine ⟨fun _ => rfl, fun _ => .after fun payer _ => ?_⟩
  simp only [sat_ite]
  exact ⟨fun _ => transferFunds_ground s pid creditor amount,
    fun _ => ⟨fun _ => rfl, fun _ => rfl⟩⟩

/-- which may be settled later. -/
theorem trySettleDebt_ground (s : GameState) :
    Ensures (trySettleDebt s) fun s' => s'.ground = s.ground := by
  unfold trySettleDebt
  cases s.bankruptcy with
  | none => rfl
  | some debt =>
      refine .after fun debtor _ => ?_
      simp only [sat_ite]
      exact ⟨fun _ => (transferFunds_ground s _ _ _).seq fun _ h => h, fun _ => rfl⟩

/-- The end of a landing writes players and turn, and renews the caches. -/
theorem finalize_ground (s : GameState) (players : List PlayerState) (turn : TurnState) :
    Ensures (finalize s players turn) fun s' =>
      s'.ground = ({ s with players, turn } : GameState).ground :=
  (refreshAllNetWorth_profiles players _ _).seq fun _ h => ground_players { s with players, turn } h

/-- The player is returned as the new state has them. -/
theorem collectGoBonus_ground (h : Listed s.players p) (goSalary : Int) (due : Bool) :
    Ensures (collectGoBonus s p goSalary due) fun r =>
      r.1.ground = s.ground ∧ Listed r.1.players r.2.1 := by
  cases due with
  | false => exact ⟨rfl, h⟩
  | true =>
      have hsalary : Ensures (applyGoSalary s p goSalary) fun r => r.1.ground = s.ground := by
        refine (updatePlayerNetWorth_profile _ _ _).seq fun q hq => ?_
        refine (putPlayer_profiles (Listed.reseated h hq)).seq fun players hplayers => ?_
        exact ground_players s hplayers
      exact hsalary.seq fun _ hkept => .after fun _ hplayer =>
        ⟨hkept, (listed_of_getPlayer hplayer).1⟩

/-- A card moves within its deck, or out of it. -/
theorem drawCard_ground (s : GameState) (kind : CardKind) (rng : Rng) :
    Ensures (drawCard s kind rng) fun r => r.1.ground = s.ground := by
  refine .after fun drawn _ => ?_
  obtain ⟨deck, rng'⟩ := drawn
  cases deck with
  | nil => trivial
  | cons cardId rest => exact .after fun card _ => by cases kind <;> rfl

/-! ## landings -/

section Rules

variable {s : GameState} {p : PlayerState} {diceRoll : DiceRoll} {goSalary : Int}

/-- A space that draws no card and charges no tax may charge a rent. -/
theorem landOnSpace_ensures {boardSpace : BoardSpace} {rentMultiplier : Nat} {rng : Rng}
    {Q : Landing → Prop}
    (hrent : ∀ ownerId,
      Ensures (landOnRent s p diceRoll boardSpace ownerId rentMultiplier rng) Q)
    (hrest : ∀ purchasable ownership, Ensures (landOnRest s p purchasable ownership rng) Q) :
    Ensures (landOnSpace s p diceRoll boardSpace rentMultiplier rng) Q := by
  refine .after fun ownership _ => .after fun purchasable _ => ?_
  cases ownership.ownerId with
  | none => exact hrest _ _
  | some ownerId =>
      simp only [sat_ite]
      exact ⟨fun _ => hrent _, fun _ => hrest _ _⟩

/-- What each kind of space ensures, and a card whenever the landings it may
lead to do, every landing ensures. -/
theorem resolveLanding_ensures {P : GameState → PlayerState → Prop}
    {Q : GameState → PlayerState → Landing → Prop}
    (hjail : ∀ s p rng, P s p → Ensures (landOnGoToJail s p rng) (Q s p))
    (htax : ∀ s p amount rng, P s p → Ensures (landOnTax s p amount rng) (Q s p))
    (hcard : ∀ land : Lander, (∀ s p depth rentMultiplier rng, P s p →
        Ensures (land s p depth rentMultiplier rng) (Q s p)) →
      ∀ s p kind depth rng, P s p →
        Ensures (landOnCard land goSalary s p kind depth rng) (Q s p))
    (hspace : ∀ s p boardSpace rentMultiplier rng, P s p →
      Ensures (landOnSpace s p diceRoll boardSpace rentMultiplier rng) (Q s p)) (fuel : Nat) :
    ∀ s p depth rentMultiplier rng, P s p →
      Ensures (resolveLanding diceRoll goSalary fuel s p depth rentMultiplier rng) (Q s p) := by
  induction fuel with
  | zero => exact fun _ _ _ _ _ _ => trivial
  | succ fuel ih =>
      intro s p depth rentMultiplier rng h
      refine .after fun boardSpace _ => ?_
      simp only [sat_ite]
      refine ⟨fun _ => hjail s p rng h, fun _ => ?_⟩
      cases boardSpace.tax with
      | some amount => exact htax s p amount rng h
      | none => cases boardSpace.type.cardKind with
        | some kind => exact hcard _ ih s p kind depth rng h
        | none => exact hspace s p boardSpace rentMultiplier rng h

end Rules

/-- Landings leave the ground alone. -/
def Lander.KeepsGround (land : Lander) : Prop :=
  ∀ s p depth rentMultiplier rng, Listed s.players p →
    Ensures (land s p depth rentMultiplier rng) fun r => r.state.ground = s.ground

/-- A card that moves the player leads to a landing. -/
theorem advanceAndLand_ground {land : Lander} (hland : land.KeepsGround) (goSalary : Int)
    (h : Listed s.players p) (steps : Nat) (bonus : Bool) (depth rentMultiplier : Nat)
    (rng : Rng) :
    Ensures (advanceAndLand land goSalary s p steps bonus depth rentMultiplier rng)
      fun r => r.state.ground = s.ground := by
  refine .after fun advanced _ => ?_
  have hmoved : Listed s.players { p with position := advanced.1 } := h
  refine (setPlayer_ground hmoved).seq fun s₁ h₁ => ?_
  refine (collectGoBonus_ground (hmoved.of_ground h₁) _ _).seq fun collected h₂ => ?_
  refine (hland _ _ _ _ _ h₂.2).seq fun result h₃ => ?_
  exact h₃.trans (h₂.1.trans h₁)

/-- Whatever a card does, it does to money, places, the jail and the jail
cards. -/
theorem applyCardEffect_ground {land : Lander} (hland : land.KeepsGround) (goSalary : Int)
    (h : Listed s.players p) (card : CardDef) (depth : Nat) (rng : Rng) :
    Ensures (applyCardEffect land goSalary s p card depth rng)
      fun r => r.state.ground = s.ground := by
  unfold applyCardEffect
  cases card.effect with
  | advanceTo position bonus =>
      exact .after fun steps _ => advanceAndLand_ground hland _ h _ _ _ _ _
  | advanceToNearest target payDouble =>
      refine .after fun pos _ => .after fun steps _ => ?_
      exact advanceAndLand_ground hland _ h _ _ _ _ _
  | goToJail => exact (setPlayer_ground (p := sendToJail p s.gameMode) h).seq fun _ h₁ => h₁
  | goBack n =>
      refine .after fun index _ => .after fun back _ => .after fun pos _ => ?_
      have hmoved : Listed s.players { p with position := pos } := h
      refine (setPlayer_ground hmoved).seq fun s₁ h₁ => ?_
      split
      · exact h₁
      · exact (hland _ _ _ _ _ (hmoved.of_ground h₁)).seq fun _ h₂ => h₂.trans h₁
  | collect amount =>
      refine (setPlayer_ground ?_).seq fun _ h₁ => h₁
      exact h
  | pay amount => exact (attemptPayment_ground s _ _ _).seq fun _ h₁ => h₁
  | collectFromEachPlayer amount =>
      refine (takeFromOthers_profiles _ _ _).seq fun taken h₁ => .after fun receiver hreceiver => ?_
      obtain ⟨hlisted, -⟩ := listed_of_getPlayer hreceiver
      refine (updatePlayerNetWorth_profile _ _ _).seq fun q hq => ?_
      refine (putPlayer_profiles (Listed.reseated hlisted hq)).seq fun players h₂ => ?_
      exact ground_players s (h₂.trans h₁)
  | payEachPlayer amount =>
      refine (updatePlayerNetWorth_profile _ _ _).seq fun q hq => ?_
      refine (putPlayer_profiles (Listed.reseated h hq)).seq fun players h₁ => ?_
      refine (giveToOthers_profiles _ _ _).seq fun players' h₂ => ?_
      refine (refreshAllNetWorth_profiles _ _ _).seq fun players'' h₃ => ?_
      exact ground_players s (h₃.trans (h₂.trans h₁))
  | getOutOfJailFree =>
      refine (setPlayer_ground ?_).seq fun _ h₁ => h₁
      exact h
  | repairs perHouse perHotel =>
      exact .after fun _ _ => (attemptPayment_ground s _ _ _).seq fun _ h₁ => h₁

/-- A draw, with what the card does. -/
theorem drawAndApply_ground {land : Lander} (hland : land.KeepsGround) (goSalary : Int)
    (s : GameState) (p : PlayerState) (kind : CardKind) (depth : Nat) (rng : Rng) :
    Ensures (drawAndApply land goSalary s p kind depth rng)
      fun r => r.1.state.ground = s.ground := by
  refine (drawCard_ground s kind rng).seq fun drawn h₁ => .after fun player hplayer => ?_
  obtain ⟨hlisted, -⟩ := listed_of_getPlayer hplayer
  exact (applyCardEffect_ground hland _ hlisted _ _ _).seq fun _ h₂ => h₂.trans h₁

/-- A landing on a card space, with the cards that follow. -/
theorem landOnCard_ground {land : Lander} (hland : land.KeepsGround) (goSalary : Int)
    (s : GameState) (p : PlayerState) (kind : CardKind) (depth : Nat) (rng : Rng) :
    Ensures (landOnCard land goSalary s p kind depth rng)
      fun r => r.state.ground = s.ground := by
  refine (finalize_ground s s.players s.turn).seq fun s₁ h₁ => .after fun player _ => ?_
  refine (drawAndApply_ground hland _ _ _ _ _ _).seq fun drawn h₂ => ?_
  simp only [sat_ite]
  exact ⟨fun _ => h₂.trans h₁, fun _ => h₂.trans h₁⟩

/-- A landing on any other space: rent is paid, or a purchase is offered. -/
theorem landOnSpace_ground (s : GameState) (p : PlayerState) (diceRoll : DiceRoll)
    (boardSpace : BoardSpace) (rentMultiplier : Nat) (rng : Rng) :
    Ensures (landOnSpace s p diceRoll boardSpace rentMultiplier rng)
      fun r => r.state.ground = s.ground := by
  refine landOnSpace_ensures (fun ownerId => ?_) fun _ _ =>
    (finalize_ground s _ _).seq fun _ h => h
  refine .after fun owner _ => .after fun rent _ => ?_
  refine (finalize_ground s s.players s.turn).seq fun s₁ h₁ => ?_
  refine (attemptPayment_ground s₁ _ _ _).seq fun s₂ h₂ => ?_
  simp only [sat_ite]
  exact ⟨fun _ => h₂.trans h₁, fun _ => h₂.trans h₁⟩

/-- A landing on a tax. -/
theorem landOnTax_ground (s : GameState) (p : PlayerState) (taxAmount : Nat) (rng : Rng) :
    Ensures (landOnTax s p taxAmount rng) fun r => r.state.ground = s.ground := by
  refine (finalize_ground s s.players s.turn).seq fun s₁ h₁ => ?_
  refine (attemptPayment_ground s₁ _ _ _).seq fun s₂ h₂ => ?_
  simp only [sat_ite]
  refine ⟨fun _ => h₂.trans h₁, fun _ => ?_⟩
  refine (finalize_ground s₂ _ _).seq fun s₃ h₃ => ?_
  have hkept := h₂.trans h₁
  simp only [GameState.ground, GameState.lineup, GameState.profiles, Ground.mk.injEq,
    Lineup.mk.injEq, sat_pure] at h₃ hkept ⊢
  obtain ⟨⟨hprofiles, -⟩, hspaces, hhouses, hhotels⟩ := hkept
  rwa [hprofiles, hspaces, hhouses, hhotels] at h₃

/-- A landing on the way to jail. -/
theorem landOnGoToJail_ground (h : Listed s.players p) (rng : Rng) :
    Ensures (landOnGoToJail s p rng) fun r => r.state.ground = s.ground := by
  refine (updatePlayerNetWorth_profile _ _ _).seq fun jailed hjailed => ?_
  refine (putPlayer_profiles (Listed.reseated h hjailed)).seq fun players hplayers => ?_
  exact (finalize_ground s players _).seq fun s' h' => h'.trans (ground_players s hplayers)

/-- Landings keep the ground, however deep they nest. -/
theorem resolveLanding_ground (diceRoll : DiceRoll) (goSalary : Int) (fuel : Nat) :
    Lander.KeepsGround (resolveLanding diceRoll goSalary fuel) :=
  resolveLanding_ensures (fun _ _ rng h => landOnGoToJail_ground h rng)
    (fun s p amount rng _ => landOnTax_ground s p amount rng)
    (fun _ hland s p kind depth rng _ => landOnCard_ground hland goSalary s p kind depth rng)
    (fun s p boardSpace rentMultiplier rng _ =>
      landOnSpace_ground s p diceRoll boardSpace rentMultiplier rng) fuel

/-! ## rolls -/

/-- The turn after a move has its player and its numbers. -/
theorem turnAfterMove_ground (s : GameState) (diceRoll : DiceRoll) (extraRoll sentToJail : Bool)
    (newStreak : Nat) :
    ({ s with turn := turnAfterMove s diceRoll extraRoll sentToJail newStreak } :
      GameState).ground = s.ground := by
  unfold turnAfterMove
  split
  · rfl
  · split
    · split <;> rfl
    · rfl

/-- A move by the dice, with the landing. -/
theorem executeMove_ground (h : Listed s.players p) (diceRoll : DiceRoll)
    (extraRollAllowed : Bool) (rng : Rng) (goSalary : Int) :
    Ensures (executeMove s p diceRoll extraRollAllowed rng goSalary)
      fun r => r.1.1.ground = s.ground := by
  have hwalk : Ensures (walk s p (diceRoll.die1 + diceRoll.die2) goSalary)
      fun r => r.1.ground = s.ground ∧ Listed r.1.players r.2.1 := by
    refine .after fun advanced _ => ?_
    have hmoved : Listed s.players { p with position := advanced.1 } := h
    refine (assignPlayer_profiles hmoved).seq fun players hplayers => ?_
    have hlisted : Listed players { p with position := advanced.1 } := hmoved.of_profiles hplayers
    refine (collectGoBonus_ground (s := { s with players }) hlisted _ _).seq fun _ hgo => ?_
    exact ⟨hgo.1.trans (ground_players s hplayers), hgo.2⟩
  refine hwalk.seq fun walked h₁ => ?_
  refine (resolveLanding_ground _ _ _ _ _ _ _ _ h₁.2).seq fun landed h₂ => ?_
  exact (turnAfterMove_ground landed.state _ _ _ _).trans (h₂.trans h₁.1)

/-- A roll, wherever it leads. -/
theorem handleRollDice_ground (s : GameState) (pid : PlayerId) (rng : Rng)
    (goSalary jailFine : Int) :
    Ensures (handleRollDice s pid rng goSalary jailFine) fun r => r.1.1.ground = s.ground := by
  refine .after fun _ _ => .after fun player hplayer => .after fun _ _ => ?_
  obtain ⟨hlisted, -⟩ := listed_of_getPlayer hplayer
  cases player.jailStatus with
  | none =>
      simp only [rollFree, sat_ite]
      refine ⟨fun _ => ?_, fun _ => executeMove_ground hlisted _ _ _ _⟩
      refine (storePlayer_ground (p := sendToJail player s.gameMode) hlisted).seq fun _ h => h
  | some jail =>
      simp only [rollInJail, sat_ite]
      refine ⟨fun _ => executeMove_ground ?_ _ _ _ _, fun _ => ⟨fun _ => ?_, fun _ => ?_⟩⟩
      · exact hlisted
      · refine (storePlayer_ground ?_).seq fun _ h => h
        exact hlisted
      · refine (storePlayer_ground ?_).seq fun s₁ h₁ => ?_
        · exact hlisted
        · refine (executeMove_ground (Listed.of_ground ?_ h₁) _ _ _ _).imp fun _ h₂ =>
            h₂.trans h₁
          exact hlisted

end Settings

/-! ## the other commands of a turn -/

section Turns

variable {s : GameState} {p : PlayerState} {pid : PlayerId} {pos : Nat}

/-- Whatever state is returned has the table of `s`, and the same turn. -/
abbrev KeepsLineup (s : GameState) (x : Py GameState) : Prop :=
  Ensures x fun s' => s'.lineup = s.lineup

/-- A player is written back with the profile they had. -/
theorem storePlayer_lineup (h : Listed s.players p) : KeepsLineup s (storePlayer s p) :=
  (storePlayer_ground h).imp fun _ h => lineup_of_ground h

/-- The bail, paid by choice. -/
theorem handlePayJailFine_lineup (s : GameState) (pid : PlayerId) (jailFine : Int) :
    Ensures (handlePayJailFine s pid jailFine) fun r => r.1.lineup = s.lineup := by
  refine .after fun _ _ => .after fun player hplayer => .after fun _ _ => .after fun _ _ => ?_
  refine (storePlayer_lineup ?_).seq fun _ h => h
  exact (listed_of_getPlayer hplayer).1

/-- A jail card played. -/
theorem handleUseJailCard_lineup (s : GameState) (pid : PlayerId) :
    Ensures (handleUseJailCard s pid) fun r => r.1.lineup = s.lineup := by
  refine .after fun _ _ => .after fun player hplayer => .after fun _ _ => .after fun _ _ => ?_
  refine (storePlayer_lineup ?_).seq fun _ h => h
  exact (listed_of_getPlayer hplayer).1

/-- A purchase. -/
theorem handleBuyProperty_lineup (s : GameState) (pid : PlayerId) (pos : Nat) :
    Ensures (handleBuyProperty s pid pos) fun r => r.1.lineup = s.lineup := by
  refine .after fun _ _ => .after fun _ _ => .after fun _ _ => .after fun _ _ => ?_
  refine .after fun _ _ => .after fun _ _ => .after fun player hplayer => ?_
  refine .after fun _ _ => .after fun _ _ => .after fun _ _ => .after fun _ _ => ?_
  obtain ⟨hlisted, -⟩ := listed_of_getPlayer hplayer
  refine (updatePlayerNetWorth_profile _ _ _).seq fun q hq => ?_
  rw [show player.id = q.id from (id_eq_of_profile hq).symm]
  refine (assignPlayer_profiles (Listed.reseated hlisted hq)).seq fun players hplayers => ?_
  exact lineup_players s hplayers

/-- The tail of building and mortgaging: money, one space, the caches. -/
theorem updateHolding_lineup (hp : getPlayerByIdFromState s pid = .ok p)
    (ownership : SpaceOwnership) (delta : Int) :
    KeepsLineup s (updateHolding s pid p pos ownership delta) := by
  obtain ⟨hlisted, rfl⟩ := listed_of_getPlayer hp
  refine .after fun _ _ => (updatePlayerNetWorth_profile _ _ _).seq fun q hq => ?_
  rw [show p.id = q.id from (id_eq_of_profile hq).symm]
  refine (assignPlayer_profiles (Listed.reseated hlisted hq)).seq fun players hplayers => ?_
  refine (refreshAllNetWorth_profiles players _ _).seq fun players' hplayers' => ?_
  exact lineup_players s (hplayers'.trans hplayers)

/-- A house or a hotel built. -/
theorem buildHouse_lineup (s : GameState) (pid : PlayerId) (pos : Nat) :
    KeepsLineup s (buildHouse s pid pos) := by
  refine .after fun _ _ => .after fun _ _ => .after fun player hplayer => .after fun _ _ => ?_
  refine .after fun _ _ => ?_
  simp only [sat_ite]
  exact ⟨fun _ => (updateHolding_lineup hplayer _ _).seq fun _ h => h,
    fun _ => (updateHolding_lineup hplayer _ _).seq fun _ h => h⟩

/-- A house or a hotel sold. -/
theorem sellHouse_lineup (s : GameState) (pid : PlayerId) (pos : Nat) :
    KeepsLineup s (sellHouse s pid pos) := by
  refine .after fun _ _ => .after fun _ _ => .after fun player hplayer => .after fun _ _ => ?_
  refine .after fun _ _ => ?_
  simp only [sat_ite]
  exact ⟨fun _ => (updateHolding_lineup hplayer _ _).seq fun _ h => h,
    fun _ => (updateHolding_lineup hplayer _ _).seq fun _ h => h⟩

/-- A mortgage taken. -/
theorem mortgageProperty_lineup (s : GameState) (pid : PlayerId) (pos : Nat) :
    KeepsLineup s (mortgageProperty s pid pos) := by
  refine .after fun _ _ => .after fun _ _ => .after fun player hplayer => .after fun _ _ => ?_
  exact .after fun _ _ => updateHolding_lineup hplayer _ _

/-- A mortgage redeemed. -/
theorem unmortgageProperty_lineup (s : GameState) (pid : PlayerId) (pos : Nat) :
    KeepsLineup s (unmortgageProperty s pid pos) := by
  refine .after fun _ _ => .after fun _ _ => .after fun player hplayer => .after fun _ _ => ?_
  exact .after fun _ _ => updateHolding_lineup hplayer _ _

/-- The end of an auction; the turn may go on with another roll. -/
theorem resolveAuction_lineup (s : GameState) : KeepsLineup s (resolveAuction s) := by
  unfold resolveAuction
  cases s.auction with
  | none => rfl
  | some auction =>
      have haward : Ensures (awardProperty s auction) fun r => profilesOf r.1 = s.profiles := by
        unfold awardProperty
        cases auction.highestBidderId with
        | none => rfl
        | some bidder =>
            refine .after fun player hplayer => .after fun _ _ => .after fun _ _ => ?_
            obtain ⟨hlisted, -⟩ := listed_of_getPlayer hplayer
            refine (updatePlayerNetWorth_profile _ _ _).seq fun q hq => ?_
            rw [show player.id = q.id from (id_eq_of_profile hq).symm]
            exact (assignPlayer_profiles (Listed.reseated hlisted hq)).seq fun _ h => h
      refine haward.seq fun r hr => (refreshAllNetWorth_profiles _ _ _).seq fun players h => ?_
      exact lineup_players s (h.trans hr)

/-- Both sides of a trade change hands. -/
theorem executeTrade_lineup (s : GameState) (trade : TradeState) :
    KeepsLineup s (executeTrade s trade) := by
  have hoffer : ∀ giver receiver spaces offer receiverId,
      Ensures (transferOffer giver receiver spaces offer receiverId) fun r =>
        r.1.profile = giver.profile ∧ r.2.1.profile = receiver.profile :=
    fun _ _ _ _ _ => .after fun _ _ => ⟨rfl, rfl⟩
  refine .after fun _ _ => .after fun _ _ => ?_
  refine .after fun proposer hproposer => .after fun target htarget => ?_
  refine .after fun i hi => .after fun j hj => ?_
  obtain ⟨hp, -⟩ := listed_of_getPlayer hproposer
  obtain ⟨ht, -⟩ := listed_of_getPlayer htarget
  refine (hoffer _ _ _ _ _).seq fun offered h₁ => (hoffer _ _ _ _ _).seq fun requested h₂ => ?_
  refine (refreshAllNetWorth_profiles _ _ _).seq fun players hplayers => ?_
  refine lineup_players s (hplayers.trans ?_)
  have hpat := hp.at_next hi
  have htat := ht.at_next hj
  rw [← h₁.1, ← h₂.2] at hpat
  rw [← h₁.2, ← h₂.1] at htat
  exact profilesOf_set_set hpat htat

/-- Any answer to a trade. -/
theorem respondTrade_lineup (s : GameState) (pid : PlayerId) (tradeId : Nat)
    (response : TradeResponse) (counterOffer : Option TradeOffer) (now : Int) :
    KeepsLineup s (respondTrade s pid tradeId response counterOffer now) := by
  unfold respondTrade
  cases s.trade with
  | none => trivial
  | some trade =>
      refine .after fun _ _ => ?_
      cases response with
      | reject => rfl
      | accept => exact .after fun _ _ => executeTrade_lineup s trade
      | counter =>
          cases counterOffer with
          | none => trivial
          | some counter => exact .after fun _ _ => .after fun _ _ => rfl

/-- An offer is put on the table. -/
theorem proposeTrade_lineup (s : GameState) (pid target : PlayerId) (offer request : TradeOffer)
    (now : Int) (tradeId : Nat) :
    KeepsLineup s (proposeTrade s pid target offer request now tradeId) := by
  refine .after fun _ _ => .after fun _ _ => .after fun _ _ => .after fun _ _ => ?_
  exact .after fun _ _ => .after fun _ _ => rfl

/-- A bid is added. -/
theorem placeBid_lineup (s : GameState) (pid : PlayerId) (amount : Int) :
    KeepsLineup s (placeBid s pid amount) := by
  unfold placeBid
  cases s.auction with
  | none => trivial
  | some auction =>
      exact .after fun _ _ => .after fun _ _ => .after fun _ _ => .after fun _ _ => rfl

/-- The offer is taken off the table. -/
theorem expireTrade_lineup (s : GameState) : (expireTrade s).lineup = s.lineup := by
  unfold expireTrade
  cases s.trade <;> rfl

/-- The game is over, or goes on: nobody is out who was not out before. -/
theorem checkWinCondition_lineup (s : GameState) :
    (checkWinCondition s).lineup = s.lineup := by
  unfold checkWinCondition
  split <;> rfl

end Turns

end Monopoly
