import Monopoly.Spec.Cards

/-!
# Monopoly.Spec.Resolve

`resolve_landing` on a sound table: it never raises, and it ends in the
touchdown at the end of the cards followed.
-/

namespace Monopoly

/-! ## updates of the seats -/

section Updates

variable {s : GameState} {p v : PlayerState} {players : List PlayerState}
  {g : PlayerState → PlayerState}

/-- Storing a new record `v` of the seated player `p` edits the seat. -/
theorem putPlayer_seats (h : (players.map (·.id)).Nodup) (hp : p.bare ∈ seatsOf players)
    (hid : v.id = p.id) (hg : g p.bare = v.bare) :
    ∃ ps, putPlayer players v = .ok ps ∧ seatsOf ps = editSeat p.id g (seatsOf players) := by
  obtain ⟨q, hq, hqp⟩ := List.mem_map.mp hp
  have hqid : q.id = p.id := id_eq_of_bare hqp
  have hids : ((seatsOf players).map (·.id)).Nodup := by rw [ids_seatsOf]; exact h
  refine ⟨_, putPlayer_eq h hq (fun _ => v) (hid.trans hqid.symm), ?_⟩
  rw [hqid, seatsOf_editSeat (g := fun _ => v.bare) fun _ => rfl]
  exact editAt_congr PlayerState.id hids hp hg.symm

variable (players) in
/-- Computing net worth anew never raises when every holding can be bought, and
changes nothing but net worth. -/
theorem refreshAllNetWorth_seats {mode : GameMode} {spaces : List SpaceOwnership}
    (h : Layout mode spaces) {seats : List PlayerState} (hseats : seatsOf players = seats)
    (howned : ∀ p ∈ seats, ∀ q ∈ p.ownedPositions, Purchasable mode q) :
    ∃ ps, refreshAllNetWorth players spaces mode = .ok ps ∧ seatsOf ps = seats := by
  refine ⟨_, refreshAllNetWorth_eq h fun p hp q hq => ?_, by simp [hseats]⟩
  exact (howned p.bare (hseats ▸ mem_seatsOf hp) q hq).onBoard

/-- Editing one seat without touching its holdings keeps every listed
position purchasable. -/
theorem Sound.deeds_editSeat (hs : Sound s) {pid : PlayerId}
    (hg : ∀ p, (g p).ownedPositions = p.ownedPositions) :
    ∀ q ∈ editSeat pid g s.seats, ∀ pos ∈ q.ownedPositions, Purchasable s.gameMode pos := by
  intro q hq pos hpos
  obtain ⟨p, hp, rfl⟩ := mem_editSeat.mp hq
  split at hpos
  · rw [hg] at hpos; exact hs.deeds p hp pos hpos
  · exact hs.deeds p hp pos hpos

/-- `_set_player` writes one seat, and never raises when the holdings are kept.
-/
theorem setPlayer_eq (hs : Sound s) (hp : p.bare ∈ s.seats) (hid : v.id = p.id)
    (howned : v.ownedPositions = p.ownedPositions) (hg : g p.bare = v.bare)
    (hgo : ∀ p, (g p).ownedPositions = p.ownedPositions) :
    ∃ ps, setPlayer s v = .ok { s with players := ps } ∧ seatsOf ps = editSeat p.id g s.seats := by
  have hval : updatePlayerNetWorth v s.spaces s.gameMode = .ok (revalue s.spaces s.gameMode v) :=
    updatePlayerNetWorth_eq hs.layout fun q hq =>
      (hs.deeds p.bare hp q (by rw [howned] at hq; exact hq)).onBoard
  obtain ⟨ps, hput, hps⟩ := putPlayer_seats (v := revalue s.spaces s.gameMode v) (g := g)
    hs.playerIds hp hid hg
  obtain ⟨ps', href, hps'⟩ := refreshAllNetWorth_seats _ hs.layout hps (hs.deeds_editSeat hgo)
  exact ⟨ps', by simp only [setPlayer, hval, hput, href, ok_bind]; rfl, hps'⟩

variable (players) in
/-- `_finalize` never raises on a sound table, and writes nothing but the turn
and the net worths. -/
theorem finalize_eq (hs : Sound s) (hseats : seatsOf players = s.seats) (turn : TurnState) :
    ∃ ps, finalize s players turn = .ok { s with players := ps, turn } ∧
      seatsOf ps = s.seats := by
  obtain ⟨ps, href, hps⟩ := refreshAllNetWorth_seats _ hs.layout hseats hs.deeds
  exact ⟨ps, by simp only [finalize, href, ok_bind]; rfl, hps⟩

/-- The salary for passing GO, where it is due. -/
theorem collectGoBonus_eq (hs : Sound s) (hp : p.bare ∈ s.seats) (goSalary : Int) (due : Bool) :
    ∃ ps p' events, collectGoBonus s p goSalary due = .ok ({ s with players := ps }, p', events) ∧
      seatsOf ps = editSeat p.id (credit (if due then goSalary else 0)) s.seats ∧
      p'.bare = credit (if due then goSalary else 0) p.bare ∧ p'.bare ∈ seatsOf ps := by
  cases due with
  | false =>
      have hid : credit 0 = id := by funext q; simp [credit]
      refine ⟨s.players, p, [], rfl, ?_, ?_, hp⟩
      · simp [hid, editSeat, editAt, GameState.seats]
      · simp [hid]
  | true =>
      have hval : updatePlayerNetWorth (credit goSalary p) s.spaces s.gameMode = .ok _ :=
        updatePlayerNetWorth_eq hs.layout fun q hq => (hs.deeds p.bare hp q hq).onBoard
      obtain ⟨ps, hput, hps⟩ := putPlayer_seats
        (v := revalue s.spaces s.gameMode (credit goSalary p)) (g := credit goSalary)
        hs.playerIds hp rfl rfl
      have hmem : credit goSalary p.bare ∈ seatsOf ps := by
        rw [hps]; exact mem_editSeat.mpr ⟨_, hp, if_pos rfl⟩
      obtain ⟨p', hp', hbare⟩ := List.mem_map.mp hmem
      have hid : p'.id = p.id := id_eq_of_bare (q := p') (p := credit goSalary p) hbare
      have hids : (ps.map (·.id)).Nodup := by
        rw [← ids_seatsOf, hps, ids_editSeat (f := credit goSalary) fun _ => rfl]; exact hs.ids
      have hget : getPlayerById ps p.id = .ok p' := hid ▸ getPlayerById_eq hids hp'
      have hgo : applyGoSalary s p goSalary =
          .ok ({ s with players := ps }, .passedGo p.id p.displayName goSalary) := by
        unfold applyGoSalary
        show (updatePlayerNetWorth (credit goSalary p) s.spaces s.gameMode >>= _) = _
        simp only [hval, hput, ok_bind]
        rfl
      refine ⟨ps, p', [.passedGo p.id p.displayName goSalary], ?_, hps, hbare, hbare ▸ hmem⟩
      simp only [collectGoBonus, hgo, if_true, ok_bind, getPlayerByIdFromState, hget]
      rfl

end Updates

/-! ## rent and repairs -/

section Costs

variable {s : GameState}

/-- Counting the railroads or utilities of an owner raises nothing on the
board. -/
theorem countOwned_ok (hs : Sound s) (owner : PlayerState) {group : List Nat}
    (hg : ∀ pos ∈ group, OnBoard s.gameMode pos) :
    ∃ n, countOwned owner s.spaces group = .ok n := by
  induction group with
  | nil => exact ⟨0, rfl⟩
  | cons pos rest ih =>
      obtain ⟨n, hn⟩ := ih fun q hq => hg q (List.mem_cons_of_mem _ hq)
      simp only [countOwned, spaceAt_eq hs.layout (hg pos List.mem_cons_self), ok_bind, hn]
      split <;> exact ⟨_, rfl⟩

/-- Asking whether a group is owned free of mortgages raises nothing on the
board. -/
theorem ownsAllUnmortgaged_ok (hs : Laid s) (pid : PlayerId) {group : List Nat}
    (hg : ∀ pos ∈ group, OnBoard s.gameMode pos) :
    ∃ b, ownsAllUnmortgaged pid s.spaces group = .ok b := by
  induction group with
  | nil => exact ⟨true, rfl⟩
  | cons pos rest ih =>
      obtain ⟨b, hb⟩ := ih fun q hq => hg q (List.mem_cons_of_mem _ hq)
      simp only [ownsAllUnmortgaged, spaceAt_eq hs.layout (hg pos List.mem_cons_self), ok_bind, hb]
      split <;> exact ⟨_, rfl⟩

theorem onBoard_colorGroup (mode : GameMode) (color : PropertyColor) :
    ∀ pos ∈ positionsInColorGroup color mode, OnBoard mode pos := by
  intro pos hpos
  obtain ⟨space, hspace, rfl⟩ := List.mem_map.mp hpos
  rw [onBoard_iff_square]
  rw [board_eq] at hspace
  exact ⟨space, (List.mem_filter.mp hspace).1, rfl⟩

theorem onBoard_railroads (mode : GameMode) :
    ∀ pos ∈ (getGameConfig mode).railroadPositions, OnBoard mode pos := by
  cases mode <;> decide

theorem onBoard_utilities (mode : GameMode) :
    ∀ pos ∈ (getGameConfig mode).utilityPositions, OnBoard mode pos := by
  cases mode <;> decide

theorem playerOwnsGroup_ok (hs : Laid s) (p : PlayerState) (color : PropertyColor) :
    ∃ b, playerHasRentMonopoly p color s.spaces s.gameMode = .ok b := by
  have hgroup := onBoard_colorGroup s.gameMode color
  unfold playerHasRentMonopoly
  split
  · exact ⟨false, rfl⟩
  · exact ownsAllUnmortgaged_ok hs _ hgroup

/-- The railroad table is read at `count - 1`, which for a count of zero is
its last entry. -/
theorem railroadRent_ok (count : Nat) :
    ∃ base, pyGet railroadRents ((min count maxRailroadsOwned : Nat) - 1) = .ok base := by
  have hcases : min count maxRailroadsOwned ∈ [0, 1, 2, 3, 4] := by
    simp only [maxRailroadsOwned, List.mem_cons, List.not_mem_nil]
    omega
  have hall : ∀ n ∈ [0, 1, 2, 3, 4], (pyGet railroadRents ((n : Nat) - 1)).toOption.isSome := by
    decide
  have hsome := hall _ hcases
  cases hget : pyGet railroadRents ((min count maxRailroadsOwned : Nat) - 1) with
  | ok base => exact ⟨base, rfl⟩
  | error e => rw [hget] at hsome; simp [Except.toOption] at hsome

/-- The rent of any space on the board can be computed. -/
theorem calculateRent_ok (hs : Sound s) {pos : Nat} (hpos : OnBoard s.gameMode pos)
    (diceTotal multiplier : Nat) : ∃ rent, calculateRent s pos diceTotal multiplier = .ok rent := by
  have hspace := ownershipAt_mem hs.layout hpos
  simp only [calculateRent, spaceAt_eq hs.layout hpos, ok_bind]
  split
  · exact ⟨0, rfl⟩
  · exact ⟨0, rfl⟩
  · rename_i ownerId howner _
    obtain ⟨p, hp, hid, -⟩ := hs.titles _ hspace.1 ownerId howner
    obtain ⟨owner, hmem, rfl⟩ := exists_player hp
    have hget : getPlayerById s.players ownerId = .ok owner :=
      hid ▸ getPlayerById_eq hs.playerIds hmem
    simp only [hget, getBoardSpace_eq hpos, ok_bind]
    split
    · obtain ⟨n, hn⟩ := countOwned_ok hs owner (onBoard_railroads s.gameMode)
      obtain ⟨base, hbase⟩ := railroadRent_ok n
      simp only [countOwnedRailroads, hn, ok_bind, hbase]
      exact ⟨_, rfl⟩
    · obtain ⟨n, hn⟩ := countOwned_ok hs owner (onBoard_utilities s.gameMode)
      simp only [countOwnedUtilities, hn, ok_bind]
      exact ⟨_, rfl⟩
    · have hmono : ∃ b, monopolyDoubles owner (ownershipAt s.spaces pos)
          (squareAt s.gameMode pos).colorGroup s = .ok b := by
        unfold monopolyDoubles
        split
        · split
          · exact playerOwnsGroup_ok hs.laid owner _
          · exact ⟨false, rfl⟩
        · exact ⟨false, rfl⟩
      obtain ⟨b, hb⟩ := hmono
      simp only [hb, ok_bind]
      split <;> exact ⟨_, rfl⟩
    · exact ⟨0, rfl⟩

/-- So can the cost of repairs on any holdings on the board. -/
theorem repairsCost_ok (hs : Sound s) (perHouse perHotel : Nat) (owned : List Nat)
    (howned : ∀ pos ∈ owned, OnBoard s.gameMode pos) :
    ∃ cost, repairsCost perHouse perHotel s.spaces owned = .ok cost := by
  induction owned with
  | nil => exact ⟨0, rfl⟩
  | cons pos rest ih =>
      obtain ⟨cost, hcost⟩ := ih fun q hq => howned q (List.mem_cons_of_mem _ hq)
      simp only [repairsCost, spaceAt_eq hs.layout (howned pos List.mem_cons_self), ok_bind, hcost]
      split <;> exact ⟨_, rfl⟩

end Costs

/-! ## coming to rest -/

/-- A landing that ends in a touchdown of `r` on the table `a`. -/
def Lands (r : PlayerId) (a : GameState) (leg : Leg) (stop : Option CardDef) (L : Landing) :
    Prop :=
  ∃ s' activeCard, Touchdown r a leg stop s' L.sentToJail ∧ L.state = { s' with activeCard }

theorem SameTable.seated {a a' : GameState} {pid : PlayerId} (h : SameTable a a')
    (hp : Seated a pid) : Seated a' pid := by
  rw [Seated, h.2]; exact hp

/-! ### what the display fields do not touch -/

/-- Whether a player is found depends on the ids alone. -/
theorem getPlayerById_id (players : List PlayerState) (pid : PlayerId) :
    (getPlayerById players pid).map (·.id) =
      if pid ∈ players.map (·.id) then .ok pid else .error .keyError := by
  induction players with
  | nil => rfl
  | cons p rest ih =>
      by_cases hpid : p.id = pid
      · simp [getPlayerById, hpid, orRaise, Except.map]
      · simpa [getPlayerById, hpid, Ne.symm hpid] using ih

/-- What is computed from the id of a player that was found. -/
theorem bind_of_id {x x' : Py PlayerState} {f f' : PlayerState → Py α}
    (h : x'.map (·.id) = x.map (·.id)) (hf : ∀ p q, p.id = q.id → f' p = f q) :
    x' >>= f' = x >>= f := by
  cases x' <;> cases x <;> simp only [Except.map, Except.ok.injEq, Except.error.injEq,
    reduceCtorEq] at h
  · rw [h]
    rfl
  · exact hf _ _ h

theorem countOwned_congr {p q : PlayerState} (h : p.id = q.id) (spaces : List SpaceOwnership)
    (group : List Nat) : countOwned p spaces group = countOwned q spaces group := by
  induction group with
  | nil => rfl
  | cons pos rest ih => simp only [countOwned, ih, h]

theorem monopolyDoubles_congr {p q : PlayerState} (h : p.id = q.id) (o : SpaceOwnership)
    (color : Option PropertyColor) (s : GameState) :
    monopolyDoubles p o color s = monopolyDoubles q o color s := by
  simp only [monopolyDoubles, playerHasRentMonopoly, h]

/-- A rent depends on the ids of the players alone. -/
theorem calculateRent_congr {a a' : GameState} (h : SameTable a a')
    (position diceTotal multiplier : Nat) :
    calculateRent a' position diceTotal multiplier =
      calculateRent a position diceTotal multiplier := by
  obtain ⟨heq, hseats⟩ := h
  have hids : a'.players.map (·.id) = a.players.map (·.id) := by
    rw [← ids_seatsOf a'.players, ← ids_seatsOf a.players]
    exact congrArg (List.map PlayerState.id) hseats
  generalize a'.players = ps at heq hids
  subst heq
  simp only [calculateRent]
  cases spaceAt a.spaces position with
  | error e => rfl
  | ok o =>
      simp only [ok_bind]
      split
      · rfl
      · rfl
      · refine bind_of_id (by rw [getPlayerById_id, getPlayerById_id, hids]) fun p q hid => ?_
        simp only [countOwnedRailroads, countOwnedUtilities, countOwned_congr hid,
          monopolyDoubles_congr hid]
        rfl

/-- What a player is charged on coming to rest is read off the table. -/
theorem restCharge_congr {a a' : GameState} (h : SameTable a a') (r : PlayerId) (leg : Leg) :
    restCharge a' r leg none = restCharge a r leg none := by
  simp only [restCharge, rentCharge, calculateRent_congr h]
  rw [h.1]

/-- A touchdown is judged on the table, so display fields written before it do
not matter. -/
theorem Touchdown.of_sameTable {r : PlayerId} {a a' s' : GameState} {leg : Leg}
    {stop : Option CardDef} {jailed : Bool} (h : SameTable a a')
    (ht : Touchdown r a' leg stop s' jailed) : Touchdown r a leg stop s' jailed := by
  have hcharge {amount creditor c} (hc : Charged r amount creditor a' c) :
      Charged r amount creditor a c := hc.of_sameTable h
  have hrest := restCharge_congr h r leg
  obtain ⟨heq, hseats⟩ := h
  have hhold : a'.holdings r = a.holdings r := by
    rw [GameState.holdings, GameState.seat?, hseats]; rfl
  generalize a'.players = ps' at heq hrest
  subst heq
  cases ht with
  | jailSpace hcorner hps => exact .jailSpace hcorner (hseats ▸ hps)
  | jailCard hcard hps => exact .jailCard hcard (hseats ▸ hps)
  | taxed htax hc hb hps => exact .taxed (hrest ▸ htax) (hcharge hc) hb hps
  | taxOwed htax hc hb => exact .taxOwed (hrest ▸ htax) (hcharge hc) hb
  | rented hrent hc hb => exact .rented (hrest ▸ hrent) (hcharge hc) hb
  | rentOwed hrent hc hb => exact .rentOwed (hrest ▸ hrent) (hcharge hc) hb
  | rested hnone hpend hps => exact .rested (hrest ▸ hnone) hpend (hps.trans hseats)
  | collected hcard hps => exact .collected hcard (hseats ▸ hps)
  | charged hcard hc =>
      refine .charged ?_ (hcharge hc)
      simp only [cardCharge, hhold] at hcard ⊢
      exact hcard
  | collectedFromEach hcard htotal hps =>
      exact .collectedFromEach hcard (hseats ▸ htotal) (hseats ▸ hps)
  | paidEach hcard hps => exact .paidEach hcard (hseats ▸ hps)
  | keptJailCard hcard hps => exact .keptJailCard hcard (hseats ▸ hps)

/-- The same of a whole landing. -/
theorem Lands.of_sameTable {r : PlayerId} {a a' : GameState} {leg : Leg} {stop : Option CardDef}
    {L : Landing} (h : SameTable a a') (hl : Lands r a' leg stop L) : Lands r a leg stop L := by
  obtain ⟨s', activeCard, ht, heq⟩ := hl
  exact ⟨s', activeCard, ht.of_sameTable h, heq⟩

section Spaces

variable {s : GameState} {p : PlayerState} {leg : Leg} {rng : Rng}

/-- Refreshing the net worths of a sound table. -/
theorem finalize_same (hs : Sound s) :
    ∃ ps, finalize s s.players s.turn = .ok { s with players := ps } ∧
      SameTable s { s with players := ps } := by
  obtain ⟨ps, hfin, hps⟩ := finalize_eq s.players hs rfl s.turn
  exact ⟨ps, hfin, rfl, hps⟩

/-- The corner that sends to jail never raises, and ends in a touchdown in
jail. -/
theorem landOnGoToJail_sat (hs : Sound s) (hp : p.bare ∈ s.seats)
    (hcorner : (squareAt leg.mode leg.position).corner = some .gotojail) :
    Sat (fun _ => False) (landOnGoToJail s p rng) (Lands p.id s leg none) := by
  have hval : updatePlayerNetWorth (sendToJail p s.gameMode) s.spaces s.gameMode = .ok _ :=
    updatePlayerNetWorth_eq hs.layout fun q hq => (hs.deeds p.bare hp q hq).onBoard
  obtain ⟨ps, hput, hps⟩ := putPlayer_seats
    (v := revalue s.spaces s.gameMode (sendToJail p s.gameMode)) (g := (sendToJail · s.gameMode))
    hs.playerIds hp rfl rfl
  obtain ⟨ps', href, hps'⟩ := refreshAllNetWorth_seats _ hs.layout hps
    (hs.deeds_editSeat fun _ => rfl)
  simp only [landOnGoToJail, hval, hput, ok_bind, finalize, href, sat_bind, sat_pure]
  exact ⟨_, s.activeCard, .jailSpace hcorner hps', rfl⟩

theorem seated_of_bare (hp : p.bare ∈ s.seats) : Seated s p.id := ⟨p.bare, hp, rfl⟩

/-- A tax space never raises; the tax is the charge of the touchdown. -/
theorem landOnTax_sat (hs : Sound s) (hp : p.bare ∈ s.seats) {amount : Nat}
    (htax : restCharge s p.id leg none = some (none, (amount : Int))) :
    Sat (fun _ => False) (landOnTax s p amount rng) (Lands p.id s leg none) := by
  obtain ⟨ps, hfin, hsame⟩ := finalize_same hs
  have hs' := hsame.sound hs
  simp only [landOnTax, hfin, ok_bind, sat_bind]
  refine (attemptPayment_sat hs' (hsame.seated (seated_of_bare hp)) (by simp)).imp ?_
  intro c hc
  have hc' := hc.of_sameTable hsame
  simp only [sat_ite, sat_pure, sat_bind]
  refine ⟨fun hb => ⟨_, c.activeCard, .taxOwed htax hc' (Option.isSome_iff_ne_none.mp hb), rfl⟩,
    fun hb => ?_⟩
  have hb' : c.bankruptcy = none := by simpa using hb
  obtain ⟨ps', hfin', hps'⟩ := finalize_eq c.players (hc.sound hs') rfl
    { s.turn with pendingBuyPosition := none, phase := .postRoll }
  simp only [hfin', sat_ok]
  refine ⟨_, c.activeCard, .taxed htax hc' hb' hps', ?_⟩
  rw [hc'.turn_eq hb']

/-- A space of somebody else never raises; the rent is the charge of the
touchdown. -/
theorem landOnRent_sat (hs : Sound s) (hp : p.bare ∈ s.seats) {roll : DiceRoll} {m : Nat}
    {owner : PlayerId} {space : BoardSpace} (hpos : leg.position = p.position)
    (howner : (ownershipAt s.spaces leg.position).ownerId = some owner)
    (hcharge : ∀ rent, calculateRent s p.position (roll.die1 + roll.die2) m = .ok rent →
      restCharge s p.id leg none = some (some owner, rent)) :
    Sat (fun _ => False) (landOnRent s p roll space owner m rng) (Lands p.id s leg none) := by
  have hboard : OnBoard s.gameMode p.position := hs.standing p.bare hp
  obtain ⟨o, ho, hid, -⟩ := hs.titles _ (ownershipAt_mem hs.layout (hpos ▸ hboard)).1 owner howner
  obtain ⟨o, hmem, rfl⟩ := exists_player ho
  have hget : getPlayerByIdFromState s owner = .ok o := by
    rw [← hid]; exact hs.getPlayer hmem
  obtain ⟨rent, hrent⟩ := calculateRent_ok hs hboard (roll.die1 + roll.die2) m
  obtain ⟨ps, hfin, hsame⟩ := finalize_same hs
  have hs' := hsame.sound hs
  have hseat : Seated { s with players := ps } owner :=
    hsame.seated ⟨o.bare, ho, hid⟩
  have hoid : o.id = owner := hid
  simp only [landOnRent, hget, hrent, hfin, ok_bind, sat_bind, hoid]
  refine (attemptPayment_sat hs' (hsame.seated (seated_of_bare hp)) (by simp [hseat])).imp ?_
  intro c hc
  have hc' := hc.of_sameTable hsame
  simp only [sat_ite, sat_pure]
  constructor
  · intro hb
    exact ⟨_, c.activeCard,
      .rentOwed (hcharge rent hrent) hc' (Option.isSome_iff_ne_none.mp hb), rfl⟩
  · intro hb
    exact ⟨_, c.activeCard, .rented (hcharge rent hrent) hc' (by simpa using hb), rfl⟩

/-- Any other space never raises, and charges nothing. -/
theorem landOnRest_sat (hs : Sound s) {purchasable : Bool} (hpos : leg.position = p.position)
    (hnone : restCharge s p.id leg none = none)
    (hpur : purchasable = decide (Purchasable s.gameMode leg.position)) :
    Sat (fun _ => False)
      (landOnRest s p purchasable (ownershipAt s.spaces leg.position) rng)
      (Lands p.id s leg none) := by
  unfold landOnRest
  obtain ⟨ps, hfin, hps⟩ := finalize_eq s.players hs rfl
    { s.turn with
      pendingBuyPosition := if purchasable ∧ (ownershipAt s.spaces leg.position).ownerId = none
        then some p.position else none
      phase := .postRoll }
  simp only [hfin, ok_bind, sat_pure]
  refine ⟨_, s.activeCard, .rested hnone (fun pos hpending => ?_) hps, rfl⟩
  split at hpending
  · rename_i hfree
    obtain rfl : p.position = pos := by simpa using hpending
    rw [hpur, hpos] at hfree
    exact ⟨by simpa using hfree.1, hfree.2⟩
  · simp at hpending

/-- A space that draws no card and charges no tax. -/
theorem landOnSpace_sat (hs : Sound s) (hp : p.bare ∈ s.seats) {roll : DiceRoll} {m : Nat}
    {space : BoardSpace} (hcorner : (squareAt s.gameMode p.position).corner ≠ some .gotojail)
    (htax : (squareAt s.gameMode p.position).tax = none) :
    Sat (fun _ => False) (landOnSpace s p roll space m rng)
      (Lands p.id s (legOf s p (roll.die1 + roll.die2) m rng) none) := by
  have hboard : OnBoard s.gameMode p.position := hs.standing p.bare hp
  set leg := legOf s p (roll.die1 + roll.die2) m rng with hleg
  have hrest (hnone : restCharge s p.id leg none = none) : Sat (fun _ => False)
      (landOnRest s p (decide (Purchasable s.gameMode p.position))
        (ownershipAt s.spaces p.position) rng) (Lands p.id s leg none) :=
    landOnRest_sat hs rfl hnone rfl
  have hcharge : restCharge s p.id leg none = rentCharge s p.id leg := by
    simp only [restCharge, hleg, legOf, if_neg hcorner, htax]
  simp only [landOnSpace, spaceAt_eq hs.layout hboard, isPurchasable_eq hboard, ok_bind]
  cases howner : (ownershipAt s.spaces p.position).ownerId with
  | none => exact hrest (by rw [hcharge]; simp only [rentCharge, hleg, legOf, howner])
  | some owner =>
      have hrent : rentCharge s p.id leg = if Purchasable s.gameMode p.position ∧ owner ≠ p.id ∧
          ¬ (ownershipAt s.spaces p.position).isMortgaged then
            (calculateRent s p.position (roll.die1 + roll.die2) m).toOption.map (some owner, ·)
          else none := by
        simp only [rentCharge, hleg, legOf, howner]
      simp only [sat_ite]
      refine ⟨fun hlet => ?_, fun hlet => hrest ?_⟩
      · refine landOnRent_sat hs hp rfl howner fun rent hcalc => ?_
        rw [hcharge, hrent, if_pos (by simpa using hlet), hcalc]
        rfl
      · rw [hcharge, hrent, if_neg (by simpa using hlet)]

end Spaces

/-! ## cards carried out in place -/

section Cards

variable {s : GameState} {p : PlayerState} {rng : Rng}

/-- The loop of a collect-from-each card takes from each seat what it gives. -/
theorem takeFromOthers_eq (hs : Sound s) (pid : PlayerId) (amount : Int)
    {players : List PlayerState}
    (howned : ∀ p ∈ players, ∀ q ∈ p.ownedPositions, OnBoard s.gameMode q) :
    ∃ ps, takeFromOthers pid amount s.spaces s.gameMode players =
        .ok (ps, ((seatsOf players).map (givenBy pid amount)).sum) ∧
      seatsOf ps = (seatsOf players).map fun p => debit (givenBy pid amount p) p := by
  induction players with
  | nil => exact ⟨[], rfl, rfl⟩
  | cons p rest ih =>
      obtain ⟨ps, hps, hseats⟩ := ih fun q hq => howned q (List.mem_cons_of_mem _ hq)
      by_cases hskip : p.id = pid ∨ p.isBankrupt
      · have hzero : givenBy pid amount p.bare = 0 := if_pos hskip
        refine ⟨p :: ps, by simp [takeFromOthers, hskip, hps, hzero], ?_⟩
        simp [hseats, hzero, debit]
        rfl
      · have hpay : givenBy pid amount p.bare = min amount p.balance := if_neg hskip
        have hval : updatePlayerNetWorth (debit (min amount p.balance) p) s.spaces s.gameMode =
            .ok _ :=
          updatePlayerNetWorth_eq hs.layout (howned p List.mem_cons_self)
        refine ⟨revalue s.spaces s.gameMode (debit (min amount p.balance) p) :: ps, ?_, ?_⟩
        · simp only [takeFromOthers, if_neg hskip]
          show (updatePlayerNetWorth (debit (min amount p.balance) p) s.spaces s.gameMode >>= _) = _
          simp [hval, hps, hpay]
        · simp [hseats, hpay]
          rfl

/-- The loop of a pay-each card gives to every other active seat. -/
theorem giveToOthers_eq (hs : Sound s) (pid : PlayerId) (amount : Int)
    {players : List PlayerState}
    (howned : ∀ p ∈ players, ∀ q ∈ p.ownedPositions, OnBoard s.gameMode q) :
    ∃ ps, giveToOthers pid amount s.spaces s.gameMode players = .ok ps ∧
      seatsOf ps = (seatsOf players).map fun p =>
        if p.id = pid ∨ p.isBankrupt then p else credit amount p := by
  induction players with
  | nil => exact ⟨[], rfl, rfl⟩
  | cons p rest ih =>
      obtain ⟨ps, hps, hseats⟩ := ih fun q hq => howned q (List.mem_cons_of_mem _ hq)
      by_cases hskip : p.id = pid ∨ p.isBankrupt
      · refine ⟨p :: ps, by simp [giveToOthers, hskip, hps], ?_⟩
        simp [hseats, hskip]
      · have hval : updatePlayerNetWorth (credit amount p) s.spaces s.gameMode = .ok _ :=
          updatePlayerNetWorth_eq hs.layout (howned p List.mem_cons_self)
        refine ⟨revalue s.spaces s.gameMode (credit amount p) :: ps, ?_, ?_⟩
        · simp only [giveToOthers, if_neg hskip]
          show (updatePlayerNetWorth (credit amount p) s.spaces s.gameMode >>= _) = _
          simp [hval, hps]
        · simp [hseats, hskip]
          rfl

/-- A landing as a card space hands it on: the card is on display, and a
player sent to jail has lost the extra roll. -/
def shown (L : Landing) (activeCard : ActiveCard) : Landing :=
  if L.sentToJail then
    { L with state := { L.state with
      activeCard := some activeCard
      turn := { L.state.turn with phase := .postRoll, doublesStreak := 0 } } }
  else { L with state := { L.state with activeCard := some activeCard } }

/-- Showing the card changes no landing. -/
theorem Lands.shown {r : PlayerId} {a : GameState} {leg : Leg} {stop : Option CardDef}
    {L : Landing} (h : Lands r a leg stop L) (activeCard : ActiveCard) :
    Lands r a leg stop (shown L activeCard) := by
  obtain ⟨s', ac, ht, heq⟩ := h
  obtain ⟨state, events, jailed, rng⟩ := L
  simp only at ht heq
  subst heq
  cases ht with
  | jailSpace hcorner hps => exact ⟨_, some activeCard, .jailSpace hcorner hps, rfl⟩
  | jailCard hcard hps => exact ⟨_, some activeCard, .jailCard hcard hps, rfl⟩
  | taxed htax hc hb hps => exact ⟨_, some activeCard, .taxed htax hc hb hps, rfl⟩
  | taxOwed htax hc hb => exact ⟨_, some activeCard, .taxOwed htax hc hb, rfl⟩
  | rented hrent hc hb => exact ⟨_, some activeCard, .rented hrent hc hb, rfl⟩
  | rentOwed hrent hc hb => exact ⟨_, some activeCard, .rentOwed hrent hc hb, rfl⟩
  | rested hnone hpend hps => exact ⟨_, some activeCard, .rested hnone hpend hps, rfl⟩
  | collected hcard hps => exact ⟨_, some activeCard, .collected hcard hps, rfl⟩
  | charged hcard hc => exact ⟨_, some activeCard, .charged hcard hc, rfl⟩
  | collectedFromEach hcard htotal hps =>
      exact ⟨_, some activeCard, .collectedFromEach hcard htotal hps, rfl⟩
  | paidEach hcard hps => exact ⟨_, some activeCard, .paidEach hcard hps, rfl⟩
  | keptJailCard hcard hps => exact ⟨_, some activeCard, .keptJailCard hcard hps, rfl⟩

/-- Collecting from every other player never raises, and each gives what they
have, up to the amount. -/
theorem collectFromEach_sat (hs : Sound s) (hp : p.bare ∈ s.seats) (amount : Nat) :
    ∃ ps ps' receiver,
      takeFromOthers p.id amount s.spaces s.gameMode s.players =
        .ok (ps, (s.seats.map (givenBy p.id amount)).sum) ∧
      getPlayerById ps p.id = .ok receiver ∧
      (updatePlayerNetWorth (credit (s.seats.map (givenBy p.id amount)).sum receiver) s.spaces
        s.gameMode >>= putPlayer ps) = .ok ps' ∧
      seatsOf ps' = s.seats.map
        (collectEach p.id amount (s.seats.map (givenBy p.id amount)).sum) := by
  obtain ⟨ps, htake, hps⟩ := takeFromOthers_eq hs p.id amount
    fun q hq => hs.owned hq
  set total := (s.seats.map (givenBy p.id amount)).sum
  have hmem : debit (givenBy p.id amount p.bare) p.bare ∈ seatsOf ps := by
    rw [hps]; exact List.mem_map_of_mem hp
  obtain ⟨receiver, hr, hbare⟩ := List.mem_map.mp hmem
  have hrid : receiver.id = p.id := id_eq_of_bare
    (q := receiver) (p := debit (givenBy p.id amount p.bare) p) hbare
  have hids : (ps.map (·.id)).Nodup := by
    rw [← ids_seatsOf, hps, List.map_map]; exact hs.ids
  have hrowned : receiver.ownedPositions = p.ownedPositions := by
    rw [← bare_ownedPositions, hbare]; rfl
  have hval : updatePlayerNetWorth (credit total receiver) s.spaces s.gameMode = .ok _ :=
    updatePlayerNetWorth_eq hs.layout fun q hq =>
      (hs.deeds p.bare hp q (by rw [bare_ownedPositions, ← hrowned]; exact hq)).onBoard
  obtain ⟨ps', hput, hps'⟩ := putPlayer_seats (p := receiver)
    (v := revalue s.spaces s.gameMode (credit total receiver)) (g := credit total)
    hids (mem_seatsOf hr) rfl rfl
  refine ⟨ps, ps', receiver, htake, hrid ▸ getPlayerById_eq hids hr, ?_, ?_⟩
  · rw [hval, ok_bind, hput]
  · rw [hps', hrid, hps]
    simp only [editSeat, editAt, List.map_map]
    refine List.map_congr_left fun q _ => ?_
    simp only [Function.comp, debit_id, collectEach]
    by_cases hq : q.id = p.id
    · have hzero : givenBy p.id amount q = 0 := if_pos (.inl hq)
      simp only [if_pos hq, hzero, debit, Int.sub_zero]
    · rw [if_neg hq]
      exact if_neg hq

/-- Paying everybody as one map over the seats: the payer loses the total, and
each of the others gains the amount. -/
theorem payEach_seats (seats : List PlayerState) (pid : PlayerId) (amount total : Int) :
    (editSeat pid (debit total) seats).map
        (fun p => if p.id = pid ∨ p.isBankrupt then p else credit amount p) =
      seats.map (payEach pid amount total) := by
  simp only [editSeat, editAt, List.map_map, List.map_inj_left, Function.comp]
  intro q _
  by_cases hq : q.id = pid
  · simp [payEach, hq]
  · simp [hq, payEach]

theorem otherActive_seats (players : List PlayerState) (pid : PlayerId) :
    otherActive (seatsOf players) pid = otherActive players pid := by
  simp only [otherActive, seatsOf, List.filter_map, List.length_map]
  rfl

end Cards

end Monopoly
