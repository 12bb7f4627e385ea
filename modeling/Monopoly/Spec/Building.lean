import Monopoly.Rules.Actions
import Monopoly.Spec.Resolve

/-!
# Monopoly.Spec.Building

Building and mortgaging on a sound table: the checks never raise on a board
position, and an accepted operation moves the owner's cash and edits one
space, which keeps its owner.
-/

namespace Monopoly

section Checks

variable {s : GameState} {pid : PlayerId} {pos : Nat}

/-- Reading the building levels of a group raises nothing when the whole group
is on the board. -/
theorem groupLevels_ok (hs : Laid s) {group : List Nat}
    (hg : ∀ q ∈ group, OnBoard s.gameMode q) :
    ∃ levels, groupLevels s.spaces group = .ok levels ∧ levels.length = group.length := by
  induction group with
  | nil => exact ⟨[], rfl, rfl⟩
  | cons q rest ih =>
      obtain ⟨levels, hl, hlen⟩ := ih fun r hr => hg r (List.mem_cons_of_mem _ hr)
      refine ⟨buildingLevel (ownershipAt s.spaces q) :: levels, ?_, by simp [hlen]⟩
      simp only [groupLevels, spaceAt_eq hs.layout (hg q List.mem_cons_self), ok_bind, hl]
      rfl

/-- A street belongs to the group of its own color, so the checks on the group
see the street itself. -/
theorem mem_colorGroup {mode : GameMode} {color : PropertyColor} (hpos : OnBoard mode pos)
    (hcolor : (squareAt mode pos).colorGroup = some color) :
    pos ∈ positionsInColorGroup color mode := by
  obtain ⟨space, hmem, hp⟩ := onBoard_iff_square.mp hpos
  have hsq := getBoardSpace_eq hpos
  unfold getBoardSpace at hsq
  cases hf : (boardForMode mode).find? fun space => decide (space.position = pos) with
  | none => exact absurd (List.find?_eq_none.mp hf space hmem) (by simpa using hp)
  | some found =>
      rw [hf] at hsq
      obtain rfl : found = squareAt mode pos := by simpa [orRaise] using hsq
      refine List.mem_map.mpr ⟨squareAt mode pos, List.mem_filter.mpr ⟨?_, by simpa using hcolor⟩,
        by simpa using List.find?_some hf⟩
      rw [board_eq]
      exact List.mem_of_find?_eq_some hf

/-- The lowest and the highest building level of a color group exist. -/
theorem groupLevels_extremes (hs : Laid s) {color : PropertyColor}
    (hpos : OnBoard s.gameMode pos)
    (hcolor : (squareAt s.gameMode pos).colorGroup = some color) :
    ∃ levels least greatest,
      groupLevels s.spaces (positionsInColorGroup color s.gameMode) = .ok levels ∧
      pyMin levels = .ok least ∧ pyMax levels = .ok greatest := by
  obtain ⟨levels, hl, hlen⟩ := groupLevels_ok hs (onBoard_colorGroup _ color)
  have hmem := mem_colorGroup hpos hcolor
  have hne : levels ≠ [] := by
    rintro rfl
    rw [List.length_nil, eq_comm, List.length_eq_zero_iff] at hlen
    rw [hlen] at hmem
    simp at hmem
  obtain ⟨least, hleast⟩ : ∃ least, levels.min? = some least := by
    cases h : levels.min? with
    | none => exact absurd (List.min?_eq_none_iff.mp h) hne
    | some a => exact ⟨a, rfl⟩
  obtain ⟨greatest, hgreatest⟩ : ∃ greatest, levels.max? = some greatest := by
    cases h : levels.max? with
    | none => exact absurd (List.max?_eq_none_iff.mp h) hne
    | some a => exact ⟨a, rfl⟩
  exact ⟨levels, least, greatest, hl, by rw [pyMin, hleast]; rfl, by rw [pyMax, hgreatest]; rfl⟩

/-- Asking for a monopoly raises nothing, whatever the color. -/
theorem playerOwnsMonopoly_ok (hs : Laid s) (p : PlayerState) (color : PropertyColor) :
    ∃ b, playerOwnsMonopoly p color s.spaces s.gameMode = .ok b :=
  playerOwnsGroup_ok hs p color

/-- A check of what `pid` may do at `pos`: it answers, and a yes means that
`pid` owns the space and has the cash. -/
def Permits (s : GameState) (pid : PlayerId) (pos : Nat) (cost : Int) (b : Bool) : Prop :=
  b = true → (ownershipAt s.spaces pos).ownerId = some pid ∧ cost ≤ s.cash pid

/-- `can_build_on` never raises on the board. What it permits is a title of the
player and the house price in cash. -/
theorem canBuildOn_sat (hs : Laid s) (hpid : Seated s pid) (hpos : OnBoard s.gameMode pos) :
    Sat (fun _ => False) (canBuildOn s pid pos)
      (Permits s pid pos ((squareAt s.gameMode pos).houseCost.getD 0 : Nat)) := by
  obtain ⟨p, hp, rfl⟩ := hpid.player
  have hcash := hs.cash_eq hp
  simp only [canBuildOn, hs.getPlayer hp, spaceAt_eq hs.layout hpos, getBoardSpace_eq hpos,
    ok_bind, sat_ite, sat_pure]
  refine ⟨fun _ => by simp [Permits], fun howner => ?_⟩
  split
  · rename_i color _ hcolor
    obtain ⟨b, hb⟩ := playerOwnsMonopoly_ok hs p color
    obtain ⟨levels, least, greatest, hl, hmin, hmax⟩ := groupLevels_extremes hs hpos hcolor
    simp only [hb, hl, hmin, ok_bind, sat_ite, sat_pure]
    refine ⟨fun _ => by simp [Permits], fun _ => ⟨fun _ => by simp [Permits], fun _ =>
      ⟨fun _ => by simp [Permits], fun _ => ⟨fun _ => by simp [Permits], fun _ hge => ?_⟩⟩⟩⟩
    rw [hcash]
    exact ⟨by simpa using howner, by simpa using hge⟩
  · simp [Permits]

/-- `can_sell_on` never raises on the board, and permits a sale only to the
owner of the street. -/
theorem canSellOn_sat (hs : Laid s) (hpid : Seated s pid) (hpos : OnBoard s.gameMode pos) :
    Sat (fun _ => False) (canSellOn s pid pos) fun b =>
      b = true → (ownershipAt s.spaces pos).ownerId = some pid := by
  obtain ⟨p, hp, rfl⟩ := hpid.player
  simp only [canSellOn, hs.getPlayer hp, spaceAt_eq hs.layout hpos, getBoardSpace_eq hpos,
    ok_bind, sat_ite, sat_pure]
  refine ⟨fun _ => by simp, fun howner => ?_⟩
  have howner' : (ownershipAt s.spaces pos).ownerId = some p.id := by simpa using howner
  split
  · rename_i color _ hcolor
    obtain ⟨levels, least, greatest, hl, hmin, hmax⟩ := groupLevels_extremes hs hpos hcolor
    simp only [hl, hmax, ok_bind, sat_ite, sat_pure]
    exact ⟨fun _ => by simp, fun _ _ => howner'⟩
  · simp

/-- Looking for houses on a group raises nothing when the whole group is on the
board. -/
theorem groupUnbuilt_ok (hs : Laid s) {group : List Nat}
    (hg : ∀ q ∈ group, OnBoard s.gameMode q) : ∃ b, groupUnbuilt s.spaces group = .ok b := by
  induction group with
  | nil => exact ⟨true, rfl⟩
  | cons q rest ih =>
      obtain ⟨b, hb⟩ := ih fun r hr => hg r (List.mem_cons_of_mem _ hr)
      simp only [groupUnbuilt, spaceAt_eq hs.layout (hg q List.mem_cons_self), ok_bind, hb]
      split <;> exact ⟨_, rfl⟩

/-- `can_mortgage` never raises on the board, and permits only the owner. -/
theorem canMortgage_sat (hs : Laid s) (hpid : Seated s pid) (hpos : OnBoard s.gameMode pos) :
    Sat (fun _ => False) (canMortgage s pid pos) fun b =>
      b = true → (ownershipAt s.spaces pos).ownerId = some pid := by
  obtain ⟨p, hp, rfl⟩ := hpid.player
  have hgroup : ∃ b, groupAllowsMortgage s (squareAt s.gameMode pos) = .ok b := by
    unfold groupAllowsMortgage
    split
    · exact groupUnbuilt_ok hs (onBoard_colorGroup _ _)
    · exact ⟨true, rfl⟩
  obtain ⟨b, hb⟩ := hgroup
  simp only [canMortgage, hs.getPlayer hp, spaceAt_eq hs.layout hpos, getBoardSpace_eq hpos, hb,
    isPurchasable_eq hpos, ok_bind, sat_ite, sat_pure, sat_ok]
  refine ⟨fun _ => by simp, fun howner => ⟨fun _ => by simp, fun _ => ⟨fun _ => by simp,
    fun _ _ => ?_⟩⟩⟩
  have hne := not_or.mp howner
  simpa using hne.1

/-- `can_unmortgage` never raises on the board. What it permits is a title of
the player and the cost of lifting the mortgage in cash. -/
theorem canUnmortgage_sat (hs : Laid s) (hpid : Seated s pid) (hpos : OnBoard s.gameMode pos) :
    Sat (fun _ => False) (canUnmortgage s pid pos)
      (Permits s pid pos
        (unmortgageCost ((squareAt s.gameMode pos).mortgageValue.getD 0) : Nat)) := by
  obtain ⟨p, hp, rfl⟩ := hpid.player
  have hcash := hs.cash_eq hp
  simp only [canUnmortgage, hs.getPlayer hp, spaceAt_eq hs.layout hpos, getBoardSpace_eq hpos,
    ok_bind, sat_ite, sat_pure]
  refine ⟨fun _ => by simp [Permits], fun howner hge => ?_⟩
  have hne := not_or.mp howner
  rw [hcash]
  exact ⟨by simpa using hne.1, by simpa using hge⟩

end Checks

/-! ## the four operations -/

/-- What an accepted building or mortgage operation does. -/
inductive Reworked (s : GameState) (pid : PlayerId) (pos : Nat) : GameState → Prop
  | mk {ps : List PlayerState} {f : SpaceOwnership → SpaceOwnership} {delta bankHouses
      bankHotels : Int} :
      (ownershipAt s.spaces pos).ownerId = some pid →
      seatsOf ps = editSeat pid (credit delta) s.seats →
      (∀ o, (f o).position = o.position) → (∀ o, (f o).ownerId = o.ownerId) →
      (0 ≤ s.cash pid → 0 ≤ s.cash pid + delta) →
      Reworked s pid pos
        { s with players := ps, spaces := editSpace pos f s.spaces, bankHouses, bankHotels }

/-- The state after the cash of `pid` has moved by `delta` and the record of
`pos` was edited by `f`. -/
def held (s : GameState) (pid : PlayerId) (pos : Nat) (f : SpaceOwnership → SpaceOwnership)
    (delta : Int) : GameState :=
  { s with
    players := (editSeat pid (credit delta) s.players).map
      (revalue (editSpace pos f s.spaces) s.gameMode)
    spaces := editSpace pos f s.spaces }

section Operations

variable {s : GameState} {pid : PlayerId} {pos : Nat}

/-- The net worth is computed from the rest of the record. -/
theorem revalue_revalue (spaces spaces' : List SpaceOwnership) (mode : GameMode)
    (q : PlayerState) : revalue spaces mode (revalue spaces' mode q) = revalue spaces mode q := rfl

/-- Net worth is refreshed last: refreshing it inside the edit of one seat as
well makes no difference. -/
theorem map_revalue_editSeat (spaces : List SpaceOwnership) (mode : GameMode) (pid : PlayerId)
    (f : PlayerState → PlayerState) (players : List PlayerState) :
    (editSeat pid (fun q => revalue spaces mode (f q)) players).map (revalue spaces mode) =
      (editSeat pid f players).map (revalue spaces mode) := by
  simp only [editSeat, editAt, List.map_map]
  refine List.map_congr_left fun q _ => ?_
  by_cases hq : q.id = pid
  · simp [hq, revalue_revalue]
  · simp [hq]

/-- The common end of the four operations is `held`, one space edited and one
balance moved, with no error on the board. -/
theorem updateHolding_held (hs : Laid s) {p : PlayerState} (hp : p ∈ s.players)
    (hpos : OnBoard s.gameMode pos) {f : SpaceOwnership → SpaceOwnership}
    (hf : ∀ o, (f o).position = o.position) (delta : Int) :
    updateHolding s p.id p pos (f (ownershipAt s.spaces pos)) delta =
      .ok (held s p.id pos f delta) := by
  have hlayout : Layout s.gameMode (editSpace pos f s.spaces) := hs.layout.editSpace pos hf
  have hval : updatePlayerNetWorth (credit delta p) (editSpace pos f s.spaces) s.gameMode =
      .ok _ :=
    updatePlayerNetWorth_eq hlayout (hs.owned p hp)
  have hassign : assignPlayer s.players p.id
      (revalue (editSpace pos f s.spaces) s.gameMode (credit delta p)) = .ok _ :=
    assignPlayer_eq hs.playerIds hp fun q =>
      revalue (editSpace pos f s.spaces) s.gameMode (credit delta q)
  have howned : ∀ q ∈ editSeat p.id (fun q =>
      revalue (editSpace pos f s.spaces) s.gameMode (credit delta q)) s.players,
      ∀ r ∈ q.ownedPositions, OnBoard s.gameMode r := by
    intro q hq
    obtain ⟨q', hq', rfl⟩ := mem_editSeat.mp hq
    split
    · exact hs.owned q' hq'
    · exact hs.owned q' hq'
  have href := refreshAllNetWorth_eq hlayout howned
  simp only [updateHolding, replaceSpace_eq hs.layout hpos f, ok_bind]
  show (updatePlayerNetWorth (credit delta p) (editSpace pos f s.spaces) s.gameMode >>= _) = _
  simp only [hval, hassign, href, ok_bind, map_revalue_editSeat]
  rfl

/-- Up to net worth, `held` moves nothing but the balance of the one player. -/
theorem held_seats (s : GameState) (pid : PlayerId) (pos : Nat)
    (f : SpaceOwnership → SpaceOwnership) (delta : Int) :
    (held s pid pos f delta).seats = editSeat pid (credit delta) s.seats :=
  (seatsOf_map_revalue _).trans (seatsOf_editSeat fun _ => rfl)

/-- `updateHolding_held` as the frame lemmas use it: only players and spaces
differ, and the seats are those before with one balance moved. -/
theorem updateHolding_eq (hs : Laid s) {p : PlayerState} (hp : p ∈ s.players)
    (hpos : OnBoard s.gameMode pos) {f : SpaceOwnership → SpaceOwnership}
    (hf : ∀ o, (f o).position = o.position) (delta : Int) :
    ∃ ps, updateHolding s p.id p pos (f (ownershipAt s.spaces pos)) delta =
        .ok { s with players := ps, spaces := editSpace pos f s.spaces } ∧
      seatsOf ps = editSeat p.id (credit delta) s.seats :=
  ⟨_, updateHolding_held hs hp hpos hf delta, held_seats s p.id pos f delta⟩

/-- Off the board every check raises at the first lookup. -/
theorem checks_off (hs : Laid s) (hpid : Seated s pid) (hpos : ¬ OnBoard s.gameMode pos) :
    canBuildOn s pid pos = .error .keyError ∧ canSellOn s pid pos = .error .keyError ∧
    canMortgage s pid pos = .error .keyError ∧ canUnmortgage s pid pos = .error .keyError := by
  obtain ⟨p, hp, rfl⟩ := hpid.player
  simp only [canBuildOn, canSellOn, canMortgage, canUnmortgage, hs.getPlayer hp,
    spaceAt_off hs.layout hpos, ok_bind, error_bind, and_self]

/-- An accepted build reworks one title of the builder. On a board position a
refusal is an `IllegalMoveError`, never another exception. -/
theorem buildHouse_sat (hs : Sound s) (hpid : Seated s pid) :
    Sat (fun e => OnBoard s.gameMode pos → e.IsIllegalMove) (buildHouse s pid pos)
      (Reworked s pid pos) := by
  by_cases hpos : OnBoard s.gameMode pos
  · have hcan := canBuildOn_sat hs.laid hpid hpos
    obtain ⟨p, hp, rfl⟩ := hpid.player
    simp only [buildHouse, sat_bind]
    refine hcan.mono (fun _ h => h.elim) fun b hb => ?_
    simp only [sat_illegalIf, hs.getPlayer hp, spaceAt_eq hs.layout hpos, getBoardSpace_eq hpos,
      sat_ok, sat_ite, sat_bind, sat_pure]
    refine ⟨fun _ _ => trivial, fun hbt => ?_⟩
    obtain ⟨howner, hcost⟩ := hb (by simpa using hbt)
    constructor
    · intro _
      obtain ⟨ps, hupd, hps⟩ := updateHolding_eq hs.laid hp hpos
        (f := fun o => { o with houses := 0, hasHotel := true }) (fun _ => rfl)
        (-((squareAt s.gameMode pos).houseCost.getD 0 : Nat))
      simp only [hupd, sat_ok]
      exact .mk howner hps (fun _ => rfl) (fun _ => rfl) (fun _ => by omega)
    · intro _
      obtain ⟨ps, hupd, hps⟩ := updateHolding_eq hs.laid hp hpos
        (f := fun o => { o with houses := o.houses + 1 }) (fun _ => rfl)
        (-((squareAt s.gameMode pos).houseCost.getD 0 : Nat))
      simp only [hupd, sat_ok]
      exact .mk howner hps (fun _ => rfl) (fun _ => rfl) (fun _ => by omega)
  · simp [buildHouse, (checks_off hs.laid hpid hpos).1, hpos]

/-- The same of a sale of a house. -/
theorem sellHouse_sat (hs : Sound s) (hpid : Seated s pid) :
    Sat (fun e => OnBoard s.gameMode pos → e.IsIllegalMove) (sellHouse s pid pos)
      (Reworked s pid pos) := by
  by_cases hpos : OnBoard s.gameMode pos
  · have hcan := canSellOn_sat hs.laid hpid hpos
    obtain ⟨p, hp, rfl⟩ := hpid.player
    simp only [sellHouse, sat_bind]
    refine hcan.mono (fun _ h => h.elim) fun b hb => ?_
    simp only [sat_illegalIf, hs.getPlayer hp, spaceAt_eq hs.layout hpos, getBoardSpace_eq hpos,
      sat_ok, sat_ite, sat_bind, sat_pure]
    refine ⟨fun _ _ => trivial, fun hbt => ?_⟩
    have howner := hb (by simpa using hbt)
    constructor
    · intro _
      obtain ⟨ps, hupd, hps⟩ := updateHolding_eq hs.laid hp hpos
        (f := fun o => { o with houses := 4, hasHotel := false }) (fun _ => rfl)
        ((squareAt s.gameMode pos).houseCost.getD 0 / 2 : Nat)
      simp only [hupd, sat_ok]
      exact .mk howner hps (fun _ => rfl) (fun _ => rfl) (fun _ => by omega)
    · intro _
      obtain ⟨ps, hupd, hps⟩ := updateHolding_eq hs.laid hp hpos
        (f := fun o => { o with houses := o.houses - 1 }) (fun _ => rfl)
        ((squareAt s.gameMode pos).houseCost.getD 0 / 2 : Nat)
      simp only [hupd, sat_ok]
      exact .mk howner hps (fun _ => rfl) (fun _ => rfl) (fun _ => by omega)
  · simp [sellHouse, (checks_off hs.laid hpid hpos).2.1, hpos]

/-- The same of a mortgage. -/
theorem mortgageProperty_sat (hs : Sound s) (hpid : Seated s pid) :
    Sat (fun e => OnBoard s.gameMode pos → e.IsIllegalMove) (mortgageProperty s pid pos)
      (Reworked s pid pos) := by
  by_cases hpos : OnBoard s.gameMode pos
  · have hcan := canMortgage_sat hs.laid hpid hpos
    obtain ⟨p, hp, rfl⟩ := hpid.player
    simp only [mortgageProperty, sat_bind]
    refine hcan.mono (fun _ h => h.elim) fun b hb => ?_
    simp only [sat_illegalIf, hs.getPlayer hp, spaceAt_eq hs.layout hpos, getBoardSpace_eq hpos,
      sat_ok]
    refine ⟨fun _ _ => trivial, fun hbt => ?_⟩
    obtain ⟨ps, hupd, hps⟩ := updateHolding_eq hs.laid hp hpos
      (f := fun o => { o with isMortgaged := true }) (fun _ => rfl)
      ((squareAt s.gameMode pos).mortgageValue.getD 0 : Nat)
    simp only [hupd, sat_ok]
    exact .mk (hb (by simpa using hbt)) hps (fun _ => rfl) (fun _ => rfl) (fun _ => by omega)
  · simp [mortgageProperty, (checks_off hs.laid hpid hpos).2.2.1, hpos]

/-- The same of lifting a mortgage. -/
theorem unmortgageProperty_sat (hs : Sound s) (hpid : Seated s pid) :
    Sat (fun e => OnBoard s.gameMode pos → e.IsIllegalMove) (unmortgageProperty s pid pos)
      (Reworked s pid pos) := by
  by_cases hpos : OnBoard s.gameMode pos
  · have hcan := canUnmortgage_sat hs.laid hpid hpos
    obtain ⟨p, hp, rfl⟩ := hpid.player
    simp only [unmortgageProperty, sat_bind]
    refine hcan.mono (fun _ h => h.elim) fun b hb => ?_
    simp only [sat_illegalIf, hs.getPlayer hp, spaceAt_eq hs.layout hpos, getBoardSpace_eq hpos,
      sat_ok]
    refine ⟨fun _ _ => trivial, fun hbt => ?_⟩
    obtain ⟨howner, hcost⟩ := hb (by simpa using hbt)
    obtain ⟨ps, hupd, hps⟩ := updateHolding_eq hs.laid hp hpos
      (f := fun o => { o with isMortgaged := false }) (fun _ => rfl)
      (-(unmortgageCost ((squareAt s.gameMode pos).mortgageValue.getD 0) : Nat))
    simp only [hupd, sat_ok]
    exact .mk howner hps (fun _ => rfl) (fun _ => rfl) (fun _ => by omega)
  · simp [unmortgageProperty, (checks_off hs.laid hpid hpos).2.2.2, hpos]

end Operations

/-! ## the advertised actions -/

section Actions

variable {s : GameState} {pid : PlayerId}

/-- A search over positions raises nothing when no check on them does. -/
theorem anyPosition_ok {check : Nat → Py Bool} {positions : List Nat}
    (h : ∀ q ∈ positions, Sat (fun _ => False) (check q) fun _ => True) :
    ∃ b, anyPosition check positions = .ok b := by
  induction positions with
  | nil => exact ⟨false, rfl⟩
  | cons q rest ih =>
      obtain ⟨b, hb, -⟩ := (h q List.mem_cons_self).exists_ok
      obtain ⟨b', hb'⟩ := ih fun r hr => h r (List.mem_cons_of_mem _ hr)
      simp only [anyPosition, hb, ok_bind, hb']
      split <;> exact ⟨_, rfl⟩

/-- The three searches behind the advertised flags raise nothing for a seated
player. -/
theorem hasAny_ok (hs : Laid s) (hpid : Seated s pid) :
    (∃ b, hasAnyBuildable s pid = .ok b) ∧ (∃ b, hasAnyMortgageable s pid = .ok b) ∧
    ∃ b, hasAnyUnmortgageable s pid = .ok b := by
  have hseat := hpid
  obtain ⟨p, hp, rfl⟩ := hpid.player
  simp only [hasAnyBuildable, hasAnyMortgageable, hasAnyUnmortgageable, hs.getPlayer hp, ok_bind]
  refine ⟨anyPosition_ok fun q hq => ?_, anyPosition_ok fun q hq => ?_,
    anyPosition_ok fun q hq => ?_⟩
  · exact (canBuildOn_sat hs hseat (hs.owned _ hp q hq)).imp fun _ _ => trivial
  · exact (canMortgage_sat hs hseat (hs.owned _ hp q hq)).imp fun _ _ => trivial
  · exact (canUnmortgage_sat hs hseat (hs.owned _ hp q hq)).imp fun _ _ => trivial

/-- The action computation returns for every viewer of the game. -/
theorem computeActions_ok (hs : Laid s) (hpid : Seated s pid) (hpending : s.turn.phase = .postRoll →
    ∀ q, s.turn.pendingBuyPosition = some q → OnBoard s.gameMode q) :
    ∃ actions, computeActions s pid = .ok actions := by
  obtain ⟨⟨canBuild, hbuild⟩, ⟨canMort, hmort⟩, ⟨canUnmort, hunmort⟩⟩ := hasAny_ok hs hpid
  have hbuy : s.turn.phase = .postRoll → ∃ b, canBuyPending s = .ok b := by
    intro hphase
    unfold canBuyPending
    split
    · exact ⟨false, rfl⟩
    · rename_i pending hp
      simp only [spaceAt_eq hs.layout (hpending hphase pending hp), ok_bind]
      exact ⟨_, rfl⟩
  obtain ⟨p, hp, rfl⟩ := hpid.player
  unfold computeActions
  simp only [hs.getPlayer hp, ok_bind, hbuild, hmort, hunmort]
  cases hphase : s.turn.phase with
  | auction => cases s.auction <;> exact ⟨_, rfl⟩
  | tradeNegotiation => exact ⟨_, rfl⟩
  | drawingCard => exact ⟨_, rfl⟩
  | gameOver => exact ⟨_, rfl⟩
  | jailDecision => simp only; split <;> exact ⟨_, rfl⟩
  | preRoll => simp only; split <;> exact ⟨_, rfl⟩
  | postRoll =>
      obtain ⟨canBuy, hbuy⟩ := hbuy hphase
      simp only [hbuy, ok_bind]
      split <;> exact ⟨_, rfl⟩
  | mustPayRent => simp only; split <;> exact ⟨_, rfl⟩
  | bankruptResolution => simp only; split <;> exact ⟨_, rfl⟩

/-- Refreshing the advertised actions always succeeds, and changes no other
field of the state. -/
theorem withActions_eq (hs : Laid s) (hcurrent : Seated s s.turn.currentPlayerId)
    (hpending : s.turn.phase = .postRoll →
      ∀ q, s.turn.pendingBuyPosition = some q → OnBoard s.gameMode q) :
    ∃ actions, withActions s =
      .ok { s with turn := { s.turn with actionsAvailable := actions } } := by
  obtain ⟨actions, hactions⟩ := computeActions_ok hs hcurrent hpending
  exact ⟨actions, by simp only [withActions, hactions, ok_bind]; rfl⟩

end Actions

end Monopoly
