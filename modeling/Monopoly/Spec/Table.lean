import Monopoly.Lib.Keyed
import Monopoly.Spec.Board

/-!
# Monopoly.Spec.Table

The lookups and updates of `rules/helpers.py` on a table that is laid out
properly: they return, and an update is a pointwise edit of the seats or of
the spaces.  The cached net worth and the strikes of the turn timer play no
part in the rules, so seats are compared without them.

The code finds a record by its key, replaces the entry at that index and
rebuilds the tuple.  Where keys are distinct that is `editAt` of `Lib.Keyed`:
the record with the key is changed, the others stay, and the order too.
Every later module speaks of `editSeat` and `editSpace` and never of an
index; the lemmas that say so are `assignPlayer_eq`, `putPlayer_eq` and
`replaceSpace_eq`.

What stays true of spaces under an edit that moves none of them is `Layout`:
the records lie in the order of the board, one for each of its positions.
-/

namespace Monopoly

/-! ## spaces -/

/-- One ownership record for each position of the board, in order. -/
def Layout (mode : GameMode) (spaces : List SpaceOwnership) : Prop :=
  spaces.map (·.position) = (getGameConfig mode).boardPositions

/-- The ownership record at `pos`. -/
def ownershipAt (spaces : List SpaceOwnership) (pos : Nat) : SpaceOwnership :=
  (spaces.find? fun o => decide (o.position = pos)).getD { position := pos }

/-- The space at a position is changed, the others stay. -/
def editSpace (pos : Nat) (f : SpaceOwnership → SpaceOwnership) (spaces : List SpaceOwnership) :
    List SpaceOwnership :=
  editAt (·.position) pos f spaces

section Spaces

variable {mode : GameMode} {spaces : List SpaceOwnership} {pos : Nat}

/-- Every position of the board has one record. -/
theorem Layout.nodup (h : Layout mode spaces) : (spaces.map (·.position)).Nodup := by
  rw [h, boardPositions_eq]; exact List.nodup_range'

/-- No record is off the board. -/
theorem Layout.onBoard (h : Layout mode spaces) {o : SpaceOwnership} (ho : o ∈ spaces) :
    OnBoard mode o.position := by
  rw [← mem_boardPositions, ← h]; exact List.mem_map_of_mem ho

/-- Every position of the board has a record. -/
theorem Layout.exists_at (h : Layout mode spaces) (hpos : OnBoard mode pos) :
    ∃ o ∈ spaces, o.position = pos := by
  rw [← mem_boardPositions, ← h] at hpos; exact List.mem_map.mp hpos

/-- An edit of all spaces that moves none keeps the layout. -/
theorem Layout.map (h : Layout mode spaces) {g : SpaceOwnership → SpaceOwnership}
    (hg : ∀ o, (g o).position = o.position) : Layout mode (spaces.map g) := by
  rw [Layout, List.map_map, ← h]
  exact List.map_congr_left fun o _ => hg o

/-- A record is the one that is found at its position. -/
theorem ownershipAt_of_mem (h : Layout mode spaces) {o : SpaceOwnership} (ho : o ∈ spaces) :
    ownershipAt spaces o.position = o := by
  unfold ownershipAt
  rw [find?_key (·.position) h.nodup ho]
  rfl

/-- On the board the lookup finds a record of that position. -/
theorem ownershipAt_mem (h : Layout mode spaces) (hpos : OnBoard mode pos) :
    ownershipAt spaces pos ∈ spaces ∧ (ownershipAt spaces pos).position = pos := by
  obtain ⟨o, ho, rfl⟩ := h.exists_at hpos
  rw [ownershipAt_of_mem h ho]
  exact ⟨ho, rfl⟩

/-- A lookup after an edit of all spaces finds the edited record. -/
theorem ownershipAt_map (h : Layout mode spaces) (hpos : OnBoard mode pos)
    {g : SpaceOwnership → SpaceOwnership} (hg : ∀ o, (g o).position = o.position) :
    ownershipAt (spaces.map g) pos = g (ownershipAt spaces pos) := by
  obtain ⟨ho, hp⟩ := ownershipAt_mem h hpos
  have hmem : g (ownershipAt spaces pos) ∈ spaces.map g := List.mem_map_of_mem ho
  have hat := ownershipAt_of_mem (h.map hg) hmem
  rwa [hg, hp] at hat

/-- Off the board there is no record: nobody owns the position. -/
theorem ownershipAt_off (h : Layout mode spaces) (hpos : ¬ OnBoard mode pos) :
    ownershipAt spaces pos = { position := pos } := by
  have hnone : spaces.find? (fun o => decide (o.position = pos)) = none :=
    find?_key_eq_none.mpr fun o ho hp => hpos (hp ▸ h.onBoard ho)
  simp [ownershipAt, hnone]

/-- An edit that gives `pos` to nobody leaves it unowned. -/
theorem unowned_map (h : Layout mode spaces) {g : SpaceOwnership → SpaceOwnership}
    (hg : ∀ o, (g o).position = o.position)
    (hkeep : ∀ o, o.position = pos → o.ownerId = none → (g o).ownerId = none)
    (hfree : (ownershipAt spaces pos).ownerId = none) :
    (ownershipAt (spaces.map g) pos).ownerId = none := by
  by_cases hpos : OnBoard mode pos
  · rw [ownershipAt_map h hpos hg]
    exact hkeep _ (ownershipAt_mem h hpos).2 hfree
  · rw [ownershipAt_off (h.map hg) hpos]

/-- The index of `space_index` is that of the record. -/
theorem spaceIndex_eq (h : Layout mode spaces) (hpos : OnBoard mode pos) :
    ∃ i, spaceIndex spaces pos = .ok i ∧ spaces[i]? = some (ownershipAt spaces pos) := by
  obtain ⟨o, ho, rfl⟩ := h.exists_at hpos
  obtain ⟨i, hi, hget⟩ := findIdx?_key (·.position) h.nodup ho
  exact ⟨i, by rw [spaceIndex, hi]; rfl, by rw [ownershipAt_of_mem h ho, hget]⟩

/-- On the board `space_at` returns. -/
theorem spaceAt_eq (h : Layout mode spaces) (hpos : OnBoard mode pos) :
    spaceAt spaces pos = .ok (ownershipAt spaces pos) := by
  obtain ⟨i, hi, hget⟩ := spaceIndex_eq h hpos
  simp [spaceAt, hi, pyGet, hget, orRaise]

/-- Off the board it raises. -/
theorem spaceAt_off (h : Layout mode spaces) (hpos : ¬ OnBoard mode pos) :
    spaceAt spaces pos = .error .keyError := by
  have hnone : spaces.findIdx? (fun o => decide (o.position = pos)) = none :=
    findIdx?_key_eq_none.mpr fun o ho hp => hpos (hp ▸ h.onBoard ho)
  simp [spaceAt, spaceIndex, hnone, orRaise]

/-- Writing back a changed record is an edit of that space. -/
theorem replaceSpace_eq (h : Layout mode spaces) (hpos : OnBoard mode pos)
    (f : SpaceOwnership → SpaceOwnership) :
    replaceSpace spaces pos (f (ownershipAt spaces pos)) = .ok (editSpace pos f spaces) := by
  obtain ⟨i, hi, hget⟩ := spaceIndex_eq h hpos
  have hset := set_eq_editAt (·.position) h.nodup hget f
  rw [(ownershipAt_mem h hpos).2] at hset
  simp only [replaceSpace, hi, ok_bind, hset]
  rfl

/-- So is the edit of one space. -/
theorem Layout.editSpace (h : Layout mode spaces) (pos : Nat) {f : SpaceOwnership → SpaceOwnership}
    (hf : ∀ o, (f o).position = o.position) : Layout mode (editSpace pos f spaces) :=
  h.map fun o => by split <;> simp [hf]

end Spaces

/-! ## seats -/

/-- A player without the net worth cache and the timer strikes. -/
def PlayerState.bare (p : PlayerState) : PlayerState := { p with netWorth := 0, afkStrikes := 0 }

/-- The seats as the rules see them. -/
def seatsOf (players : List PlayerState) : List PlayerState := players.map PlayerState.bare

/-- The players as the rules see them. -/
def GameState.seats (s : GameState) : List PlayerState := seatsOf s.players

/-- The player with an id is changed, the others stay. -/
def editSeat (pid : PlayerId) (f : PlayerState → PlayerState) (players : List PlayerState) :
    List PlayerState :=
  editAt (·.id) pid f players

section Seats

variable {players : List PlayerState} {p : PlayerState} {pid : PlayerId}

@[simp] theorem bare_id (p : PlayerState) : p.bare.id = p.id := rfl

@[simp] theorem bare_position (p : PlayerState) : p.bare.position = p.position := rfl

@[simp] theorem bare_balance (p : PlayerState) : p.bare.balance = p.balance := rfl

@[simp] theorem bare_ownedPositions (p : PlayerState) :
    p.bare.ownedPositions = p.ownedPositions := rfl

@[simp] theorem bare_isBankrupt (p : PlayerState) : p.bare.isBankrupt = p.isBankrupt := rfl

@[simp] theorem bare_jailStatus (p : PlayerState) : p.bare.jailStatus = p.jailStatus := rfl

@[simp] theorem bare_getOutOfJailCards (p : PlayerState) :
    p.bare.getOutOfJailCards = p.getOutOfJailCards := rfl

/-- Who sits on a seat is not among what is left out of it. -/
theorem id_eq_of_bare {q : PlayerState} (h : q.bare = p.bare) : q.id = p.id := by
  rw [← bare_id q, h, bare_id]

/-- The seats have the ids of the players, in their order. -/
theorem ids_seatsOf (players : List PlayerState) :
    (seatsOf players).map (·.id) = players.map (·.id) := by
  simp [seatsOf]

@[simp] theorem seatsOf_cons (p : PlayerState) (players : List PlayerState) :
    seatsOf (p :: players) = p.bare :: seatsOf players := rfl

/-- Every player has a seat. -/
theorem mem_seatsOf (hp : p ∈ players) : p.bare ∈ seatsOf players := List.mem_map_of_mem hp

/-- With distinct ids a player is found by their own id. -/
theorem getPlayerById_eq (h : (players.map (·.id)).Nodup) (hp : p ∈ players) :
    getPlayerById players p.id = .ok p := by
  rw [getPlayerById, find?_key (·.id) h hp]
  rfl

/-- An id that nobody has raises. -/
theorem getPlayerById_off (h : ∀ p ∈ players, p.id ≠ pid) :
    getPlayerById players pid = .error .keyError := by
  have hnone : players.find? (fun p => decide (p.id = pid)) = none :=
    find?_key_eq_none.mpr h
  simp [getPlayerById, hnone, orRaise]

/-- The index of the turn order is where the player sits. -/
theorem nextPlayerIdx_eq (h : (players.map (·.id)).Nodup) (hp : p ∈ players) :
    ∃ i, nextPlayerIdx players p.id = .ok i ∧ players[i]? = some p := by
  obtain ⟨i, hi, hget⟩ := findIdx?_key (·.id) h hp
  exact ⟨i, by rw [nextPlayerIdx, pyNextIdx, hi]; rfl, hget⟩

/-- Writing a player back at their index is an edit of that seat, -/
theorem assignPlayer_eq (h : (players.map (·.id)).Nodup) (hp : p ∈ players)
    (f : PlayerState → PlayerState) :
    assignPlayer players p.id (f p) = .ok (editSeat p.id f players) := by
  obtain ⟨i, hi, hget⟩ := nextPlayerIdx_eq h hp
  simp only [assignPlayer, hi, ok_bind, set_eq_editAt (·.id) h hget f]
  rfl

/-- and so is writing back a player who knows their own id. -/
theorem putPlayer_eq (h : (players.map (·.id)).Nodup) (hp : p ∈ players)
    (f : PlayerState → PlayerState) (hf : (f p).id = p.id) :
    putPlayer players (f p) = .ok (editSeat p.id f players) := by
  obtain ⟨i, hi, hget⟩ := findIdx?_key (·.id) h hp
  simp only [putPlayer, playerIndex, hf, hi, orRaise, ok_bind,
    set_eq_editAt (·.id) h hget f]
  rfl

/-! ## net worth -/

/-- The player with the net worth refreshed. -/
def revalue (spaces : List SpaceOwnership) (mode : GameMode) (p : PlayerState) : PlayerState :=
  { p with netWorth := (computeNetWorth p spaces mode).toOption.getD 0 }

@[simp] theorem bare_revalue (spaces : List SpaceOwnership) (mode : GameMode) (p : PlayerState) :
    (revalue spaces mode p).bare = p.bare := rfl

@[simp] theorem revalue_id (spaces : List SpaceOwnership) (mode : GameMode) (p : PlayerState) :
    (revalue spaces mode p).id = p.id := rfl

variable {mode : GameMode} {spaces : List SpaceOwnership}

/-- The worth of positions of the board can be added up. -/
theorem addWorth_ok (h : Layout mode spaces) {owned : List Nat}
    (howned : ∀ q ∈ owned, OnBoard mode q) (total : Int) :
    ∃ worth, addWorth spaces mode owned total = .ok worth := by
  induction owned generalizing total with
  | nil => exact ⟨total, rfl⟩
  | cons q rest ih =>
      have hq := howned q List.mem_cons_self
      have hworth : ∃ w, positionWorth spaces mode q = .ok w := by
        simp only [positionWorth, getBoardSpace_eq hq, spaceAt_eq h hq, ok_bind]
        split <;> exact ⟨_, rfl⟩
      obtain ⟨w, hw⟩ := hworth
      simp only [addWorth, hw, ok_bind]
      exact ih (fun r hr => howned r (List.mem_cons_of_mem _ hr)) _

/-- Where a player owns positions of the board only, the cache is renewed. -/
theorem updatePlayerNetWorth_eq (h : Layout mode spaces)
    (howned : ∀ q ∈ p.ownedPositions, OnBoard mode q) :
    updatePlayerNetWorth p spaces mode = .ok (revalue spaces mode p) := by
  obtain ⟨worth, hw⟩ := addWorth_ok h howned p.balance
  have hc : computeNetWorth p spaces mode = .ok worth := hw
  simp only [updatePlayerNetWorth, revalue, hc, ok_bind]
  rfl

/-- Renewing every cache is a pointwise edit of the players. -/
theorem refreshAllNetWorth_eq (h : Layout mode spaces)
    (howned : ∀ p ∈ players, ∀ q ∈ p.ownedPositions, OnBoard mode q) :
    refreshAllNetWorth players spaces mode = .ok (players.map (revalue spaces mode)) := by
  unfold refreshAllNetWorth
  induction players with
  | nil => rfl
  | cons p rest ih =>
      have hp := updatePlayerNetWorth_eq h (howned p List.mem_cons_self)
      have hrest := ih fun q hq => howned q (List.mem_cons_of_mem _ hq)
      simp only [List.mapM_cons, hp, ok_bind, hrest]
      rfl

/-- The seats do not see it. -/
@[simp] theorem seatsOf_map_revalue (players : List PlayerState) :
    seatsOf (players.map (revalue spaces mode)) = seatsOf players := by
  simp [seatsOf, Function.comp_def]

/-- An edit of a player is one of the seat, if it reads the seat only. -/
theorem seatsOf_editSeat {f g : PlayerState → PlayerState} (hfg : ∀ p, (f p).bare = g p.bare) :
    seatsOf (editSeat pid f players) = editSeat pid g (seatsOf players) := by
  simp only [seatsOf, editSeat, editAt, List.map_map, List.map_inj_left, Function.comp]
  intro p _
  by_cases hp : p.id = pid
  · simp [hp, hfg]
  · simp [hp]

end Seats

end Monopoly
