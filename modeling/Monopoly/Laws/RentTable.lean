import Monopoly.Spec.Building
import Monopoly.Spec.Estates
import Monopoly.Spec.Replay

/-!
# Monopoly.Laws.RentTable

`calculate_rent` against the rule table.  The table counts the railroads and
the utilities of the mode's board; the code counts the positions its mode
configuration lists, and on the duel board two of these are no railroad and
no utility.
-/

namespace Monopoly

/-! ## the rule table -/

/-- The space at `q` is the owner's and not mortgaged. -/
def holds (spaces : List SpaceOwnership) (owner : PlayerId) (q : Nat) : Bool :=
  decide ((ownershipAt spaces q).ownerId = some owner) && !(ownershipAt spaces q).isMortgaged

/-- The positions of the board's spaces of a type. -/
def positionsOfType (mode : GameMode) (type : SpaceType) : List Nat :=
  ((boardForMode mode).filter fun space => decide (space.type = type)).map (·.position)

/-- How many spaces of a type the owner holds. -/
def countOfType (s : GameState) (owner : PlayerId) (type : SpaceType) : Nat :=
  (positionsOfType s.gameMode type).countP (holds s.spaces owner)

/-- The entry of a rent table for the buildings of a street. -/
def RentTable.entry (t : RentTable) (houses : Nat) (hasHotel : Bool) : Option Nat :=
  if hasHotel then some t.hotel
  else [t.base, t.oneHouse, t.twoHouses, t.threeHouses, t.fourHouses][houses]?

/-- `calculate_rent` for the space at `pos` is what the rule table says, for
every dice total: of a railroad also for every rent multiplier. -/
structure RentByTable (s : GameState) (pos : Nat) : Prop where
  railroad : (squareAt s.gameMode pos).type = .railroad →
    ∀ owner, holds s.spaces owner pos = true → ∀ d x, ∃ base : Int,
      [25, 50, 100, 200][countOfType s owner .railroad - 1]? = some base ∧
        calculateRent s pos d x = .ok (x * base)
  utility : (squareAt s.gameMode pos).type = .utility →
    ∀ owner, holds s.spaces owner pos = true → ∀ d : Nat,
      calculateRent s pos d 1 =
        .ok (if countOfType s owner .utility = 1 then 4 * d else 10 * d)
  street : ∀ color table, (squareAt s.gameMode pos).type = .property →
    (squareAt s.gameMode pos).colorGroup = some color →
    (squareAt s.gameMode pos).rent = some table →
    ∀ owner, holds s.spaces owner pos = true → ∀ (d amount : Nat),
      table.entry (ownershipAt s.spaces pos).houses (ownershipAt s.spaces pos).hasHotel =
        some amount →
      calculateRent s pos d 1 = .ok (
        if (ownershipAt s.spaces pos).houses = 0 ∧ (ownershipAt s.spaces pos).hasHotel = false ∧
          ∀ q ∈ positionsInColorGroup color s.gameMode, holds s.spaces owner q = true
        then 2 * amount else amount)
  free : (ownershipAt s.spaces pos).ownerId = none ∨
      (ownershipAt s.spaces pos).isMortgaged = true ∨ ¬Purchasable s.gameMode pos →
    ∀ d x, calculateRent s pos d x = .ok 0

/-- On the duel board the two positions the configuration lists wrongly are
held like those that it should list, as far as the space at `pos` depends on
them. -/
def CountedRight (s : GameState) (pos : Nat) : Prop :=
  s.gameMode = .duel → ∀ owner, holds s.spaces owner pos = true →
    ((squareAt s.gameMode pos).type = .railroad →
      holds s.spaces owner 14 = holds s.spaces owner 15) ∧
    ((squareAt s.gameMode pos).type = .utility →
      holds s.spaces owner 21 = holds s.spaces owner 22)

/-! ## the lookups -/

section Lookups

variable {s : GameState} {spaces : List SpaceOwnership} {owner : PlayerState} {pid : PlayerId}
  {pos : Nat} {positions : List Nat}

theorem countOwned_eq (hfile : OnFile spaces positions) (owner : PlayerState) :
    countOwned owner spaces positions = .ok (positions.countP (holds spaces owner.id)) := by
  induction positions with
  | nil => rfl
  | cons q rest ih =>
      obtain ⟨o, hat⟩ := hfile q List.mem_cons_self
      rw [countOwned, hat, ok_bind, ih fun r hr => hfile r (List.mem_cons_of_mem _ hr), ok_bind,
        List.countP_cons]
      have hheld : holds spaces owner.id q = true ↔
          o.ownerId = some owner.id ∧ ¬o.isMortgaged = true := by
        rw [holds, ownershipAt_of_spaceAt hat]
        simp
      simp only [hheld]
      split <;> rfl

theorem ownsAllUnmortgaged_eq (hfile : OnFile spaces positions) (pid : PlayerId) :
    ownsAllUnmortgaged pid spaces positions =
      .ok (decide (∀ q ∈ positions, holds spaces pid q = true)) := by
  induction positions with
  | nil => rfl
  | cons q rest ih =>
      obtain ⟨o, hat⟩ := hfile q List.mem_cons_self
      rw [ownsAllUnmortgaged, hat, ok_bind, ih fun r hr => hfile r (List.mem_cons_of_mem _ hr)]
      have hheld : holds spaces pid q = true ↔
          ¬(o.ownerId ≠ some pid ∨ o.isMortgaged = true) := by
        rw [holds, ownershipAt_of_spaceAt hat]
        simp
      split
      · rename_i hnot
        refine congrArg Except.ok (decide_eq_false fun hall => ?_).symm
        exact hheld.mp (hall q List.mem_cons_self) hnot
      · rename_i hholds
        refine congrArg Except.ok (decide_eq_decide.mpr ?_)
        exact ⟨fun hall => List.forall_mem_cons.mpr ⟨hheld.mpr hholds, hall⟩,
          fun hall => (List.forall_mem_cons.mp hall).2⟩

theorem positionsOfType_eq (mode : GameMode) :
    positionsOfType mode .railroad = (match mode with
      | .normal => [6, 16, 26, 36]
      | .duel => [6, 15]) ∧
    positionsOfType mode .utility = match mode with
      | .normal => [13, 29]
      | .duel => [10, 22] := by
  cases mode <;> decide

theorem onBoard_listed (mode : GameMode) :
    (∀ q ∈ (getGameConfig mode).railroadPositions, OnBoard mode q) ∧
    ∀ q ∈ (getGameConfig mode).utilityPositions, OnBoard mode q := by
  cases mode <;> decide

theorem mem_positionsOfType {mode : GameMode} (hpos : OnBoard mode pos) :
    pos ∈ positionsOfType mode (squareAt mode pos).type := by
  obtain ⟨space, hmem, rfl⟩ := onBoard_iff_square.mp hpos
  have hsquare := getBoardSpace_eq hpos
  unfold getBoardSpace at hsquare
  cases hfind : (boardForMode mode).find? fun sp => decide (sp.position = space.position) with
  | none => exact absurd (List.find?_eq_none.mp hfind space hmem) (by simp)
  | some found =>
      obtain rfl : found = squareAt mode space.position := by
        simpa [hfind, orRaise] using hsquare
      refine List.mem_map.mpr ⟨_, List.mem_filter.mpr ⟨List.mem_of_find?_eq_some hfind, by simp⟩,
        by simpa using List.find?_some hfind⟩

end Lookups

/-! ## what is charged -/

section Charges

variable {s : GameState} {owner : PlayerId} {pos d x : Nat}

/-- A record is on file for every space of the board, and the space at `pos`
is a player's or nobody's. -/
structure Rentable (s : GameState) (pos : Nat) : Prop where
  onBoard : OnBoard s.gameMode pos
  onFile : ∀ q, OnBoard s.gameMode q → ∃ o, spaceAt s.spaces q = .ok o
  seated : ∀ owner, (ownershipAt s.spaces pos).ownerId = some owner →
    ∃ p ∈ s.players, p.id = owner

theorem getPlayerById_found {players : List PlayerState} (h : ∃ p ∈ players, p.id = owner) :
    ∃ p, getPlayerById players owner = .ok p ∧ p.id = owner := by
  cases hfind : players.find? fun p => decide (p.id = owner) with
  | none =>
      obtain ⟨p, hp, hid⟩ := h
      exact absurd hid (find?_key_eq_none.mp hfind p hp)
  | some p => exact ⟨p, by rw [getPlayerById, hfind]; rfl, by simpa using List.find?_some hfind⟩

theorem holds_iff : holds s.spaces owner pos = true ↔
    (ownershipAt s.spaces pos).ownerId = some owner ∧
      (ownershipAt s.spaces pos).isMortgaged = false := by
  simp [holds]

/-- The code's count of the railroads goes into its table of four. -/
theorem calculateRent_railroad (h : Rentable s pos)
    (htype : (squareAt s.gameMode pos).type = .railroad)
    (hheld : holds s.spaces owner pos = true) :
    calculateRent s pos d x = (pyGet railroadRents ((min
      ((getGameConfig s.gameMode).railroadPositions.countP (holds s.spaces owner))
        maxRailroadsOwned : Nat) - 1)).map (· * (x : Int)) := by
  obtain ⟨howner, hfree⟩ := holds_iff.mp hheld
  obtain ⟨o, hat⟩ := h.onFile pos h.onBoard
  rw [ownershipAt_of_spaceAt hat] at howner hfree
  obtain ⟨p, hp, rfl⟩ := getPlayerById_found (h.seated owner (by rw [ownershipAt_of_spaceAt hat,
    howner]))
  have hcount := countOwned_eq (fun q hq => h.onFile q ((onBoard_listed s.gameMode).1 q hq)) p
  simp only [calculateRent, hat, ok_bind, howner, hfree, hp, getBoardSpace_eq h.onBoard, htype,
    countOwnedRailroads, hcount]
  cases pyGet railroadRents _ <;> rfl

theorem calculateRent_utility (h : Rentable s pos)
    (htype : (squareAt s.gameMode pos).type = .utility)
    (hheld : holds s.spaces owner pos = true) :
    calculateRent s pos d x = .ok ((if (getGameConfig s.gameMode).utilityPositions.countP
      (holds s.spaces owner) = 1 then 4 else 10) * d) := by
  obtain ⟨howner, hfree⟩ := holds_iff.mp hheld
  obtain ⟨o, hat⟩ := h.onFile pos h.onBoard
  rw [ownershipAt_of_spaceAt hat] at howner hfree
  obtain ⟨p, hp, rfl⟩ := getPlayerById_found (h.seated owner (by rw [ownershipAt_of_spaceAt hat,
    howner]))
  have hcount := countOwned_eq (fun q hq => h.onFile q ((onBoard_listed s.gameMode).2 q hq)) p
  simp only [calculateRent, hat, ok_bind, howner, hfree, hp, getBoardSpace_eq h.onBoard, htype,
    countOwnedUtilities, hcount]
  rfl

/-- Without an owner, under a mortgage and off the market no rent is due. -/
theorem calculateRent_free (h : Rentable s pos)
    (hfree : (ownershipAt s.spaces pos).ownerId = none ∨
      (ownershipAt s.spaces pos).isMortgaged = true ∨ ¬Purchasable s.gameMode pos) :
    calculateRent s pos d x = .ok 0 := by
  obtain ⟨o, hat⟩ := h.onFile pos h.onBoard
  have hseated := h.seated
  rw [ownershipAt_of_spaceAt hat] at hfree hseated
  rw [calculateRent, hat, ok_bind]
  cases howner : o.ownerId with
  | none => rfl
  | some owner =>
      cases hmortgaged : o.isMortgaged with
      | true => rfl
      | false =>
          have hoff : ¬Purchasable s.gameMode pos := by
            simpa [howner, hmortgaged] using hfree
          obtain ⟨p, hp, -⟩ := getPlayerById_found (hseated owner howner)
          simp only [hp, ok_bind, getBoardSpace_eq h.onBoard]
          rw [Purchasable] at hoff
          cases htype : (squareAt s.gameMode pos).type with
          | property | railroad | utility => exact absurd (by rw [htype]; decide) hoff
          | _ => rfl

theorem amountFor_of_entry {table : RentTable} {houses amount : Nat} {hasHotel : Bool}
    (h : table.entry houses hasHotel = some amount) : table.amountFor houses hasHotel = amount := by
  cases hasHotel with
  | true => exact Option.some.inj h
  | false =>
      match houses, h with
      | 0, h | 1, h | 2, h | 3, h | 4, h => exact Option.some.inj h

theorem calculateRent_street (h : Rentable s pos) {color : PropertyColor} {table : RentTable}
    {amount : Nat} (htype : (squareAt s.gameMode pos).type = .property)
    (hcolor : (squareAt s.gameMode pos).colorGroup = some color)
    (htable : (squareAt s.gameMode pos).rent = some table)
    (hheld : holds s.spaces owner pos = true)
    (hentry : table.entry (ownershipAt s.spaces pos).houses (ownershipAt s.spaces pos).hasHotel =
      some amount) :
    calculateRent s pos d 1 = .ok (
      if (ownershipAt s.spaces pos).houses = 0 ∧ (ownershipAt s.spaces pos).hasHotel = false ∧
        ∀ q ∈ positionsInColorGroup color s.gameMode, holds s.spaces owner q = true
      then 2 * amount else amount) := by
  obtain ⟨howner, hfree⟩ := holds_iff.mp hheld
  obtain ⟨o, hat⟩ := h.onFile pos h.onBoard
  have hamount := amountFor_of_entry hentry
  rw [ownershipAt_of_spaceAt hat] at howner hfree hamount ⊢
  obtain ⟨p, hp, rfl⟩ := getPlayerById_found (h.seated owner (by rw [ownershipAt_of_spaceAt hat,
    howner]))
  have hgroup := ownsAllUnmortgaged_eq (fun q hq => h.onFile q
    (onBoard_colorGroup s.gameMode color q hq)) p.id
  have hmonopoly : playerHasRentMonopoly p color s.spaces s.gameMode = .ok (decide
      (∀ q ∈ positionsInColorGroup color s.gameMode, holds s.spaces p.id q = true)) := by
    unfold playerHasRentMonopoly
    have hmem := mem_colorGroup h.onBoard hcolor
    cases hpositions : positionsInColorGroup color s.gameMode with
    | nil => rw [hpositions] at hmem; cases hmem
    | cons q rest => rw [hpositions] at hgroup; exact hgroup
  simp only [calculateRent, hat, ok_bind, howner, hfree, hp, getBoardSpace_eq h.onBoard, htype,
    htable, hcolor, monopolyDoubles, hamount]
  by_cases hunbuilt : o.houses = 0 ∧ ¬o.hasHotel = true
  · rw [if_pos hunbuilt, hmonopoly, ok_bind]
    have hbare : o.houses = 0 ∧ o.hasHotel = false := ⟨hunbuilt.1, by simpa using hunbuilt.2⟩
    by_cases hall : ∀ q ∈ positionsInColorGroup color s.gameMode, holds s.spaces p.id q = true
    · rw [if_pos (by simpa using hall), if_pos ⟨hbare.1, hbare.2, hall⟩, Int.mul_comm]
      rfl
    · rw [if_neg (by simpa using hall), if_neg fun hc => hall hc.2.2]
      simp
      rfl
  · rw [if_neg hunbuilt, if_neg fun hc => hunbuilt ⟨hc.1, by simp [hc.2.1]⟩]
    simp
    rfl

end Charges

/-! ## the law -/

section Law

variable {s : GameState} {owner : PlayerId} {pos : Nat}

/-- Whoever holds the space holds one of its type. -/
theorem countOfType_pos (hpos : OnBoard s.gameMode pos) (hheld : holds s.spaces owner pos = true) :
    1 ≤ countOfType s owner (squareAt s.gameMode pos).type :=
  List.countP_pos_iff.mpr ⟨pos, mem_positionsOfType hpos, hheld⟩

/-- The table of the code, read at a count from one to four. -/
theorem pyGet_railroadRents {n : Nat} (hpos : 1 ≤ n) (hmax : n ≤ 4) :
    ∃ base : Int, [25, 50, 100, 200][n - 1]? = some base ∧
      pyGet railroadRents ((min n maxRailroadsOwned : Nat) - 1) = .ok base := by
  obtain rfl | rfl | rfl | rfl : n = 1 ∨ n = 2 ∨ n = 3 ∨ n = 4 := by omega
  all_goals exact ⟨_, rfl, rfl⟩

theorem countOfType_le (s : GameState) (owner : PlayerId) : countOfType s owner .railroad ≤ 4 := by
  refine Nat.le_trans List.countP_le_length ?_
  cases s.gameMode <;> decide

/-- The code counts right where its positions are the board's. -/
theorem counts_of_normal (hmode : s.gameMode = .normal) :
    (getGameConfig s.gameMode).railroadPositions = positionsOfType s.gameMode .railroad ∧
    (getGameConfig s.gameMode).utilityPositions = positionsOfType s.gameMode .utility := by
  rw [(positionsOfType_eq _).1, (positionsOfType_eq _).2, hmode]
  exact ⟨rfl, rfl⟩

theorem countP_pair (p : Nat → Bool) (a b : Nat) :
    [a, b].countP p = (p a).toNat + (p b).toNat := by
  cases ha : p a <;> cases hb : p b <;> simp [ha, hb]

/-- What the duel board has and what the code counts there. -/
theorem counts_of_duel (hmode : s.gameMode = .duel) (owner : PlayerId) :
    (countOfType s owner .railroad =
        (holds s.spaces owner 6).toNat + (holds s.spaces owner 15).toNat ∧
      (getGameConfig s.gameMode).railroadPositions.countP (holds s.spaces owner) =
        (holds s.spaces owner 6).toNat + (holds s.spaces owner 14).toNat) ∧
    countOfType s owner .utility =
        (holds s.spaces owner 10).toNat + (holds s.spaces owner 22).toNat ∧
      (getGameConfig s.gameMode).utilityPositions.countP (holds s.spaces owner) =
        (holds s.spaces owner 10).toNat + (holds s.spaces owner 21).toNat := by
  simp only [countOfType, (positionsOfType_eq _).1, (positionsOfType_eq _).2, hmode]
  exact ⟨⟨countP_pair _ 6 15, countP_pair _ 6 14⟩, countP_pair _ 10 22, countP_pair _ 10 21⟩

/-- The code's railroad rents are the table's exactly when it counts the
railroads that the owner holds. -/
theorem railroad_iff (h : Rentable s pos) (htype : (squareAt s.gameMode pos).type = .railroad)
    (hheld : holds s.spaces owner pos = true) :
    (∀ d x, ∃ base : Int, [25, 50, 100, 200][countOfType s owner .railroad - 1]? = some base ∧
      calculateRent s pos d x = .ok (x * base)) ↔
    (s.gameMode = .duel → holds s.spaces owner 14 = holds s.spaces owner 15) := by
  have hpos := countOfType_pos h.onBoard hheld
  rw [htype] at hpos
  have hright : (getGameConfig s.gameMode).railroadPositions.countP (holds s.spaces owner) =
      countOfType s owner .railroad → ∀ d x, ∃ base : Int,
        [25, 50, 100, 200][countOfType s owner .railroad - 1]? = some base ∧
          calculateRent s pos d x = .ok (x * base) := by
    intro hsame d x
    obtain ⟨base, hbase, hget⟩ := pyGet_railroadRents hpos (countOfType_le s owner)
    refine ⟨base, hbase, ?_⟩
    rw [calculateRent_railroad h htype hheld, hsame, hget, Int.mul_comm]
    rfl
  cases hmode : s.gameMode with
  | normal =>
      refine iff_of_true (hright ?_) (by simp)
      rw [(counts_of_normal hmode).1]
      rfl
  | duel =>
      obtain ⟨⟨hboard, hcode⟩, -⟩ := counts_of_duel hmode owner
      simp only [forall_const]
      constructor
      · intro hall
        obtain ⟨base, hbase, hrent⟩ := hall 0 1
        rw [calculateRent_railroad h htype hheld, hcode] at hrent
        rw [hboard] at hbase hpos
        cases h6 : holds s.spaces owner 6 <;> cases h14 : holds s.spaces owner 14 <;>
          cases h15 : holds s.spaces owner 15 <;> simp only [h6, h14, h15] at hbase hrent hpos ⊢
        all_goals
          first
          | rfl
          | exact absurd hpos (by decide)
          | exact absurd hrent (by rw [← Option.some.inj hbase]; decide)
      · intro hheld'
        exact hright (by rw [hboard, hcode, hheld'])

theorem utility_iff (h : Rentable s pos) (htype : (squareAt s.gameMode pos).type = .utility)
    (hheld : holds s.spaces owner pos = true) :
    (∀ d : Nat, calculateRent s pos d 1 =
      .ok (if countOfType s owner .utility = 1 then 4 * d else 10 * d)) ↔
    (s.gameMode = .duel → holds s.spaces owner 21 = holds s.spaces owner 22) := by
  have hpos := countOfType_pos h.onBoard hheld
  rw [htype] at hpos
  have hright : (getGameConfig s.gameMode).utilityPositions.countP (holds s.spaces owner) =
      countOfType s owner .utility → ∀ d : Nat, calculateRent s pos d 1 =
        .ok (if countOfType s owner .utility = 1 then 4 * d else 10 * d) := by
    intro hsame d
    rw [calculateRent_utility h htype hheld, hsame]
    split <;> rfl
  cases hmode : s.gameMode with
  | normal =>
      refine iff_of_true (hright ?_) (by simp)
      rw [(counts_of_normal hmode).2]
      rfl
  | duel =>
      obtain ⟨-, hboard, hcode⟩ := counts_of_duel hmode owner
      simp only [forall_const]
      constructor
      · intro hall
        have hrent := hall 1
        rw [calculateRent_utility h htype hheld, hcode, hboard] at hrent
        rw [hboard] at hpos
        cases h10 : holds s.spaces owner 10 <;> cases h21 : holds s.spaces owner 21 <;>
          cases h22 : holds s.spaces owner 22 <;> simp only [h10, h21, h22] at hrent hpos ⊢
        all_goals
          first
          | rfl
          | exact absurd hpos (by decide)
          | exact absurd hrent (by decide)
      · intro hheld'
        exact hright (by rw [hboard, hcode, hheld'])

/-- The rent of a space is the rule table's exactly when its owner holds the
wrongly listed positions like those they stand for. -/
theorem rent_by_table_iff (h : Rentable s pos) : RentByTable s pos ↔ CountedRight s pos := by
  constructor
  · intro htable hduel owner hheld
    refine ⟨fun htype => ?_, fun htype => ?_⟩
    · exact (railroad_iff h htype hheld).mp (htable.railroad htype owner hheld) hduel
    · exact (utility_iff h htype hheld).mp (htable.utility htype owner hheld) hduel
  · intro hright
    constructor
    · intro htype owner hheld
      exact (railroad_iff h htype hheld).mpr fun hduel => (hright hduel owner hheld).1 htype
    · intro htype owner hheld
      exact (utility_iff h htype hheld).mpr fun hduel => (hright hduel owner hheld).2 htype
    · intro color table htype hcolor htable owner hheld d amount hentry
      exact calculateRent_street h htype hcolor htable hheld hentry
    · exact fun hfree d x => calculateRent_free h hfree

/-- `Rentable` as it is computed. -/
def rentable (s : GameState) (pos : Nat) : Bool :=
  decide (OnBoard s.gameMode pos ∧
    (∀ q ∈ List.range' 1 (boardSize s.gameMode), (spaceAt s.spaces q).isOk = true) ∧
    ∀ owner ∈ (ownershipAt s.spaces pos).ownerId, ∃ p ∈ s.players, p.id = owner)

theorem of_rentable (h : rentable s pos = true) : Rentable s pos := by
  obtain ⟨honBoard, hfile, hseated⟩ := of_decide_eq_true h
  refine ⟨honBoard, fun q hq => ?_, hseated⟩
  have hok := hfile q (List.mem_range'_1.mpr ⟨hq.1, by have := hq.2; omega⟩)
  cases hat : spaceAt s.spaces q with
  | error e => rw [hat] at hok; cases hok
  | ok o => exact ⟨o, rfl⟩

/-- Player `2` owns these positions. -/
def owning (positions : List Nat) (s : GameState) : GameState :=
  { s with
    players := editSeat 2 (fun p => { p with ownedPositions := positions }) s.players
    spaces := s.spaces.map fun o =>
      if o.position ∈ positions then { o with ownerId := some 2 } else o }

/-- Two railroads of the normal board. -/
theorem rent_by_table_two_railroads : ∃ s, holds s.spaces 2 6 = true ∧
    countOfType s 2 .railroad = 2 ∧ RentByTable s 6 := by
  obtain ⟨s, hcheck⟩ := exists_new (duo 1500) (fun s => rentable (owning [6, 16] s) 6 &&
    decide ((owning [6, 16] s).gameMode = .normal ∧ holds (owning [6, 16] s).spaces 2 6 = true ∧
      countOfType (owning [6, 16] s) 2 .railroad = 2)) (by decide +kernel)
  obtain ⟨hrentable, hfacts⟩ := Bool.and_eq_true_iff.mp hcheck
  obtain ⟨hnormal, hheld, hcount⟩ := of_decide_eq_true hfacts
  refine ⟨_, hheld, hcount, (rent_by_table_iff (of_rentable hrentable)).mpr fun hduel => ?_⟩
  rw [hnormal] at hduel
  cases hduel

/-- The one railroad that player `2` holds on the duel board costs as much as
four. -/
theorem duel_railroad_overcharged : ∃ s, Rentable s 15 ∧ s.gameMode = .duel ∧
    (squareAt s.gameMode 15).type = .railroad ∧ holds s.spaces 2 15 = true ∧
    countOfType s 2 .railroad = 1 ∧ calculateRent s 15 4 1 = .ok 200 := by
  obtain ⟨s, hcheck⟩ := exists_new duel (fun s => rentable (owning [15] s) 15 &&
    decide ((owning [15] s).gameMode = .duel ∧
      (squareAt (owning [15] s).gameMode 15).type = .railroad ∧
      holds (owning [15] s).spaces 2 15 = true ∧ countOfType (owning [15] s) 2 .railroad = 1) &&
    decide ((calculateRent (owning [15] s) 15 4 1).toOption = some 200)) (by decide +kernel)
  obtain ⟨hboth, hrent⟩ := Bool.and_eq_true_iff.mp hcheck
  obtain ⟨hrentable, hfacts⟩ := Bool.and_eq_true_iff.mp hboth
  obtain ⟨hduel, htype, hheld, hcount⟩ := of_decide_eq_true hfacts
  refine ⟨_, of_rentable hrentable, hduel, htype, hheld, hcount, ?_⟩
  have hsome := of_decide_eq_true hrent
  cases hcalc : calculateRent (owning [15] s) 15 4 1 with
  | error e => rw [hcalc] at hsome; cases hsome
  | ok rent => rw [hcalc] at hsome; rw [Option.some.inj hsome]

end Law

end Monopoly
