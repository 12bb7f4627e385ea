import Monopoly.Laws.BuildingStock
import Monopoly.Spec.Estates
import Monopoly.Spec.Streets

/-!
# Monopoly.Laws.BankLending

The bank's stock of houses and hotels under `BuildHouse` and `SellHouse`.
Building takes from the bank what it has been checked to have; selling a
hotel takes four houses that nobody has checked.
-/

namespace Monopoly

/-- The record is a street's. -/
def OnStreet (mode : GameMode) (o : SpaceOwnership) : Prop :=
  (squareAt mode o.position).type = .property

instance (mode : GameMode) (o : SpaceOwnership) : Decidable (OnStreet mode o) :=
  inferInstanceAs (Decidable (_ = _))

/-- The building stock is consistent: four houses at most on a street and
none beside a hotel, levels within a color group that differ by one at most,
and 32 houses and 12 hotels between the board and the bank. -/
structure StockConsistent (s : GameState) : Prop where
  bounded : ∀ o ∈ s.spaces, OnStreet s.gameMode o →
    o.houses ≤ 4 ∧ (o.hasHotel = true → o.houses = 0)
  even : ∀ color, ∀ q ∈ positionsInColorGroup color s.gameMode,
    ∀ q' ∈ positionsInColorGroup color s.gameMode, ∀ o o', spaceAt s.spaces q = .ok o →
      spaceAt s.spaces q' = .ok o' → buildingLevel o ≤ buildingLevel o' + 1
  houses : 0 ≤ s.bankHouses
  hotels : 0 ≤ s.bankHotels
  stock : s.stock = ⟨32, 12⟩

/-- Four houses are to come out of the bank for the hotel that is sold, and
it has fewer. -/
def LacksHouses (s : GameState) (command : GameCommand) : Prop :=
  ∃ pid pos o, command = .sellHouse pid pos ∧ spaceAt s.spaces pos = .ok o ∧
    o.hasHotel = true ∧ s.bankHouses < 4

section Building

variable {s : GameState} {pid : PlayerId} {pos : Nat}

theorem updateHolding_bank (s : GameState) (pid : PlayerId) (p : PlayerState) (pos : Nat)
    (o : SpaceOwnership) (delta : Int) : Ensures (updateHolding s pid p pos o delta) fun s' =>
      s'.bankHouses = s.bankHouses ∧ s'.bankHotels = s.bankHotels :=
  .after fun _ _ => .after fun _ _ => .after fun _ _ => .after fun _ _ => ⟨rfl, rfl⟩

/-- Building is allowed on a street only, and where the bank has the hotel for
the fifth level or the house for a lower one. -/
theorem canBuildOn_stocked (s : GameState) (pid : PlayerId) (pos : Nat) :
    Ensures (canBuildOn s pid pos) fun b => b = true → ∀ o, spaceAt s.spaces pos = .ok o →
      OnStreet s.gameMode o ∧ o.hasHotel = false ∧
        if 4 ≤ o.houses then 0 < s.bankHotels else 0 < s.bankHouses := by
  refine .after fun player _ => .after fun ownership hat => ?_
  simp only [sat_ite, sat_pure]
  refine ⟨fun _ => by simp, fun _ => .after fun boardSpace hspace => ?_⟩
  obtain rfl := getBoardSpace_square hspace
  split
  · rename_i color htype _
    simp only [sat_ite, sat_pure]
    refine ⟨fun _ => by simp, fun hfree => .after fun monopoly _ => ?_⟩
    simp only [sat_ite, sat_pure]
    refine ⟨fun _ => by simp, fun _ => .after fun levels _ => .after fun least _ => ?_⟩
    simp only [sat_ite, sat_pure]
    refine ⟨fun _ => by simp, fun _ => ⟨fun _ => by simp, fun hstocked _ o ho => ?_⟩⟩
    obtain rfl := Except.ok.inj (hat.symm.trans ho)
    have hnone : ownership.hasHotel = false := by simpa using (not_or.mp hfree).2
    refine ⟨?_, hnone, ?_⟩
    · rw [OnStreet, position_of_spaceAt hat]
      exact htype
    · rw [buildingLevel, hnone, if_neg Bool.false_ne_true] at hstocked
      by_cases hfour : 4 ≤ ownership.houses
      · simpa [hfour] using hstocked
      · simpa [hfour] using hstocked
  · simp

/-- What a house or a hotel is built with has been checked for. -/
theorem buildHouse_bank (hs : StockConsistent s) (pid : PlayerId) (pos : Nat) :
    Ensures (buildHouse s pid pos) fun s' => 0 ≤ s'.bankHouses ∧ 0 ≤ s'.bankHotels := by
  refine (canBuildOn_stocked s pid pos).seq fun allowed hallowed => ?_
  refine .guard fun hyes => .after fun player _ => .after fun ownership hat => ?_
  obtain ⟨hstreet, -, hstocked⟩ := hallowed (by simpa using hyes) ownership hat
  obtain ⟨i, -, hmem, -⟩ := spaceAt_found hat
  have hfour := (hs.bounded ownership (List.mem_of_getElem? hmem) hstreet).1
  have hhouses := hs.houses
  have hhotels := hs.hotels
  refine .after fun boardSpace _ => ?_
  simp only [sat_ite]
  constructor
  · intro hfull
    rw [if_pos (by omega)] at hstocked
    refine (updateHolding_bank s pid player pos _ _).seq fun s' hs' => ?_
    exact ⟨by simp only; omega, by simp only; omega⟩
  · intro hroom
    rw [if_neg (by omega)] at hstocked
    refine (updateHolding_bank s pid player pos _ _).seq fun s' hs' => ?_
    exact ⟨by simp only; omega, by simp only; omega⟩

/-- A sale overdraws the bank exactly when it lacks the houses of a hotel. -/
theorem sellHouse_bank (hs : StockConsistent s) (pid : PlayerId) (pos : Nat) :
    Ensures (sellHouse s pid pos) fun s' =>
      (0 ≤ s'.bankHouses ∧ 0 ≤ s'.bankHotels) ↔ ¬LacksHouses s (.sellHouse pid pos) := by
  refine .after fun allowed _ => .guard fun _ => .after fun player _ => ?_
  refine .after fun ownership hat => .after fun boardSpace _ => ?_
  have hhouses := hs.houses
  have hhotels := hs.hotels
  have hlacks : LacksHouses s (.sellHouse pid pos) ↔
      ownership.hasHotel = true ∧ s.bankHouses < 4 := by
    constructor
    · rintro ⟨_, _, o, ⟨⟩, ho, hhotel, hfew⟩
      obtain rfl := Except.ok.inj (hat.symm.trans ho)
      exact ⟨hhotel, hfew⟩
    · rintro ⟨hhotel, hfew⟩
      exact ⟨pid, pos, ownership, rfl, hat, hhotel, hfew⟩
  rw [hlacks]
  simp only [sat_ite]
  constructor
  · intro hhotel
    refine (updateHolding_bank s pid player pos _ _).seq fun s' _ => ?_
    simp only [sat_pure, hhotel, true_and]
    omega
  · intro hnone
    refine (updateHolding_bank s pid player pos _ _).seq fun s' hs' => ?_
    refine iff_of_true ⟨?_, ?_⟩ fun hsold => hnone hsold.1
    · show 0 ≤ s.bankHouses + 1
      omega
    · rw [hs'.2]
      exact hhotels

end Building

/-! ## the law -/

section Law

variable {s s' : GameState} {call : Call} {pid : PlayerId} {pos : Nat}

/-- The end of a call leaves the bank. -/
theorem finishCommand_bank (s : GameState) (command : GameCommand) (env : Env) (m : GameState)
    (events : List GameEvent) : Ensures (finishCommand s command env m events) fun s' =>
      s'.bankHouses = m.bankHouses ∧ s'.bankHotels = m.bankHotels := by
  refine ensures_iff.mpr fun s' hs' => ?_
  have hspaces := (finishCommand_spaces s command env m events).of_ok hs'
  have hstock := (finishCommand_stock s command env m events).of_ok hs'
  simp only [GameState.stock, stockOf, hspaces, Stock.ext_iff] at hstock
  omega

/-- An accepted `BuildHouse` or `SellHouse` leaves the bank with no fewer
than no houses and hotels exactly when it does not lack the houses of a hotel
that is sold. -/
theorem bank_never_overdrawn_iff (hs : StockConsistent s)
    (hcommand : call.command = .buildHouse pid pos ∨ call.command = .sellHouse pid pos)
    (h : Accepted s call s') :
    (0 ≤ s'.bankHouses ∧ 0 ≤ s'.bankHotels) ↔ ¬LacksHouses s call.command := by
  obtain ⟨command, env⟩ := call
  obtain ⟨events, rng, happly⟩ := h
  have hdispatch : Ensures (dispatch s command env) fun r =>
      (0 ≤ r.1.1.bankHouses ∧ 0 ≤ r.1.1.bankHotels) ↔ ¬LacksHouses s command := by
    rcases hcommand with rfl | rfl
    · refine sat_map.mpr (.guard fun _ => (buildHouse_bank hs pid pos).seq fun m hm => ?_)
      refine iff_of_true hm ?_
      rintro ⟨_, _, _, ⟨⟩, -⟩
    · exact sat_map.mpr (.guard fun _ => (sellHouse_bank hs pid pos).seq fun _ hm => hm)
  have hcall : Ensures (apply s command env) fun r =>
      (0 ≤ r.1.1.bankHouses ∧ 0 ≤ r.1.1.bankHotels) ↔ ¬LacksHouses s command := by
    refine .after fun _ _ => hdispatch.seq fun r hr => ?_
    refine (finishCommand_bank _ _ _ _ _).seq fun m hm => ?_
    show (0 ≤ m.bankHouses ∧ 0 ≤ m.bankHotels) ↔ _
    rw [hm.1, hm.2]
    exact hr
  exact hcall.of_ok happly

/-- Player `1` has hotels on both brown streets and four houses on every
street of three other groups: the bank is out of houses. -/
def housesOut (s : GameState) : GameState :=
  let hotels := positionsInColorGroup .brown .normal
  let built := positionsInColorGroup .cyan .normal ++
    positionsInColorGroup .pink .normal ++ positionsInColorGroup .blue .normal
  { s with
    players := editSeat 1 (fun p => { p with ownedPositions := hotels ++ built }) s.players
    spaces := s.spaces.map fun o =>
      if o.position ∈ hotels then { o with ownerId := some 1, hasHotel := true }
      else if o.position ∈ built then { o with ownerId := some 1, houses := 4 }
      else o
    bankHouses := 0
    bankHotels := 10 }

/-- Player `1` owns the brown streets, with nothing on them. -/
def brownOwned (s : GameState) : GameState :=
  let group := positionsInColorGroup .brown .normal
  { s with
    players := editSeat 1 (fun p => { p with ownedPositions := group }) s.players
    spaces := s.spaces.map fun o =>
      if o.position ∈ group then { o with ownerId := some 1 } else o }

/-- `StockConsistent` as it is computed. -/
def consistent (s : GameState) : Bool :=
  decide ((∀ o ∈ s.spaces, OnStreet s.gameMode o →
      o.houses ≤ 4 ∧ (o.hasHotel = true → o.houses = 0)) ∧
    (∀ color ∈ [PropertyColor.brown, .cyan, .pink, .orange, .red, .yellow, .green, .blue],
      ∀ q ∈ positionsInColorGroup color s.gameMode,
      ∀ q' ∈ positionsInColorGroup color s.gameMode,
        buildingLevel (ownershipAt s.spaces q) ≤ buildingLevel (ownershipAt s.spaces q') + 1) ∧
    0 ≤ s.bankHouses ∧ 0 ≤ s.bankHotels ∧ s.stock = ⟨32, 12⟩)

theorem of_consistent {s : GameState} (h : consistent s = true) : StockConsistent s := by
  obtain ⟨hbounded, heven, hhouses, hhotels, hstock⟩ := of_decide_eq_true h
  refine ⟨hbounded, fun color q hq q' hq' o o' ho ho' => ?_, hhouses, hhotels, hstock⟩
  rw [← ownershipAt_of_spaceAt ho, ← ownershipAt_of_spaceAt ho']
  exact heven color (by cases color <;> decide) q hq q' hq'

/-- Player `1` builds a house on a street of the brown group. -/
theorem bank_never_overdrawn_house : ∃ s s', StockConsistent s ∧
    Accepted s (callAt 0 [] (.buildHouse 1 2)) s' ∧
    0 ≤ s'.bankHouses ∧ 0 ≤ s'.bankHotels := by
  obtain ⟨s, s', events, rng, hcheck, happly⟩ := exists_call (duo 1500) brownOwned
    (callAt 0 [] (.buildHouse 1 2)) (fun s _ _ => consistent s) (by decide +kernel)
  have hs := of_consistent hcheck
  have haccepted : Accepted s (callAt 0 [] (.buildHouse 1 2)) s' := ⟨events, rng, happly⟩
  refine ⟨s, s', hs, haccepted, (bank_never_overdrawn_iff hs (.inl rfl) haccepted).mpr ?_⟩
  rintro ⟨_, _, _, ⟨⟩, -⟩

/-- Player `1` sells a hotel, and the bank owes four houses. -/
theorem hotel_sale_overdraws_bank : ∃ s s', StockConsistent s ∧
    Accepted s (callAt 0 [] (.sellHouse 1 2)) s' ∧ s'.bankHouses = -4 := by
  obtain ⟨s, s', events, rng, hcheck, happly⟩ := exists_call (duo 1500) housesOut
    (callAt 0 [] (.sellHouse 1 2)) (fun s s' _ => consistent s && decide (s'.bankHouses = -4))
    (by decide +kernel)
  obtain ⟨hs, hbank⟩ := Bool.and_eq_true_iff.mp hcheck
  exact ⟨s, s', of_consistent hs, ⟨events, rng, happly⟩, of_decide_eq_true hbank⟩

end Law

end Monopoly
