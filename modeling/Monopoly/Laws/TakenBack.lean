import Monopoly.Laws.ColorGroups
import Monopoly.Laws.NetWorth
import Monopoly.Spec.Holdings
import Monopoly.Spec.Redisplay

/-!
# Monopoly.Laws.TakenBack

Operations on holdings and the ones that take them back: a house that is
built and sold again, a mortgage that is redeemed.  The owner is out of
pocket; everything else is as it was.
-/

namespace Monopoly

/-- `loss` off the cash and the net worth. -/
def lose (loss : Int) (p : PlayerState) : PlayerState :=
  { p with balance := p.balance - loss, netWorth := p.netWorth - loss }

/-- The state again, refreshed, with `pid` poorer by `loss`. -/
def TakenBack (pid : PlayerId) (loss : Int) (s s' : GameState) : Prop :=
  Redisplayed { s with players := editSeat pid (lose loss) s.players } s'

/-! ## there and back -/

section Spaces

variable {mode : GameMode} {spaces : List SpaceOwnership} {pos : Nat}
  {f g : SpaceOwnership → SpaceOwnership}

/-- An edit of a record and the one that takes it back. -/
theorem editSpace_editSpace (h : Layout mode spaces)
    (hf : ∀ o, (f o).position = o.position)
    (hback : g (f (ownershipAt spaces pos)) = ownershipAt spaces pos) :
    editSpace pos g (editSpace pos f spaces) = spaces := by
  simp only [editSpace, editAt, List.map_map]
  refine (List.map_congr_left fun o ho => ?_).trans (List.map_id spaces)
  by_cases ho' : o.position = pos
  · have hat := ownershipAt_of_mem h ho
    rw [ho'] at hat
    rw [hat] at hback
    simp [ho', hf, hback]
  · simp [ho']

end Spaces

section Players

variable {players : List PlayerState} {spaces spaces' : List SpaceOwnership} {mode : GameMode}
  {pid : PlayerId} {p : PlayerState} {delta delta' : Int}

theorem addWorth_add (owned : List Nat) (total delta : Int) :
    addWorth spaces mode owned (total + delta) =
      (addWorth spaces mode owned total).map (· + delta) := by
  induction owned generalizing total with
  | nil => rfl
  | cons q rest ih =>
      simp only [addWorth]
      cases positionWorth spaces mode q with
      | error e => rfl
      | ok worth =>
          rw [ok_bind, ok_bind, ← ih, Int.add_right_comm]

/-- A current net worth moves with the cash. -/
theorem revalue_credit (hp : computeNetWorth p spaces mode = .ok p.netWorth) :
    revalue spaces mode (credit delta p) = lose (-delta) p := by
  have hcredit : computeNetWorth (credit delta p) spaces mode = .ok (p.netWorth + delta) := by
    show addWorth spaces mode p.ownedPositions (p.balance + delta) = _
    rw [addWorth_add, show addWorth spaces mode p.ownedPositions p.balance = _ from hp]
    rfl
  rw [revalue, hcredit]
  simp [lose, credit, Except.toOption]

theorem revalue_refreshed (hp : computeNetWorth p spaces mode = .ok p.netWorth) :
    revalue spaces mode p = p := by
  rw [revalue, hp]
  rfl

theorem repriced_refreshed (h : Refreshed players spaces mode) (pid : PlayerId) (delta : Int) :
    (editSeat pid (credit delta) players).map (revalue spaces mode) =
      editSeat pid (lose (-delta)) players := by
  simp only [editSeat, editAt, List.map_map]
  refine List.map_congr_left fun p hp => ?_
  by_cases hid : p.id = pid
  · simp [hid, revalue_credit (h p hp)]
  · simp [hid, revalue_refreshed (h p hp)]

/-- Of two repricings, the cash movements add up and the last values stay. -/
theorem repriced_repriced :
    (editSeat pid (credit delta') ((editSeat pid (credit delta) players).map
      (revalue spaces' mode))).map (revalue spaces mode) =
      (editSeat pid (credit (delta + delta')) players).map (revalue spaces mode) := by
  simp only [editSeat, editAt, List.map_map]
  refine List.map_congr_left fun p _ => ?_
  by_cases hid : p.id = pid
  · simp [hid, credit, revalue, computeNetWorth, Int.add_assoc]
  · simp [hid, revalue_revalue]

theorem unstruck_repriced :
    unstruck ((editSeat pid (credit delta) players).map (revalue spaces mode)) =
      (editSeat pid (credit delta) (unstruck players)).map (revalue spaces mode) := by
  simp only [unstruck, editSeat, editAt, List.map_map]
  refine List.map_congr_left fun p _ => ?_
  by_cases hid : p.id = pid
  · simp [hid, credit, revalue, computeNetWorth]
  · simp [hid, revalue, computeNetWorth]

end Players

section Holdings

variable {s s₁ s₂ m : GameState} {pid : PlayerId} {pos : Nat} {env : Env}
  {f g : SpaceOwnership → SpaceOwnership} {delta : Int}

/-- The second operation finds what the first has left, and takes it back:
the records are the old ones, and the players too but for the cash. -/
theorem held_held (hlayout : Layout s.gameMode s.spaces) (hfresh : s.Refreshed)
    (hf : ∀ o, (f o).position = o.position)
    (hback : g (f (ownershipAt s.spaces pos)) = ownershipAt s.spaces pos) (h : Redisplayed m s₁)
    (hplayers : m.players = (held s pid pos f delta).players)
    (hspaces : m.spaces = editSpace pos f s.spaces) (hmode : m.gameMode = s.gameMode)
    (delta' : Int) : editSpace pos g s₁.spaces = s.spaces ∧
      unstruck (held s₁ pid pos g delta').players =
        unstruck (editSeat pid (lose (-(delta + delta'))) s.players) := by
  have hspaces₁ : s₁.spaces = editSpace pos f s.spaces := by rw [h.frame]; exact hspaces
  have hmode₁ : s₁.gameMode = s.gameMode := by rw [h.frame]; exact hmode
  have hrestored : editSpace pos g s₁.spaces = s.spaces := by
    rw [hspaces₁, editSpace_editSpace hlayout hf hback]
  refine ⟨hrestored, ?_⟩
  rw [held, hrestored, hmode₁, unstruck_repriced, h.players, hplayers, held, unstruck_repriced,
    repriced_repriced, ← unstruck_repriced, repriced_refreshed hfresh]

/-- Two states that differ in the holdings alone, the second with the spaces
and the bank of the first again. -/
theorem Redisplayed.restore {players players' restored : List PlayerState}
    {spaces : List SpaceOwnership} {houses hotels : Int}
    (h : Redisplayed m s₁)
    (hm : m = { s with players, spaces, bankHouses := houses, bankHotels := hotels })
    (hplayers : unstruck players' = unstruck restored) :
    Redisplayed { s with players := restored } { s₁ with
      players := players'
      spaces := s.spaces
      bankHouses := s.bankHouses
      bankHotels := s.bankHotels } := by
  refine ⟨?_, hplayers⟩
  rw [h.frame, hm]

end Holdings

/-! ## a house that is sold again -/

/-- Within each color group the building levels differ by one at most. -/
def EvenlyBuilt (s : GameState) : Prop :=
  ∀ color, ∀ q ∈ streets s.gameMode color, ∀ q' ∈ streets s.gameMode color,
    s.lots.level q ≤ s.lots.level q' + 1

section Houses

variable {s s₁ s₂ : GameState} {pid : PlayerId} {pos : Nat} {env env' : Env}

/-- What an accepted `BuildHouse` has been checked for, and what it leaves. -/
theorem build_operated (hids : (s.players.map (·.id)).Nodup)
    (hlayout : Layout s.gameMode s.spaces) (htwo : 2 ≤ (survivors s.seats).length)
    (hdebt : s.bankruptcy = none) (h : Accepted s ⟨.buildHouse pid pos, env⟩ s₁) :
    canBuildOn s pid pos = .ok true ∧
      Operated s (built s pid pos (houseCostAt s.gameMode pos)) s₁ pid pos := by
  obtain ⟨hpermitted, m, hm⟩ := h.operated rfl rfl
  obtain ⟨hlaid, hpos, p, hp, rfl⟩ := (buildHouse_laid hids hlayout pid pos).of_ok hm
  have hcalm : Calm s := ⟨hlaid, fun _ => htwo, hdebt⟩
  have hcan := of_check hm
  exact ⟨hcan, hpermitted.operated hcalm ⟨p, hp, rfl⟩ hpos h rfl
    (buildHouse_built hlaid hp hpos hcan) (.mk fun o => (addHouse_kept o).1)⟩

/-- The street that was built on is the highest of its group. -/
theorem EvenlyBuilt.canSell (heven : EvenlyBuilt s) {m : GameState}
    (h : Operated s m s₁ pid pos) (hcan : canBuildOn s pid pos = .ok true)
    (hspaces : s₁.spaces = editSpace pos addHouse s.spaces) : canSellOn s₁ pid pos = .ok true := by
  have hlayout := h.calm.layout
  obtain ⟨color, hmem, hhotel, howner, hleast⟩ := (canBuildOn_ensures hlayout).of_ok hcan rfl
  obtain ⟨p, hp, rfl⟩ := h.owner_left
  have hat := ownershipAt_editSpace hlayout h.onBoard (fun o => (addHouse_kept o).1)
  rw [← hspaces] at hat
  have hraised : s₁.lots.level pos = s.lots.level pos + 1 := by
    show buildingLevel (ownershipAt s₁.spaces pos) = _
    rw [hat, if_pos rfl, buildingLevel_addHouse hhotel]
    rfl
  refine canSellOn_true h.calm_left.toLaid hp (by rw [h.frame.1]; exact hmem) ?_ (by omega)
    fun q hq => ?_
  · rw [hat, if_pos rfl, (addHouse_kept _).2.1]
    exact (howner pos hmem).1
  · rw [h.frame.1] at hq
    by_cases hqp : q = pos
    · rw [hqp]
    · have hsame : s₁.lots.level q = s.lots.level q := by
        show buildingLevel (ownershipAt s₁.spaces q) = _
        rw [hat, if_neg hqp]
        rfl
      have hle := heven color q hq pos hmem
      omega

/-- The bank after a house was built and sold, across the hotel too. -/
theorem sold_built (hlayout : Layout s.gameMode s.spaces) (hpos : OnBoard s.gameMode pos)
    (hhotel : (ownershipAt s.spaces pos).hasHotel = false) {cost : Nat}
    (h : Redisplayed (built s pid pos cost) s₁)
    (hspaces : editSpace pos removeHouse s₁.spaces = s.spaces) :
    sold s₁ pid pos cost = { s₁ with
      players := (held s₁ pid pos removeHouse (cost / 2 : Nat)).players
      spaces := s.spaces
      bankHouses := s.bankHouses
      bankHotels := s.bankHotels } := by
  have hat : ownershipAt s₁.spaces pos = addHouse (ownershipAt s.spaces pos) := by
    have hedit := ownershipAt_editSpace hlayout hpos (fun o => (addHouse_kept o).1) pos
    rw [if_pos rfl] at hedit
    rw [h.frame]
    exact hedit
  have hhouses : s₁.bankHouses = (built s pid pos cost).bankHouses := by rw [h.frame]
  have hhotels : s₁.bankHotels = (built s pid pos cost).bankHotels := by rw [h.frame]
  by_cases hfull : (ownershipAt s.spaces pos).houses = 4
  · simp [sold, held, hspaces, hat, addHouse, hhouses, hhotels, built, hfull]
  · simp [sold, held, hspaces, hat, addHouse, hhouses, hhotels, built, hfull, hhotel]

/-- A house that is sold right after it was built, or the four houses of a
hotel: the sale is accepted, and everything is as it was but for half of the
cost, rounded up. -/
theorem sell_undoes_build (hids : (s.players.map (·.id)).Nodup)
    (hlayout : Layout s.gameMode s.spaces) (htwo : 2 ≤ (survivors s.seats).length)
    (heven : EvenlyBuilt s) (hfresh : s.Refreshed) (hdebt : s.bankruptcy = none)
    (hbuild : Accepted s ⟨.buildHouse pid pos, env⟩ s₁) (env' : Env) :
    (∃ s₂, Accepted s₁ ⟨.sellHouse pid pos, env'⟩ s₂) ∧
    ∀ s₂, Accepted s₁ ⟨.sellHouse pid pos, env'⟩ s₂ →
      TakenBack pid (houseCostAt s.gameMode pos - (houseCostAt s.gameMode pos / 2 : Nat)) s s₂ := by
  obtain ⟨hcan, hbuilt⟩ := build_operated hids hlayout htwo hdebt hbuild
  obtain ⟨-, -, hhotel, -, -⟩ := (canBuildOn_ensures hlayout).of_ok hcan rfl
  have hspaces : s₁.spaces = editSpace pos addHouse s.spaces := by rw [hbuilt.shown.frame]; rfl
  have hsell := heven.canSell hbuilt hcan hspaces
  obtain ⟨p, hp, hid⟩ := hbuilt.owner_left
  have hsold := sellHouse_sold hbuilt.calm_left.toLaid hp hbuilt.onBoard_left (by rwa [hid])
  rw [hid, hbuilt.frame.1] at hsold
  have hheld : Held s₁ pid pos (sold s₁ pid pos (houseCostAt s.gameMode pos)) :=
    .mk fun o => (removeHouse_kept o).1
  refine ⟨hbuilt.permitted_left.accepted hbuilt.calm_left hbuilt.pending_left hbuilt.owner_left rfl
    rfl hsold hheld, fun s₂ ha => ?_⟩
  have hleft := hbuilt.permitted_left.operated hbuilt.calm_left hbuilt.owner_left
    hbuilt.onBoard_left ha rfl hsold hheld
  obtain ⟨hrestored, hplayers⟩ := held_held hlayout hfresh (fun o => (addHouse_kept o).1)
    (removeHouse_addHouse hhotel) hbuilt.shown rfl rfl rfl (houseCostAt s.gameMode pos / 2 : Nat)
  have hshown₂ := hleft.shown
  rw [sold_built hlayout hbuilt.onBoard hhotel hbuilt.shown hrestored] at hshown₂
  refine (Redisplayed.restore (s := s) hbuilt.shown rfl ?_).trans hshown₂
  rw [hplayers]
  congr 3
  omega

/-- Player `1` fills both brown streets of the duel board, builds a hotel on
the first and sells it. -/
def brownHotelSold : List Call :=
  (brownHouse ++ [4, 2, 4, 2, 4, 2, 4].map fun pos => callAt 0 [] (.buildHouse 1 pos)) ++
    [callAt 0 [] (.buildHouse 1 2), callAt 0 [] (.sellHouse 1 2)]

theorem hotel_sold_again : ∃ s s₁ s₂, (ownershipAt s.spaces 2).houses = 4 ∧
    Accepted s (callAt 0 [] (.buildHouse 1 2)) s₁ ∧
    Accepted s₁ (callAt 0 [] (.sellHouse 1 2)) s₂ ∧ TakenBack 1 25 s s₂ := by
  obtain ⟨h, s₂, hplay, hlabels, hcheck⟩ := play_of_reaches duel brownHotelSold
    (fun h _ => h[1]?.any fun (t : Taken GameState Call) =>
      decide ((ownershipAt t.before.spaces 2).houses = 4 ∧ 2 ≤ (survivors t.before.seats).length ∧
        t.before.bankruptcy = none ∧ t.before.gameMode = .duel)) (by decide) (by decide +kernel)
  obtain ⟨h₀, s, s₁, rfl, hbefore, hbuild, hsell⟩ := last_two_of_play hplay hlabels
  obtain ⟨hfour, htwo, hdebt, hmode⟩ := of_decide_eq_true hcheck
  have hcalls : ∀ call ∈ brownHotelSold, call.command ≠ .advanceAuction := by decide
  have heven : EvenlyBuilt s := by
    have hregular := Play.groupsRegular hbefore fun t ht => auctionClear_of_other
      (hcalls _ (label_mem_of_reverse hlabels (List.mem_cons_of_mem _ (List.mem_cons_of_mem _ ht))))
    exact fun color => (hregular.regular color).even
  refine ⟨s, s₁, s₂, hfour, hbuild, hsell, ?_⟩
  have hback := (sell_undoes_build (Play.formed hbefore).1.toSound.playerIds
    (Play.formed hbefore).1.layout htwo heven hbefore.refreshed hdebt hbuild
    (callAt 0 [] (.sellHouse 1 2)).env).2 s₂ hsell
  rw [show s.gameMode = .duel from hmode] at hback
  exact hback

end Houses

/-! ## a mortgage that is redeemed -/

/-- A tenth of the mortgage value, rounded up. -/
def tenthOf (value : Nat) : Nat := (value + 9) / 10

/-- The mortgage values of the boards whose product with the binary `1.10`
comes out above eleven tenths, and is rounded up by one. -/
def overcharged : List Nat := [50, 90, 100, 110, 200]

/-- What the float is off by. -/
def surcharge (value : Nat) : Nat := if value ∈ overcharged then 1 else 0

set_option maxRecDepth 4000 in
theorem unmortgageCost_eq {mode : GameMode} {pos : Nat} (h : OnBoard mode pos) :
    unmortgageCost (mortgageValueAt mode pos) = mortgageValueAt mode pos +
      (tenthOf (mortgageValueAt mode pos) + surcharge (mortgageValueAt mode pos)) :=
  forall_onBoard (P := fun mode pos =>
    unmortgageCost (mortgageValueAt mode pos) = mortgageValueAt mode pos +
      (tenthOf (mortgageValueAt mode pos) + surcharge (mortgageValueAt mode pos)))
    (by decide +kernel) (by decide +kernel) h

/-- The redemption that follows a mortgage is accepted exactly when the
balance before the mortgage covers a tenth of its value, and then everything
is as it was but for that tenth. -/
def RedeemsAtTenth (s s₁ : GameState) (pid : PlayerId) (pos : Nat) (env : Env) : Prop :=
  ((∃ s₂, Accepted s₁ ⟨.unmortgage pid pos, env⟩ s₂) ↔
    (tenthOf (mortgageValueAt s.gameMode pos) : Int) ≤ s.cash pid) ∧
  ∀ s₂, Accepted s₁ ⟨.unmortgage pid pos, env⟩ s₂ →
    TakenBack pid (tenthOf (mortgageValueAt s.gameMode pos)) s s₂

section Mortgages

variable {s s₁ s₂ : GameState} {pid : PlayerId} {pos : Nat} {env env' : Env}

/-- What an accepted `Mortgage` has been checked for, and what it leaves. -/
theorem mortgage_operated (hids : (s.players.map (·.id)).Nodup)
    (hlayout : Layout s.gameMode s.spaces) (htwo : 2 ≤ (survivors s.seats).length)
    (hdebt : s.bankruptcy = none) (h : Accepted s ⟨.mortgage pid pos, env⟩ s₁) :
    canMortgage s pid pos = .ok true ∧
      Operated s (pledged s pid pos (mortgageValueAt s.gameMode pos)) s₁ pid pos := by
  obtain ⟨hpermitted, m, hm⟩ := h.operated rfl rfl
  obtain ⟨hlaid, hpos, p, hp, rfl⟩ := (mortgageProperty_laid hids hlayout pid pos).of_ok hm
  have hcalm : Calm s := ⟨hlaid, fun _ => htwo, hdebt⟩
  have hcan := of_check hm
  exact ⟨hcan, hpermitted.operated hcalm ⟨p, hp, rfl⟩ hpos h rfl
    (mortgageProperty_pledged hlaid hp hpos hcan) (.mk fun _ => rfl)⟩

/-- After the mortgage, the redemption is a matter of the cash. -/
theorem canRedeem (hcan : canMortgage s pid pos = .ok true)
    (h : Operated s (pledged s pid pos (mortgageValueAt s.gameMode pos)) s₁ pid pos) :
    canUnmortgage s₁ pid pos = .ok (decide (s.cash pid + mortgageValueAt s.gameMode pos ≥
      unmortgageCost (mortgageValueAt s.gameMode pos))) := by
  have hlayout := h.calm.layout
  obtain ⟨p, hp, rfl⟩ := h.owner_left
  have hat : ownershipAt s₁.spaces pos = { ownershipAt s.spaces pos with isMortgaged := true } := by
    have hedit := ownershipAt_editSpace hlayout h.onBoard
      (f := fun o => { o with isMortgaged := true }) (fun _ => rfl) pos
    rw [if_pos rfl] at hedit
    rw [h.shown.frame]
    exact hedit
  have hcash : p.balance = s.cash p.id + mortgageValueAt s.gameMode pos := by
    obtain ⟨q, hq, hqid⟩ := h.owner
    rw [← h.calm_left.cash_eq hp, h.shown.tidied.cash, ← hqid]
    exact held_cash h.calm.toLaid hq pos _ _
  rw [canUnmortgage_eq h.calm_left.toLaid hp h.onBoard_left
    (by rw [hat]; exact ((canMortgage_ensures hlayout).of_ok hcan rfl).1) (by rw [hat]),
    h.frame.1, hcash]
  rfl

/-- A redemption that passes its check. -/
theorem redeem_returns {m : GameState} (h : Operated s m s₁ pid pos)
    (hredeem : canUnmortgage s₁ pid pos = .ok true) : unmortgageProperty s₁ pid pos =
      .ok (redeemed s₁ pid pos (unmortgageCost (mortgageValueAt s.gameMode pos))) := by
  obtain ⟨p, hp, rfl⟩ := h.owner_left
  have hredeemed := unmortgageProperty_redeemed h.calm_left.toLaid hp h.onBoard_left hredeem
  rwa [h.frame.1] at hredeemed

/-- The redemption is accepted exactly when the balance before the mortgage
covers the interest the code computes. -/
theorem redemption_accepted_iff (hcan : canMortgage s pid pos = .ok true)
    (h : Operated s (pledged s pid pos (mortgageValueAt s.gameMode pos)) s₁ pid pos)
    (env' : Env) :
    (∃ s₂, Accepted s₁ ⟨.unmortgage pid pos, env'⟩ s₂) ↔
      s.cash pid + mortgageValueAt s.gameMode pos ≥
        unmortgageCost (mortgageValueAt s.gameMode pos) := by
  have hredeem := canRedeem hcan h
  constructor
  · rintro ⟨s₂, ha⟩
    obtain ⟨-, m, hm⟩ := ha.operated rfl rfl
    exact of_decide_eq_true (Except.ok.inj (hredeem.symm.trans (of_check hm)))
  · intro hfunds
    rw [decide_eq_true hfunds] at hredeem
    exact h.permitted_left.accepted h.calm_left h.pending_left h.owner_left rfl rfl
      (redeem_returns h hredeem) (.mk fun _ => rfl)

/-- It takes the mortgage back, at that interest. -/
theorem redemption_taken_back (hcan : canMortgage s pid pos = .ok true)
    (h : Operated s (pledged s pid pos (mortgageValueAt s.gameMode pos)) s₁ pid pos)
    (hfresh : s.Refreshed)
    (ha : Accepted s₁ ⟨.unmortgage pid pos, env'⟩ s₂) :
    TakenBack pid (unmortgageCost (mortgageValueAt s.gameMode pos) -
      mortgageValueAt s.gameMode pos) s s₂ := by
  have hlayout := h.calm.layout
  obtain ⟨-, m, hm⟩ := ha.operated rfl rfl
  have hleft := h.permitted_left.operated h.calm_left h.owner_left h.onBoard_left ha rfl
    (redeem_returns h (of_check hm)) (.mk fun _ => rfl)
  have hback : ({ ownershipAt s.spaces pos with isMortgaged := false } : SpaceOwnership) =
      ownershipAt s.spaces pos := by
    rw [← (canMortgage_unpledged hlayout).of_ok hcan rfl]
  obtain ⟨hrestored, hplayers⟩ := held_held (f := fun o => { o with isMortgaged := true })
    (g := fun o => { o with isMortgaged := false }) hlayout hfresh (fun _ => rfl) hback h.shown
    rfl rfl rfl (-(unmortgageCost (mortgageValueAt s.gameMode pos) : Int))
  have hbank : redeemed s₁ pid pos (unmortgageCost (mortgageValueAt s.gameMode pos)) = { s₁ with
      players := (redeemed s₁ pid pos
        (unmortgageCost (mortgageValueAt s.gameMode pos))).players
      spaces := s.spaces
      bankHouses := s.bankHouses
      bankHotels := s.bankHotels } := by
    rw [redeemed, held, hrestored, show s.bankHouses = s₁.bankHouses by rw [h.shown.frame]; rfl,
      show s.bankHotels = s₁.bankHotels by rw [h.shown.frame]; rfl]
  have hshown₂ := hleft.shown
  rw [hbank] at hshown₂
  refine (Redisplayed.restore (s := s) h.shown rfl ?_).trans hshown₂
  refine hplayers.trans ?_
  congr 3
  omega

/-- The balances after, but for the loss, are the balances before. -/
theorem TakenBack.balances {loss : Int} (h : TakenBack pid loss s s₂) :
    s₂.players.map (·.balance) = (editSeat pid (lose loss) s.players).map (·.balance) := by
  have hbalances := congrArg (List.map (·.balance)) h.players
  simp only [unstruck, List.map_map] at hbalances
  exact hbalances

theorem TakenBack.loss_eq {p : PlayerState} (hp : p ∈ s.players) {loss loss' : Int}
    (h : TakenBack p.id loss s s₂) (h' : TakenBack p.id loss' s s₂) : loss = loss' := by
  have hsame := h.balances.symm.trans h'.balances
  simp only [editSeat, editAt, List.map_map, List.map_inj_left] at hsame
  have hp' := hsame p hp
  simp only [Function.comp_apply, if_true, lose] at hp'
  omega

/-- A mortgage is redeemed at a tenth of its value, rounded up, exactly when
its value is none of the overcharged ones, or the balance before it does not
cover that tenth anyway. -/
theorem redeems_at_tenth_iff (hids : (s.players.map (·.id)).Nodup)
    (hlayout : Layout s.gameMode s.spaces) (htwo : 2 ≤ (survivors s.seats).length)
    (hfresh : s.Refreshed) (hdebt : s.bankruptcy = none)
    (hmortgage : Accepted s ⟨.mortgage pid pos, env⟩ s₁) (env' : Env) :
    RedeemsAtTenth s s₁ pid pos env' ↔ mortgageValueAt s.gameMode pos ∉ overcharged ∨
      s.cash pid < tenthOf (mortgageValueAt s.gameMode pos) := by
  obtain ⟨hcan, hpledged⟩ := mortgage_operated hids hlayout htwo hdebt hmortgage
  have hcost := unmortgageCost_eq hpledged.onBoard
  have haccepted := redemption_accepted_iff hcan hpledged env'
  have hback : ∀ s₂, Accepted s₁ ⟨.unmortgage pid pos, env'⟩ s₂ →
      TakenBack pid (tenthOf (mortgageValueAt s.gameMode pos) +
        surcharge (mortgageValueAt s.gameMode pos)) s s₂ := by
    intro s₂ ha
    have htaken := redemption_taken_back hcan hpledged hfresh ha
    rw [hcost] at htaken
    convert htaken using 1
    omega
  rw [hcost] at haccepted
  by_cases hover : mortgageValueAt s.gameMode pos ∈ overcharged
  · simp only [surcharge, if_pos hover] at haccepted hback
    refine ⟨fun hredeems => .inr ?_, fun hcond => ?_⟩
    · by_contra hfunds
      obtain ⟨s₂, ha⟩ := hredeems.1.mpr (Int.not_lt.mp hfunds)
      obtain ⟨p, hp, rfl⟩ := hpledged.owner
      have hloss := (hredeems.2 s₂ ha).loss_eq hp (hback s₂ ha)
      omega
    · have hshort := hcond.resolve_left (not_not.mpr hover)
      have hrefused : ¬∃ s₂, Accepted s₁ ⟨.unmortgage pid pos, env'⟩ s₂ := by
        rw [haccepted]
        omega
      exact ⟨iff_of_false hrefused (Int.not_le.mpr hshort),
        fun s₂ ha => absurd ⟨s₂, ha⟩ hrefused⟩
  · simp only [surcharge, if_neg hover] at haccepted hback
    refine iff_of_true ⟨haccepted.trans ?_, fun s₂ ha => ?_⟩ (.inl hover)
    · omega
    · simpa using hback s₂ ha

/-- Player `1` buys position `4`, mortgages it and redeems it: `30` in, `33`
out. -/
theorem mortgage_of_thirty_redeemed : ∃ s s₁, Accepted s (callAt 0 [] (.mortgage 1 4)) s₁ ∧
    mortgageValueAt s.gameMode 4 = 30 ∧
    RedeemsAtTenth s s₁ 1 4 (callAt 0 [] (.unmortgage 1 4)).env := by
  obtain ⟨h, s₂, hplay, hlabels, hcheck⟩ := play_of_reaches (duo 1500)
    (firstPurchase ++ [callAt 0 [] (.mortgage 1 4), callAt 0 [] (.unmortgage 1 4)])
    (fun h _ => h[1]?.any fun (t : Taken GameState Call) => decide (
      2 ≤ (survivors t.before.seats).length ∧ t.before.bankruptcy = none ∧
        t.before.gameMode = .normal)) (by decide) (by decide +kernel)
  obtain ⟨h₀, s, s₁, rfl, hbefore, hmortgage, -⟩ := last_two_of_play hplay hlabels
  obtain ⟨htwo, hdebt, hmode⟩ := of_decide_eq_true hcheck
  replace hmode : s.gameMode = .normal := hmode
  have hvalue : mortgageValueAt s.gameMode 4 = 30 := by rw [hmode]; decide
  refine ⟨s, s₁, hmortgage, hvalue, (redeems_at_tenth_iff
    (Play.formed hbefore).1.toSound.playerIds (Play.formed hbefore).1.layout htwo
    hbefore.refreshed hdebt hmortgage _).mpr (.inl ?_)⟩
  rw [hvalue]
  decide

/-- Player `1` buys the first railroad, mortgages it and redeems it: `100`
in, `111` out. -/
def railroadRedeemed : List Call :=
  [callAt 0 [0, 3] (.rollDice 1), callAt 0 [] (.buyProperty 1 6)] ++
    [callAt 0 [] (.mortgage 1 6), callAt 0 [] (.unmortgage 1 6)]

theorem railroad_overcharged : ∃ h s s₁ s₂, Play h s ∧ s.status = .inProgress ∧
    2 ≤ (survivors s.seats).length ∧ s.Refreshed ∧ s.bankruptcy = none ∧
    Accepted s (callAt 0 [] (.mortgage 1 6)) s₁ ∧
    Accepted s₁ (callAt 0 [] (.unmortgage 1 6)) s₂ ∧ mortgageValueAt s.gameMode 6 = 100 ∧
    s.players.map (·.balance) = [1300, 1500] ∧ s₂.players.map (·.balance) = [1289, 1500] ∧
    ¬RedeemsAtTenth s s₁ 1 6 (callAt 0 [] (.unmortgage 1 6)).env := by
  obtain ⟨h, s₂, hplay, hlabels, hcheck⟩ := play_of_reaches (duo 1500) railroadRedeemed
    (fun h s₂ => decide (s₂.players.map PlayerState.balance = [1289, 1500]) &&
      h[1]?.any fun (t : Taken GameState Call) => decide (t.before.status = .inProgress ∧
        2 ≤ (survivors t.before.seats).length ∧ t.before.bankruptcy = none ∧
        t.before.gameMode = .normal ∧ t.before.players.map PlayerState.balance = [1300, 1500] ∧
        [1289, 1500] ≠ (editSeat 1 (lose (tenthOf 100)) t.before.players).map
          PlayerState.balance)) (by decide) (by decide +kernel)
  obtain ⟨h₀, s, s₁, rfl, hbefore, hmortgage, hredeem⟩ := last_two_of_play hplay hlabels
  obtain ⟨hafter, hstate⟩ := Bool.and_eq_true_iff.mp hcheck
  obtain ⟨hin, htwo, hdebt, hmode, hbalances, hne⟩ := of_decide_eq_true hstate
  replace hafter : s₂.players.map (·.balance) = [1289, 1500] := of_decide_eq_true hafter
  replace hmode : s.gameMode = .normal := hmode
  have hvalue : mortgageValueAt s.gameMode 6 = 100 := by rw [hmode]; decide
  refine ⟨h₀, s, s₁, s₂, hbefore, hin, htwo, hbefore.refreshed, hdebt, hmortgage, hredeem, hvalue,
    hbalances, hafter, fun hredeems => ?_⟩
  have htaken := (hredeems.2 s₂ hredeem).balances
  rw [hafter, hvalue] at htaken
  exact hne htaken

end Mortgages

end Monopoly
