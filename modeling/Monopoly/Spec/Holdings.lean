import Monopoly.Spec.Redisplay
import Monopoly.Spec.Streets

/-!
# Monopoly.Spec.Holdings

The exact outcome of building, selling, mortgaging and redeeming: the owner's
cash moves, one record is edited, and every net worth is computed anew.
-/

namespace Monopoly

/-! ## the shared tail -/

/-- Building takes a house from the bank; the fifth level takes a hotel and
returns four houses. -/
def built (s : GameState) (pid : PlayerId) (pos : Nat) (cost : Nat) : GameState :=
  let full := (ownershipAt s.spaces pos).houses = 4
  { held s pid pos addHouse (-cost) with
    bankHouses := if full then s.bankHouses + 4 else s.bankHouses - 1
    bankHotels := if full then s.bankHotels - 1 else s.bankHotels }

/-- Selling returns a house to the bank; a hotel is changed for four. -/
def sold (s : GameState) (pid : PlayerId) (pos : Nat) (cost : Nat) : GameState :=
  let hotel := (ownershipAt s.spaces pos).hasHotel = true
  { held s pid pos removeHouse (cost / 2 : Nat) with
    bankHouses := if hotel then s.bankHouses - 4 else s.bankHouses + 1
    bankHotels := if hotel then s.bankHotels + 1 else s.bankHotels }

/-- A title mortgaged for its value. -/
def pledged (s : GameState) (pid : PlayerId) (pos : Nat) (value : Nat) : GameState :=
  held s pid pos (fun o => { o with isMortgaged := true }) value

/-- A mortgage lifted for its cost. -/
def redeemed (s : GameState) (pid : PlayerId) (pos : Nat) (cost : Nat) : GameState :=
  held s pid pos (fun o => { o with isMortgaged := false }) (-cost)

section Outcomes

variable {s : GameState} {p : PlayerState} {pos : Nat}

/-- The price of a house on the square. -/
def houseCostAt (mode : GameMode) (pos : Nat) : Nat := (squareAt mode pos).houseCost.getD 0

/-- The mortgage value of the square. -/
def mortgageValueAt (mode : GameMode) (pos : Nat) : Nat := (squareAt mode pos).mortgageValue.getD 0

/-- The cash of the owner moves by exactly the amount. -/
theorem held_cash (hs : Laid s) (hp : p ∈ s.players) (pos : Nat)
    (f : SpaceOwnership → SpaceOwnership) (delta : Int) :
    (held s p.id pos f delta).cash p.id = s.cash p.id + delta := by
  have hseat : s.seat? p.id = some p.bare := hs.seat?_eq (mem_seats hp)
  have hid : ∀ q : PlayerState, (if q.id = p.id then credit delta q else q).id = q.id := by
    intro q
    split <;> rfl
  rw [GameState.cash, seat?_map (held_seats s p.id pos f delta) hid, GameState.cash, hseat]
  simp [credit]

/-! ## the four operations -/

variable {m : GameState}

/-- An operation that returns has passed its check. -/
theorem of_check {check : Py Bool} {message : String} {f : Unit → Py GameState}
    (h : (check >>= fun allowed => illegalIf (¬ allowed) message >>= f) = .ok m) :
    check = .ok true := by
  cases hcheck : check with
  | error e => simp [hcheck] at h
  | ok allowed =>
      cases allowed with
      | false => simp [hcheck, illegalIf, raiseIf] at h
      | true => rfl

theorem check_passed {check : Py Bool} {message : String} {f : Unit → Py GameState}
    (h : check = .ok true) :
    (check >>= fun allowed => illegalIf (¬ allowed) message >>= f) = f () := by
  simp [h, illegalIf, raiseIf]

/-- A permitted build is exactly `built`. -/
theorem buildHouse_built (hs : Laid s) (hp : p ∈ s.players) (hpos : OnBoard s.gameMode pos)
    (hcan : canBuildOn s p.id pos = .ok true) :
    buildHouse s p.id pos = .ok (built s p.id pos (houseCostAt s.gameMode pos)) := by
  have hadd := updateHolding_held hs hp hpos (fun o => (addHouse_kept o).1)
    (-(houseCostAt s.gameMode pos : Int))
  rw [buildHouse, check_passed hcan, hs.getPlayer hp, ok_bind, spaceAt_eq hs.layout hpos, ok_bind,
    getBoardSpace_eq hpos, ok_bind]
  by_cases hfull : (ownershipAt s.spaces pos).houses = 4
  · rw [addHouse, if_pos hfull] at hadd
    simp only [if_pos hfull, built]
    rw [show (squareAt s.gameMode pos).houseCost.getD 0 = houseCostAt s.gameMode pos from rfl, hadd]
    rfl
  · rw [addHouse, if_neg hfull] at hadd
    simp only [if_neg hfull, built]
    rw [show (squareAt s.gameMode pos).houseCost.getD 0 = houseCostAt s.gameMode pos from rfl, hadd]
    rfl

/-- A permitted sale is exactly `sold`. -/
theorem sellHouse_sold (hs : Laid s) (hp : p ∈ s.players) (hpos : OnBoard s.gameMode pos)
    (hcan : canSellOn s p.id pos = .ok true) :
    sellHouse s p.id pos = .ok (sold s p.id pos (houseCostAt s.gameMode pos)) := by
  have hremove := updateHolding_held hs hp hpos (fun o => (removeHouse_kept o).1)
    (houseCostAt s.gameMode pos / 2 : Nat)
  rw [sellHouse, check_passed hcan, hs.getPlayer hp, ok_bind, spaceAt_eq hs.layout hpos, ok_bind,
    getBoardSpace_eq hpos, ok_bind]
  by_cases hhotel : (ownershipAt s.spaces pos).hasHotel = true
  · rw [removeHouse, if_pos hhotel] at hremove
    simp only [if_pos hhotel, sold]
    rw [show (squareAt s.gameMode pos).houseCost.getD 0 = houseCostAt s.gameMode pos from rfl,
      hremove]
    rfl
  · rw [removeHouse, if_neg hhotel] at hremove
    simp only [if_neg hhotel, sold]
    rw [show (squareAt s.gameMode pos).houseCost.getD 0 = houseCostAt s.gameMode pos from rfl,
      hremove]
    rfl

/-- A permitted mortgage is exactly `pledged`. -/
theorem mortgageProperty_pledged (hs : Laid s) (hp : p ∈ s.players)
    (hpos : OnBoard s.gameMode pos) (hcan : canMortgage s p.id pos = .ok true) :
    mortgageProperty s p.id pos = .ok (pledged s p.id pos (mortgageValueAt s.gameMode pos)) := by
  rw [mortgageProperty, check_passed hcan, hs.getPlayer hp, ok_bind, getBoardSpace_eq hpos, ok_bind,
    spaceAt_eq hs.layout hpos, ok_bind]
  exact updateHolding_held hs hp hpos (f := fun o => { o with isMortgaged := true })
    (fun _ => rfl) _

/-- A permitted lifting is exactly `redeemed`. -/
theorem unmortgageProperty_redeemed (hs : Laid s) (hp : p ∈ s.players)
    (hpos : OnBoard s.gameMode pos) (hcan : canUnmortgage s p.id pos = .ok true) :
    unmortgageProperty s p.id pos =
      .ok (redeemed s p.id pos (unmortgageCost (mortgageValueAt s.gameMode pos))) := by
  rw [unmortgageProperty, check_passed hcan, hs.getPlayer hp, ok_bind, getBoardSpace_eq hpos,
    ok_bind, spaceAt_eq hs.layout hpos, ok_bind]
  exact updateHolding_held hs hp hpos (f := fun o => { o with isMortgaged := false })
    (fun _ => rfl) _

/-! An operation that returns has computed every net worth. -/

theorem addWorth_onBoard (spaces : List SpaceOwnership) (mode : GameMode) (owned : List Nat)
    (total : Int) :
    Ensures (addWorth spaces mode owned total) fun _ => ∀ q ∈ owned, OnBoard mode q := by
  induction owned generalizing total with
  | nil => simp [addWorth]
  | cons q rest ih =>
      refine Sat.seq (R := fun _ => OnBoard mode q) ?_ fun worth hq =>
        (ih _).imp fun _ hrest => List.forall_mem_cons.mpr ⟨hq, hrest⟩
      refine .after fun space hspace => ensures_iff.mpr fun _ _ => ?_
      exact onBoard_of_getBoardSpace hspace

theorem refreshAllNetWorth_onBoard (players : List PlayerState) (spaces : List SpaceOwnership)
    (mode : GameMode) : Ensures (refreshAllNetWorth players spaces mode) fun _ =>
      ∀ p ∈ players, ∀ q ∈ p.ownedPositions, OnBoard mode q := by
  unfold refreshAllNetWorth
  induction players with
  | nil => simp
  | cons p rest ih =>
      rw [List.mapM_cons]
      have hp : Ensures (updatePlayerNetWorth p spaces mode) fun _ =>
          ∀ q ∈ p.ownedPositions, OnBoard mode q :=
        (addWorth_onBoard spaces mode p.ownedPositions p.balance).seq fun _ h => h
      exact hp.seq fun _ hp => ih.seq fun _ hrest => List.forall_mem_cons.mpr ⟨hp, hrest⟩

theorem updateHolding_laid (hids : (s.players.map (·.id)).Nodup)
    (hlayout : Layout s.gameMode s.spaces) (hp : p ∈ s.players) (pos : Nat) (o : SpaceOwnership)
    (delta : Int) : Ensures (updateHolding s p.id p pos o delta) fun _ => Laid s := by
  refine .after fun spaces _ => ?_
  refine Sat.seq (R := fun v => v.ownedPositions = p.ownedPositions) (.after fun _ _ => rfl)
    fun v hv => ?_
  rw [assignPlayer_eq hids hp (fun _ => v), ok_bind]
  refine (refreshAllNetWorth_onBoard _ _ _).seq fun _ hboard => ⟨nodup_seats hids, hlayout, ?_⟩
  intro q hq r hr
  refine hboard (if q.id = p.id then v else q) (mem_editSeat.mpr ⟨q, hq, rfl⟩) r ?_
  split
  · rename_i hid
    rw [hv, ← eq_of_key_eq PlayerState.id hids hq hp hid]
    exact hr
  · exact hr

theorem buildHouse_laid (hids : (s.players.map (·.id)).Nodup)
    (hlayout : Layout s.gameMode s.spaces) (pid : PlayerId) (pos : Nat) :
    Ensures (buildHouse s pid pos) fun _ => Laid s ∧ OnBoard s.gameMode pos ∧
      ∃ p ∈ s.players, p.id = pid := by
  refine .after fun allowed _ => .guard fun _ => .after fun player hplayer => ?_
  obtain ⟨hp, rfl⟩ := getPlayer_found hplayer
  refine .after fun o hat => .after fun space _ => ?_
  have hpos := (spaceAt_ok hlayout hat).1
  have hlaid := updateHolding_laid hids hlayout hp pos
  simp only [sat_ite]
  constructor
  · exact fun _ => (hlaid _ _).seq fun _ hs => ⟨hs, hpos, player, hp, rfl⟩
  · exact fun _ => (hlaid _ _).seq fun _ hs => ⟨hs, hpos, player, hp, rfl⟩

theorem mortgageProperty_laid (hids : (s.players.map (·.id)).Nodup)
    (hlayout : Layout s.gameMode s.spaces) (pid : PlayerId) (pos : Nat) :
    Ensures (mortgageProperty s pid pos) fun _ => Laid s ∧ OnBoard s.gameMode pos ∧
      ∃ p ∈ s.players, p.id = pid := by
  refine .after fun allowed _ => .guard fun _ => .after fun player hplayer => ?_
  obtain ⟨hp, rfl⟩ := getPlayer_found hplayer
  refine .after fun space _ => .after fun o hat => ?_
  have hpos := (spaceAt_ok hlayout hat).1
  exact (updateHolding_laid hids hlayout hp pos _ _).imp fun _ hs => ⟨hs, hpos, player, hp, rfl⟩

end Outcomes

/-! ## the commands -/

/-- The state after one of the four operations. -/
inductive Held (s : GameState) (pid : PlayerId) (pos : Nat) : GameState → Prop
  | mk {f : SpaceOwnership → SpaceOwnership} {delta bankHouses bankHotels : Int} :
      (∀ o, (f o).position = o.position) →
      Held s pid pos { held s pid pos f delta with bankHouses, bankHotels }

/-- A game that goes on without a debt. -/
structure Calm (s : GameState) : Prop extends Laid s where
  contested : s.status = .inProgress → 2 ≤ (survivors s.seats).length
  debtless : s.bankruptcy = none

/-- What the four commands check first: the turn and the phase. -/
structure Permitted (s : GameState) (pid : PlayerId) : Prop where
  current : s.turn.currentPlayerId = pid
  phase : s.turn.phase ∈ buildPhases

/-- A purchase that is waiting for an answer is of a board position. -/
def PendingOnBoard (s : GameState) : Prop :=
  s.turn.phase = .postRoll → ∀ q, s.turn.pendingBuyPosition = some q → OnBoard s.gameMode q

/-- The shape of the four handlers. -/
def operation (s : GameState) (message : String) (x : Py GameState) : Py Handled := do
  illegalIf (s.turn.phase ∉ buildPhases) message
  return (← x, [])

/-- An accepted operation that gives `m`, and the state `s₁` it leaves. -/
structure Operated (s m s₁ : GameState) (pid : PlayerId) (pos : Nat) : Prop where
  calm : Calm s
  permitted : Permitted s pid
  owner : ∃ p ∈ s.players, p.id = pid
  onBoard : OnBoard s.gameMode pos
  held : Held s pid pos m
  shown : Redisplayed m s₁
  calm_left : Calm s₁
  pending_left : PendingOnBoard s₁

section Commands

variable {s s' m : GameState} {pid : PlayerId} {pos : Nat} {command : GameCommand} {env : Env}
  {x : Py GameState} {message : String}

theorem Held.calm (h : Calm s) (hm : Held s pid pos m) : Calm m := by
  cases hm with
  | @mk f delta _ _ hf =>
      have hseats := held_seats s pid pos f delta
      refine ⟨⟨?_, h.layout.editSpace pos hf, ?_⟩, fun hin => ?_, h.debtless⟩
      · show ((held s pid pos f delta).seats.map (·.id)).Nodup
        rw [hseats, ids_editSeat (f := credit delta) (fun _ => rfl)]
        exact h.ids
      · intro q hq
        obtain ⟨q', hq', rfl⟩ := List.mem_map.mp hq
        obtain ⟨p, hp, rfl⟩ := mem_editSeat.mp hq'
        split
        · exact h.owned p hp
        · exact h.owned p hp
      · have hkeeps := (KeepsEstate.credit delta).toKeepsRoster.edit pid
        show 2 ≤ (survivors (held s pid pos f delta).seats).length
        rw [hseats, editSeat, editAt, length_survivors_map hkeeps]
        exact h.contested hin

theorem Calm.redisplayed (h : Calm s) (hm : Redisplayed s m) : Calm m := by
  have ht := hm.tidied
  refine ⟨⟨?_, ?_, ?_⟩, ?_, ht.bankruptcy.trans h.debtless⟩
  · rw [ht.seats_eq]
    exact h.ids
  · rw [ht.gameMode, ht.spaces]
    exact h.layout
  · intro p hp
    obtain ⟨q, hq, hbare⟩ := exists_player (ht.seats_eq ▸ mem_seats hp)
    rw [ht.gameMode, ← bare_ownedPositions p, ← hbare]
    exact h.owned q hq
  · rw [ht.status, ht.seats_eq]
    exact h.contested

/-- Whoever computes the flags has looked the pending purchase up. -/
theorem pendingOnBoard_of_actions (hlayout : Layout s.gameMode s.spaces) {actions : ActionSet}
    (h : computeActions s s.turn.currentPlayerId = .ok actions) : PendingOnBoard s := by
  intro hphase q hq
  have hlooked : Ensures (computeActions s s.turn.currentPlayerId) fun _ =>
      OnBoard s.gameMode q := by
    refine .after fun player _ => ?_
    simp only [hphase, decide_true, Bool.not_true, Bool.false_eq_true, if_false]
    refine Sat.seq (R := fun _ => OnBoard s.gameMode q) ?_ fun _ hpos =>
      .after fun _ _ => .after fun _ _ => .after fun _ _ => hpos
    unfold canBuyPending
    simp only [hq]
    exact .after fun o hat => (spaceAt_ok hlayout hat).1
  exact hlooked.of_ok h

theorem rework_player (h : command.rework = some (pid, pos)) :
    command.player = some pid ∧ command.isReply = false := by
  cases command <;> simp [GameCommand.rework] at h <;> exact ⟨congrArg some h.1, rfl⟩

/-- The gate before the handlers lets through what is permitted. -/
theorem Permitted.mayAct (h : Permitted s pid) (hrework : command.rework = some (pid, pos)) :
    assertMayAct s command = .ok () := by
  obtain ⟨hplayer, hreply⟩ := rework_player hrework
  simp [assertMayAct, hplayer, hreply, assertCurrentPlayer, h.current, illegalIf, raiseIf]

/-- An accepted command has passed the first checks, and its operation has
returned. -/
theorem Accepted.operated (h : Accepted s ⟨command, env⟩ s')
    (hrework : command.rework = some (pid, pos))
    (hdispatch : dispatch s command env = (operation s message x).map (·, env.rng)) :
    Permitted s pid ∧ ∃ m, x = .ok m := by
  obtain ⟨hmay, m, events, rng, hm, -⟩ := h.handled
  obtain ⟨hplayer, hreply⟩ := rework_player hrework
  have hcurrent := assertMayAct_sat.of_ok hmay pid hplayer hreply
  rw [hdispatch] at hm
  have hop : Ensures ((operation s message x).map (·, env.rng)) fun _ =>
      s.turn.phase ∈ buildPhases ∧ ∃ m, x = .ok m :=
    sat_map.mpr (.guard fun hphase => .after fun m hx => ⟨not_not.mp hphase, m, hx⟩)
  obtain ⟨hphase, hreturned⟩ := hop.of_ok hm
  exact ⟨⟨hcurrent, hphase⟩, hreturned⟩

theorem Permitted.quiet (h : Permitted s pid)
    (hdispatch : dispatch s command env = (operation s message x).map (·, env.rng))
    (hx : x = .ok m) : dispatch s command env = .ok ((m, []), env.rng) := by
  simp only [hdispatch, operation, illegalIf, raiseIf, h.phase, not_true_eq_false, if_false,
    ok_bind, hx]
  rfl

/-- An accepted command leaves what its operation does, refreshed. -/
theorem Permitted.operated (h : Permitted s pid) (hcalm : Calm s)
    (howner : ∃ p ∈ s.players, p.id = pid) (hpos : OnBoard s.gameMode pos)
    (ha : Accepted s ⟨command, env⟩ s')
    (hdispatch : dispatch s command env = (operation s message x).map (·, env.rng))
    (hx : x = .ok m) (hm : Held s pid pos m) : Operated s m s' pid pos := by
  have hm' := hm.calm hcalm
  obtain ⟨hshown, actions, hactions⟩ := ha.redisplays (h.quiet hdispatch hx)
    (fun _ ht => settles_of_debtless hm'.debtless ht) hm'.contested
  refine ⟨hcalm, h, howner, hpos, hm, hshown, hm'.redisplayed hshown, ?_⟩
  have hpending := pendingOnBoard_of_actions hm'.layout hactions
  rw [hshown.frame]
  exact hpending

theorem Held.owner (hm : Held s pid pos m) (howner : ∃ p ∈ s.players, p.id = pid) :
    Seated m pid := by
  cases hm with
  | @mk f delta _ _ hf =>
      obtain ⟨p, hp, rfl⟩ := howner
      show Seated (held s p.id pos f delta) p.id
      refine ⟨credit delta p.bare, ?_, rfl⟩
      rw [held_seats]
      exact mem_editSeat.mpr ⟨p.bare, mem_seats hp, if_pos rfl⟩

/-- A command whose operation returns is accepted. -/
theorem Permitted.accepted (h : Permitted s pid) (hcalm : Calm s) (hpending : PendingOnBoard s)
    (howner : ∃ p ∈ s.players, p.id = pid) (hrework : command.rework = some (pid, pos))
    (hdispatch : dispatch s command env = (operation s message x).map (·, env.rng))
    (hx : x = .ok m) (hm : Held s pid pos m) : ∃ s', Accepted s ⟨command, env⟩ s' := by
  have hm' := hm.calm hcalm
  refine accepted_of_quiet (h.mayAct hrework) (h.quiet hdispatch hx)
    (fun _ ht => settles_of_debtless hm'.debtless ht) hm'.contested ?_
  have hturn : m.turn = s.turn := by cases hm; rfl
  refine computeActions_ok hm'.toLaid ?_ ?_
  · rw [hturn, h.current]
    exact hm.owner howner
  · cases hm
    exact hpending

/-! After an accepted operation. -/

/-- An operation keeps mode, player in turn and phase. -/
theorem Operated.frame (h : Operated s m s' pid pos) : s'.gameMode = s.gameMode ∧
    s'.turn.currentPlayerId = s.turn.currentPlayerId ∧ s'.turn.phase = s.turn.phase := by
  rw [h.shown.frame]
  cases h.held
  exact ⟨rfl, rfl, rfl⟩

/-- After an operation the player may go on to another. -/
theorem Operated.permitted_left (h : Operated s m s' pid pos) : Permitted s' pid := by
  obtain ⟨-, hcurrent, hphase⟩ := h.frame
  exact ⟨hcurrent.trans h.permitted.current, hphase ▸ h.permitted.phase⟩

theorem Operated.owner_left (h : Operated s m s' pid pos) : ∃ p ∈ s'.players, p.id = pid := by
  obtain ⟨p, hp, hid⟩ := h.held.owner h.owner
  rw [← h.shown.tidied.seats_eq] at hp
  obtain ⟨q, hq, rfl⟩ := exists_player hp
  exact ⟨q, hq, hid⟩

theorem Operated.onBoard_left (h : Operated s m s' pid pos) : OnBoard s'.gameMode pos := by
  rw [h.frame.1]
  exact h.onBoard

end Commands

end Monopoly
