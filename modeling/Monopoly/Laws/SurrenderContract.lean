import Monopoly.Spec.Estates
import Monopoly.Spec.Replay

/-!
# Monopoly.Laws.SurrenderContract

What a player who surrenders leaves behind: the cash is shared out among the
players left, the properties and their buildings go back to the bank, and the
game goes on without the player or is over.
-/

namespace Monopoly

/-! ## the cash -/

section Cash

variable {players : List PlayerState} {pid : PlayerId}

/-- What the distribution loop hands out: a share for every recipient, and one
more for each of them below the remainder. -/
theorem sum_distributeFrom (share remainder : Int) (n : Nat) (players : List PlayerState) :
    ((distributeFrom pid share remainder n players).map (·.balance)).sum =
      (players.map (·.balance)).sum +
        share * (players.filter (isRecipient pid)).length +
        (min (max remainder n) (n + (players.filter (isRecipient pid)).length) - n) := by
  induction players generalizing n with
  | nil => simp [distributeFrom]
  | cons p rest ih =>
      by_cases hp : isRecipient pid p = true
      · rw [distributeFrom, if_pos hp, List.filter_cons_of_pos hp]
        simp only [List.map_cons, List.sum_cons, List.length_cons, ih, Nat.cast_add, Nat.cast_one,
          Int.mul_add, Int.mul_one]
        split <;> omega
      · rw [distributeFrom, if_neg hp, List.filter_cons_of_neg hp]
        simp only [List.map_cons, List.sum_cons, ih]
        omega

/-- All of the cash is shared out. -/
theorem sum_splitCash {cash : Int} (hcash : 0 ≤ cash)
    (hothers : players.filter (isRecipient pid) ≠ []) :
    ((splitCash players pid cash).map (·.balance)).sum = (players.map (·.balance)).sum + cash := by
  have hpos : 0 < (players.filter (isRecipient pid)).length := List.length_pos_iff.mpr hothers
  simp only [splitCash]
  split
  · rw [sum_distributeFrom]
    have hdiv := Int.mul_ediv_add_emod cash (players.filter (isRecipient pid)).length
    have hlow := Int.emod_nonneg cash
      (show ((players.filter (isRecipient pid)).length : Int) ≠ 0 by omega)
    have hhigh := Int.emod_lt_of_pos cash
      (show 0 < ((players.filter (isRecipient pid)).length : Int) by omega)
    rw [Int.mul_comm] at hdiv
    omega
  · omega

/-- A recipient gets an equal part, or one more. -/
theorem shareOf_cases {cash : Int} (hcash : 0 ≤ cash) {q : PlayerState}
    (hq : isRecipient pid q = true) :
    shareOf players pid cash q = cash / (players.filter (isRecipient pid)).length ∨
      shareOf players pid cash q = cash / (players.filter (isRecipient pid)).length + 1 := by
  simp only [shareOf, hq, true_and, List.length_map]
  split
  · split
    · exact .inr rfl
    · exact .inl (Int.add_zero _)
  · left
    rw [show cash = 0 by omega, Int.zero_ediv]

theorem shareOf_out {cash : Int} {q : PlayerState} (hq : isRecipient pid q = false) :
    shareOf players pid cash q = 0 :=
  if_neg fun h => by rw [hq] at h; cases h.1

end Cash

/-! ## the contract -/

/-- What the surrender of `p` leads to. -/
structure SurrenderOutcome (s : GameState) (p : PlayerState) (s' : GameState) : Prop where
  ids : s'.players.map (·.id) = s.players.map (·.id)
  shared : ∀ q ∈ s.players, isRecipient p.id q = true → ∃ q' ∈ s'.players, ∃ share,
    (share = p.balance / (s.players.filter (isRecipient p.id)).length ∨
      share = p.balance / (s.players.filter (isRecipient p.id)).length + 1) ∧
    q'.bare = credit share q.bare
  kept : ∀ q ∈ s.players, q.id ≠ p.id → q.isBankrupt = true →
    ∃ q' ∈ s'.players, q'.bare = q.bare
  cash : (s'.players.map (·.balance)).sum = (s.players.map (·.balance)).sum
  positions : s'.spaces.map (·.position) = s.spaces.map (·.position)
  spaces : ∀ pos o, spaceAt s.spaces pos = .ok o → spaceAt s'.spaces pos = .ok
    (if o.ownerId = some p.id
      then { o with ownerId := none, isMortgaged := false, houses := 0, hasHotel := false } else o)
  houses : s'.bankHouses = s.bankHouses + housesOn s.spaces p.ownedPositions
  hotels : s'.bankHotels = s.bankHotels + hotelsOn s.spaces p.ownedPositions
  out : ∃ p' ∈ s'.players, p'.id = p.id ∧ p'.isBankrupt = true ∧ p'.balance = 0 ∧
    p'.ownedPositions = [] ∧ p'.getOutOfJailCards = 0 ∧ p'.eliminatedAt = some s.turn.turnNumber
  goesOn : ∃ i, s.players[i]? = some p ∧ GoesOn s p.id i s'

section Law

variable {s s' : GameState} {p : PlayerState} {call : Call}

theorem sum_balance_seats (players : List PlayerState) :
    ((seatsOf players).map (·.balance)).sum = (players.map (·.balance)).sum := by
  rw [seatsOf, List.map_map]
  rfl

/-- What the one who leaves had, the others have. -/
theorem sum_afterSurrender (hids : (s.players.map (·.id)).Nodup) (hp : p ∈ s.players)
    (hcash : 0 ≤ p.balance) (hothers : s.players.filter (isRecipient p.id) ≠ []) :
    ((s.seats.map (afterSurrender s p)).map (·.balance)).sum = (s.players.map (·.balance)).sum := by
  obtain ⟨i, -, hi⟩ := nextPlayerIdx_eq hids hp
  have hshared := splitCash_eq p.id hids p.balance
  have hget : (splitCash s.players p.id p.balance)[i]? = some p := by
    have hnone : shareOf s.players p.id p.balance p = 0 := shareOf_out (by simp [isRecipient])
    rw [hshared, List.getElem?_map, hi, Option.map_some, hnone, credit_zero]
  have hids' : ((splitCash s.players p.id p.balance).map (·.id)).Nodup := by
    rw [hshared, ids_map (f := fun q => credit _ q) fun _ _ => rfl]
    exact hids
  have hzero : (eliminate p s.turn.turnNumber).balance = p.balance + -p.balance :=
    (Int.add_right_neg p.balance).symm
  rw [← seats_afterSurrender hids hi, sum_balance_seats,
    set_eq_editAt PlayerState.id hids' hget (fun q => eliminate q s.turn.turnNumber),
    sum_editAt PlayerState.id hids' (List.mem_of_getElem? hget) hzero,
    sum_splitCash hcash hothers]
  omega

/-- An accepted surrender shares the cash out among the players left, clears
the properties, returns their buildings to the bank and takes the player out;
the game is won or goes on. -/
theorem surrender_contract (hin : s.status = .inProgress) (hfree : s.bankruptcy = none)
    (hids : (s.players.map (·.id)).Nodup) (htitles : TitlesAgree s)
    (hproper : ∀ o ∈ s.spaces, o.hasHotel = true → o.houses = 0) (hp : p ∈ s.players)
    (hactive : p.isBankrupt = false) (hcash : 0 ≤ p.balance)
    (hothers : s.players.filter (isRecipient p.id) ≠ [])
    (hcommand : call.command = .surrender p.id) (h : Accepted s call s') :
    SurrenderOutcome s p s' := by
  obtain ⟨command, env⟩ := call
  obtain rfl : command = .surrender p.id := hcommand
  obtain ⟨hmay, m, events, rng, hdispatch, hfinish⟩ := h.handled
  have hcurrent : s.turn.currentPlayerId = p.id := by
    simpa [assertMayAct, GameCommand.player, GameCommand.isReply, assertCurrentPlayer, illegalIf,
      raiseIf] using hmay
  obtain ⟨i, -, hi⟩ := nextPlayerIdx_eq hids hp
  -- the handler
  have hhandled : Ensures (dispatch s (.surrender p.id) env) fun r =>
      resolveSurrender s p.id = .ok r.1.1 :=
    sat_map.mpr (.after fun _ _ => .guard fun _ => .after fun m hm => hm)
  obtain ⟨e, hseats, hdebt, hstatus, hwinner, hturn, hrest, hclear, hframe⟩ :=
    (resolveSurrender_ensures hids hp hactive).of_ok (hhandled.of_ok hdispatch)
  obtain ⟨hspaces, -, hhouses, hhotels⟩ := (clearSpaces_rewrites (htitles.nodup p hp)
    (fun q _ o hat => hproper o (by
      obtain ⟨j, -, hj, -⟩ := spaceAt_found hat
      exact List.mem_of_getElem? hj)) s.bankHouses s.bankHotels).of_ok hclear
  -- the end of the call
  obtain ⟨hgoes, status, winnerId, turn, htidy⟩ := ends_without (takenOut_surrender s p) hseats
    hstatus hin hturn hwinner (hdebt.trans hfree) hids hi rfl hothers
    (fun resolved hsame => if_pos (hsame.trans hcurrent)) hrest hfinish
  have hseats' : seatsOf s'.players = s.seats.map (afterSurrender s p) :=
    htidy.seats_eq.trans hseats
  have hother : ∀ q : PlayerState, q.id ≠ p.id → afterSurrender s p q.bare =
      credit (shareOf s.players p.id p.balance q) q.bare := fun q hne => if_neg hne
  have hspaces' : s'.spaces = e.spaces := htidy.spaces
  constructor
  · exact ids_of_seats hseats' (takenOut_surrender s p).id
  · intro q hq hrecipient
    obtain ⟨q', hq', hbare⟩ := exists_of_seats hseats' hq
    have hne : q.id ≠ p.id := by simpa using (Bool.and_eq_true_iff.mp hrecipient).1
    exact ⟨q', hq', _, shareOf_cases hcash hrecipient, hbare.trans (hother q hne)⟩
  · intro q hq hne hout
    obtain ⟨q', hq', hbare⟩ := exists_of_seats hseats' hq
    refine ⟨q', hq', hbare.trans ?_⟩
    rw [hother q hne, shareOf_out (by simp [isRecipient, hout]), credit_zero]
  · rw [← sum_balance_seats s'.players, hseats']
    exact sum_afterSurrender hids hp hcash hothers
  · rw [hspaces']
    exact hspaces.positions
  · intro pos o hat
    rw [hspaces', hspaces.at hat, htitles.onListed hp hat]
    rfl
  · cases htidy
    exact hhouses
  · cases htidy
    exact hhotels
  · obtain ⟨p', hp', hbare⟩ := exists_of_seats hseats' hp
    have hout : p'.bare = eliminate p.bare s.turn.turnNumber := hbare.trans (if_pos rfl)
    refine ⟨p', hp', ?_⟩
    show p'.bare.id = p.id ∧ p'.bare.isBankrupt = true ∧ p'.bare.balance = 0 ∧
      p'.bare.ownedPositions = [] ∧ p'.bare.getOutOfJailCards = 0 ∧
      p'.bare.eliminatedAt = some s.turn.turnNumber
    rw [hout]
    exact ⟨rfl, rfl, rfl, rfl, rfl, rfl⟩
  · exact ⟨i, hi, hgoes⟩

/-- Player `1` of three surrenders with a built street and an odd sum of
money. -/
def surrendering (s : GameState) : GameState :=
  { s with
    players := editSeat 1 (fun p => { p with balance := 101, ownedPositions := [2, 4] }) s.players
    spaces := s.spaces.map fun o =>
      if o.position = 2 then { o with ownerId := some 1, houses := 1 }
      else if o.position = 4 then { o with ownerId := some 1 }
      else o
    bankHouses := 31 }

/-- The two players left have 50 and 51 more. -/
theorem surrender_contract_odd_cash : ∃ s s' p, p ∈ s.players ∧ p.balance = 101 ∧
    Accepted s (callAt 0 [] (.surrender p.id)) s' ∧ SurrenderOutcome s p s' := by
  obtain ⟨s, s', events, rng, hcheck, happly⟩ := exists_call (trio 1500) surrendering
    (callAt 0 [] (.surrender 1)) (fun s _ _ => titled s && decide (s.status = .inProgress ∧
      s.bankruptcy = none ∧ (s.players.map PlayerState.id).Nodup ∧
      (∀ o ∈ s.spaces, o.hasHotel = true → o.houses = 0) ∧
      s.players.filter (isRecipient 1) ≠ [] ∧
      ∃ p ∈ s.players, p.id = 1 ∧ p.isBankrupt = false ∧ p.balance = 101)) (by decide +kernel)
  obtain ⟨htitled, hfacts⟩ := Bool.and_eq_true_iff.mp hcheck
  obtain ⟨hin, hfree, hids, hproper, hothers, p, hp, hid, hactive, hcash⟩ :=
    of_decide_eq_true hfacts
  rw [← hid] at happly hothers
  have haccepted : Accepted s (callAt 0 [] (.surrender p.id)) s' := ⟨events, rng, happly⟩
  exact ⟨s, s', p, hp, hcash, haccepted, surrender_contract hin hfree hids (of_titled htitled)
    hproper hp hactive (by omega) hothers rfl haccepted⟩

end Law

end Monopoly
