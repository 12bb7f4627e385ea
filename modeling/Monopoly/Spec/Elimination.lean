import Monopoly.Rules.Bankruptcy
import Monopoly.Spec.Exchange

/-!
# Monopoly.Spec.Elimination

Bankruptcy, surrender, turn passing and the win condition on a sound table.
-/

namespace Monopoly

/-! ## survivors and the win -/

theorem survivors_seatsOf (players : List PlayerState) :
    survivors (seatsOf players) = seatsOf (survivors players) := by
  simp only [survivors, seatsOf, List.filter_map]
  rfl

theorem mem_survivors {players : List PlayerState} {p : PlayerState} :
    p ∈ survivors players ↔ p ∈ players ∧ p.isBankrupt = false := by
  simp [survivors]

/-- What the win check does. -/
inductive WinChecked (s : GameState) : GameState → Prop
  | won {w : PlayerState} : s.status = .inProgress → survivors s.seats = [w] →
      WinChecked s { s with
        status := .finished
        winnerId := some w.id
        turn := { s.turn with phase := .gameOver } }
  | unchanged : (s.status = .inProgress → ∀ w, survivors s.seats ≠ [w]) → WinChecked s s

theorem checkWinCondition_spec (s : GameState) : WinChecked s (checkWinCondition s) := by
  have hseats : survivors s.seats = seatsOf (survivors s.players) := survivors_seatsOf _
  unfold checkWinCondition
  split
  · rename_i w hw hstatus
    exact .won (w := w.bare) hstatus (by rw [hseats, hw]; rfl)
  · rename_i hno
    refine .unchanged fun hstatus w hw => ?_
    rw [hseats] at hw
    obtain ⟨w', hw'⟩ : ∃ w', survivors s.players = [w'] := by
      cases hsurv : survivors s.players with
      | nil => rw [hsurv] at hw; simp [seatsOf] at hw
      | cons x rest =>
          rw [hsurv] at hw
          cases rest with
          | nil => exact ⟨x, rfl⟩
          | cons y rest => simp [seatsOf] at hw
    exact hno w' hw' hstatus

/-! ## passing the turn -/

/-- The turn record a player's turn opens with. -/
def passTurn (turn : TurnState) (next : PlayerState) (round : Nat) : TurnState :=
  { turn with
    currentPlayerId := next.id
    phase := openingPhase next
    turnNumber := turn.turnNumber + 1
    roundNumber := round
    diceRoll := none
    doublesStreak := 0
    tradeOffersMade := 0
    pendingBuyPosition := none }

theorem openingPhase_cases (p : PlayerState) :
    openingPhase p = .preRoll ∨ openingPhase p = .jailDecision := by
  unfold openingPhase
  split
  · exact .inr rfl
  · exact .inl rfl

/-- What moving the turn off a player does. -/
inductive TurnMoved (s : GameState) : GameState → Prop
  | passed {next : PlayerState} {round : Nat} : next ∈ s.seats → next.isBankrupt = false →
      TurnMoved s { s with turn := passTurn s.turn next round }
  | nobody : (∀ p ∈ s.seats, p.isBankrupt = true) → TurnMoved s s

section Passing

variable {s : GameState} {pid : PlayerId}

/-- Two active players: one is not `pid`. -/
theorem exists_other {seats : List PlayerState} (hids : (seats.map (·.id)).Nodup)
    (htwo : 2 ≤ (survivors seats).length) (pid : PlayerId) :
    ∃ p ∈ seats, p.isBankrupt = false ∧ p.id ≠ pid := by
  have hnodup : ((survivors seats).map (·.id)).Nodup := hids.sublist (List.filter_sublist.map _)
  cases hs : survivors seats with
  | nil => simp [hs] at htwo
  | cons x tail =>
      have hx : x ∈ survivors seats := by simp [hs]
      by_cases hxp : x.id = pid
      · cases tail with
        | nil => simp [hs] at htwo
        | cons y rest =>
            have hy : y ∈ survivors seats := by simp [hs]
            refine ⟨y, (mem_survivors.mp hy).1, (mem_survivors.mp hy).2, fun hyp => ?_⟩
            simp [hs, hxp, hyp] at hnodup
      · exact ⟨x, (mem_survivors.mp hx).1, (mem_survivors.mp hx).2, hxp⟩

/-- The scan finds the first active player, or has seen only eliminated
ones. -/
theorem nextActiveFrom_sat {players : List PlayerState} (hlen : players ≠ [])
    (start n offset : Nat) :
    Sat (fun _ => False) (nextActiveFrom players start n offset) fun found =>
      match found with
      | some (p, _) => p.isBankrupt = false ∧ ∃ k, offset ≤ k ∧ k < offset + n ∧
          players[(start + k) % players.length]? = some p ∧ ∀ j, offset ≤ j → j < k →
          ∀ q, players[(start + j) % players.length]? = some q → q.isBankrupt = true
      | none => ∀ k, offset ≤ k → k < offset + n →
          ∀ p, players[(start + k) % players.length]? = some p → p.isBankrupt = true := by
  induction n generalizing offset with
  | zero =>
      simp only [nextActiveFrom, sat_pure]
      intro k h1 h2
      omega
  | succ n ih =>
      have hpos : 0 < players.length := List.length_pos_iff.mpr hlen
      have hlt : (start + offset) % players.length < players.length := Nat.mod_lt _ hpos
      have hget := List.getElem?_eq_getElem hlt
      simp only [nextActiveFrom]
      rw [pyMod_natCast _ hpos, ok_bind, pyGet_natCast hlt, ok_bind]
      simp only [sat_ite, sat_pure]
      refine ⟨fun hactive => ⟨by simpa using hactive, offset, le_rfl, by omega, hget,
        fun j h1 h2 => by omega⟩, fun hout => ?_⟩
      have hfirst : ∀ q, players[(start + offset) % players.length]? = some q →
          q.isBankrupt = true := by
        intro q hq
        rw [hget] at hq
        rw [← Option.some.inj hq]
        simpa using hout
      refine (ih (offset + 1)).imp fun found hfound => ?_
      cases found with
      | some r =>
          obtain ⟨hactive, k, h1, h2, hk, hbefore⟩ := hfound
          refine ⟨hactive, k, by omega, by omega, hk, fun j h1 h2 => ?_⟩
          by_cases hj : j = offset
          · subst hj
            exact hfirst
          · exact hbefore j (by omega) h2
      | none =>
          intro k h1 h2
          by_cases hk : k = offset
          · subst hk
            exact hfirst
          · exact hfound k (by omega) (by omega)

/-- Seat `i` is some steps after seat `start`, and less than a round unless
it is that seat. -/
theorem exists_steps {start i n : Nat} (hstart : start < n) (hi : i < n) :
    ∃ k, 1 ≤ k ∧ k < 1 + n ∧ (start + k) % n = i ∧ (i ≠ start → k < n) := by
  by_cases hle : i ≤ start
  · refine ⟨n - start + i, by omega, by omega, ?_, by omega⟩
    rw [show start + (n - start + i) = n + i by omega, Nat.add_mod_left, Nat.mod_eq_of_lt hi]
  · refine ⟨i - start, by omega, by omega, ?_, by omega⟩
    rw [show start + (i - start) = i by omega, Nat.mod_eq_of_lt hi]

/-- Only a whole round leads back. -/
theorem steps_eq_of_back {start k n : Nat} (hstart : start < n) (hk : 1 ≤ k) (hkn : k < 1 + n)
    (hback : (start + k) % n = start) : k = n := by
  by_contra hne
  by_cases hover : start + k < n
  · rw [Nat.mod_eq_of_lt hover] at hback
    omega
  · rw [Nat.mod_eq_sub_mod (by omega), Nat.mod_eq_of_lt (by omega)] at hback
    omega

/-- The turn is moved on, and to somebody else if there are two active
players. -/
theorem advanceTurnOffPlayer_sat (hids : (s.seats.map (·.id)).Nodup) (hpid : Seated s pid) :
    Sat (fun _ => False) (advanceTurnOffPlayer s pid) fun s' => TurnMoved s s' ∧
      (2 ≤ (survivors s.seats).length → s'.turn.currentPlayerId ≠ pid) := by
  have hids' : (s.players.map (·.id)).Nodup := by rw [← ids_seatsOf]; exact hids
  obtain ⟨p, hp, rfl⟩ := hpid.player
  obtain ⟨start, hstart, hget⟩ := nextPlayerIdx_eq hids' hp
  have hlen : s.players ≠ [] := List.ne_nil_of_mem hp
  have hlt : start < s.players.length := (List.getElem?_eq_some_iff.mp hget).1
  simp only [advanceTurnOffPlayer, hstart, ok_bind, sat_bind]
  refine (nextActiveFrom_sat hlen start s.players.length 1).imp fun found hfound => ?_
  cases found with
  | some r =>
      obtain ⟨next, wrapped⟩ := r
      obtain ⟨hactive, k, h1, h2, hk, hbefore⟩ := hfound
      have hmem := List.mem_of_getElem? hk
      refine ⟨@TurnMoved.passed s next.bare _ (mem_seats hmem) hactive, fun htwo hsame => ?_⟩
      -- a whole round has passed over the other active player
      obtain rfl : next = p := eq_of_key_eq PlayerState.id hids' hmem hp hsame
      have hround : (start + k) % s.players.length = start := by
        obtain ⟨hi, hki⟩ := List.getElem?_eq_some_iff.mp hk
        obtain ⟨hstart', hsp⟩ := List.getElem?_eq_some_iff.mp hget
        exact (List.Nodup.of_map _ hids').getElem_inj_iff.mp (hki.trans hsp.symm)
      have hk_eq : k = s.players.length := steps_eq_of_back hlt h1 h2 hround
      obtain ⟨x, hx, hxactive, hxne⟩ := exists_other hids htwo next.id
      obtain ⟨q, hq, rfl⟩ := exists_player hx
      obtain ⟨i, hi, rfl⟩ := List.getElem_of_mem hq
      obtain ⟨j, hj1, -, hji, hjlt⟩ := exists_steps hlt hi
      have hne : i ≠ start := by
        intro heq
        subst heq
        rw [List.getElem?_eq_getElem hi] at hget
        exact hxne (by rw [Option.some.inj hget]; rfl)
      have hout := hbefore j hj1 (by rw [hk_eq]; exact hjlt hne) s.players[i]
        (by rw [hji, List.getElem?_eq_getElem hi])
      rw [show s.players[i].isBankrupt = false from hxactive] at hout
      cases hout
  | none =>
      have hnobody : ∀ x ∈ s.seats, x.isBankrupt = true := by
        intro x hx
        obtain ⟨q, hq, rfl⟩ := exists_player hx
        obtain ⟨i, hi, rfl⟩ := List.getElem_of_mem hq
        obtain ⟨k, hk1, hk2, hk, -⟩ := exists_steps hlt hi
        exact hfound k hk1 hk2 s.players[i] (by rw [hk, List.getElem?_eq_getElem hi])
      refine ⟨.nobody hnobody, fun htwo => ?_⟩
      obtain ⟨x, hx, hxactive, -⟩ := exists_other hids htwo p.id
      rw [hnobody x hx] at hxactive
      cases hxactive

end Passing

/-! ## the property loops -/

/-- The space goes back to the bank. -/
def release (o : SpaceOwnership) : SpaceOwnership :=
  { o with ownerId := none, isMortgaged := false, houses := 0, hasHotel := false }

/-- `f` on the listed positions, the other spaces as they are. -/
def onListed (owned : List Nat) (f : SpaceOwnership → SpaceOwnership) (o : SpaceOwnership) :
    SpaceOwnership :=
  if o.position ∈ owned then f o else o

/-- The interest charged for taking the listed spaces over. -/
def interestOn (mode : GameMode) (spaces : List SpaceOwnership) (owned : List Nat) : Int :=
  (owned.map fun pos => if (ownershipAt spaces pos).isMortgaged
    then (mortgageInterest ((squareAt mode pos).mortgageValue.getD 0) : Int) else 0).sum

section Loops

variable {mode : GameMode} {spaces : List SpaceOwnership} {owned : List Nat}

theorem map_editSpace_onListed {f : SpaceOwnership → SpaceOwnership} {pos : Nat}
    (hf : ∀ o, (f o).position = o.position) (hff : ∀ o, f (f o) = f o) :
    (editSpace pos f spaces).map (onListed owned f) = spaces.map (onListed (pos :: owned) f) := by
  simp only [editSpace, editAt, List.map_map]
  refine List.map_congr_left fun o _ => ?_
  simp only [Function.comp, onListed, List.mem_cons]
  by_cases ho : o.position = pos
  · simp only [if_pos ho, hf, if_pos (Or.inl ho), hff, ite_self]
  · simp only [ho, if_false, false_or]

theorem map_onListed_nil (f : SpaceOwnership → SpaceOwnership) :
    spaces.map (onListed [] f) = spaces :=
  (List.map_congr_left fun _ _ => if_neg List.not_mem_nil).trans (List.map_id spaces)

theorem releaseSpaces_eq (h : Layout mode spaces) (howned : ∀ q ∈ owned, OnBoard mode q) :
    releaseSpaces owned spaces = .ok (spaces.map (onListed owned release)) := by
  induction owned generalizing spaces with
  | nil => rw [map_onListed_nil]; rfl
  | cons pos rest ih =>
      have hpos := howned pos List.mem_cons_self
      simp only [releaseSpaces, spaceAt_eq h hpos, ok_bind]
      show (replaceSpace spaces pos (release (ownershipAt spaces pos)) >>= _) = _
      rw [replaceSpace_eq h hpos release, ok_bind,
        ih (h.editSpace pos (f := release) fun _ => rfl)
          fun q hq => howned q (List.mem_cons_of_mem _ hq)]
      exact congrArg Except.ok (map_editSpace_onListed (fun _ => rfl) fun _ => rfl)

theorem clearSpaces_eq (h : Layout mode spaces) (howned : ∀ q ∈ owned, OnBoard mode q)
    (bankHouses bankHotels : Int) :
    ∃ bankHouses' bankHotels', clearSpaces owned spaces bankHouses bankHotels =
      .ok (spaces.map (onListed owned release), bankHouses', bankHotels') := by
  induction owned generalizing spaces bankHouses bankHotels with
  | nil => exact ⟨bankHouses, bankHotels, by rw [map_onListed_nil]; rfl⟩
  | cons pos rest ih =>
      have hpos := howned pos List.mem_cons_self
      have hrest := fun bankHouses bankHotels => ih
        (h.editSpace pos (f := release) fun _ => rfl)
        (fun q hq => howned q (List.mem_cons_of_mem _ hq)) bankHouses bankHotels
      rw [map_editSpace_onListed (f := release) (fun _ => rfl) fun _ => rfl] at hrest
      simp only [clearSpaces, spaceAt_eq h hpos, ok_bind]
      show ∃ _ _, (replaceSpace spaces pos (release (ownershipAt spaces pos)) >>= _) = _
      rw [replaceSpace_eq h hpos release, ok_bind]
      split
      · exact hrest _ _
      · exact hrest _ _

theorem interestOn_grant (h : Layout mode spaces) (howned : ∀ q ∈ owned, OnBoard mode q)
    (pos : Nat) (owner : PlayerId) :
    interestOn mode (editSpace pos (grant owner) spaces) owned = interestOn mode spaces owned := by
  unfold interestOn
  congr 1
  refine List.map_congr_left fun q hq => ?_
  have hat : (ownershipAt (editSpace pos (grant owner) spaces) q).isMortgaged =
      (ownershipAt spaces q).isMortgaged := by
    rw [show editSpace pos (grant owner) spaces = spaces.map _ from rfl,
      ownershipAt_map h (howned q hq) (fun o => by split <;> rfl)]
    split <;> rfl
  rw [hat]

theorem transferToCreditor_eq (h : Layout mode spaces) (howned : ∀ q ∈ owned, OnBoard mode q)
    (creditorId : PlayerId) (creditor : PlayerState) :
    transferToCreditor mode creditorId owned spaces creditor =
      .ok (spaces.map (onListed owned (grant creditorId)),
        debit (interestOn mode spaces owned) creditor) := by
  induction owned generalizing spaces creditor with
  | nil =>
      rw [map_onListed_nil]
      simp only [transferToCreditor, interestOn, debit, List.map_nil, List.sum_nil, Int.sub_zero]
      rfl
  | cons pos rest ih =>
      have hpos := howned pos List.mem_cons_self
      have hrest := fun q hq => howned q (List.mem_cons_of_mem _ hq)
      have hih := ih (h.editSpace pos (f := grant creditorId) fun _ => rfl) hrest
      rw [map_editSpace_onListed (f := grant creditorId) (fun _ => rfl) fun _ => rfl,
        interestOn_grant h hrest] at hih
      simp only [transferToCreditor, spaceAt_eq h hpos, ok_bind]
      show (replaceSpace spaces pos (grant creditorId (ownershipAt spaces pos)) >>= _) = _
      rw [replaceSpace_eq h hpos (grant creditorId), ok_bind]
      have hsum : interestOn mode spaces (pos :: rest) =
          (if (ownershipAt spaces pos).isMortgaged
            then (mortgageInterest ((squareAt mode pos).mortgageValue.getD 0) : Int) else 0) +
          interestOn mode spaces rest := by
        simp [interestOn]
      rw [hsum]
      split
      · rw [getBoardSpace_eq hpos, ok_bind, hih]
        simp [debit, Int.sub_sub]
      · rw [hih]
        simp

end Loops

/-! ## bankruptcy -/

/-- The debtor's record after a bankruptcy. -/
def ruined (mode : GameMode) (turnNumber : Nat) (p : PlayerState) : PlayerState :=
  { eliminate p turnNumber with position := (getGameConfig mode).startPosition }

/-- The creditor's record after a bankruptcy of `debtor`. -/
def inherit (debtor : PlayerState) (cash interest : Int) (p : PlayerState) : PlayerState :=
  { p with
    balance := p.balance + cash - interest
    ownedPositions := pySortedSet (p.ownedPositions ++ debtor.ownedPositions)
    getOutOfJailCards := p.getOutOfJailCards + debtor.getOutOfJailCards }

/-- The tail of both eliminations: the game is won, or the turn moves on. -/
inductive AfterElimination (e : GameState) : GameState → Prop
  | ended {s' : GameState} : WinChecked e s' → s'.status = .finished → AfterElimination e s'
  | passed {s' : GameState} : (e.status = .inProgress → ∀ w, survivors e.seats ≠ [w]) →
      e.status ≠ .finished → TurnMoved e s' → AfterElimination e s'

/-- The tail touches the status, the winner and the turn only. -/
theorem AfterElimination.frame {e s' : GameState} (h : AfterElimination e s') :
    s' = { e with status := s'.status, winnerId := s'.winnerId, turn := s'.turn } := by
  cases h with
  | ended hc _ => cases hc <;> rfl
  | passed _ _ ht => cases ht <;> rfl

/-- What the bankruptcy of the player `d` does before the turn passes on. -/
inductive Liquidated (s : GameState) (debt : BankruptcyState) (d : PlayerState) :
    GameState → Prop
  | toCreditor {creditor : PlayerId} {ps : List PlayerState} :
      debt.creditorId = some creditor →
      seatsOf ps = s.seats.map (fun p =>
        if p.id = d.id then ruined s.gameMode s.turn.turnNumber p
        else if p.id = creditor then inherit d (min d.balance debt.amountOwed)
          (interestOn s.gameMode s.spaces d.ownedPositions) p
        else p) →
      Liquidated s debt d { s with
        players := ps
        spaces := s.spaces.map (onListed d.ownedPositions (grant creditor))
        bankruptcy := none }
  | toBank {ps : List PlayerState} :
      debt.creditorId = none →
      seatsOf ps = s.seats.map (fun p =>
        if p.id = d.id then ruined s.gameMode s.turn.turnNumber p else p) →
      Liquidated s debt d { s with
        players := ps
        spaces := s.spaces.map (onListed d.ownedPositions release)
        bankruptcy := none
        chanceDeck := returnCards d.getOutOfJailCards s.chanceDeck chanceJailCard
        chestDeck := returnCards d.getOutOfJailCards s.chestDeck chestJailCard }

section Bankruptcy

variable {s : GameState} {pid : PlayerId}

theorem afterElimination_sat (hids : (s.seats.map (·.id)).Nodup) (hpid : Seated s pid) :
    Sat (fun _ => False) (afterElimination s pid) (AfterElimination s) := by
  have hcheck := checkWinCondition_spec s
  simp only [afterElimination, sat_ite, sat_pure]
  refine ⟨fun hfin => .ended hcheck hfin, fun hfin => ?_⟩
  generalize checkWinCondition s = c at hcheck hfin
  cases hcheck with
  | won _ _ => exact absurd rfl hfin
  | unchanged hno =>
      exact (advanceTurnOffPlayer_sat hids hpid).imp fun s' hs' => .passed hno hfin hs'.1

theorem purchasable_ruined (mode : GameMode) (turnNumber : Nat) (p : PlayerState) :
    ∀ q ∈ (ruined mode turnNumber p).ownedPositions, Purchasable mode q := by
  intro q hq
  simp [ruined, eliminate] at hq

theorem resolveBankruptcy_sat (hs : Sound s) {debt : BankruptcyState}
    (hdebt : s.bankruptcy = some debt) (hdebtor : debt.debtorId = pid) (hpid : Seated s pid)
    (hcreditor : ∀ c, debt.creditorId = some c → Seated s c ∧ c ≠ pid) :
    Sat (fun _ => False) (resolveBankruptcy s pid) fun s' =>
      ∃ d ∈ s.seats, d.id = pid ∧ ∃ e, Liquidated s debt d e ∧ AfterElimination e s' := by
  obtain ⟨d, hd, rfl⟩ := hpid.player
  obtain ⟨j, hj, hgj⟩ := nextPlayerIdx_eq hs.playerIds hd
  have hdowned : ∀ q ∈ d.ownedPositions, OnBoard s.gameMode q := hs.owned hd
  set v := ruined s.gameMode s.turn.turnNumber d with hv
  simp only [resolveBankruptcy, hdebt, hdebtor, ne_eq, not_true_eq_false, if_false,
    hs.getPlayer hd, hj, ok_bind, sat_bind]
  -- the tail, once the assets have moved
  have htail (settled : Settlement) {f : PlayerState → PlayerState}
      (hlayout : Layout s.gameMode settled.spaces)
      (hseats : seatsOf (settled.players.set j v) = s.seats.map f)
      (hid : ∀ p, (f p).id = p.id)
      (howned : ∀ p ∈ s.seats, ∀ q ∈ (f p).ownedPositions, Purchasable s.gameMode q)
      (hliq : ∀ ps, seatsOf ps = s.seats.map f → Liquidated s debt d.bare { s with
        players := ps, spaces := settled.spaces, bankruptcy := none,
        chanceDeck := settled.chanceDeck, chestDeck := settled.chestDeck }) :
      Sat (fun _ => False) (refreshAllNetWorth (settled.players.set j v) settled.spaces s.gameMode)
        fun players => Sat (fun _ => False) (afterElimination { s with
            players, spaces := settled.spaces, bankruptcy := none,
            chanceDeck := settled.chanceDeck, chestDeck := settled.chestDeck } d.id) fun s' =>
          ∃ d' ∈ s.seats, d'.id = d.id ∧ ∃ e, Liquidated s debt d' e ∧ AfterElimination e s' := by
    obtain ⟨ps, href, hps⟩ := refreshAllNetWorth_seats _ hlayout hseats (by
      intro x hx q hq
      obtain ⟨p, hp, rfl⟩ := List.mem_map.mp hx
      exact howned p hp q hq)
    rw [href, sat_ok]
    have hidsEq : (seatsOf ps).map (·.id) = s.seats.map (·.id) := by
      rw [hps, ids_map fun p _ => hid p]
    have hids : ((seatsOf ps).map (·.id)).Nodup := by rw [hidsEq]; exact hs.ids
    have hseat : d.id ∈ (seatsOf ps).map (·.id) := by
      rw [hidsEq]; exact List.mem_map.mpr ⟨d.bare, mem_seats hd, rfl⟩
    obtain ⟨x, hx, hxid⟩ := List.mem_map.mp hseat
    exact (afterElimination_sat (s := { s with
      players := ps, spaces := settled.spaces, bankruptcy := none,
      chanceDeck := settled.chanceDeck, chestDeck := settled.chestDeck }) hids ⟨x, hx, hxid⟩).imp
      fun s' hs' => ⟨d.bare, mem_seats hd, rfl, _, hliq ps hps, hs'⟩
  cases hc : debt.creditorId with
  | none =>
      simp only [settleAssets, hc, settleToBank, releaseSpaces_eq hs.layout hdowned, ok_bind,
        sat_pure]
      refine htail ⟨s.players, s.spaces.map (onListed d.ownedPositions release),
          returnCards d.getOutOfJailCards s.chanceDeck chanceJailCard,
          returnCards d.getOutOfJailCards s.chestDeck chestJailCard⟩
        (f := fun p => if p.id = d.id then ruined s.gameMode s.turn.turnNumber p else p)
        (hs.layout.map fun o => by unfold onListed; split <;> rfl) ?_
        (fun p => by split <;> rfl) ?_ fun ps hps => .toBank (d := d.bare) hc hps
      · rw [show s.players.set j v = editSeat d.id (fun _ => v) s.players from
          set_eq_editAt PlayerState.id hs.playerIds hgj fun _ => v,
          seatsOf_editSeat (f := fun _ => v) (g := fun _ => v.bare) fun _ => rfl]
        exact editAt_congr PlayerState.id hs.ids (mem_seats hd)
          (show v.bare = ruined s.gameMode s.turn.turnNumber d.bare from rfl)
      · intro p hp
        split
        · exact purchasable_ruined _ _ _
        · exact hs.deeds p hp
  | some creditor =>
      obtain ⟨hcseat, hcne⟩ := hcreditor creditor hc
      obtain ⟨c, hcm, rfl⟩ := hcseat.player
      obtain ⟨i, hi, hgi⟩ := nextPlayerIdx_eq hs.playerIds hcm
      set cash := min d.balance debt.amountOwed
      set interest := interestOn s.gameMode s.spaces d.ownedPositions
      simp only [settleAssets, hc, settleToCreditor, hs.getPlayer hcm, ok_bind,
        transferToCreditor_eq hs.layout hdowned, assignPlayer, hi]
      set P := inherit d cash interest c with hP
      refine htail ⟨s.players.set i P, _, _, _⟩ (f := fun p =>
          if p.id = d.id then ruined s.gameMode s.turn.turnNumber p
          else if p.id = c.id then inherit d cash interest p else p)
        (hs.layout.map fun o => by unfold onListed; split <;> rfl) ?_
        (fun p => by split <;> (try split) <;> rfl) ?_
        fun ps hps => .toCreditor (d := d.bare) hc hps
      · rw [set_two_seats (P := P) (T := v) hs.playerIds hgi hgj hcne rfl,
          seatsOf_editSeat (f := fun _ => v) (g := fun _ => v.bare) fun _ => rfl,
          seatsOf_editSeat (f := fun _ => P) (g := fun _ => P.bare) fun _ => rfl]
        simp only [editSeat, editAt, List.map_map]
        refine List.map_congr_left fun x hx => ?_
        simp only [Function.comp]
        by_cases hxd : x.id = d.id
        · obtain rfl : x = d.bare := eq_of_key_eq PlayerState.id hs.ids hx (mem_seats hd) hxd
          rw [if_neg (show ¬ d.bare.id = c.id from hcne.symm), if_pos hxd, if_pos hxd]
          rfl
        · rw [if_neg hxd]
          by_cases hxc : x.id = c.id
          · obtain rfl : x = c.bare :=
              eq_of_key_eq PlayerState.id hs.ids hx (mem_seats hcm) hxc
            rw [if_pos hxc, if_pos hxc]
            exact if_neg hcne
          · rw [if_neg hxc, if_neg hxc]
            exact if_neg hxd
      · intro p hp
        split
        · exact purchasable_ruined _ _ _
        · split
          · intro q hq
            simp only [inherit, mem_pySortedSet, List.mem_append] at hq
            rcases hq with hq | hq
            · exact hs.deeds p hp q hq
            · exact hs.deeds d.bare (mem_seats hd) q hq
          · exact hs.deeds p hp

end Bankruptcy

/-! ## surrender -/

/-- The share of the surrendered cash that goes to the seat `q`: an equal
part, and one more for the first recipients while the remainder lasts. -/
def shareOf (players : List PlayerState) (pid : PlayerId) (cash : Int) (q : PlayerState) : Int :=
  let recipients := (players.filter (isRecipient pid)).map (·.id)
  if isRecipient pid q ∧ cash > 0 then
    cash / recipients.length +
      (if (recipients.idxOf q.id : Int) < cash % recipients.length then 1 else 0)
  else 0

/-- What the surrender of the player `p` does before the turn passes on. -/
inductive Surrendered (s : GameState) (p : PlayerState) : GameState → Prop
  | mk {ps : List PlayerState} {bankHouses bankHotels : Int} :
      seatsOf ps = s.seats.map (fun q =>
        if q.id = p.id then eliminate q s.turn.turnNumber
        else credit (shareOf s.seats p.id p.balance q) q) →
      Surrendered s p { s with
        players := ps
        spaces := s.spaces.map (onListed p.ownedPositions release)
        bankHouses, bankHotels
        chanceDeck := returnCards p.getOutOfJailCards s.chanceDeck chanceJailCard
        chestDeck := returnCards p.getOutOfJailCards s.chestDeck chestJailCard }

section Surrender

variable {s : GameState} {pid : PlayerId} {players : List PlayerState}

theorem distributeFrom_eq (h : (players.map (·.id)).Nodup) (share remainder : Int) (n : Nat) :
    distributeFrom pid share remainder n players = players.map fun q =>
      if isRecipient pid q then
        credit (share + (if ((n + ((players.filter (isRecipient pid)).map (·.id)).idxOf q.id : Nat)
          : Int) < remainder then 1 else 0)) q
      else q := by
  induction players generalizing n with
  | nil => rfl
  | cons p rest ih =>
      have hnodup := List.nodup_cons.mp h
      by_cases hp : isRecipient pid p
      · have htail : ∀ q ∈ rest, (p.id :: (rest.filter (isRecipient pid)).map (·.id)).idxOf q.id =
            ((rest.filter (isRecipient pid)).map (·.id)).idxOf q.id + 1 := by
          intro q hq
          refine List.idxOf_cons_ne _ fun hpq => hnodup.1 ?_
          exact List.mem_map.mpr ⟨q, hq, hpq.symm⟩
        simp only [distributeFrom, hp, if_true, ih hnodup.2, List.map_cons,
          List.filter_cons_of_pos, List.idxOf_cons_self, Nat.add_zero]
        refine List.cons_eq_cons.mpr ⟨?_, List.map_congr_left fun q hq => ?_⟩
        · simp [credit, Int.add_assoc]
        · rw [htail q hq, Nat.add_right_comm, Nat.add_assoc]
      · simp only [distributeFrom, hp, if_false, ih hnodup.2, List.map_cons,
          List.filter_cons_of_neg (show ¬ isRecipient pid p = true from hp), Bool.false_eq_true]

variable (pid) in
/-- The distribution, seat by seat. -/
theorem splitCash_eq (h : (players.map (·.id)).Nodup) (cash : Int) :
    splitCash players pid cash = players.map fun q => credit (shareOf players pid cash q) q := by
  simp only [splitCash]
  split
  · rename_i hpos
    rw [distributeFrom_eq h]
    refine List.map_congr_left fun q _ => ?_
    simp only [shareOf, List.length_map, Nat.zero_add]
    by_cases hq : isRecipient pid q
    · simp [hq, hpos.2]
    · simp [hq, credit_zero]
  · rename_i hno
    refine ((List.map_id players).symm).trans (List.map_congr_left fun q hq => ?_)
    have hshare : shareOf players pid cash q = 0 := by
      refine if_neg ?_
      rintro ⟨hrec, hcash⟩
      refine hno ⟨?_, hcash⟩
      have hmem : q ∈ players.filter (isRecipient pid) := List.mem_filter.mpr ⟨hq, hrec⟩
      exact Nat.pos_iff_ne_zero.mp (List.length_pos_of_mem hmem)
    rw [hshare, credit_zero]
    rfl

theorem shareOf_seatsOf (players : List PlayerState) (cash : Int) (q : PlayerState) :
    shareOf (seatsOf players) pid cash q = shareOf players pid cash q := by
  have hids : ((seatsOf players).filter (isRecipient pid)).map (·.id) =
      (players.filter (isRecipient pid)).map (·.id) := by
    simp only [seatsOf, List.filter_map, List.map_map]
    rfl
  simp only [shareOf, hids]

/-- The cash is split, and then the player is taken out. -/
theorem seats_splitCash {p : PlayerState} {i : Nat} (hids : (s.players.map (·.id)).Nodup)
    (hi : s.players[i]? = some p) :
    seatsOf ((splitCash s.players p.id p.balance).set i (eliminate p s.turn.turnNumber)) =
      s.seats.map fun q => if q.id = p.id then eliminate q s.turn.turnNumber
        else credit (shareOf s.players p.id p.balance q) q := by
  set shared := splitCash s.players p.id p.balance with hshared
  have hsharedEq := splitCash_eq p.id hids p.balance
  -- the player gets no share
  have hnone : shareOf s.players p.id p.balance p = 0 :=
    if_neg fun h => by simp [isRecipient] at h
  have hget : shared[i]? = some p := by
    rw [hshared, hsharedEq, List.getElem?_map, hi, Option.map_some, hnone, credit_zero]
  have hids' : (shared.map (·.id)).Nodup := by
    rw [hshared, hsharedEq, ids_map (f := fun q => credit _ q) fun _ _ => rfl]
    exact hids
  rw [show shared.set i (eliminate p s.turn.turnNumber) =
    editSeat p.id (fun _ => eliminate p s.turn.turnNumber) shared from
      set_eq_editAt PlayerState.id hids' hget fun _ => _, hshared, hsharedEq]
  simp only [seatsOf, GameState.seats, editSeat, editAt, List.map_map]
  refine List.map_congr_left fun q hq => ?_
  simp only [Function.comp, credit_id, bare_id]
  by_cases hqp : q.id = p.id
  · obtain rfl : q = p := eq_of_key_eq PlayerState.id hids hq (List.mem_of_getElem? hi) hqp
    simp only [if_true]
    rfl
  · exact (congrArg PlayerState.bare (if_neg hqp)).trans (if_neg hqp).symm

theorem resolveSurrender_sat (hs : Sound s) (hcurrent : s.turn.currentPlayerId = pid)
    (hpid : Seated s pid) :
    Sat (fun _ => False) (resolveSurrender s pid) fun s' =>
      ∃ p ∈ s.seats, p.id = pid ∧ ((p.isBankrupt = true ∧ s' = s) ∨
        (p.isBankrupt = false ∧ ∃ e, Surrendered s p e ∧ AfterElimination e s')) := by
  obtain ⟨p, hp, rfl⟩ := hpid.player
  simp only [resolveSurrender, hs.getPlayer hp, ok_bind, sat_ite, sat_pure]
  refine ⟨fun hout => ⟨p.bare, mem_seats hp, rfl, .inl ⟨hout, trivial⟩⟩, fun hin => ?_⟩
  obtain ⟨i, hi, hgi⟩ := nextPlayerIdx_eq hs.playerIds hp
  have hown := hs.owned hp
  obtain ⟨bankHouses, bankHotels, hclear⟩ :=
    clearSpaces_eq hs.layout hown s.bankHouses s.bankHotels
  set f : PlayerState → PlayerState := fun q =>
    if q.id = p.id then eliminate q s.turn.turnNumber
    else credit (shareOf s.seats p.id p.balance q) q with hf
  have hfid : ∀ q, (f q).id = q.id := fun q => by simp only [hf]; split <;> rfl
  have hseats : seatsOf ((splitCash s.players p.id p.balance).set i
      (eliminate p s.turn.turnNumber)) = s.seats.map f := by
    rw [seats_splitCash hs.playerIds hgi]
    refine List.map_congr_left fun q _ => ?_
    simp only [hf, GameState.seats, shareOf_seatsOf]
  obtain ⟨ps, href, hps⟩ := refreshAllNetWorth_seats _
    (hs.layout.map (g := onListed p.ownedPositions release)
      fun o => by unfold onListed; split <;> rfl) hseats (by
      intro x hx q hq
      obtain ⟨y, hy, rfl⟩ := List.mem_map.mp hx
      simp only [hf] at hq
      split at hq
      · simp [eliminate] at hq
      · exact hs.deeds y hy q hq)
  simp only [hi, hclear, ok_bind, href, sat_ite, sat_pure]
  set e : GameState := { s with
    players := ps
    spaces := s.spaces.map (onListed p.ownedPositions release)
    bankHouses, bankHotels
    chanceDeck := returnCards p.getOutOfJailCards s.chanceDeck chanceJailCard
    chestDeck := returnCards p.getOutOfJailCards s.chestDeck chestJailCard } with he
  have hsurr : Surrendered s p.bare e := .mk hps
  have hin' : p.bare.isBankrupt = false := by simpa using hin
  have hcheck := checkWinCondition_spec e
  have hids : (e.seats.map (·.id)).Nodup := by
    rw [show e.seats = s.seats.map f from hps, ids_map fun _ _ => hfid _]; exact hs.ids
  have hseat : Seated e p.id := by
    refine ⟨f p.bare, ?_, hfid _⟩
    rw [show e.seats = s.seats.map f from hps]
    exact List.mem_map_of_mem (mem_seats hp)
  generalize checkWinCondition e = c at hcheck
  refine ⟨fun hfin => ⟨p.bare, mem_seats hp, rfl, .inr ⟨hin', e, hsurr, .ended hcheck hfin⟩⟩,
    fun hfin => ?_⟩
  cases hcheck with
  | won _ _ => exact absurd rfl hfin
  | unchanged hno =>
      refine ⟨fun _ => ?_, fun hcur => absurd hcurrent hcur⟩
      exact (advanceTurnOffPlayer_sat hids hseat).imp fun s' hs' =>
        ⟨p.bare, mem_seats hp, rfl, .inr ⟨hin', e, hsurr, .passed hno hfin hs'.1⟩⟩

end Surrender

end Monopoly
