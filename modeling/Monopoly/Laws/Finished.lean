import Monopoly.Spec.Replay

/-!
# Monopoly.Laws.Finished

A finished game in the phase `GAME_OVER` is terminal for all commands but
the trade and auction commands that set a phase of their own.
-/

namespace Monopoly

/-- The two records of a player agree on everything the player has. -/
structure SameAssets (p p' : PlayerState) : Prop where
  id : p'.id = p.id
  balance : p'.balance = p.balance
  cards : p'.getOutOfJailCards = p.getOutOfJailCards
  bankrupt : p'.isBankrupt = p.isBankrupt
  owned : ∀ q, q ∈ p'.ownedPositions ↔ q ∈ p.ownedPositions

/-- The outcome of the game is the same, and the phase is `GAME_OVER`. -/
structure SameOutcome (s s' : GameState) : Prop where
  status : s'.status = s.status
  winner : s'.winnerId = s.winnerId
  players : List.Forall₂ SameAssets s.players s'.players
  spaces : s'.spaces = s.spaces
  bankHouses : s'.bankHouses = s.bankHouses
  bankHotels : s'.bankHotels = s.bankHotels
  phase : s'.turn.phase = .gameOver

/-- The current player of a finished game is out of it, with nothing left,
and a debt that is still pending cannot be paid. -/
structure Spent (s : GameState) : Prop where
  current : ∃ d ∈ s.seats, d.id = s.turn.currentPlayerId ∧ d.isBankrupt = true ∧ d.balance = 0 ∧
    d.ownedPositions = [] ∧ d.getOutOfJailCards = 0
  unpaid : ∀ debt, s.bankruptcy = some debt → s.cash debt.debtorId < debt.amountOwed

section Calls

variable {s m : GameState} {env : Env} {command : GameCommand}

theorem forall₂_sameAssets_map {f : PlayerState → PlayerState} {seats : List PlayerState}
    (hf : ∀ p ∈ seats, SameAssets p (f p)) : List.Forall₂ SameAssets seats (seats.map f) :=
  List.forall₂_map_right_iff.mpr (List.forall₂_same.mpr hf)

/-- The handler keeps the outcome, the turn and the debt, or clears a debt. -/
structure Idle (s m : GameState) : Prop where
  status : m.status = s.status
  winner : m.winnerId = s.winnerId
  turn : m.turn = s.turn
  players : ∃ f, m.seats = s.seats.map f ∧ (∀ p, (f p).id = p.id) ∧
    ∀ p ∈ s.seats, SameAssets p (f p)
  spaces : m.spaces = s.spaces
  bank : m.bankHouses = s.bankHouses ∧ m.bankHotels = s.bankHotels
  debt : m.bankruptcy = s.bankruptcy ∨ m.bankruptcy = none

theorem Idle.of_seats (hseats : m.seats = s.seats) (hstatus : m.status = s.status)
    (hwinner : m.winnerId = s.winnerId) (hturn : m.turn = s.turn) (hspaces : m.spaces = s.spaces)
    (hbank : m.bankHouses = s.bankHouses ∧ m.bankHotels = s.bankHotels)
    (hdebt : m.bankruptcy = s.bankruptcy) : Idle s m where
  status := hstatus
  winner := hwinner
  turn := hturn
  players := ⟨fun p => p, hseats.trans (List.map_id' _).symm, fun _ => rfl, fun _ _ =>
    ⟨rfl, rfl, rfl, rfl, fun _ => Iff.rfl⟩⟩
  spaces := hspaces
  bank := hbank
  debt := .inl hdebt

/-- From a finished state nothing leads back to `GAME_OVER`. -/
theorem Dispatched.phase_of_finished (hfin : s.status = .finished)
    (hd : Dispatched s env command m) (hphase : m.turn.phase = .gameOver) :
    s.turn.phase = .gameOver := by
  have hended {e : GameState} (hstatus : e.status = s.status) (hturn : e.turn = s.turn)
      (ha : AfterElimination e m) : m.turn = s.turn := by
    cases ha with
    | ended hc _ =>
        cases hc with
        | won hin _ => rw [hstatus, hfin] at hin; cases hin
        | unchanged _ => exact hturn
    | passed _ hne _ => exact absurd (hstatus.trans hfin) hne
  have hmoved {a : GameState} (ht : TurnMoved a m) (hturn : a.turn = s.turn) :
      s.turn.phase = .gameOver := by
    cases ht with
    | @passed next _ _ _ =>
        rcases openingPhase_cases next with h | h <;> simp [passTurn, h] at hphase
    | nobody _ => rwa [hturn] at hphase
  cases hd with
  | rolled hroll _ _ hr =>
      have := hr.phase hroll
      rw [hphase] at this
      simp [rollPhases] at this
  | bought hpost _ _ _ _ _ _ =>
      simp only at hphase
      split at hphase
      · cases hphase
      · exact hphase
  | passed _ _ => cases hphase
  | @ended _ next _ _ _ _ _ _ =>
      rcases openingPhase_cases next with h | h <;> simp [passTurn, h] at hphase
  | bailed _ _ _ _ _ => cases hphase
  | cardSpent _ _ _ _ _ => cases hphase
  | reworked _ _ hr => cases hr; exact hphase
  | proposed _ hprop => cases hprop; cases hphase
  | responded hresp =>
      cases hresp with
      | rejected _ _ => cases hphase
      | countered _ _ _ _ => exact hphase
      | accepted _ _ _ hexec => cases hexec; cases hphase
  | bid hbid => cases hbid; exact hphase
  | bankrupted _ _ _ hl ha =>
      rw [← hended (by cases hl <;> rfl) (by cases hl <;> rfl) ha]
      exact hphase
  | surrendered _ _ hsurr ha =>
      rw [← hended (by cases hsurr; rfl) (by cases hsurr; rfl) ha]
      exact hphase
  | auctionIdle _ => exact hphase
  | auctioned _ _ hr =>
      cases hr with
      | unsold _ _ | sold _ _ =>
          simp only [afterAuction] at hphase
          split at hphase <;> cases hphase
  | tradeIdle _ => exact hphase
  | tradeLapsed _ _ => cases hphase
  | timerIdle _ => exact hphase
  | timerSkipped _ _ _ _ _ ht => exact hmoved ht rfl
  | timerSpent _ _ _ _ _ _ => exact hphase
  | timerForced _ _ _ _ _ hsurr ha =>
      rw [← hended (by cases hsurr; rfl) (by cases hsurr; rfl) ha]
      exact hphase

/-- The bankruptcy of a player who has nothing left moves nothing. -/
theorem Liquidated.idle {debt : BankruptcyState} {d : PlayerState}
    (hids : (s.seats.map (·.id)).Nodup) (hd : d ∈ s.seats) (howed : 0 < debt.amountOwed)
    (hout : d.isBankrupt = true) (hcash : d.balance = 0) (howned : d.ownedPositions = [])
    (hcards : d.getOutOfJailCards = 0) (hl : Liquidated s debt d m) : Idle s m := by
  have hlisted {g : SpaceOwnership → SpaceOwnership} :
      s.spaces.map (onListed d.ownedPositions g) = s.spaces := by
    rw [howned, map_onListed_nil]
  have hruined {p : PlayerState} (hp : p ∈ s.seats) (hpd : p.id = d.id) :
      SameAssets p (ruined s.gameMode s.turn.turnNumber p) := by
    obtain rfl : p = d := eq_of_key_eq PlayerState.id hids hp hd hpd
    exact ⟨rfl, hcash.symm, hcards.symm, hout.symm, fun q => by simp [ruined, eliminate, howned]⟩
  cases hl with
  | toCreditor _ hps =>
      refine ⟨rfl, rfl, rfl, ⟨_, hps, fun p => ?_, fun p hp => ?_⟩, hlisted, ⟨rfl, rfl⟩, .inr rfl⟩
      · split <;> (try split) <;> rfl
      · split
        · rename_i hpd; exact hruined hp hpd
        · split
          · have hmin : min d.balance debt.amountOwed = 0 := by omega
            exact ⟨rfl, by simp [inherit, hmin, interestOn, howned], by simp [inherit, hcards], rfl,
              fun q => by simp [inherit, howned]⟩
          · exact ⟨rfl, rfl, rfl, rfl, fun _ => Iff.rfl⟩
  | toBank _ hps =>
      refine ⟨rfl, rfl, rfl, ⟨_, hps, fun p => ?_, fun p hp => ?_⟩, hlisted, ⟨rfl, rfl⟩, .inr rfl⟩
      · split <;> rfl
      · split
        · rename_i hpd; exact hruined hp hpd
        · exact ⟨rfl, rfl, rfl, rfl, fun _ => Iff.rfl⟩

/-- What a handler does on a finished table in `GAME_OVER`. -/
theorem Dispatched.of_gameOver (hw : WellFormed s) (hmay : MayAct s command)
    (hfin : s.status = .finished) (hphase : s.turn.phase = .gameOver) (hspent : Spent s)
    (hd : Dispatched s env command m) :
    SetsPhase s env command ∧ m.turn.phase ≠ .gameOver ∨
      ¬ SetsPhase s env command ∧ Idle s m := by
  obtain ⟨d, hdmem, hdid, hout, hcash, howned, hcards⟩ := hspent.current
  have hcurrent {p : PlayerState} (hp : p ∈ s.seats) (hid : p.id = s.turn.currentPlayerId) :
      p = d := eq_of_key_eq PlayerState.id hw.ids hp hdmem (hid.trans hdid.symm)
  have hidle : Idle s s := .of_seats rfl rfl rfl rfl rfl ⟨rfl, rfl⟩ rfl
  have hexpired : isTurnExpired s env.clock.nowMs = false := by
    unfold isTurnExpired
    split
    · rfl
    · simp [hphase, activeTurnPhases]
  cases hd with
  | rolled hroll _ _ _ => simp [hphase] at hroll
  | bought hpost _ _ _ _ _ _ => simp [hphase] at hpost
  | passed hpost _ => simp [hphase] at hpost
  | ended hpost _ _ _ _ => simp [hphase] at hpost
  | bailed hjail _ _ _ _ => simp [hphase] at hjail
  | cardSpent hjail _ _ _ _ => simp [hphase] at hjail
  | reworked _ hbuild _ => simp [hphase, buildPhases] at hbuild
  | proposed _ hprop => cases hprop; exact .inl ⟨trivial, by simp⟩
  | responded hresp =>
      cases hresp with
      | rejected _ _ => exact .inl ⟨by simp [SetsPhase], by simp [dropTrade]⟩
      | countered _ _ _ _ =>
          exact .inr ⟨by simp [SetsPhase], .of_seats rfl rfl rfl rfl rfl ⟨rfl, rfl⟩ rfl⟩
      | accepted _ _ _ hexec => cases hexec; exact .inl ⟨by simp [SetsPhase], by simp⟩
  | bid hbid => cases hbid with | mk _ hauction _ _ _ _ _ => simp [hphase] at hauction
  | bankrupted hdebt hdebtor hdm hl ha =>
      obtain rfl := hcurrent hdm (hmay _ rfl rfl).symm
      have hl' := hl.idle hw.ids hdm (hw.debts _ hdebt).owed hout hcash howned hcards
      refine .inr ⟨id, ?_⟩
      cases ha with
      | passed _ hne _ => exact absurd (hl'.status.trans hfin) hne
      | ended hc _ =>
          cases hc with
          | won hin _ => rw [hl'.status, hfin] at hin; cases hin
          | unchanged _ => exact hl'
  | surrendered hp hact _ _ =>
      rw [hcurrent hp (hmay _ rfl rfl).symm, hout] at hact
      cases hact
  | auctionIdle hrunning => exact .inr ⟨by simp [SetsPhase, hrunning], hidle⟩
  | auctioned hdue _ hr =>
      refine .inl ⟨hdue, ?_⟩
      cases hr with
      | unsold _ _ | sold _ _ => simp only [afterAuction]; split <;> simp
  | tradeIdle hrunning =>
      refine .inr ⟨?_, hidle⟩
      rintro ⟨trade, htrade, hdue⟩
      exact absurd hdue (Int.not_le.mpr (hrunning trade htrade))
  | tradeLapsed htrade hdue => exact .inl ⟨⟨_, htrade, hdue⟩, by simp [dropTrade]⟩
  | timerIdle _ => exact .inr ⟨id, hidle⟩
  | timerSkipped hdue _ _ _ _ _ => simp [hexpired] at hdue
  | timerSpent hdue _ _ _ _ _ => simp [hexpired] at hdue
  | timerForced hdue _ _ _ _ _ _ => simp [hexpired] at hdue

theorem Idle.cash (h : Idle s m) (pid : PlayerId) : m.cash pid = s.cash pid := by
  obtain ⟨f, hseats, hid, hsame⟩ := h.players
  rw [GameState.cash, GameState.cash, seat?_map hseats hid]
  cases hseat : s.seat? pid with
  | none => rfl
  | some p => exact (hsame p (List.mem_of_find?_eq_some hseat)).balance

theorem Idle.spent (h : Idle s m) (hspent : Spent s) : Spent m := by
  obtain ⟨f, hseats, hid, hsame⟩ := h.players
  obtain ⟨d, hd, hdid, hout, hcash, howned, hcards⟩ := hspent.current
  have hd' := hsame d hd
  refine ⟨⟨f d, hseats ▸ List.mem_map_of_mem hd, (hid d).trans (by rw [hdid, h.turn]), ?_⟩, ?_⟩
  · refine ⟨hd'.bankrupt.trans hout, hd'.balance.trans hcash, ?_, hd'.cards.trans hcards⟩
    exact List.eq_nil_iff_forall_not_mem.mpr fun q hq => by
      rw [hd'.owned, howned] at hq
      simp at hq
  · intro debt hdebt
    rcases h.debt with hsame | hnone
    · rw [h.cash]
      exact hspent.unpaid debt (hsame ▸ hdebt)
    · rw [hnone] at hdebt
      cases hdebt

/-- The end of a call on a spent table changes nothing. -/
theorem Settled.of_spent {n : GameState} (hspent : Spent m) (h : Settled m n) : n = m := by
  cases h with
  | free _ | owing _ _ => rfl
  | paid hdebt hle _ => exact absurd hle (Int.not_le.mpr (hspent.unpaid _ hdebt))

theorem Settled.phase_of_finished {n : GameState} (h : Settled m n)
    (hphase : n.turn.phase = .gameOver) : n = m := by
  cases h with
  | free _ | owing _ _ => rfl
  | paid _ _ _ => cases hphase

theorem Idle.sameOutcome {s' : GameState} (h : Idle s m) (hphase : s.turn.phase = .gameOver)
    (ht : Tidied m s') : SameOutcome s s' := by
  obtain ⟨f, hseats, hid, hsame⟩ := h.players
  have hseats' : s'.seats = s.seats.map f := ht.seats_eq.trans hseats
  have hplayers : List.Forall₂ SameAssets s.seats s'.seats := by
    rw [hseats']; exact forall₂_sameAssets_map hsame
  have hbare : List.Forall₂ SameAssets s.players s'.players :=
    (List.forall₂_map_left_iff.mp (List.forall₂_map_right_iff.mp hplayers)).imp
      fun _ _ h => ⟨h.id, h.balance, h.cards, h.bankrupt, h.owned⟩
  cases ht with
  | mk _ =>
      exact ⟨h.status, h.winner, hbare, h.spaces, h.bank.1, h.bank.2,
        (congrArg TurnState.phase h.turn).trans hphase⟩

theorem Spent.tidied {s' : GameState} (h : Spent m) (ht : Tidied m s') : Spent s' := by
  obtain ⟨d, hd, hid, hrest⟩ := h.current
  refine ⟨⟨d, by rw [ht.seats_eq]; exact hd, by rw [hid, ht.currentPlayerId], hrest⟩,
    fun debt hdebt => ?_⟩
  rw [ht.cash]
  exact h.unpaid debt (ht.bankruptcy ▸ hdebt)

/-- A call on a finished, spent table in `GAME_OVER`. -/
theorem Stepped.of_gameOver {s' : GameState} (hw : WellFormed s) (hmay : MayAct s command)
    (hfin : s.status = .finished) (hphase : s.turn.phase = .gameOver) (hspent : Spent s)
    (hstep : Stepped s env command s') :
    SetsPhase s env command ∧ s'.turn.phase ≠ .gameOver ∨
      ¬ SetsPhase s env command ∧ SameOutcome s s' ∧ Spent s' := by
  cases hstep with
  | replied _ hd ht =>
      rcases hd.of_gameOver hw hmay hfin hphase hspent with ⟨hleaves, hm⟩ | ⟨hstays, hidle⟩
      · exact .inl ⟨hleaves, by rw [ht.phase]; exact hm⟩
      · exact .inr ⟨hstays, hidle.sameOutcome hphase ht, (hidle.spent hspent).tidied ht⟩
  | played _ hd hsettled ht =>
      rcases hd.of_gameOver hw hmay hfin hphase hspent with ⟨hleaves, hm⟩ | ⟨hstays, hidle⟩
      · refine .inl ⟨hleaves, fun hphase' => hm ?_⟩
        rw [ht.phase] at hphase'
        rwa [hsettled.phase_of_finished hphase'] at hphase'
      · have hspent' := hidle.spent hspent
        obtain rfl := hsettled.of_spent hspent'
        exact .inr ⟨hstays, hidle.sameOutcome hphase ht, hspent'.tidied ht⟩

/-- Back in `GAME_OVER` means it was never left. -/
theorem Stepped.phase_of_finished {s' : GameState} (hfin : s.status = .finished)
    (hstep : Stepped s env command s') (hphase : s'.turn.phase = .gameOver) :
    s.turn.phase = .gameOver := by
  cases hstep with
  | replied _ hd ht => exact hd.phase_of_finished hfin (ht.phase ▸ hphase)
  | played _ hd hsettled ht =>
      rw [ht.phase] at hphase
      rw [hsettled.phase_of_finished hphase] at hphase
      exact hd.phase_of_finished hfin hphase

/-- The elimination that ends the game keeps the turn on the eliminated
player. -/
theorem AfterElimination.currentPlayerId {e : GameState} (ha : AfterElimination e m)
    (hnot : e.status ≠ .finished) (hfin : m.status = .finished) :
    m.turn.currentPlayerId = e.turn.currentPlayerId := by
  cases ha with
  | ended hc _ => cases hc <;> rfl
  | passed _ _ ht =>
      have hstatus : m.status = e.status := by cases ht <;> rfl
      exact absurd (hstatus.symm.trans hfin) hnot

/-- A debt that the settlement leaves in `GAME_OVER` cannot be paid. -/
theorem Settled.unpaid {n : GameState} (h : Settled m n) (hphase : n.turn.phase = .gameOver)
    {debt : BankruptcyState} (hdebt : m.bankruptcy = some debt) :
    m.cash debt.debtorId < debt.amountOwed := by
  cases h with
  | free hnone => rw [hnone] at hdebt; cases hdebt
  | owing hdebt' hlt =>
      obtain rfl := Option.some.inj (hdebt'.symm.trans hdebt)
      exact hlt
  | paid _ _ _ => cases hphase

/-- The call that ends the game leaves the current player spent. -/
theorem Stepped.spent_of_ending {s' : GameState} (hw : WellFormed s) (hmay : MayAct s command)
    (hnot : s.status ≠ .finished) (hstep : Stepped s env command s')
    (hfin : s'.status = .finished) (hphase : s'.turn.phase = .gameOver) : Spent s' := by
  cases hstep with
  | replied hreply hd ht =>
      rcases hd.roster hw hmay with ⟨-, f, -, -, hst, -⟩ | ⟨heliminating, -⟩
      · rw [ht.status, hst] at hfin
        exact absurd hfin hnot
      · cases command <;> simp [GameCommand.isReply, Eliminating] at hreply heliminating
  | @played m n _ _ hd hsettled ht =>
      rw [ht.status, hsettled.status] at hfin
      rw [ht.phase] at hphase
      rcases hd.roster hw hmay with ⟨-, f, -, -, hst, -⟩ | ⟨-, d, e, hdmem, hcurrent, he, ha⟩
      · rw [hst] at hfin
        exact absurd hfin hnot
      · obtain ⟨heir, f, g, -, hr⟩ := he.removal hw
        have hest : e.status = s.status := by rw [hr.frame]
        have heturn : e.turn = s.turn := by rw [hr.frame]
        have hseats : m.seats = s.seats.map f := by
          rw [← hr.seats, show m.seats = e.seats by rw [ha.frame]; rfl]
        obtain ⟨hcash, howned, hcards, -⟩ := hr.stripped d rfl
        have hid : (f d).id = m.turn.currentPlayerId := by
          rw [ha.currentPlayerId (hest ▸ hnot) hfin, heturn, hr.id, hcurrent]
        have hm : Spent m :=
          ⟨⟨f d, hseats ▸ List.mem_map_of_mem hdmem, hid, by simp [hr.bankrupt], hcash, howned,
            hcards⟩, fun debt => hsettled.unpaid hphase⟩
        rw [← hsettled.phase_of_finished hphase] at hm
        exact hm.tidied ht

end Calls

/-- A finished table in `GAME_OVER` is spent. -/
def SpentWhenOver (s : GameState) : Prop :=
  s.status = .finished → s.turn.phase = .gameOver → Spent s

theorem Play.spentWhenOver {h : List (Taken GameState Call)} {s : GameState} (hplay : Play h s) :
    SpentWhenOver s := by
  refine Play.invariant (fun args s hopens hfin => ?_)
    (fun s call s' hw _ hI hmay hstep => ?_) hplay
  · rw [hopens.fresh.status] at hfin
    cases hfin
  · intro hfin' hphase'
    by_cases hfin : s.status = .finished
    · have hphase := hstep.phase_of_finished hfin hphase'
      rcases hstep.of_gameOver hw hmay hfin hphase (hI hfin hphase) with ⟨-, hleft⟩ | ⟨-, -, hspent⟩
      · exact absurd hphase' hleft
      · exact hspent
    · exact hstep.spent_of_ending hw hmay hfin hfin' hphase'

/-- **A finished game is terminal.** An accepted call on a finished game
leaves the outcome and the phase `GAME_OVER` if and only if that is the
phase and the call is not a trade or auction call with a phase of its own. -/
theorem finished_game_iff {h : List (Taken GameState Call)} {s s' : GameState} {call : Call}
    (hplay : Play h s) (hfin : s.status = .finished) (haccepted : Accepted s call s') :
    SameOutcome s s' ↔ s.turn.phase = .gameOver ∧ ¬ SetsPhase s call.env call.command := by
  obtain ⟨hw, hl⟩ := Play.formed hplay
  obtain ⟨hmay, hstep⟩ := haccepted.stepped hw hl
  constructor
  · intro hsame
    have hphase := hstep.phase_of_finished hfin hsame.phase
    rcases hstep.of_gameOver hw hmay hfin hphase (Play.spentWhenOver hplay hfin hphase) with
      ⟨-, hleft⟩ | ⟨hstays, -⟩
    · exact absurd hsame.phase hleft
    · exact ⟨hphase, hstays⟩
  · rintro ⟨hphase, hstays⟩
    rcases hstep.of_gameOver hw hmay hfin hphase (Play.spentWhenOver hplay hfin hphase) with
      ⟨hleaves, -⟩ | ⟨-, hsame, -⟩
    · exact absurd hleaves hstays
    · exact hsame

/-- After the surrender that ends the game, the player who is out offers a
trade. -/
def offerAfterTheEnd : List Call :=
  [callAt 0 [] (.surrender 1), callAt 0 [] (.proposeTrade 1 2 {} {})]

/-- The offer is accepted on the finished game and reopens the phase
`TRADE_NEGOTIATION`. -/
theorem offer_reopens_finished_game :
    ∃ t h s, Play (t :: h) s ∧ (t :: h).reverse.map (·.label) = offerAfterTheEnd ∧
      t.before.status = .finished ∧ t.before.turn.phase = .gameOver ∧
      s.turn.phase = .tradeNegotiation := by
  obtain ⟨h, s, hplay, hlabels, hcheck⟩ := play_of_reaches (duo 1500) offerAfterTheEnd
    (fun h s => h.head?.any (fun (t : Taken GameState Call) =>
      decide (t.before.status = .finished ∧ t.before.turn.phase = .gameOver)) &&
        decide (s.turn.phase = .tradeNegotiation)) (by decide) (by decide +kernel)
  cases h with
  | nil => simp [offerAfterTheEnd] at hlabels
  | cons t h =>
      have hboth := (Bool.and_eq_true _ _).mp hcheck
      have hbefore : t.before.status = .finished ∧ t.before.turn.phase = .gameOver :=
        of_decide_eq_true (by simpa using hboth.1)
      exact ⟨t, h, s, hplay, hlabels, hbefore.1, hbefore.2, of_decide_eq_true hboth.2⟩

/-- The turn timer on the finished game of two. -/
theorem finished_game_timer : ∃ s s' call, s.status = .finished ∧ Accepted s call s' ∧
    (SameOutcome s s' ↔ s.turn.phase = .gameOver ∧ ¬ SetsPhase s call.env call.command) := by
  obtain ⟨h, s', hplay, hlabels, hcheck⟩ := play_of_reaches (duo 1500)
    [callAt 0 [] (.surrender 1), callAt 1000 [] .turnTimeout]
    (fun h _ => h.head?.all fun (t : Taken GameState Call) =>
      decide (t.before.status = .finished)) (by decide) (by decide +kernel)
  cases hplay with
  | start _ => simp at hlabels
  | @next h s _ call hplay haccepted =>
      have hfin : s.status = .finished := by simpa using hcheck
      exact ⟨s, s', call, hfin, haccepted, finished_game_iff hplay hfin haccepted⟩

end Monopoly
