import Monopoly.Engine.Apply
import Monopoly.Spec.Roll
import Monopoly.Spec.WellFormed

/-!
# Monopoly.Spec.Dispatch

What each command handler requires and does on a well formed state.
-/

namespace Monopoly

/-- The buyer's seat after a purchase. -/
def purchase (position price : Nat) (p : PlayerState) : PlayerState :=
  { p with
    balance := p.balance - price
    ownedPositions := pySorted (p.ownedPositions ++ [position]) }

/-- A seat after bail. -/
def bail (fine : Int) (p : PlayerState) : PlayerState :=
  { p with jailStatus := none, balance := p.balance - fine }

/-- A seat after a Get Out of Jail Free card was used. -/
def spendJailCard (p : PlayerState) : PlayerState :=
  { p with jailStatus := none, getOutOfJailCards := p.getOutOfJailCards - 1 }

/-- The record of `position` changes hands with the building commands: who
sent the command, and for which position. -/
def GameCommand.rework : GameCommand → Option (PlayerId × Nat)
  | .buildHouse pid pos | .sellHouse pid pos | .mortgage pid pos | .unmortgage pid pos =>
      some (pid, pos)
  | _ => none

/-- What the handler of an accepted command requires and does. -/
inductive Dispatched (s : GameState) (env : Env) : GameCommand → GameState → Prop
  | rolled {p : PlayerState} {s' : GameState} :
      s.turn.phase = .preRoll ∨ s.turn.phase = .jailDecision → p ∈ s.seats →
      (p.jailStatus ≠ none → s.turn.phase = .jailDecision) →
      Rolled s p env.rng env.goSalary env.jailFine s' →
      Dispatched s env (.rollDice p.id) s'
  | bought {p : PlayerState} {position price : Nat} {ps : List PlayerState} :
      s.turn.phase = .postRoll ∨ s.turn.phase = .mustPayRent →
      s.turn.pendingBuyPosition = some position →
      (ownershipAt s.spaces position).ownerId = none →
      (squareAt s.gameMode position).price = some price → p ∈ s.seats →
      (price : Int) ≤ p.balance → seatsOf ps = editSeat p.id (purchase position price) s.seats →
      Dispatched s env (.buyProperty p.id position) { s with
        players := ps
        spaces := editSpace position (grant p.id) s.spaces
        turn := { s.turn with
          pendingBuyPosition := none
          phase := if s.turn.doublesStreak > 0 then .preRoll else s.turn.phase } }
  | passed {pid : PlayerId} {position : Nat} :
      s.turn.phase = .postRoll ∨ s.turn.phase = .mustPayRent →
      s.turn.pendingBuyPosition = some position →
      Dispatched s env (.passBuy pid) (startAuction s position env.clock.nowMs)
  | ended {pid : PlayerId} {next : PlayerState} {round : Nat} :
      s.turn.phase = .postRoll ∨ s.turn.phase = .mustPayRent ∨
        s.turn.phase = .bankruptResolution →
      s.turn.pendingBuyPosition = none → s.bankruptcy = none → next ∈ s.seats →
      next.isBankrupt = false →
      (2 ≤ (survivors s.seats).length → next.id ≠ s.turn.currentPlayerId) →
      Dispatched s env (.endTurn pid) { s with turn := passTurn s.turn next round }
  | bailed {p : PlayerState} {ps : List PlayerState} :
      s.turn.phase = .jailDecision → p ∈ s.seats → p.jailStatus ≠ none →
      env.jailFine ≤ p.balance → seatsOf ps = editSeat p.id (bail env.jailFine) s.seats →
      Dispatched s env (.payJailFine p.id)
        { s with players := ps, turn := { s.turn with phase := .preRoll } }
  | cardSpent {p : PlayerState} {ps : List PlayerState} :
      s.turn.phase = .jailDecision → p ∈ s.seats → p.jailStatus ≠ none →
      0 < p.getOutOfJailCards → seatsOf ps = editSeat p.id spendJailCard s.seats →
      Dispatched s env (.useJailCard p.id) { s with
        players := ps
        chanceDeck := s.chanceDeck ++ [chanceJailCard]
        turn := { s.turn with phase := .preRoll } }
  | reworked {command : GameCommand} {pid : PlayerId} {position : Nat} {s' : GameState} :
      command.rework = some (pid, position) → s.turn.phase ∈ buildPhases →
      Reworked s pid position s' → Dispatched s env command s'
  | proposed {pid target : PlayerId} {offer request : TradeOffer} {s' : GameState} :
      Seated s pid → Proposed s pid target offer request env.clock.now env.tradeId s' →
      Dispatched s env (.proposeTrade pid target offer request) s'
  | responded {pid : PlayerId} {tradeId : Nat} {response : TradeResponse}
      {counter : Option TradeOffer} {s' : GameState} :
      Responded s pid tradeId env.clock.now response counter s' →
      Dispatched s env (.respondTrade pid tradeId response counter) s'
  | bid {pid : PlayerId} {amount : Int} {s' : GameState} :
      BidPlaced s pid amount s' → Dispatched s env (.placeBid pid amount) s'
  | bankrupted {d : PlayerState} {debt : BankruptcyState} {e s' : GameState} :
      s.bankruptcy = some debt → debt.debtorId = d.id → d ∈ s.seats → Liquidated s debt d e →
      AfterElimination e s' → Dispatched s env (.declareBankruptcy d.id) s'
  | surrendered {p : PlayerState} {e s' : GameState} :
      p ∈ s.seats → p.isBankrupt = false → Surrendered s p e → AfterElimination e s' →
      Dispatched s env (.surrender p.id) s'
  | auctionIdle : isAuctionExpired s env.clock.nowMs = false → Dispatched s env .advanceAuction s
  | auctioned {auction : AuctionState} {s' : GameState} :
      isAuctionExpired s env.clock.nowMs = true → s.auction = some auction →
      Resolved s auction s' → Dispatched s env .advanceAuction s'
  | tradeIdle : (∀ t, s.trade = some t → env.clock.now < t.expiresAt) →
      Dispatched s env .expireTrade s
  | tradeLapsed {trade : TradeState} : s.trade = some trade → trade.expiresAt ≤ env.clock.now →
      Dispatched s env .expireTrade (dropTrade s)
  | timerIdle : isTurnExpired s env.clock.nowMs = false → Dispatched s env .turnTimeout s
  | timerSkipped {p : PlayerState} {ps : List PlayerState} {s' : GameState} :
      isTurnExpired s env.clock.nowMs = true → p ∈ s.players →
      p.id = s.turn.currentPlayerId → p.afkStrikes + 1 < maxAfkStrikes →
      seatsOf ps = s.seats → TurnMoved { s with players := ps } s' →
      (2 ≤ (survivors s.seats).length → s'.turn.currentPlayerId ≠ s.turn.currentPlayerId) →
      Dispatched s env .turnTimeout s'
  /-- The third strike of a player who is out of the game already. -/
  | timerSpent {p : PlayerState} {ps : List PlayerState} :
      isTurnExpired s env.clock.nowMs = true → p ∈ s.players →
      p.id = s.turn.currentPlayerId → maxAfkStrikes ≤ p.afkStrikes + 1 → p.isBankrupt = true →
      seatsOf ps = s.seats → Dispatched s env .turnTimeout { s with players := ps }
  | timerForced {p : PlayerState} {e s' : GameState} :
      isTurnExpired s env.clock.nowMs = true → p ∈ s.players →
      p.id = s.turn.currentPlayerId → maxAfkStrikes ≤ p.afkStrikes + 1 → p.isBankrupt = false →
      Surrendered s p.bare e → AfterElimination e s' → Dispatched s env .turnTimeout s'

section Handlers

variable {s : GameState} {env : Env} {pid : PlayerId} {position : Nat}

theorem handleBuyProperty_sat (hw : WellFormed s) (hpid : Seated s pid) :
    Sat PyError.IsIllegalMove (handleBuyProperty s pid position) fun r =>
      Dispatched s env (.buyProperty pid position) r.1 := by
  obtain ⟨p, hp, rfl⟩ := hpid.player
  simp only [handleBuyProperty, sat_bind, sat_illegalIf]
  refine ⟨fun _ => trivial, fun hphase => ⟨fun _ => trivial, fun hpending => ?_⟩⟩
  have hphase' : s.turn.phase = .postRoll ∨ s.turn.phase = .mustPayRent := by
    by_cases h : s.turn.phase = .postRoll
    · exact .inl h
    · exact .inr (by simpa [h] using hphase)
  have hpending' : s.turn.pendingBuyPosition = some position := by simpa using hpending
  have hpos := hw.pending position hpending'
  simp only [isPurchasable_eq hpos.onBoard, spaceAt_eq hw.layout hpos.onBoard, hw.getPlayer hp,
    getBoardSpace_eq hpos.onBoard, sat_ok, sat_orRaise]
  refine ⟨fun _ => trivial, fun _ => ⟨fun _ => trivial, fun howner => ⟨fun _ => trivial,
    fun price hprice => ⟨fun _ => trivial, fun hfunds => ?_⟩⟩⟩⟩
  have howned : ∀ q ∈ (purchase position price p).ownedPositions, Purchasable s.gameMode q := by
    intro q hq
    simp only [purchase, mem_pySorted, List.mem_append, List.mem_singleton] at hq
    rcases hq with hq | rfl
    · exact hw.deeds p.bare (mem_seats hp) q hq
    · exact hpos
  have hval : updatePlayerNetWorth (purchase position price p)
      (editSpace position (grant p.id) s.spaces) s.gameMode = .ok _ :=
    updatePlayerNetWorth_eq (hw.layout.editSpace _ fun _ => rfl) fun q hq => (howned q hq).onBoard
  have hassign : assignPlayer s.players p.id (revalue _ s.gameMode (purchase position price p)) =
      .ok _ :=
    assignPlayer_eq hw.playerIds hp fun q =>
      revalue (editSpace position (grant p.id) s.spaces) s.gameMode (purchase position price q)
  have hseats : seatsOf (editSeat p.id (fun q =>
      revalue (editSpace position (grant p.id) s.spaces) s.gameMode (purchase position price q))
      s.players) = editSeat p.id (purchase position price) s.seats := seatsOf_editSeat fun _ => rfl
  show Sat _ (replaceSpace s.spaces position (grant p.id (ownershipAt s.spaces position))) _
  rw [replaceSpace_eq hw.layout hpos.onBoard (grant p.id), sat_ok]
  show Sat _ (updatePlayerNetWorth (purchase position price p) _ s.gameMode) _
  rw [hval, sat_ok, hassign, sat_ok]
  exact .bought (p := p.bare) hphase' hpending' (by simpa using howner) hprice
    (mem_seats hp) (by simpa using hfunds) hseats

theorem handlePassBuy_sat (hw : WellFormed s) (hpid : Seated s pid) :
    Sat PyError.IsIllegalMove (handlePassBuy s pid env.clock.nowMs) fun r =>
      Dispatched s env (.passBuy pid) r.1 := by
  obtain ⟨p, hp, rfl⟩ := hpid.player
  simp only [handlePassBuy, sat_bind, sat_illegalIf, sat_orRaise]
  refine ⟨fun _ => trivial, fun hphase => ⟨fun _ => trivial, fun position hpending => ?_⟩⟩
  have hphase' : s.turn.phase = .postRoll ∨ s.turn.phase = .mustPayRent := by
    by_cases h : s.turn.phase = .postRoll
    · exact .inl h
    · exact .inr (by simpa [h] using hphase)
  simp only [hw.getPlayer hp, getBoardSpace_eq (hw.pending position hpending).onBoard, sat_ok,
    sat_pure]
  exact .passed hphase' hpending

theorem handleEndTurn_sat (hw : WellFormed s) (hpid : Seated s pid) :
    Sat (fun e => Active s s.turn.currentPlayerId → e.IsIllegalMove) (handleEndTurn s pid) fun r =>
      Dispatched s env (.endTurn pid) r.1 := by
  obtain ⟨p, hp, rfl⟩ := hpid.player
  simp only [handleEndTurn, sat_bind, sat_illegalIf]
  refine ⟨fun _ _ => trivial, fun hphase => ⟨fun _ _ => trivial, fun hpending =>
    ⟨fun _ _ => trivial, fun hdebt => ?_⟩⟩⟩
  have hphase' : s.turn.phase = .postRoll ∨ s.turn.phase = .mustPayRent ∨
      s.turn.phase = .bankruptResolution := by
    by_cases h : s.turn.phase = .postRoll
    · exact .inl h
    · by_cases h' : s.turn.phase = .mustPayRent
      · exact .inr (.inl h')
      · exact .inr (.inr (by simpa [h, h'] using hphase))
  have hnodup : ((survivors s.players).map (·.id)).Nodup :=
    hw.playerIds.sublist (List.filter_sublist.map _)
  by_cases hcurrent : ∃ c ∈ survivors s.players, c.id = s.turn.currentPlayerId
  · obtain ⟨c, hc, hcid⟩ := hcurrent
    obtain ⟨i, hi, hget⟩ := nextPlayerIdx_eq hnodup hc
    have hpos : 0 < (survivors s.players).length := List.length_pos_of_mem hc
    have hlt : (i + 1) % (survivors s.players).length < (survivors s.players).length :=
      Nat.mod_lt _ hpos
    have hmod : pyMod ((i : Int) + 1) (survivors s.players).length = _ :=
      pyMod_natCast (i + 1) hpos
    rw [← hcid, hi, sat_ok, hmod, sat_ok, pyGet_natCast hlt, sat_ok, hw.getPlayer hp, sat_ok,
      sat_pure]
    have hnext := mem_survivors.mp (List.getElem_mem hlt)
    refine @Dispatched.ended s env _
      (survivors s.players)[(i + 1) % (survivors s.players).length].bare _ hphase'
      (by simpa using hpending) (by simpa using hdebt) (mem_seats hnext.1) hnext.2
      fun htwo hsame => ?_
    obtain ⟨hi', hci⟩ := List.getElem?_eq_some_iff.mp hget
    have hnext_eq : (survivors s.players)[(i + 1) % (survivors s.players).length] = c :=
      eq_of_key_eq PlayerState.id hnodup (List.getElem_mem hlt) hc (hsame.trans hcid.symm)
    have hback : (i + 1) % (survivors s.players).length = i :=
      (List.Nodup.of_map _ hnodup).getElem_inj_iff.mp (hnext_eq.trans hci.symm)
    have hone := steps_eq_of_back hi' le_rfl (by omega) hback
    rw [show survivors s.seats = seatsOf (survivors s.players) from survivors_seatsOf _,
      show (seatsOf (survivors s.players)).length = _ from List.length_map _] at htwo
    omega
  · have hnone : nextPlayerIdx (survivors s.players) s.turn.currentPlayerId =
        .error .stopIteration := by
      rw [nextPlayerIdx, pyNextIdx, findIdx?_key_eq_none.mpr fun x hx hid => hcurrent ⟨x, hx, hid⟩]
      rfl
    rw [hnone, sat_error]
    rintro ⟨c, hc, hcid, hact⟩
    obtain ⟨x, hx, rfl⟩ := exists_player hc
    exact absurd ⟨x, mem_survivors.mpr ⟨hx, hact⟩, hcid⟩ hcurrent

theorem handlePayJailFine_sat (hw : WellFormed s) (hpid : Seated s pid) :
    Sat PyError.IsIllegalMove (handlePayJailFine s pid env.jailFine) fun r =>
      Dispatched s env (.payJailFine pid) r.1 := by
  obtain ⟨p, hp, rfl⟩ := hpid.player
  simp only [handlePayJailFine, sat_bind, sat_illegalIf, hw.getPlayer hp, sat_ok]
  refine ⟨fun _ => trivial, fun hphase => ⟨fun _ => trivial, fun hjail => ⟨fun _ => trivial,
    fun hfunds => ?_⟩⟩⟩
  obtain ⟨ps, hstore, hps⟩ := storePlayer_eq (v := bail env.jailFine p) (g := bail env.jailFine)
    hw.toSound hp rfl rfl rfl
  show Sat _ (storePlayer s (bail env.jailFine p)) _
  rw [hstore, sat_ok, sat_pure]
  exact .bailed (p := p.bare) (by simpa using hphase) (mem_seats hp) hjail (by simpa using hfunds)
    hps

theorem deckCard_returnJailCard
    (h : ∀ kind, ∀ id ∈ s.deck kind, DeckCard s.gameMode kind id) :
    ∀ kind, ∀ id ∈ (returnJailCardToDeck s .chance chanceJailCard).deck kind,
      DeckCard s.gameMode kind id := by
  intro kind id hid
  cases kind with
  | chance =>
      rcases List.mem_append.mp hid with hid | hid
      · exact h .chance id hid
      · rw [List.mem_singleton.mp hid]
        exact List.mem_cons_self
  | communityChest => exact h .communityChest id hid

theorem handleUseJailCard_sat (hw : WellFormed s) (hpid : Seated s pid) :
    Sat PyError.IsIllegalMove (handleUseJailCard s pid) fun r =>
      Dispatched s env (.useJailCard pid) r.1 := by
  obtain ⟨p, hp, rfl⟩ := hpid.player
  simp only [handleUseJailCard, sat_bind, sat_illegalIf, hw.getPlayer hp, sat_ok]
  refine ⟨fun _ => trivial, fun hphase => ⟨fun _ => trivial, fun hjail => ⟨fun _ => trivial,
    fun hcards => ?_⟩⟩⟩
  have hs : Sound (returnJailCardToDeck s .chance chanceJailCard) :=
    hw.toSound.map_seats id (List.map_id _).symm rfl rfl
      (deckCard_returnJailCard hw.decks) (fun _ _ => rfl) (fun _ _ => rfl) hw.standing
  obtain ⟨ps, hstore, hps⟩ := storePlayer_eq (v := spendJailCard p) (g := spendJailCard)
    hs hp rfl rfl rfl
  show Sat _ (storePlayer (returnJailCardToDeck s .chance chanceJailCard) (spendJailCard p)) _
  rw [hstore, sat_ok, sat_pure]
  exact .cardSpent (p := p.bare) (by simpa using hphase) (mem_seats hp) hjail
    (by simpa using hcards) hps

theorem handleRework_sat {command : GameCommand} {x : Py GameState}
    {m : String} (hcommand : command.rework = some (pid, position))
    (hx : Sat (fun e => OnBoard s.gameMode position → e.IsIllegalMove) x
      (Reworked s pid position)) :
    Sat (fun e => OnBoard s.gameMode position → e.IsIllegalMove)
      (do illegalIf (s.turn.phase ∉ buildPhases) m; return (← x, ([] : List GameEvent)))
      fun r => Dispatched s env command r.1 := by
  simp only [sat_bind, sat_illegalIf, sat_pure]
  exact ⟨fun _ _ => trivial, fun hphase => hx.imp fun s' hs' =>
    .reworked hcommand (by simpa using hphase) hs'⟩

theorem handleDeclareBankruptcy_sat (hw : WellFormed s) :
    Sat PyError.IsIllegalMove (handleDeclareBankruptcy s pid) fun r =>
      Dispatched s env (.declareBankruptcy pid) r.1 := by
  unfold handleDeclareBankruptcy
  cases hdebt : s.bankruptcy with
  | none => exact trivial
  | some debt =>
      have hformed := hw.debts debt hdebt
      simp only [sat_bind, sat_illegalIf, sat_pure]
      refine ⟨fun _ => trivial, fun hdebtor => ?_⟩
      have hid : debt.debtorId = pid := by simpa using hdebtor
      refine (resolveBankruptcy_sat hw.toSound hdebt hid (hid ▸ hformed.debtor)
        (hid ▸ hformed.creditor)).mono (fun _ h => h.elim) ?_
      rintro s' ⟨d, hd, rfl, e, hliq, hafter⟩
      exact .bankrupted hdebt hid hd hliq hafter

theorem handleSurrender_sat (hw : WellFormed s) (hpid : Seated s pid)
    (hcurrent : s.turn.currentPlayerId = pid) :
    Sat PyError.IsIllegalMove (handleSurrender s pid) fun r =>
      Dispatched s env (.surrender pid) r.1 := by
  have hout := resolveSurrender_sat hw.toSound hcurrent hpid
  obtain ⟨q, hq, rfl⟩ := hpid.player
  simp only [handleSurrender, sat_bind, hw.getPlayer hq, sat_ok, sat_illegalIf, sat_pure]
  refine ⟨fun _ => trivial, fun hin => hout.mono (fun _ h => h.elim) ?_⟩
  rintro s' ⟨p, hp, hid, ⟨hbankrupt, -⟩ | ⟨hactive, e, hsurr, hafter⟩⟩
  · obtain rfl : p = q.bare := eq_of_key_eq PlayerState.id hw.ids hp (mem_seats hq) hid
    exact absurd hbankrupt hin
  · rw [← hid]
    exact .surrendered hp hactive hsurr hafter

/-- The table is given up in the same way whatever the strikes of its
players are. -/
theorem Surrendered.of_sameTable {a a' e : GameState} {p : PlayerState} (h : SameTable a a')
    (he : Surrendered a' p e) : Surrendered a p e := by
  obtain ⟨heq, hseats⟩ := h
  generalize a'.players = ps at heq
  subst heq
  cases he with
  | mk hps => exact .mk (by rw [hps, hseats])

theorem handleTurnTimeout_sat (hw : WellFormed s) :
    Sat (fun _ => False) (handleTurnTimeout s env.clock.nowMs) fun r =>
      Dispatched s env .turnTimeout r.1 := by
  obtain ⟨p, hp, hid⟩ := hw.current.player
  have hassign := assignPlayer_eq hw.playerIds hp fun q =>
    { q with afkStrikes := p.afkStrikes + 1 }
  set ps := editSeat p.id (fun q => { q with afkStrikes := p.afkStrikes + 1 }) s.players with hpsdef
  have hps : seatsOf ps = s.seats := by
    have hedit : seatsOf ps = editSeat p.id (fun q => q) s.seats := seatsOf_editSeat fun _ => rfl
    rw [hedit]
    exact (List.map_congr_left fun q _ => ite_self q).trans (List.map_id _)
  have hsame : SameTable s { s with players := ps } := ⟨rfl, hps⟩
  have hs' : Sound { s with players := ps } := hsame.sound hw.toSound
  have hseat : Seated { s with players := ps } p.id := hsame.seated (seated_of_mem hp)
  rw [handleTurnTimeout, ← hid]
  simp only [hw.getPlayer hp, hassign, sat_ite, sat_bind, sat_ok, sat_pure]
  refine ⟨fun hidle => .timerIdle (by simpa using hidle), fun hdue =>
    ⟨fun hmax => ?_, fun hmax => ?_⟩⟩
  · have hdue' : isTurnExpired s env.clock.nowMs = true := by simpa using hdue
    refine (resolveSurrender_sat hs' hid.symm hseat).imp ?_
    rintro s' ⟨x, hx, hxid, ⟨hbankrupt, rfl⟩ | ⟨hactive, e, hsurr, hafter⟩⟩
    all_goals
      rw [show GameState.seats { s with players := ps } = s.seats from hps] at hx
      obtain rfl : x = p.bare :=
        eq_of_key_eq PlayerState.id hw.ids hx (mem_seats hp) hxid
    · exact .timerSpent hdue' hp hid hmax hbankrupt hps
    · exact .timerForced hdue' hp hid hmax hactive (hsurr.of_sameTable hsame) hafter
  · refine (advanceTurnOffPlayer_sat hs'.ids hseat).imp fun s' hs' => ?_
    refine .timerSkipped (by simpa using hdue) hp hid (by omega) hps hs'.1 fun htwo => ?_
    rw [← hid]
    refine hs'.2 ?_
    rw [show GameState.seats { s with players := ps } = s.seats from hps]
    exact htwo

end Handlers

/-! ## dispatch -/

/-- The players a command names. -/
def GameCommand.playerIds : GameCommand → List PlayerId
  | .proposeTrade pid target _ _ => [pid, target]
  | command => command.player.toList

/-- The positions a command names. -/
def GameCommand.positions : GameCommand → List Nat
  | .buyProperty _ pos | .buildHouse _ pos | .sellHouse _ pos | .mortgage _ pos
  | .unmortgage _ pos => [pos]
  | .proposeTrade _ _ offer request => offer.positions ++ request.positions
  | .respondTrade _ _ _ (some counter) => counter.positions
  | _ => []

/-- The ids of the command are players of the game, its positions are on
the board. -/
structure Addressed (s : GameState) (command : GameCommand) : Prop where
  players : ∀ pid ∈ command.playerIds, Seated s pid
  positions : ∀ q ∈ command.positions, OnBoard s.gameMode q

/-- The command may be dispatched: a reply or a timer, or sent by the
current player. -/
def MayAct (s : GameState) (command : GameCommand) : Prop :=
  ∀ pid, command.player = some pid → command.isReply = false → s.turn.currentPlayerId = pid

theorem dispatch_sat {s : GameState} {command : GameCommand} {env : Env} (hw : WellFormed s)
    (hl : Live s) (hmay : MayAct s command) :
    Sat (fun e => s.status = .inProgress → Addressed s command → e.IsIllegalMove)
      (dispatch s command env) fun r => Dispatched s env command r.1.1 := by
  have hseat {pid : PlayerId} (h : s.turn.currentPlayerId = pid) : Seated s pid := h ▸ hw.current
  cases command with
  | rollDice pid =>
      refine (handleRollDice_sat hw.toSound (hseat (hmay pid rfl rfl))).mono (fun _ h _ _ => h) ?_
      rintro r ⟨hphase, p, hp, rfl, hjail, hrolled⟩
      exact .rolled hphase hp hjail hrolled
  | buyProperty pid position =>
      rw [dispatch, sat_map]
      exact (handleBuyProperty_sat hw (hseat (hmay pid rfl rfl))).mono (fun _ h _ _ => h)
        fun _ h => h
  | passBuy pid =>
      rw [dispatch, sat_map]
      exact (handlePassBuy_sat hw (hseat (hmay pid rfl rfl))).mono (fun _ h _ _ => h) fun _ h => h
  | endTurn pid =>
      rw [dispatch, sat_map]
      exact (handleEndTurn_sat hw (hseat (hmay pid rfl rfl))).mono
        (fun _ h hin _ => h (hl hin).1) fun _ h => h
  | payJailFine pid =>
      rw [dispatch, sat_map]
      exact (handlePayJailFine_sat hw (hseat (hmay pid rfl rfl))).mono (fun _ h _ _ => h)
        fun _ h => h
  | useJailCard pid =>
      rw [dispatch, sat_map]
      exact (handleUseJailCard_sat hw (hseat (hmay pid rfl rfl))).mono (fun _ h _ _ => h)
        fun _ h => h
  | buildHouse pid position =>
      have hpid := hseat (hmay pid rfl rfl)
      rw [dispatch, sat_map]
      exact (handleRework_sat rfl (buildHouse_sat hw.toSound hpid)).mono
        (fun _ h _ ha => h (ha.positions _ List.mem_cons_self)) fun _ h => h
  | sellHouse pid position =>
      have hpid := hseat (hmay pid rfl rfl)
      rw [dispatch, sat_map]
      exact (handleRework_sat rfl (sellHouse_sat hw.toSound hpid)).mono
        (fun _ h _ ha => h (ha.positions _ List.mem_cons_self)) fun _ h => h
  | mortgage pid position =>
      have hpid := hseat (hmay pid rfl rfl)
      rw [dispatch, sat_map]
      exact (handleRework_sat rfl (mortgageProperty_sat hw.toSound hpid)).mono
        (fun _ h _ ha => h (ha.positions _ List.mem_cons_self)) fun _ h => h
  | unmortgage pid position =>
      have hpid := hseat (hmay pid rfl rfl)
      rw [dispatch, sat_map]
      exact (handleRework_sat rfl (unmortgageProperty_sat hw.toSound hpid)).mono
        (fun _ h _ ha => h (ha.positions _ List.mem_cons_self)) fun _ h => h
  | proposeTrade pid target offer request =>
      rw [dispatch, sat_map, sat_bind]
      have hpid := hseat (hmay pid rfl rfl)
      refine (proposeTrade_sat hw.toSound hpid).mono (fun _ h _ ha => ?_)
        fun s' h => .proposed hpid h
      exact h (ha.players target (by simp [GameCommand.playerIds]))
        (fun q hq => ha.positions q (List.mem_append_left _ hq))
        fun q hq => ha.positions q (List.mem_append_right _ hq)
  | respondTrade pid tradeId response counter =>
      rw [dispatch, sat_map, sat_bind]
      refine (respondTrade_sat hw.toSound fun t ht =>
        let h := hw.trades t ht
        ⟨h.proposer, h.target, h.distinct, h.offer, h.request⟩).mono (fun _ h _ ha => ?_)
        fun s' h => .responded h
      refine h fun offer hoffer q hq => ha.positions q ?_
      subst hoffer
      exact hq
  | placeBid pid amount =>
      rw [dispatch, sat_map, sat_bind]
      exact (placeBid_sat hw.toSound).mono
        (fun _ h _ ha => h (ha.players pid List.mem_cons_self)) fun _ h => .bid h
  | declareBankruptcy pid =>
      rw [dispatch, sat_map]
      exact (handleDeclareBankruptcy_sat hw).mono (fun _ h _ _ => h) fun _ h => h
  | surrender pid =>
      have hcurrent := hmay pid rfl rfl
      rw [dispatch, sat_map]
      exact (handleSurrender_sat hw (hseat hcurrent) hcurrent).mono (fun _ h _ _ => h) fun _ h => h
  | advanceAuction =>
      rw [dispatch, sat_map, sat_ite]
      refine ⟨fun h => .auctionIdle (by simpa using h), fun h => ?_⟩
      have hexpired : isAuctionExpired s env.clock.nowMs = true := by simpa using h
      obtain ⟨auction, ha⟩ : ∃ a, s.auction = some a := by
        cases ha : s.auction with
        | none => simp [isAuctionExpired, ha] at hexpired
        | some a => exact ⟨a, rfl⟩
      have hformed := hw.auctions auction ha
      rw [sat_bind]
      exact (resolveAuction_sat hw.toSound ha hformed.property hformed.bidder).mono
        (fun _ h => h.elim) fun _ h => .auctioned hexpired ha h
  | expireTrade =>
      rw [dispatch, sat_map]
      cases ht : s.trade with
      | none => exact .tradeIdle fun t h => by simp [ht] at h
      | some trade =>
          rw [sat_ite]
          refine ⟨fun hlt => .tradeIdle fun t h => ?_, fun hge => ?_⟩
          · rw [ht] at h
            exact Option.some.inj h ▸ hlt
          · rw [sat_pure, expireTrade, ht]
            exact .tradeLapsed ht (by omega)
  | turnTimeout =>
      rw [dispatch, sat_map]
      exact (handleTurnTimeout_sat hw).mono (fun _ h => h.elim) fun _ h => h

end Monopoly
