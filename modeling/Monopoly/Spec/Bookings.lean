import Monopoly.Lib.Books
import Monopoly.Spec.Estates
import Monopoly.Spec.Ledger
import Monopoly.Spec.Play

/-!
# Monopoly.Spec.Bookings

What every command pays, as payments between the players and the bank, and
that the cash after a call is the cash before it and these payments.  The
bank is the party `none`, as in the records of debts.
-/

namespace Monopoly

open Payment

/-! ## the payments of a command -/

/-- The bank and the players. -/
def GameState.parties (s : GameState) : List (Option PlayerId) :=
  none :: s.seats.map fun p => some p.id

/-- The current player shares the cash out among the players left; what
nobody gets goes to the bank, which also writes off a negative balance. -/
def sharePayments (s : GameState) (pid : PlayerId) : List (Payment (Option PlayerId)) :=
  match s.seat? pid with
  | none => []
  | some p =>
      let recipients := s.seats.filter (isRecipient pid)
      let share := shareOf s.seats pid p.balance
      recipients.map (fun q => ⟨some pid, some q.id, share q⟩) ++
        [⟨some pid, none, p.balance - (recipients.map share).sum⟩]

/-- The creditor gets what covers the debt and pays the interest on the
mortgages taken over; the rest of the cash is the bank's. -/
def estatePayments (s : GameState) (pid : PlayerId) : List (Payment (Option PlayerId)) :=
  match s.bankruptcy, s.seat? pid with
  | some debt, some d =>
      match debt.creditorId with
      | some creditor =>
          [⟨some pid, some creditor, min d.balance debt.amountOwed⟩,
            ⟨some pid, none, d.balance - min d.balance debt.amountOwed⟩,
            ⟨some creditor, none, interestOn s.gameMode s.spaces d.ownedPositions⟩]
      | none => [⟨some pid, none, d.balance⟩]
  | _, _ => []

/-- The two sides of the pending trade. -/
def tradePayments (s : GameState) : List (Payment (Option PlayerId)) :=
  match s.trade with
  | some trade =>
      [⟨some trade.proposerId, some trade.targetId, trade.proposerOffer.money⟩,
        ⟨some trade.targetId, some trade.proposerId, trade.targetRequest.money⟩]
  | none => []

/-- The bid of the pending auction. -/
def auctionPayments (s : GameState) : List (Payment (Option PlayerId)) :=
  match s.auction with
  | some auction =>
      match auction.highestBidderId with
      | some bidder => [⟨some bidder, none, auction.highestBid⟩]
      | none => []
  | none => []

instance (s : GameState) (nowMs : Int) : Decidable (ForcedOut s nowMs) :=
  inferInstanceAs (Decidable (_ ∧ _))

/-- What a command other than a roll pays. -/
def commandPayments (s : GameState) (env : Env) :
    GameCommand → List (Payment (Option PlayerId))
  | .buyProperty pid position =>
      [⟨some pid, none, ((squareAt s.gameMode position).price.getD 0 : Nat)⟩]
  | .payJailFine pid => [⟨some pid, none, env.jailFine⟩]
  | .buildHouse pid position =>
      [⟨some pid, none, ((squareAt s.gameMode position).houseCost.getD 0 : Nat)⟩]
  | .sellHouse pid position =>
      [⟨none, some pid, ((squareAt s.gameMode position).houseCost.getD 0 / 2 : Nat)⟩]
  | .mortgage pid position =>
      [⟨none, some pid, ((squareAt s.gameMode position).mortgageValue.getD 0 : Nat)⟩]
  | .unmortgage pid position =>
      [⟨some pid, none, unmortgageCost ((squareAt s.gameMode position).mortgageValue.getD 0)⟩]
  | .respondTrade _ _ .accept _ => tradePayments s
  | .advanceAuction =>
      if isAuctionExpired s env.clock.nowMs then auctionPayments s else []
  | .declareBankruptcy pid => estatePayments s pid
  | .surrender pid => sharePayments s pid
  | .turnTimeout =>
      if ForcedOut s env.clock.nowMs then sharePayments s s.turn.currentPlayerId else []
  | _ => []

/-- The debt that was paid at the end of the call, if one was: a bankruptcy
takes its debt off the table itself. -/
def settlement (s s' : GameState) : GameCommand → List (Payment (Option PlayerId))
  | .declareBankruptcy _ => []
  | _ =>
      match s.bankruptcy, s'.bankruptcy with
      | some debt, none => [⟨some debt.debtorId, debt.creditorId, debt.amountOwed⟩]
      | _, _ => []

/-! ## posting -/

/-- The cash of `s'` is that of `s` after the payments, which are between the
players of the table and the bank. -/
structure Posted (s : GameState) (payments : List (Payment (Option PlayerId))) (s' : GameState) :
    Prop where
  ids : s'.seats.map (·.id) = s.seats.map (·.id)
  among : Among s.parties payments
  cash : ∀ pid, s'.cash pid = s.cash pid + net (some pid) payments

section Posting

variable {s m n s' : GameState} {payments more : List (Payment (Option PlayerId))}
  {f : PlayerState → PlayerState} {pid : PlayerId}

theorem mem_parties : some pid ∈ s.parties ↔ Seated s pid := by
  simp [GameState.parties, Seated]

theorem bank_mem_parties : none ∈ s.parties := List.mem_cons_self

theorem parties_eq (h : m.seats.map (·.id) = s.seats.map (·.id)) : m.parties = s.parties := by
  have hsome : ∀ seats : List PlayerState,
      seats.map (fun p => some p.id) = (seats.map (·.id)).map some := fun seats => by
    rw [List.map_map]
    rfl
  rw [GameState.parties, GameState.parties, hsome, hsome, h]

theorem Posted.trans (h : Posted s payments m) (h' : Posted m more s') :
    Posted s (payments ++ more) s' where
  ids := h'.ids.trans h.ids
  among := by
    have hmore := h'.among
    rw [parties_eq h.ids] at hmore
    exact among_append.mpr ⟨h.among, hmore⟩
  cash pid := by rw [h'.cash, h.cash, net_append, Int.add_assoc]

theorem Posted.same (h : m.seats = s.seats) : Posted s [] m where
  ids := by rw [h]
  among := among_nil
  cash pid := by rw [GameState.cash, GameState.seat?, h, net_nil, Int.add_zero]; rfl

theorem Posted.tidied (h : Posted s payments m) (ht : Tidied m s') : Posted s payments s' := by
  simpa using h.trans (Posted.same ht.seats_eq)

/-- A change of the seats that gives every player what the payments say. -/
theorem Posted.map (hs : Sound s) (hseats : m.seats = s.seats.map f) (hid : ∀ p, (f p).id = p.id)
    (hamong : Among s.parties payments)
    (hbalance : ∀ p ∈ s.seats, (f p).balance = p.balance + net (some p.id) payments) :
    Posted s payments m where
  ids := by rw [hseats, ids_map fun p _ => hid p]
  among := hamong
  cash pid := by
    have hlookup := seat?_map hseats hid pid
    by_cases hseated : Seated s pid
    · obtain ⟨p, hp, rfl⟩ := hseated
      rw [GameState.cash, hlookup, GameState.cash, hs.seat?_eq hp]
      exact hbalance p hp
    · have hnone : s.seat? pid = none :=
        find?_key_eq_none.mpr fun p hp hpid => hseated ⟨p, hp, hpid⟩
      rw [GameState.cash, hlookup, GameState.cash, hnone,
        net_off hamong fun hmem => hseated (mem_parties.mp hmem)]
      rfl

/-- A change of one seat, by payments between its player and the bank. -/
theorem Posted.edit (hs : Sound s) (hseats : m.seats = editSeat pid f s.seats)
    (hid : ∀ p, (f p).id = p.id) (hpid : Seated s pid)
    (hamong : Among [none, some pid] payments)
    (hbalance : ∀ p ∈ s.seats, p.id = pid →
      (f p).balance = p.balance + net (some pid) payments) : Posted s payments m := by
  refine .map (f := fun p => if p.id = pid then f p else p) hs hseats (fun p => ?_)
    (fun t ht => ?_) fun p hp => ?_
  · split
    · exact hid p
    · rfl
  · have hall : ∀ k ∈ [none, some pid], k ∈ s.parties := by
      simp [bank_mem_parties, mem_parties, hpid]
    exact ⟨hall _ (hamong t ht).1, hall _ (hamong t ht).2⟩
  · split
    · rename_i hp'
      rw [hbalance p hp hp', hp']
    · rename_i hp'
      rw [net_off hamong (by simpa using hp'), Int.add_zero]

/-- One player pays the bank. -/
theorem Posted.toBank {amount : Int} (hs : Sound s) (hseats : m.seats = editSeat pid f s.seats)
    (hid : ∀ p, (f p).id = p.id) (hpid : Seated s pid)
    (hbalance : ∀ p, (f p).balance = p.balance - amount) :
    Posted s [⟨some pid, none, amount⟩] m := by
  refine .edit hs hseats hid hpid (by simp) fun p _ _ => ?_
  simp only [hbalance, net_cons, net_nil, gain, reduceCtorEq, if_false, if_true]
  omega

/-- The bank pays one player. -/
theorem Posted.ofBank (hs : Sound s) {amount : Int}
    (hseats : m.seats = editSeat pid (credit amount) s.seats) (hpid : Seated s pid) :
    Posted s [⟨none, some pid, amount⟩] m := by
  refine .edit (f := credit amount) hs hseats (fun _ => rfl) hpid (by simp) fun p _ _ => ?_
  simp only [credit, net_cons, net_nil, gain, reduceCtorEq, if_false, if_true]
  omega

end Posting

/-! ## the handlers -/

section Handlers

variable {s e m : GameState} {env : Env} {command : GameCommand} {pid : PlayerId} {pos : Nat}
  {d : PlayerState}

theorem among_sharePayments (s : GameState) (pid : PlayerId) :
    Among s.parties (sharePayments s pid) := by
  unfold sharePayments
  cases hp : s.seat? pid with
  | none => exact among_nil
  | some p =>
      have hpid : Seated s pid :=
        ⟨p, List.mem_of_find?_eq_some hp, by simpa using List.find?_some hp⟩
      refine among_append.mpr ⟨fun t ht => ?_, ?_⟩
      · obtain ⟨q, hq, rfl⟩ := List.mem_map.mp ht
        exact ⟨mem_parties.mpr hpid, mem_parties.mpr ⟨q, (List.mem_filter.mp hq).1, rfl⟩⟩
      · simp [mem_parties, hpid, bank_mem_parties]

theorem Surrendered.posts (hs : Sound s) (hd : d ∈ s.seats) (hsurr : Surrendered s d e) :
    Posted s (sharePayments s d.id) e := by
  cases hsurr with
  | mk hps =>
      refine .map (f := fun q => if q.id = d.id then eliminate q s.turn.turnNumber
        else credit (shareOf s.seats d.id d.balance q) q) hs hps (fun q => by split <;> rfl)
        (among_sharePayments s d.id) fun q hq => ?_
      set recipients := s.seats.filter (isRecipient d.id) with hrecipients
      have hother : ∀ x ∈ recipients, some x.id ≠ some d.id := by
        intro x hx
        have hx' := (List.mem_filter.mp hx).2
        simp only [isRecipient, Bool.and_eq_true, decide_eq_true_eq] at hx'
        simpa using hx'.1
      have hkeys : (recipients.map fun x => some x.id).Nodup := by
        have hids := hs.ids.sublist (List.filter_sublist (p := isRecipient d.id).map (·.id))
        have hsome := hids.map (Option.some_injective _)
        rwa [List.map_map] at hsome
      rw [sharePayments, hs.seat?_eq hd, net_append]
      split
      · -- the player who leaves
        rename_i hid
        obtain rfl := eq_of_key_eq PlayerState.id hs.ids hq hd hid
        rw [net_payer hother]
        simp only [eliminate, net_cons, net_nil, gain, reduceCtorEq, if_false, if_true,
          ← hrecipients]
        omega
      · rename_i hid
        have hrest : net (some q.id) [⟨some d.id, none,
            d.balance - (recipients.map (shareOf s.seats d.id d.balance)).sum⟩] = 0 := by
          simp [gain, hid]
        rw [hrest]
        by_cases hrecipient : isRecipient d.id q = true
        · have hkey : (fun x : PlayerState => some x.id) q ≠ some d.id := by simpa using hid
          rw [net_payees hkeys (List.mem_filter.mpr ⟨hq, hrecipient⟩) hkey]
          simp [credit]
        · have hnone : shareOf s.seats d.id d.balance q = 0 := if_neg fun h => hrecipient h.1
          have hbetween : Among (some d.id :: recipients.map fun x => some x.id)
              (recipients.map fun x =>
                ⟨some d.id, some x.id, shareOf s.seats d.id d.balance x⟩) := by
            intro t ht
            obtain ⟨x, hx, rfl⟩ := List.mem_map.mp ht
            exact ⟨List.mem_cons_self, List.mem_cons_of_mem _ (List.mem_map_of_mem hx)⟩
          have hoff : net (some q.id) (recipients.map fun x =>
              ⟨some d.id, some x.id, shareOf s.seats d.id d.balance x⟩) = 0 := by
            refine net_off hbetween fun hmem => ?_
            rcases List.mem_cons.mp hmem with heq | hmem
            · exact hid (Option.some.inj heq)
            · obtain ⟨x, hx, heq⟩ := List.mem_map.mp hmem
              obtain rfl := eq_of_key_eq PlayerState.id hs.ids (List.mem_filter.mp hx).1 hq
                (Option.some.inj heq)
              exact hrecipient (List.mem_filter.mp hx).2
          rw [hnone, hoff, credit_zero]
          omega

theorem Liquidated.posts (hs : Sound s) {debt : BankruptcyState} (hdebt : s.bankruptcy = some debt)
    (hformed : DebtFormed s debt) (hdebtor : debt.debtorId = d.id) (hd : d ∈ s.seats)
    (hl : Liquidated s debt d e) : Posted s (estatePayments s d.id) e := by
  have hdebtorSeat : some d.id ∈ s.parties := mem_parties.mpr ⟨d, hd, rfl⟩
  have hsole {q : PlayerState} (hq : q ∈ s.seats) (hid : q.id = d.id) : q = d :=
    eq_of_key_eq PlayerState.id hs.ids hq hd hid
  rw [estatePayments, hdebt, hs.seat?_eq hd]
  cases hl with
  | @toCreditor creditor _ hc hps =>
      obtain ⟨hseated, hne⟩ := hformed.creditor creditor hc
      rw [hdebtor] at hne
      refine .map (f := fun p => if p.id = d.id then ruined s.gameMode s.turn.turnNumber p
        else if p.id = creditor then inherit d (min d.balance debt.amountOwed)
          (interestOn s.gameMode s.spaces d.ownedPositions) p else p) hs hps (fun q => ?_) ?_
        fun q hq => ?_
      · split
        · rfl
        · split <;> rfl
      · simp [hc, hdebtorSeat, bank_mem_parties, mem_parties, hseated]
      · simp only [hc, net_cons, net_nil, gain, Option.some.injEq, reduceCtorEq, if_false]
        split
        · rename_i hid
          obtain rfl := hsole hq hid
          simp only [ruined, eliminate, hne.symm, if_false]
          omega
        · rename_i hid
          split
          · simp only [inherit]
            omega
          · omega
  | toBank hc hps =>
      refine .map (f := fun p => if p.id = d.id then ruined s.gameMode s.turn.turnNumber p else p)
        hs hps (fun q => by split <;> rfl) ?_ fun q hq => ?_
      · simp [hc, hdebtorSeat, bank_mem_parties]
      · simp only [hc, net_cons, net_nil, gain, Option.some.injEq, reduceCtorEq, if_false]
        split
        · rename_i hid
          obtain rfl := hsole hq hid
          simp only [ruined, eliminate]
          omega
        · omega

/-- The building commands credit the player and leave everybody else. -/
theorem updateHolding_credits (hids : (s.players.map (·.id)).Nodup) {p : PlayerState}
    (hp : getPlayerByIdFromState s pid = .ok p) (pos : Nat) (o : SpaceOwnership) (delta : Int) :
    Ensures (updateHolding s pid p pos o delta) fun s' =>
      s'.seats = editSeat pid (credit delta) s.seats := by
  obtain ⟨hmem, rfl⟩ := getPlayer_found hp
  refine .after fun spaces _ => (updatePlayerNetWorth_bare _ _ _).seq fun q hq => ?_
  refine (assignPlayer_view (g := credit delta) bare_id hids (mem_seatsOf hmem) rfl hq).seq
    fun players hplayers => ?_
  exact (refreshAllNetWorth_bare _ _ _).seq fun _ h => h.trans hplayers

theorem buildHouse_credits (hids : (s.players.map (·.id)).Nodup) :
    Ensures (buildHouse s pid pos) fun s' => s'.seats =
      editSeat pid (credit (-((squareAt s.gameMode pos).houseCost.getD 0 : Nat))) s.seats := by
  refine .after fun _ _ => .after fun _ _ => .after fun p hp => .after fun o _ => ?_
  refine .after fun space hspace => ?_
  obtain rfl := getBoardSpace_square hspace
  simp only [sat_ite]
  exact ⟨fun _ => (updateHolding_credits hids hp _ _ _).seq fun _ h => h,
    fun _ => (updateHolding_credits hids hp _ _ _).seq fun _ h => h⟩

theorem sellHouse_credits (hids : (s.players.map (·.id)).Nodup) :
    Ensures (sellHouse s pid pos) fun s' => s'.seats =
      editSeat pid (credit ((squareAt s.gameMode pos).houseCost.getD 0 / 2 : Nat)) s.seats := by
  refine .after fun _ _ => .after fun _ _ => .after fun p hp => .after fun o _ => ?_
  refine .after fun space hspace => ?_
  obtain rfl := getBoardSpace_square hspace
  simp only [sat_ite]
  exact ⟨fun _ => (updateHolding_credits hids hp _ _ _).seq fun _ h => h,
    fun _ => (updateHolding_credits hids hp _ _ _).seq fun _ h => h⟩

theorem mortgageProperty_credits (hids : (s.players.map (·.id)).Nodup) :
    Ensures (mortgageProperty s pid pos) fun s' => s'.seats =
      editSeat pid (credit ((squareAt s.gameMode pos).mortgageValue.getD 0 : Nat)) s.seats := by
  refine .after fun _ _ => .after fun _ _ => .after fun p hp => .after fun space hspace => ?_
  obtain rfl := getBoardSpace_square hspace
  exact .after fun o _ => updateHolding_credits hids hp _ _ _

theorem unmortgageProperty_credits (hids : (s.players.map (·.id)).Nodup) :
    Ensures (unmortgageProperty s pid pos) fun s' => s'.seats = editSeat pid
      (credit (-(unmortgageCost ((squareAt s.gameMode pos).mortgageValue.getD 0) : Int)))
      s.seats := by
  refine .after fun _ _ => .after fun _ _ => .after fun p hp => .after fun space hspace => ?_
  obtain rfl := getBoardSpace_square hspace
  exact .after fun o _ => updateHolding_credits hids hp _ _ _

theorem dispatch_rework_posts (hs : Sound s) (hpid : Seated s pid)
    (hcommand : command.rework = some (pid, pos)) : Ensures (dispatch s command env) fun r =>
      Posted s (commandPayments s env command) r.1.1 := by
  have hids := hs.playerIds
  have hpaid {m : GameState} {amount : Int}
      (hseats : m.seats = editSeat pid (credit (-amount)) s.seats) :
      Posted s [⟨some pid, none, amount⟩] m :=
    .toBank (f := credit (-amount)) hs hseats (fun _ => rfl) hpid fun p => by
      simp only [credit]
      omega
  cases command <;> simp only [GameCommand.rework, reduceCtorEq, Option.some.injEq,
    Prod.mk.injEq] at hcommand
  case buildHouse =>
    obtain ⟨rfl, rfl⟩ := hcommand
    exact sat_map.mpr (.guard fun _ => (buildHouse_credits hids).seq fun _ h => hpaid h)
  case sellHouse =>
    obtain ⟨rfl, rfl⟩ := hcommand
    exact sat_map.mpr (.guard fun _ => (sellHouse_credits hids).seq fun _ h => .ofBank hs h hpid)
  case mortgage =>
    obtain ⟨rfl, rfl⟩ := hcommand
    exact sat_map.mpr (.guard fun _ =>
      (mortgageProperty_credits hids).seq fun _ h => .ofBank hs h hpid)
  case unmortgage =>
    obtain ⟨rfl, rfl⟩ := hcommand
    exact sat_map.mpr (.guard fun _ => (unmortgageProperty_credits hids).seq fun _ h => hpaid h)

theorem Executed.posts (hs : Sound s) {trade : TradeState} (htrade : s.trade = some trade)
    (hformed : TradeFormed s trade) (hexec : Executed s trade m) :
    Posted s (tradePayments s) m := by
  cases hexec with
  | mk _ _ hps =>
      rw [tradePayments, htrade]
      refine .map hs hps (swapSeat_id trade) ?_ fun p _ => ?_
      · simp [mem_parties, hformed.proposer, hformed.target]
      · have hne := hformed.distinct
        simp only [swapSeat, net_cons, net_nil, gain, Option.some.injEq]
        split
        · rename_i hid
          simp only [hid, hne, if_false]
          omega
        · split
          · simp only []
            omega
          · simp

theorem AfterElimination.posts {payments : List (Payment (Option PlayerId))}
    (h : Posted s payments e) (ha : AfterElimination e m) : Posted s payments m := by
  have hsame : m.seats = e.seats := by
    rw [ha.frame]
    rfl
  simpa using h.trans (.same hsame)

/-- What the handlers of all commands but a roll and the building commands
pay. -/
theorem Dispatched.posts (hw : WellFormed s) (hmay : MayAct s command)
    (hroll : ∀ pid, command ≠ .rollDice pid) (hrework : command.rework = none)
    (hd : Dispatched s env command m) : Posted s (commandPayments s env command) m := by
  have hs := hw.toSound
  cases hd with
  | rolled => exact absurd rfl (hroll _)
  | bought _ _ _ hprice hp _ hps =>
      simp only [commandPayments, hprice, Option.getD_some]
      exact .toBank (f := purchase _ _) hs hps (fun _ => rfl) ⟨_, hp, rfl⟩ fun _ => rfl
  | passed _ _ | ended _ _ _ _ _ => exact .same rfl
  | bailed _ hp _ _ hps =>
      simp only [commandPayments]
      exact .toBank (f := bail _) hs hps (fun _ => rfl) ⟨_, hp, rfl⟩ fun _ => rfl
  | cardSpent _ hp _ _ hps =>
      simp only [commandPayments]
      exact .edit (f := spendJailCard) hs hps (fun _ => rfl) ⟨_, hp, rfl⟩ among_nil
        fun _ _ _ => by simp [spendJailCard]
  | reworked hcommand => rw [hcommand] at hrework; cases hrework
  | proposed _ hprop => cases hprop; exact .same rfl
  | responded hresp =>
      cases hresp with
      | rejected _ _ | countered _ _ _ _ => exact .same rfl
      | accepted htrade _ _ hexec => exact hexec.posts hs htrade (hw.trades _ htrade)
  | bid hbid => cases hbid; exact .same rfl
  | bankrupted hdebt hdebtor hdm hl ha =>
      exact AfterElimination.posts (hl.posts hs hdebt (hw.debts _ hdebt) hdebtor hdm) ha
  | surrendered hp _ hsurr ha => exact AfterElimination.posts (hsurr.posts hs hp) ha
  | auctionIdle hidle =>
      simp only [commandPayments, hidle, Bool.false_eq_true, if_false]
      exact .same rfl
  | auctioned hdue hauction hr =>
      simp only [commandPayments, hdue, if_true, auctionPayments, hauction]
      cases hr with
      | unsold hnobody hps =>
          simp only [hnobody]
          exact .same hps
      | sold hbidder hps =>
          simp only [hbidder]
          exact .toBank (f := award _ _) hs hps (fun _ => rfl)
            ((hw.auctions _ hauction).bidder _ hbidder) fun _ => rfl
  | tradeIdle _ | tradeLapsed _ _ => exact .same rfl
  | timerIdle hidle =>
      have hnot : ¬ ForcedOut s env.clock.nowMs := fun h => by simp [h.1] at hidle
      rw [commandPayments, if_neg hnot]
      exact .same rfl
  | timerSkipped _ hp hid hmax hps ht =>
      have hnot : ¬ ForcedOut s env.clock.nowMs := fun h => by
        have := (h.current hw.playerIds hp hid).1
        omega
      rw [commandPayments, if_neg hnot]
      refine .same ?_
      cases ht <;> exact hps
  | timerSpent _ hp hid _ hout hps =>
      have hnot : ¬ ForcedOut s env.clock.nowMs := fun h => by
        simp [(h.current hw.playerIds hp hid).2] at hout
      rw [commandPayments, if_neg hnot]
      exact .same hps
  | @timerForced p _ _ hdue hp hid hmax hact hsurr ha =>
      have hshared := AfterElimination.posts (hsurr.posts hs (mem_seats hp)) ha
      rw [commandPayments, if_pos ⟨hdue, p, hp, hid, hmax, hact⟩, ← hid]
      exact hshared

/-- The handlers leave the pending debt, but for a roll and a bankruptcy. -/
theorem Dispatched.keepsDebt (hroll : ∀ pid, command ≠ .rollDice pid)
    (hbankrupt : ∀ pid, command ≠ .declareBankruptcy pid) (hd : Dispatched s env command m) :
    m.bankruptcy = s.bankruptcy := by
  cases hd with
  | rolled => exact absurd rfl (hroll _)
  | bankrupted => exact absurd rfl (hbankrupt _)
  | reworked _ _ hr => cases hr; rfl
  | proposed _ hprop => cases hprop; rfl
  | responded hresp =>
      cases hresp with
      | accepted _ _ _ hexec => cases hexec; rfl
      | _ => rfl
  | bid hbid => cases hbid; rfl
  | surrendered _ _ hsurr ha | timerForced _ _ _ _ _ hsurr ha =>
      rw [ha.frame]
      cases hsurr
      rfl
  | auctioned _ _ hr => cases hr <;> rfl
  | timerSkipped _ _ _ _ _ ht => cases ht <;> rfl
  | _ => rfl

end Handlers

end Monopoly
