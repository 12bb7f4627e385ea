import Monopoly.Laws.CashLedger
import Monopoly.Spec.Bookings

/-!
# Monopoly.Laws.BankBook

The book of a whole game.  Every call pays what `bookOf` lists, so the cash
of every player is the starting balance and what the calls so far have paid,
and what the players have gained together the bank has paid out.
-/

namespace Monopoly

open Payment

/-! ## the payments of a roll -/

/-- The events a call returns. -/
def eventsOf (s : GameState) (call : Call) : List GameEvent :=
  match apply s call.command call.env with
  | .ok r => r.1.2
  | .error _ => []

/-- Everybody else in the game, for the each-player cards of `r`. -/
def othersOf (s : GameState) (r : PlayerId) : List PlayerState :=
  s.players.filter (isRecipient r)

/-- What an event of the roll of `r` pays, when `debt` is pending after the
roll: a card that charges `r` is paid unless the debt is its charge. -/
def GameEvent.payments (goSalary : Int) (s : GameState) (r : PlayerId)
    (debt : Option BankruptcyState) : GameEvent → List (Payment (Option PlayerId))
  | .passedGo .. => [⟨none, some r, goSalary⟩]
  | .taxPaid _ _ _ amount => [⟨some r, none, amount⟩]
  | .rentPaid _ _ ownerId _ _ _ amount => [⟨some r, some ownerId, amount⟩]
  | .cardDrawn _ _ cardId _ =>
      match effectOf cardId with
      | some (.collect amount) => [⟨none, some r, amount⟩]
      | some (.collectFromEachPlayer amount) =>
          (othersOf s r).map fun p => ⟨some p.id, some r, min (amount : Int) p.balance⟩
      | some (.payEachPlayer amount) =>
          (othersOf s r).map fun p => ⟨some r, some p.id, amount⟩
      | some effect =>
          match cardCharge s r effect with
          | some due => if debt = some ⟨r, none, due⟩ then [] else [⟨some r, none, due⟩]
          | none => []
      | none => []
  | _ => []

/-- What a roll pays: the bail of the third failed roll, and what its events
say. -/
def rollPayments (s : GameState) (call : Call) (r : PlayerId) (debt : Option BankruptcyState) :
    List (Payment (Option PlayerId)) :=
  (match s.seat? r with
    | some p => [⟨some r, none, bailDue s p call.env.rng call.env.jailFine⟩]
    | none => []) ++
  (eventsOf s call).flatMap (GameEvent.payments call.env.goSalary s r debt)

/-- What an accepted call pays, the settlement of a pending debt at its end
included. -/
def bookOf (t : Taken GameState Call) : List (Payment (Option PlayerId)) :=
  (match t.label.command with
    | .rollDice r => rollPayments t.before t.label r t.after.bankruptcy
    | command => commandPayments t.before t.label.env command) ++
  settlement t.before t.after t.label.command

section Rolls

variable {s s' : GameState} {r : PlayerId} {goSalary income : Int} {e : GameEvent}
  {events : List GameEvent} {debt : Option BankruptcyState} {p q : PlayerState} {call : Call}

theorem keys_othersOf (hids : (s.players.map (·.id)).Nodup) (r : PlayerId) :
    ((othersOf s r).map fun p => some p.id).Nodup := by
  have hsub : ((othersOf s r).map (·.id)).Nodup := hids.sublist (List.filter_sublist.map _)
  have hsome := hsub.map (Option.some_injective _)
  rwa [List.map_map] at hsome

theorem mem_othersOf : q ∈ othersOf s r ↔ q ∈ s.players ∧ q.id ≠ r ∧ q.isBankrupt = false := by
  simp [othersOf, isRecipient]

/-- The each-player cards are between `r` and the others. -/
theorem among_others (s : GameState) (r : PlayerId) (f : PlayerState → Int) :
    Among (some r :: (othersOf s r).map fun p => some p.id)
      ((othersOf s r).map fun p => ⟨some p.id, some r, f p⟩) ∧
    Among (some r :: (othersOf s r).map fun p => some p.id)
      ((othersOf s r).map fun p => ⟨some r, some p.id, f p⟩) := by
  constructor
  all_goals
    intro t ht
    obtain ⟨p, hp, rfl⟩ := List.mem_map.mp ht
    have hmem : some p.id ∈ (othersOf s r).map fun p => some p.id :=
      List.mem_map.mpr ⟨p, hp, rfl⟩
    simp [hmem]

/-- Nobody but `r` and the others in the game has a part in them. -/
theorem off_others {k : Option PlayerId} (hr : k ≠ some r)
    (hk : ∀ q ∈ othersOf s r, k ≠ some q.id) :
    k ∉ some r :: (othersOf s r).map fun p => some p.id := by
  simp only [List.mem_cons, List.mem_map, not_or, not_exists, not_and]
  exact ⟨hr, fun q hq heq => hk q hq heq.symm⟩

/-- An event pays the other players what it says. -/
theorem net_payments_other (hids : (s.players.map (·.id)).Nodup) (hq : q ∈ s.players)
    (hne : q.id ≠ r) (e : GameEvent) :
    net (some q.id) (e.payments goSalary s r debt) = e.paysTo q := by
  have hout (hbroke : q.isBankrupt = true) :
      some q.id ∉ some r :: (othersOf s r).map fun p => some p.id := by
    refine off_others (by simpa using hne) fun x hx heq => ?_
    obtain ⟨hx', -, hactive⟩ := mem_othersOf.mp hx
    obtain rfl := eq_of_key_eq PlayerState.id hids hq hx' (Option.some.inj heq)
    rw [hbroke] at hactive
    cases hactive
  have hin (hactive : q.isBankrupt = false) : q ∈ othersOf s r :=
    mem_othersOf.mpr ⟨hq, hne, hactive⟩
  have hkey : (fun p : PlayerState => some p.id) q ≠ some r := by simpa using hne
  cases e with
  | cardDrawn _ _ cardId _ =>
      simp only [GameEvent.payments, GameEvent.paysTo]
      cases heffect : effectOf cardId with
      | none => rfl
      | some effect =>
          cases effect with
          | collectFromEachPlayer amount =>
              cases hbroke : q.isBankrupt with
              | true => simp [net_off (among_others s r _).1 (hout hbroke)]
              | false =>
                  simp only [Bool.false_eq_true, if_false]
                  exact net_payers (keys_othersOf hids r) (hin hbroke) hkey
                    fun p => min (amount : Int) p.balance
          | payEachPlayer amount =>
              cases hbroke : q.isBankrupt with
              | true => simp [net_off (among_others s r _).2 (hout hbroke)]
              | false =>
                  simp only [Bool.false_eq_true, if_false]
                  exact net_payees (keys_othersOf hids r) (hin hbroke) hkey fun _ => (amount : Int)
          | pay _ | repairs _ _ =>
              simp only [cardCharge]
              split <;> simp [gain, hne]
          | _ => simp [gain, hne, cardCharge]
  | rentPaid =>
      simp only [GameEvent.payments, GameEvent.paysTo, net_cons, net_nil, gain, Option.some.injEq,
        hne, if_false, Int.add_zero]
      exact if_congr eq_comm rfl rfl
  | _ => simp [GameEvent.payments, GameEvent.paysTo, gain, hne]

/-- An event pays the bank what it takes from it. -/
theorem net_payments_bank (e : GameEvent) :
    net none (e.payments goSalary s r debt) = -e.fromBank goSalary s r debt := by
  have hout : none ∉ some r :: (othersOf s r).map fun p => some p.id :=
    off_others (by simp) (by simp)
  cases e with
  | cardDrawn _ _ cardId _ =>
      simp only [GameEvent.payments, GameEvent.fromBank]
      cases heffect : effectOf cardId with
      | none => rfl
      | some effect =>
          cases effect with
          | collectFromEachPlayer amount =>
              simp [net_off (among_others s r _).1 hout, cardCharge]
          | payEachPlayer amount => simp [net_off (among_others s r _).2 hout, cardCharge]
          | pay _ | repairs _ _ =>
              simp only [cardCharge]
              split <;> simp [gain]
          | _ => simp [gain, cardCharge]
  | _ => simp [GameEvent.payments, GameEvent.fromBank, gain]

/-- An event pays players of the game and the bank. -/
theorem among_payments (hs : Sound s) (hr : Seated s r) (hrent : e.RentBy s r) :
    Among s.parties (e.payments goSalary s r debt) := by
  have hroller : some r ∈ s.parties := mem_parties.mpr hr
  have hothers : ∀ k ∈ some r :: (othersOf s r).map fun p => some p.id, k ∈ s.parties := by
    simp only [List.mem_cons, List.mem_map, forall_eq_or_imp, forall_exists_index, and_imp,
      forall_apply_eq_imp_iff₂]
    exact ⟨hroller, fun q hq => mem_parties.mpr (seated_of_mem (mem_othersOf.mp hq).1)⟩
  have hwiden {payments : List (Payment (Option PlayerId))}
      (h : Among (some r :: (othersOf s r).map fun p => some p.id) payments) :
      Among s.parties payments := fun t ht => ⟨hothers _ (h t ht).1, hothers _ (h t ht).2⟩
  cases e with
  | rentPaid _ _ ownerId _ _ _ _ =>
      obtain ⟨-, -, o, ho, howner⟩ := hrent
      obtain ⟨p, hp, hid, -⟩ := hs.titles o ho ownerId howner
      simp [GameEvent.payments, hroller, mem_parties.mpr ⟨p, hp, hid⟩]
  | cardDrawn _ _ cardId _ =>
      simp only [GameEvent.payments]
      cases heffect : effectOf cardId with
      | none => simp
      | some effect =>
          cases effect with
          | collectFromEachPlayer amount => exact hwiden (among_others s r _).1
          | payEachPlayer amount => exact hwiden (among_others s r _).2
          | pay _ | repairs _ _ =>
              simp only [cardCharge]
              split <;> simp [hroller, bank_mem_parties]
          | _ => simp [hroller, bank_mem_parties, cardCharge]
  | _ => simp [GameEvent.payments, hroller, bank_mem_parties]

theorem net_flatMap {ts : List GameEvent} {f : GameEvent → List (Payment (Option PlayerId))}
    (k : Option PlayerId) : net k (ts.flatMap f) = (ts.map fun e => net k (f e)).sum := by
  induction ts with
  | nil => rfl
  | cons e rest ih => simp [ih]

theorem net_bank_events :
    net none (events.flatMap (GameEvent.payments goSalary s r debt)) =
      -bankTotal goSalary s r debt events := by
  induction events with
  | nil => rfl
  | cons e rest ih =>
      simp only [List.flatMap_cons, net_append, ih, net_payments_bank, bankTotal, List.map_cons,
        List.sum_cons]
      omega

theorem nodup_parties (hs : Sound s) : s.parties.Nodup := by
  have hsome := hs.ids.map (Option.some_injective _)
  rw [List.map_map] at hsome
  exact List.nodup_cons.mpr ⟨by simp, hsome⟩

/-- What the players have gained by payments among the parties. -/
theorem sum_net_players (hs : Sound s) {payments : List (Payment (Option PlayerId))}
    (hamong : Among s.parties payments) :
    (s.players.map fun p => net (some p.id) payments).sum = -net none payments := by
  have hgained := sum_net_others (nodup_parties hs) hamong
  rwa [GameState.seats, seatsOf, List.map_map, List.map_map] at hgained

/-- A roll that is booked is posted: everybody has gained what the payments
say, the player who rolled what is left over. -/
theorem Booked.posts (hs : Sound s) (hp : p ∈ s.players) {rng : Rng} {jailFine : Int}
    (hb : Booked p.id (bankTotal goSalary s p.id debt events - bailDue s p rng jailFine) s events
      s') :
    Posted s (⟨some p.id, none, bailDue s p rng jailFine⟩ ::
      events.flatMap (GameEvent.payments goSalary s p.id debt)) s' := by
  set payments := (⟨some p.id, none, bailDue s p rng jailFine⟩ : Payment (Option PlayerId)) ::
    events.flatMap (GameEvent.payments goSalary s p.id debt) with hpayments
  have hids := hs.playerIds
  have hroller : Seated s p.id := seated_of_mem hp
  have hamong : Among s.parties payments := by
    refine among_cons.mpr ⟨⟨mem_parties.mpr hroller, bank_mem_parties⟩, fun t ht => ?_⟩
    obtain ⟨e, he, ht⟩ := List.mem_flatMap.mp ht
    exact among_payments hs hroller (hb.rents e he) t ht
  have hothers (q : PlayerState) (hq : q ∈ s.players) (hne : q.id ≠ p.id) :
      net (some q.id) payments = paidTo p.id events q := by
    rw [hpayments, net_cons, net_flatMap, paidTo, if_neg hne,
      List.map_congr_left fun e _ => net_payments_other hids hq hne e]
    simp [gain, hne]
  -- what is left over for the player who rolled
  have hown : net (some p.id) payments = bankTotal goSalary s p.id debt events -
      bailDue s p rng jailFine - (s.players.map (paidTo p.id events)).sum := by
    have hsplit : ∀ q ∈ s.players, net (some q.id) payments =
        paidTo p.id events q + if q.id = p.id then net (some p.id) payments else 0 := by
      intro q hq
      by_cases hid : q.id = p.id
      · simp [hid, paidTo]
      · simp [hid, hothers q hq hid]
    have hbank : net none payments =
        bailDue s p rng jailFine - bankTotal goSalary s p.id debt events := by
      rw [hpayments, net_cons, net_bank_events]
      simp only [gain, reduceCtorEq, if_false, if_true]
      omega
    have hsum := sum_net_players hs hamong
    rw [List.map_congr_left hsplit, List.sum_map_add, sum_at_key PlayerState.id hids hp,
      hbank] at hsum
    omega
  have hshares : (s.accounts.map (paidTo p.id events)).sum =
      (s.players.map (paidTo p.id events)).sum := by
    rw [GameState.accounts, accountsOf, List.map_map]
    exact congrArg List.sum (List.map_congr_left fun q _ => paidTo_account p.id events q)
  have hkept : s'.seats.map (·.id) = s.seats.map (·.id) := by
    have hmap : s'.accounts.map (·.id) = s.accounts.map (·.id) := by
      rw [hb.accounts, List.map_map]
      rfl
    rw [GameState.accounts, ids_accountsOf, GameState.accounts, ids_accountsOf] at hmap
    rw [GameState.seats, ids_seatsOf, hmap, GameState.seats, ids_seatsOf]
  refine ⟨hkept, hamong, fun pid => ?_⟩
  by_cases hpid : Seated s pid
  · obtain ⟨q, hq, rfl⟩ := hpid.player
    rw [hb.cash hids hq, hs.cash_eq hq, entry, paidTo_account, account_id, hshares]
    by_cases hid : q.id = p.id
    · rw [if_pos hid, hid, hown, paidTo, if_pos hid]
      omega
    · rw [if_neg hid, hothers q hq hid, Int.add_zero]
  · have hoff {a : GameState} (h : ¬Seated a pid) : a.cash pid = 0 := by
      rw [GameState.cash, GameState.seat?, find?_key_eq_none.mpr fun x hx hid => h ⟨x, hx, hid⟩]
      rfl
    have hpid' : ¬Seated s' pid := by
      rw [← mem_parties, parties_eq hkept, mem_parties]
      exact hpid
    rw [hoff hpid, hoff hpid', net_off hamong fun h => hpid (mem_parties.mp h), Int.add_zero]

end Rolls

/-! ## every call -/

section Calls

variable {s m n s' : GameState} {call : Call} {env : Env} {command : GameCommand}
  {payments : List (Payment (Option PlayerId))}

theorem settlement_congr (h : m.bankruptcy = s.bankruptcy) (h' : n.bankruptcy = s'.bankruptcy)
    (command : GameCommand) : settlement m n command = settlement s s' command := by
  cases command <;> simp [settlement, h, h']

theorem settlement_free (h : s.bankruptcy = none) (command : GameCommand) :
    settlement s s' command = [] := by
  cases command <;> simp [settlement, h]

theorem settlement_kept (h : s'.bankruptcy = s.bankruptcy) (command : GameCommand) :
    settlement s s' command = [] := by
  cases hdebt : s.bankruptcy with
  | none => exact settlement_free hdebt command
  | some debt => cases command <;> simp [settlement, h, hdebt]

theorem Settled.posts (hw : WellFormed m) (hcommand : ∀ pid, command ≠ .declareBankruptcy pid)
    (hsettled : Settled m n) : Posted m (settlement m n command) n := by
  cases hsettled with
  | free _ | owing _ _ => exact settlement_kept (s := m) rfl command ▸ .same rfl
  | @paid debt ps hdebt _ hps =>
      have hsettlement : settlement m { m with
          players := ps, bankruptcy := none, turn := { m.turn with phase := .postRoll } } command =
          [⟨some debt.debtorId, debt.creditorId, debt.amountOwed⟩] := by
        cases command <;> first | exact absurd rfl (hcommand _) | simp [settlement, hdebt]
      have hformed := hw.debts debt hdebt
      rw [hsettlement]
      refine .map hw.toSound hps (fun _ => rfl) ?_ fun p _ => ?_
      · cases hcreditor : debt.creditorId with
        | none => simp [mem_parties, hformed.debtor, bank_mem_parties]
        | some c => simp [mem_parties, hformed.debtor, (hformed.creditor c hcreditor).1]
      · have hflip : (some p.id = debt.creditorId) = (debt.creditorId = some p.id) :=
          propext eq_comm
        simp only [transfer, net_cons, net_nil, gain, Option.some.injEq, hflip]
        split <;> split <;> omega

/-- A bankruptcy leaves no debt to settle. -/
theorem Dispatched.clearsDebt {pid : PlayerId}
    (hd : Dispatched s env (.declareBankruptcy pid) m) : m.bankruptcy = none := by
  cases hd with
  | reworked hcommand => cases hcommand
  | bankrupted _ _ _ hl ha =>
      rw [ha.frame]
      cases hl <;> rfl

/-- What the handlers of all commands but a roll do to the cash. -/
theorem dispatch_posts (hw : WellFormed s) (hl : Live s) (hmay : MayAct s command)
    (hroll : ∀ pid, command ≠ .rollDice pid) :
    Ensures (dispatch s command env) fun r => Dispatched s env command r.1.1 ∧
      Posted s (commandPayments s env command) r.1.1 := by
  refine ensures_iff.mpr fun r hr => ?_
  have hd := (dispatch_sat hw hl hmay).of_ok hr
  refine ⟨hd, ?_⟩
  cases hrework : command.rework with
  | none => exact hd.posts hw hmay hroll hrework
  | some x =>
      obtain ⟨pid, pos⟩ := x
      have hsender : command.player = some pid ∧ command.isReply = false := by
        cases command <;> simp_all [GameCommand.rework, GameCommand.player, GameCommand.isReply]
      have hseated : Seated s pid := hmay pid hsender.1 hsender.2 ▸ hw.current
      exact (dispatch_rework_posts hw.toSound hseated hrework).of_ok hr

/-- An accepted call changes the cash by what it books; a roll, when no debt
is pending. -/
theorem Accepted.books (hw : WellFormed s) (hl : Live s) (h : Accepted s call s')
    (hfree : ∀ r, call.command = .rollDice r → s.bankruptcy = none) :
    Posted s (bookOf ⟨s, call, s'⟩) s' := by
  obtain ⟨hmay, -⟩ := h.stepped hw hl
  obtain ⟨-, m, events, rng, hdispatch, hfinish⟩ := h.handled
  obtain ⟨command, env⟩ := call
  by_cases hroll : ∃ r, command = .rollDice r
  · obtain ⟨r, rfl⟩ := hroll
    obtain ⟨events, rng, happly⟩ := h
    obtain ⟨p, hp, rfl, hb⟩ := apply_rollDice_books hw.playerIds (hfree r rfl) happly
    have hevents : eventsOf s ⟨.rollDice p.id, env⟩ = events := by
      rw [eventsOf, happly]
    have hseat : s.seat? p.id = some p.bare := hw.seat?_eq (mem_seats hp)
    simp only [bookOf, rollPayments, hseat, hevents, settlement_free (hfree p.id rfl),
      List.append_nil]
    exact hb.posts hw.toSound hp
  · have hnot : ∀ r, command ≠ .rollDice r := fun r heq => hroll ⟨r, heq⟩
    obtain ⟨hd, hposted⟩ := (dispatch_posts hw hl hmay hnot).of_ok hdispatch
    have hbook : bookOf ⟨s, ⟨command, env⟩, s'⟩ =
        commandPayments s env command ++ settlement s s' command := by
      cases command <;> first | exact absurd rfl (hnot _) | rfl
    have hw' := hd.wellFormed hw
    have hend := (finishCommand_sat hw' (hd.live hw hl hmay) events).of_ok hfinish
    rw [hbook]
    split at hend
    · rename_i hreply
      have hkept : s'.bankruptcy = s.bankruptcy :=
        hend.bankruptcy.trans (hd.keepsDebt hnot fun pid heq => by
          simp [heq, GameCommand.isReply] at hreply)
      rw [settlement_kept hkept, List.append_nil]
      exact hposted.tidied hend
    · obtain ⟨n, hsettled, htidy⟩ := hend
      by_cases hbankrupt : ∃ pid, command = .declareBankruptcy pid
      · obtain ⟨pid, rfl⟩ := hbankrupt
        have hsame : n = m := by
          cases hsettled with
          | free _ | owing _ _ => rfl
          | paid hdebt _ _ => rw [hd.clearsDebt] at hdebt; cases hdebt
        subst hsame
        simpa [settlement] using hposted.tidied htidy
      · have hnot' : ∀ pid, command ≠ .declareBankruptcy pid := fun pid heq => hbankrupt ⟨pid, heq⟩
        have hpaid := hposted.trans (hsettled.posts hw' hnot')
        rw [settlement_congr (hd.keepsDebt hnot hnot') htidy.bankruptcy.symm] at hpaid
        exact hpaid.tidied htidy

end Calls

/-! ## every run -/

section Runs

variable {h : List (Taken GameState Call)} {s : GameState} {args : NewGame}

/-- The balance every player starts with. -/
def NewGame.opening (args : NewGame) : Int :=
  playerStartingBalance (getGameConfig args.gameMode) args.startingBalance

/-- Nobody rolls while a debt is pending. -/
def RollsDebtFree (s : GameState) (call : Call) : Prop :=
  ∀ r, call.command = .rollDice r → s.bankruptcy = none

/-- **The bank's book.** In a game in which nobody rolls while a debt is
pending, all payments are between the players and the bank, every balance is
the opening balance and what the payments say, and what the players have
together is what they opened with, less what they have paid the bank on
balance. -/
theorem books_balance (hrun : Run (Opens args) Accepted h s)
    (hrolls : ∀ t ∈ h, RollsDebtFree t.before t.label) :
    Among (none :: s.players.map fun p => some p.id) (ledger bookOf h) ∧
    (∀ p ∈ s.players, p.balance = args.opening + net (some p.id) (ledger bookOf h)) ∧
    (s.players.map (·.balance)).sum =
      s.players.length * args.opening - net none (ledger bookOf h) := by
  have hplay {h : List (Taken GameState Call)} {s : GameState}
      (hrun : Run (Opens args) Accepted h s) : Play h s :=
    hrun.weaken fun _ hopens => ⟨args, hopens⟩
  obtain ⟨s₀, hopens, hposted⟩ := Run.posts (R := Posted) (fun _ => .same rfl)
    (fun _ _ _ _ _ hfirst hthen => hfirst.trans hthen)
    (fun h s call s' hrun hfree ha => ha.books (Play.formed (hplay hrun)).1
      (Play.formed (hplay hrun)).2 hfree) hrun hrolls
  have hs := (Play.formed (hplay hrun)).1.toSound
  have hamong : Among s.parties (ledger bookOf h) := by
    rw [parties_eq hposted.ids]
    exact hposted.among
  have hbalance (p : PlayerState) (hp : p ∈ s.players) :
      p.balance = args.opening + net (some p.id) (ledger bookOf h) := by
    have hseated : Seated s₀ p.id := by
      rw [← mem_parties, ← parties_eq hposted.ids, mem_parties]
      exact seated_of_mem hp
    obtain ⟨q, hq, hid⟩ := hseated
    rw [← hs.cash_eq hp, hposted.cash, ← hid, hopens.fresh.wellFormed.cash_seat hq,
      (hopens.fresh.seats q hq).2.1]
    rfl
  have hparties : s.parties = none :: s.players.map fun p => some p.id := by
    rw [GameState.parties, GameState.seats, seatsOf, List.map_map]
    rfl
  refine ⟨hparties ▸ hamong, hbalance, ?_⟩
  rw [List.map_congr_left hbalance, List.sum_map_add, sum_net_players hs hamong]
  simp [Int.sub_eq_add_neg]

/-- Player `1` pays the income tax, and player `2` buys a property. -/
def taxAndPurchase : List Call :=
  [callAt 0 [0, 2] (.rollDice 1),
    callAt 0 [] (.endTurn 1),
    callAt 0 [0, 1] (.rollDice 2),
    callAt 0 [] (.buyProperty 2 4)]

/-- The bank has received `200` of tax and `60` for the property. -/
theorem books_balance_tax_and_purchase : ∃ h s, Run (Opens (duo 1500)) Accepted h s ∧
    h.reverse.map (·.label) = taxAndPurchase ∧ (s.players.map (·.balance)).sum = 3000 - 260 := by
  obtain ⟨h, s, hrun, hlabels, hcheck⟩ := run_of_reaches (Opens (duo 1500)) (duo 1500)
    taxAndPurchase (fun h s => decide (s.players.length = 2 ∧ net none (ledger bookOf h) = 260 ∧
      ∀ t ∈ h, t.before.bankruptcy = none)) (fun _ hopens => hopens) (by decide)
    (by decide +kernel)
  obtain ⟨hlength, hbank, hfree⟩ := of_decide_eq_true hcheck
  refine ⟨h, s, hrun, hlabels, ?_⟩
  have hsum := (books_balance hrun fun t ht _ _ => hfree t ht).2.2
  rw [hlength, hbank] at hsum
  exact hsum

end Runs

end Monopoly
