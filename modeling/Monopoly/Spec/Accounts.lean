import Monopoly.Spec.Landing
import Monopoly.Spec.Stock

/-!
# Monopoly.Spec.Accounts

The cash of the players under the operations of a landing.  Nothing but
distinct ids is assumed of the table: an operation that returns has moved the
money it was asked to move, or has opened a debt.

An account is a player with everything left out that money does not depend
on.  Two relations carry the arithmetic of a roll.  `Deposited r a s s'` says
that the cash of `r` has grown by `a` and that no other account, no space and
no debt has changed; it composes by addition, so a chain of salaries and card
gifts is one deposit.  `Charged` is the outcome of a charge: paid in full,
turned into a debt, or dropped because another debt is pending.

The code writes a player back at the index where it was found.  That this is
an edit of the account is said once, for any view of a player
(`assignPlayer_view`, `putPlayer_view`).
-/

namespace Monopoly

/-- A player as the money sees them: where they stand and what they hold
against the jail is left out. -/
def PlayerState.account (p : PlayerState) : PlayerState :=
  { p.bare with position := 0, getOutOfJailCards := 0, jailStatus := none }

/-- The accounts of the players, in the order of the table. -/
def accountsOf (players : List PlayerState) : List PlayerState := players.map PlayerState.account

/-- The accounts of a state. -/
def GameState.accounts (s : GameState) : List PlayerState := accountsOf s.players

/-! ## assigning a record -/

section Records

variable {players : List PlayerState} {p q v : PlayerState} {pid : PlayerId}
  {spaces : List SpaceOwnership} {mode : GameMode} {view g : PlayerState → PlayerState}

@[simp] theorem account_id (p : PlayerState) : p.account.id = p.id := rfl

@[simp] theorem accountsOf_cons (p : PlayerState) (players : List PlayerState) :
    accountsOf (p :: players) = p.account :: accountsOf players := rfl

/-- A seat settles its account. -/
theorem account_eq_of_bare (h : q.bare = p.bare) : q.account = p.account := by
  show q.bare.account = p.bare.account
  rw [h]

/-- An account says whose it is. -/
theorem id_eq_of_account (h : q.account = p.account) : q.id = p.id := by
  rw [← account_id q, h, account_id]

/-- The accounts have the ids of the players, in their order. -/
theorem ids_accountsOf (players : List PlayerState) :
    (accountsOf players).map (·.id) = players.map (·.id) := by
  simp [accountsOf]

/-- The accounts can be read off the seats. -/
theorem accountsOf_seatsOf (players : List PlayerState) :
    accountsOf (seatsOf players) = accountsOf players := by
  simp only [accountsOf, seatsOf, List.map_map]
  rfl

/-- Assigning a record at the index of `p` edits every view of the players that
shows their ids. -/
theorem map_set_eq_editSeat (hview : ∀ p, (view p).id = p.id)
    (hids : (players.map (·.id)).Nodup) {i : Nat} (hi : players[i]? = some p)
    (hv : view v = g (view p)) :
    (players.set i v).map view = editSeat p.id g (players.map view) := by
  have hedit : (editAt (·.id) p.id (fun _ => v) players).map view =
      editSeat p.id (fun _ => view v) (players.map view) := by
    simp only [editSeat, editAt, List.map_map, List.map_inj_left, Function.comp, hview]
    intro q _
    by_cases hq : q.id = p.id <;> simp [hq]
  have hmem : view p ∈ players.map view := List.mem_map_of_mem (List.mem_of_getElem? hi)
  have hids' : ((players.map view).map (·.id)).Nodup := by
    simpa only [List.map_map, Function.comp_def, hview] using hids
  rw [set_eq_editAt (·.id) hids hi fun _ => v, hedit, ← hview p]
  exact editAt_congr PlayerState.id hids' hmem hv

/-- Seen through any view that keeps the ids, writing a player back is an edit
of theirs. -/
theorem assignPlayer_view (hview : ∀ p, (view p).id = p.id) (hids : (players.map (·.id)).Nodup)
    (hp : view p ∈ players.map view) (hpid : p.id = pid) (hv : view v = g (view p)) :
    Ensures (assignPlayer players pid v) fun ps =>
      ps.map view = editSeat pid g (players.map view) := by
  obtain ⟨q, hq, hqp⟩ := List.mem_map.mp hp
  have hqid : q.id = pid := by rw [← hview q, hqp, hview p, hpid]
  obtain ⟨i, hi, hget⟩ := nextPlayerIdx_eq hids hq
  rw [← hqid, assignPlayer, hi]
  exact map_set_eq_editSeat hview hids hget (hqp ▸ hv)

/-- The same for the write of `movement.py`. -/
theorem putPlayer_view (hview : ∀ p, (view p).id = p.id) (hids : (players.map (·.id)).Nodup)
    (hp : view p ∈ players.map view) (hid : v.id = p.id) (hv : view v = g (view p)) :
    Ensures (putPlayer players v) fun ps => ps.map view = editSeat p.id g (players.map view) := by
  obtain ⟨q, hq, hqp⟩ := List.mem_map.mp hp
  have hqid : q.id = p.id := by rw [← hview q, hqp, hview p]
  obtain ⟨i, hi, hget⟩ := findIdx?_key (·.id) hids hq
  rw [← hqid, putPlayer, playerIndex, hid, ← hqid, hi]
  exact map_set_eq_editSeat hview hids hget (hqp ▸ hv)

/-- Its case for accounts. -/
theorem putPlayer_accounts (hids : (players.map (·.id)).Nodup)
    (hp : p.account ∈ accountsOf players) (hid : v.id = p.id) (hv : v.account = g p.account) :
    Ensures (putPlayer players v) fun ps =>
      accountsOf ps = editSeat p.id g (accountsOf players) :=
  putPlayer_view account_id hids hp hid hv

/-- What a generator expression over the players yields is one of them. -/
theorem pyNext_found (h : pyNext (fun p => decide (p.id = pid)) players = .ok p) :
    p ∈ players ∧ p.id = pid := by
  cases hfind : players.find? (fun p => decide (p.id = pid)) with
  | none => simp [pyNext, hfind, orRaise] at h
  | some q =>
      obtain rfl : q = p := by simpa [pyNext, hfind, orRaise] using h
      exact ⟨List.mem_of_find?_eq_some hfind, by simpa using List.find?_some hfind⟩

/-- The cached net worth is no money. -/
theorem updatePlayerNetWorth_account (p : PlayerState) (spaces : List SpaceOwnership)
    (mode : GameMode) :
    Ensures (updatePlayerNetWorth p spaces mode) fun q => q.account = p.account :=
  (updatePlayerNetWorth_bare p spaces mode).imp fun _ h => account_eq_of_bare h

/-- Nobody is richer for a renewed cache. -/
theorem refreshAllNetWorth_accounts (players : List PlayerState) (spaces : List SpaceOwnership)
    (mode : GameMode) :
    Ensures (refreshAllNetWorth players spaces mode) fun ps =>
      accountsOf ps = accountsOf players :=
  (refreshAllNetWorth_bare players spaces mode).imp fun ps h => by
    rw [← accountsOf_seatsOf, h, accountsOf_seatsOf]

end Records

/-! ## charges -/

section Charges

variable {s : GameState} {p : PlayerState} {pid : PlayerId} {amount : Int}
  {creditor : Option PlayerId}

/-- The cash under an id is the balance of its player. -/
theorem cash_of_mem (hids : (s.players.map (·.id)).Nodup) (hp : p ∈ s.players) :
    s.cash p.id = p.balance := by
  rw [GameState.cash, GameState.seat?, ← bare_id p,
    find?_key PlayerState.id (nodup_seats hids) (mem_seats hp)]
  rfl

/-- A payment is a debit of the payer and a credit of the creditor, if there is
one. -/
theorem transferFunds_transfers (hids : (s.players.map (·.id)).Nodup) :
    Ensures (transferFunds s pid creditor amount) fun s' =>
      ∃ ps, s' = { s with players := ps } ∧
        seatsOf ps = s.seats.map (transfer pid creditor amount) := by
  refine .after fun payer hpayer => ?_
  obtain ⟨hmem, hid⟩ := pyNext_found hpayer
  refine (updatePlayerNetWorth_bare _ _ _).seq fun paid hpaid => ?_
  refine (assignPlayer_view (g := debit amount) bare_id hids (mem_seatsOf hmem) hid hpaid).seq
    fun ps hps => ?_
  replace hps : seatsOf ps = editSeat pid (debit amount) s.seats := hps
  cases creditor with
  | none => exact ⟨ps, rfl, hps.trans (editSeat_debit pid amount s.seats)⟩
  | some c =>
      have hids' : (ps.map (·.id)).Nodup := by
        rw [← ids_seatsOf, hps, ids_editSeat (f := debit amount) fun _ => rfl]
        exact nodup_seats hids
      refine .after fun owner howner => ?_
      obtain ⟨hmem', hid'⟩ := pyNext_found howner
      refine (updatePlayerNetWorth_bare _ _ _).seq fun credited hcredited => ?_
      refine (assignPlayer_view (g := credit amount) bare_id hids' (mem_seatsOf hmem') hid'
        hcredited).seq fun ps' hps' => ⟨ps', rfl, ?_⟩
      rw [show seatsOf ps' = editSeat c (credit amount) (seatsOf ps) from hps', hps]
      exact editSeat_credit_debit pid c amount s.seats

/-- A charge has one of the three outcomes. -/
theorem attemptPayment_charges (hids : (s.players.map (·.id)).Nodup) :
    Ensures (attemptPayment s pid amount creditor) (Charged pid amount creditor s) := by
  unfold attemptPayment
  simp only [sat_ite]
  refine ⟨fun hle => .nothing hle rfl, fun hpos => .after fun payer hpayer => ?_⟩
  obtain ⟨hmem, hid⟩ := getPlayer_found hpayer
  have hcash : s.cash pid = payer.balance := by
    rw [← hid]
    exact cash_of_mem hids hmem
  simp only [sat_ite]
  refine ⟨fun hge => ?_, fun hlt => ⟨fun hb => ?_, fun hb => ?_⟩⟩
  · refine (transferFunds_transfers hids).imp ?_
    rintro s' ⟨ps, rfl, hps⟩
    exact .paid (by omega) (by omega) hps
  · exact .dropped (by omega) (by omega) (Option.isSome_iff_ne_none.mp hb) rfl
  · exact .indebted (by omega) (by omega) (by simpa using hb) rfl

/-- A debt that is not covered stays. -/
theorem trySettleDebt_owing (hids : (s.players.map (·.id)).Nodup) (howing : Owing s) :
    Ensures (trySettleDebt s) (· = s) := by
  unfold trySettleDebt
  cases hdebt : s.bankruptcy with
  | none => rfl
  | some debt =>
      refine .after fun debtor hdebtor => ?_
      obtain ⟨hmem, hid⟩ := getPlayer_found hdebtor
      have hcash := cash_of_mem hids hmem
      have hlt := howing debt hdebt
      rw [← hid, hcash] at hlt
      rw [if_neg (Int.not_le.mpr hlt)]
      rfl

end Charges

/-! ## deposits -/

/-- The player `r` alone has received `amount`, from the bank. -/
structure Deposited (r : PlayerId) (amount : Int) (s s' : GameState) : Prop where
  accounts : s'.accounts = editSeat r (credit amount) s.accounts
  spaces : s'.spaces = s.spaces
  bankruptcy : s'.bankruptcy = s.bankruptcy

section Deposits

variable {s s₁ s₂ : GameState} {p v : PlayerState} {r : PlayerId} {a b : Int}

/-- Nothing paid is nothing changed. -/
theorem debit_zero (p : PlayerState) : debit 0 p = p := by
  simp [debit]

/-- Nothing received is nothing changed. -/
theorem editSeat_credit_zero (r : PlayerId) (seats : List PlayerState) :
    editSeat r (credit 0) seats = seats := by
  simp [editSeat, editAt, credit_zero]

/-- A step that leaves money, spaces and debt alone is a deposit of nothing. -/
theorem Deposited.of_accounts (haccounts : s₁.accounts = s.accounts)
    (hspaces : s₁.spaces = s.spaces) (hdebt : s₁.bankruptcy = s.bankruptcy) :
    Deposited r 0 s s₁ where
  accounts := by rw [haccounts, editSeat_credit_zero]
  spaces := hspaces
  bankruptcy := hdebt

/-- Nothing happened, nothing deposited. -/
theorem Deposited.refl (r : PlayerId) (s : GameState) : Deposited r 0 s s :=
  .of_accounts rfl rfl rfl

/-- Two deposits are one of their sum. -/
theorem Deposited.trans (h : Deposited r a s s₁) (h' : Deposited r b s₁ s₂) :
    Deposited r (a + b) s s₂ where
  accounts := by
    rw [h'.accounts, h.accounts, editSeat_editSeat r (g := credit a) fun _ hp => hp]
    simp only [credit, Int.add_assoc]
    rfl
  spaces := h'.spaces.trans h.spaces
  bankruptcy := h'.bankruptcy.trans h.bankruptcy

/-- Distinct players have distinct accounts. -/
theorem nodup_accounts (hids : (s.players.map (·.id)).Nodup) : (s.accounts.map (·.id)).Nodup := by
  rw [GameState.accounts, ids_accountsOf]
  exact hids

/-- Accounts of the same players have distinct ids if the others have. -/
theorem nodup_of_accounts (h : s₁.accounts.map (·.id) = s.accounts.map (·.id))
    (hids : (s.players.map (·.id)).Nodup) : (s₁.players.map (·.id)).Nodup := by
  rw [GameState.accounts, ids_accountsOf, GameState.accounts, ids_accountsOf] at h
  rw [h]
  exact hids

/-- A deposit keeps who is at the table. -/
theorem Deposited.ids (h : Deposited r a s s₁) (hids : (s.players.map (·.id)).Nodup) :
    (s₁.players.map (·.id)).Nodup := by
  refine nodup_of_accounts ?_ hids
  rw [h.accounts]
  exact ids_editSeat fun _ => rfl

/-- The record of the player is on the table again once it has been stored. -/
theorem Deposited.mem (h : Deposited p.id a s s₁) (hp : p.account ∈ s.accounts)
    (hv : v.account = credit a p.account) : v.account ∈ s₁.accounts := by
  rw [h.accounts, hv]
  exact mem_editSeat.mpr ⟨p.account, hp, if_pos rfl⟩

/-- A player that is found has an account. -/
theorem getPlayer_account (h : getPlayerByIdFromState s r = .ok p) :
    p.account ∈ s.accounts ∧ p.id = r := by
  obtain ⟨hmem, hid⟩ := getPlayer_found h
  exact ⟨List.mem_map_of_mem hmem, hid⟩

/-- The end of a landing writes back what the landing made of the players. -/
theorem finalize_deposits {players : List PlayerState}
    (hplayers : accountsOf players = editSeat r (credit a) s.accounts) (turn : TurnState) :
    Ensures (finalize s players turn) (Deposited r a s) :=
  (refreshAllNetWorth_accounts _ _ _).seq fun _ h => ⟨h.trans hplayers, rfl, rfl⟩

/-- Where it made nothing of them, that is a deposit of nothing. -/
theorem finalize_keeps (s : GameState) (turn : TurnState) (r : PlayerId) :
    Ensures (finalize s s.players turn) (Deposited r 0 s) :=
  finalize_deposits (editSeat_credit_zero r s.accounts).symm turn

/-- A player is written back with more cash. -/
theorem setPlayer_deposits (hids : (s.players.map (·.id)).Nodup) (hp : p.account ∈ s.accounts)
    (hid : v.id = p.id) (hv : v.account = credit a p.account) :
    Ensures (setPlayer s v) (Deposited p.id a s) := by
  refine (updatePlayerNetWorth_account v _ _).seq fun w hw => ?_
  refine (putPlayer_accounts hids hp ((id_eq_of_account hw).trans hid) (hw.trans hv)).seq
    fun ps hps => ?_
  refine (refreshAllNetWorth_accounts ps _ _).seq fun ps' hps' => ?_
  exact ⟨hps'.trans hps, rfl, rfl⟩

/-- The same for the write of a roll, which renews the cache as well. -/
theorem storePlayer_deposits (hids : (s.players.map (·.id)).Nodup) (hp : p.account ∈ s.accounts)
    (hid : v.id = p.id) (hv : v.account = credit a p.account) :
    Ensures (storePlayer s v) (Deposited p.id a s) := by
  refine (updatePlayerNetWorth_account v _ _).seq fun w hw => ?_
  refine (assignPlayer_view account_id hids hp hid.symm (hw.trans hv)).seq fun ps hps => ?_
  exact ⟨hid ▸ hps, rfl, rfl⟩

/-- The salary for passing GO, where it is due. -/
theorem collectGoBonus_deposits (hids : (s.players.map (·.id)).Nodup)
    (hp : p.account ∈ s.accounts) (goSalary : Int) (due : Bool) :
    Ensures (collectGoBonus s p goSalary due) fun x =>
      Deposited p.id (if due then goSalary else 0) s x.1 ∧ x.2.1.account ∈ x.1.accounts ∧
      x.2.1.id = p.id ∧
      x.2.2 = if due then [.passedGo p.id p.displayName goSalary] else [] := by
  cases due with
  | false => exact ⟨.refl p.id s, hp, rfl, rfl⟩
  | true =>
      have hsalary : Ensures (applyGoSalary s p goSalary) fun x =>
          Deposited p.id goSalary s x.1 ∧ x.2 = .passedGo p.id p.displayName goSalary := by
        refine (updatePlayerNetWorth_account _ _ _).seq fun w hw => ?_
        refine (putPlayer_accounts (g := credit goSalary) hids hp
          (id_eq_of_account (p := credit goSalary p) hw) hw).seq fun ps hps => ?_
        exact ⟨⟨hps, rfl, rfl⟩, rfl⟩
      refine hsalary.seq fun x hx => .after fun q hq => ?_
      obtain ⟨hmem, hid⟩ := getPlayer_account hq
      exact ⟨hx.1, hmem, hid, by rw [hx.2]; rfl⟩

/-- A card is found under its own id. -/
theorem getCard_id {id : CardId} {card : CardDef} (h : getCard id = .ok card) :
    getCard card.id = .ok card := by
  cases hfind : allCards.find? (fun card => decide (card.id = id)) with
  | none => simp [getCard, hfind, orRaise] at h
  | some found =>
      obtain rfl : found = card := by simpa [getCard, hfind, orRaise] using h
      have hid : found.id = id := by simpa using List.find?_some hfind
      rw [hid]
      exact h

/-- A draw costs nothing, and what is drawn is a card. -/
theorem drawCard_deposits (s : GameState) (kind : CardKind) (rng : Rng) (r : PlayerId) :
    Ensures (drawCard s kind rng) fun x =>
      Deposited r 0 s x.1 ∧ getCard x.2.1.id = .ok x.2.1 := by
  refine .after fun drawn _ => ?_
  obtain ⟨deck, rng'⟩ := drawn
  cases deck with
  | nil => trivial
  | cons cardId rest =>
      refine .after fun card hcard => ⟨?_, getCard_id hcard⟩
      cases kind <;> exact .of_accounts rfl rfl rfl

end Deposits

/-! ## the accounts behind a state -/

section Views

variable {s s₁ : GameState} {r : PlayerId} {amount : Int}

/-- An edit of the seats that the accounts see is one of the accounts. -/
theorem accounts_of_seats {players players' : List PlayerState} {f : PlayerState → PlayerState}
    (h : seatsOf players' = (seatsOf players).map f) (hf : ∀ p, (f p).account = f p.account) :
    accountsOf players' = (accountsOf players).map f := by
  rw [← accountsOf_seatsOf, h, ← accountsOf_seatsOf players, accountsOf, accountsOf, List.map_map,
    List.map_map]
  exact List.map_congr_left fun p _ => hf p

/-- Equal seats are equal accounts. -/
theorem accounts_of_same {players players' : List PlayerState}
    (h : seatsOf players' = seatsOf players) : accountsOf players' = accountsOf players := by
  rw [← accountsOf_seatsOf, h, accountsOf_seatsOf]

/-- The seat of a player shows their account. -/
theorem seat?_account (s : GameState) (r : PlayerId) :
    (s.seat? r).map PlayerState.account =
      s.accounts.find? fun p => decide (p.id = r) := by
  rw [GameState.accounts, ← accountsOf_seatsOf, accountsOf, List.find?_map]
  rfl

/-- The cash under an id, read off the accounts. -/
theorem cash_eq_find (s : GameState) (r : PlayerId) :
    s.cash r = (s.accounts.find? fun p => decide (p.id = r)).elim 0 (·.balance) := by
  rw [GameState.cash, ← seat?_account]
  cases s.seat? r <;> rfl

/-- The properties under an id, read off the accounts. -/
theorem holdings_eq_find (s : GameState) (r : PlayerId) :
    s.holdings r = (s.accounts.find? fun p => decide (p.id = r)).elim [] (·.ownedPositions) := by
  rw [GameState.holdings, ← seat?_account]
  cases s.seat? r <;> rfl

/-- Equal accounts are equal cash. -/
theorem cash_eq_of_accounts (h : s₁.accounts = s.accounts) (r : PlayerId) :
    s₁.cash r = s.cash r := by
  rw [cash_eq_find, h, ← cash_eq_find]

/-- What a card charges does not depend on the cash. -/
theorem Deposited.cardCharge (h : Deposited r amount s s₁) (effect : CardEffect) :
    cardCharge s₁ r effect = cardCharge s r effect := by
  have hholdings : s₁.holdings r = s.holdings r := by
    rw [holdings_eq_find, h.accounts, editSeat, editAt, List.find?_map, holdings_eq_find]
    have hkey : ((fun p : PlayerState => decide (p.id = r)) ∘ fun p : PlayerState =>
        if p.id = r then credit amount p else p) = fun p => decide (p.id = r) := by
      funext p
      by_cases hp : p.id = r <;> simp [hp]
    rw [hkey]
    cases s.accounts.find? fun p => decide (p.id = r) with
    | none => rfl
    | some p => simp only [Option.map_some, Option.elim_some]; split <;> rfl
  simp only [Monopoly.cardCharge, h.spaces, hholdings]

/-- Without a debt there is none that could be paid. -/
theorem owing_of_none (h : s.bankruptcy = none) : Owing s := by
  intro debt hdebt
  rw [h] at hdebt
  cases hdebt

end Views

/-! ## rent -/

section Rent

/-- No rent is negative. -/
theorem calculateRent_nonneg (s : GameState) (position diceTotal rentMultiplier : Nat) :
    Ensures (calculateRent s position diceTotal rentMultiplier) fun rent => 0 ≤ rent := by
  refine .after fun ownership _ => ?_
  split
  · exact Int.le_refl 0
  · exact Int.le_refl 0
  · refine .after fun owner _ => .after fun boardSpace _ => ?_
    split
    · refine .after fun count _ => .after fun base hbase => ?_
      have hrents : ∀ rent ∈ railroadRents, 0 ≤ rent := by decide
      exact Int.mul_nonneg (hrents base (pyGet_mem hbase)) (Int.natCast_nonneg _)
    · refine .after fun count _ => ?_
      have hmultiplier : 0 ≤ if count = 1 then utilityRentMultiplierOne
          else utilityRentMultiplierTwo := by
        split <;> decide
      exact Int.mul_nonneg hmultiplier (Int.natCast_nonneg _)
    · refine .after fun monopoly _ => ?_
      split
      · exact Int.mul_nonneg (Int.natCast_nonneg _) (by decide)
      · exact Int.mul_nonneg (Int.natCast_nonneg _) (Int.natCast_nonneg _)
    · exact Int.le_refl 0

end Rent

/-! ## the each-player cards -/

section EachPlayer

variable {spaces : List SpaceOwnership} {mode : GameMode}

/-- Everybody else in the game pays what they can of the amount, and the total
is what they paid. -/
theorem takeFromOthers_accounts (pid : PlayerId) (amount : Int) (players : List PlayerState) :
    Ensures (takeFromOthers pid amount spaces mode players) fun x =>
      accountsOf x.1 = (accountsOf players).map (fun p => debit (givenBy pid amount p) p) ∧
      x.2 = ((accountsOf players).map (givenBy pid amount)).sum := by
  induction players with
  | nil => exact ⟨rfl, rfl⟩
  | cons other rest ih =>
      unfold takeFromOthers
      simp only [sat_ite]
      refine ⟨fun hskip => ih.seq fun x hx => ?_, fun hskip => ?_⟩
      · have hzero : givenBy pid amount other.account = 0 := if_pos hskip
        simp only [sat_pure, accountsOf_cons, List.map_cons, List.sum_cons, hzero, debit_zero,
          hx.1, hx.2, Int.zero_add, and_self]
      · have hgives : givenBy pid amount other.account = min amount other.balance := if_neg hskip
        refine (updatePlayerNetWorth_account _ _ _).seq fun paid hpaid => ih.seq fun x hx => ?_
        have hdebit : paid.account = debit (min amount other.balance) other.account := hpaid
        simp only [sat_pure, accountsOf_cons, List.map_cons, List.sum_cons, hgives, hdebit, hx.1,
          hx.2, and_self]

/-- Everybody else in the game gets the amount. -/
theorem giveToOthers_accounts (pid : PlayerId) (amount : Int) (players : List PlayerState) :
    Ensures (giveToOthers pid amount spaces mode players) fun ps =>
      accountsOf ps = (accountsOf players).map fun p =>
        if p.id = pid ∨ p.isBankrupt then p else credit amount p := by
  induction players with
  | nil => rfl
  | cons other rest ih =>
      unfold giveToOthers
      simp only [sat_ite]
      refine ⟨fun hskip => ih.seq fun ps hps => ?_, fun hskip => ?_⟩
      · have hkept : other.account.id = pid ∨ other.account.isBankrupt = true := hskip
        simp only [sat_pure, accountsOf_cons, List.map_cons, hps, if_pos hkept]
      · have hother : ¬(other.account.id = pid ∨ other.account.isBankrupt = true) := hskip
        refine (updatePlayerNetWorth_account _ _ _).seq fun paid hpaid => ih.seq fun ps hps => ?_
        have hcredit : paid.account = credit amount other.account := hpaid
        simp only [sat_pure, accountsOf_cons, List.map_cons, hps, if_neg hother, hcredit]

end EachPlayer

end Monopoly
