import Monopoly.Spec.Accounts

/-!
# Monopoly.Spec.Ledger

The events of a roll as entries in the accounts of the players.  A roll is
booked when the accounts have changed by its entries; deposits of the bank
may be put in front of a roll that is booked, and a charge books the event
that reports it.
-/

namespace Monopoly

/-! ## the entries of an event -/

/-- What the card of the id does. -/
def effectOf (id : CardId) : Option CardEffect := (getCard id).toOption.map (·.effect)

/-- What the bank pays the player `r` for an event of the roll of `r`, on the
table `s`, when `debt` is pending after the roll: a card that charges `r` is
paid unless the debt is its charge. -/
def GameEvent.fromBank (goSalary : Int) (s : GameState) (r : PlayerId)
    (debt : Option BankruptcyState) : GameEvent → Int
  | .passedGo .. => goSalary
  | .taxPaid _ _ _ amount => -amount
  | .cardDrawn _ _ cardId _ =>
      match effectOf cardId with
      | some (.collect amount) => amount
      | some effect =>
          match cardCharge s r effect with
          | some due => if debt = some ⟨r, none, due⟩ then 0 else -due
          | none => 0
      | none => 0
  | _ => 0

/-- What the player who rolled pays the other player `p` for an event. -/
def GameEvent.paysTo (p : PlayerState) : GameEvent → Int
  | .rentPaid _ _ ownerId _ _ _ amount => if ownerId = p.id then amount else 0
  | .cardDrawn _ _ cardId _ =>
      match effectOf cardId with
      | some (.collectFromEachPlayer amount) =>
          if p.isBankrupt then 0 else -min (amount : Int) p.balance
      | some (.payEachPlayer amount) => if p.isBankrupt then 0 else amount
      | _ => 0
  | _ => 0

/-- Rent is paid by `r`, to another player who owns a space. -/
def GameEvent.RentBy (s : GameState) (r : PlayerId) : GameEvent → Prop
  | .rentPaid payerId _ ownerId _ _ _ _ =>
      payerId = r ∧ ownerId ≠ r ∧ ∃ o ∈ s.spaces, o.ownerId = some ownerId
  | _ => True

/-- What the bank pays `r` in a roll. -/
def bankTotal (goSalary : Int) (s : GameState) (r : PlayerId) (debt : Option BankruptcyState)
    (events : List GameEvent) : Int :=
  (events.map (·.fromBank goSalary s r debt)).sum

/-- What `r` pays the player `p` in a roll. -/
def paidTo (r : PlayerId) (events : List GameEvent) (p : PlayerState) : Int :=
  if p.id = r then 0 else (events.map (·.paysTo p)).sum

/-- What the account `p` has gained when `r` has gained `income` from the
bank and paid the others. -/
def entry (r : PlayerId) (income : Int) (events : List GameEvent) (accounts : List PlayerState)
    (p : PlayerState) : Int :=
  paidTo r events p + if p.id = r then income - (accounts.map (paidTo r events)).sum else 0

/-- The accounts of `s'` are those of `s` with the entries of the events
posted. -/
structure Booked (r : PlayerId) (income : Int) (s : GameState) (events : List GameEvent)
    (s' : GameState) : Prop where
  accounts : s'.accounts = s.accounts.map fun p =>
    credit (entry r income events s.accounts p) p
  rents : ∀ e ∈ events, e.RentBy s r
  owing : Owing s'

/-- The events are those of deposits of the bank: `amount` in all. -/
structure Shows (goSalary : Int) (s : GameState) (r : PlayerId) (debt : Option BankruptcyState)
    (events : List GameEvent) (amount : Int) : Prop where
  bank : bankTotal goSalary s r debt events = amount
  silent : ∀ p, (events.map (·.paysTo p)).sum = 0
  rents : ∀ e ∈ events, e.RentBy s r

/-! ## posting -/

section Posting

variable {s s₁ s₂ s' : GameState} {r : PlayerId} {goSalary income amount : Int}
  {events shown : List GameEvent} {debt : Option BankruptcyState} {p : PlayerState}

theorem Deposited.bankTotal (h : Deposited r amount s s₁) (goSalary : Int)
    (debt : Option BankruptcyState) (events : List GameEvent) :
    bankTotal goSalary s₁ r debt events = bankTotal goSalary s r debt events := by
  refine congrArg List.sum (List.map_congr_left fun e _ => ?_)
  cases e with
  | cardDrawn _ _ cardId _ => simp only [GameEvent.fromBank, h.cardCharge]
  | _ => rfl

theorem paidTo_credit (r : PlayerId) (events : List GameEvent) (amount : Int) (p : PlayerState) :
    paidTo r events (if p.id = r then credit amount p else p) = paidTo r events p := by
  by_cases hp : p.id = r
  · rw [if_pos hp, paidTo, paidTo, if_pos hp, if_pos (show (credit amount p).id = r from hp)]
  · rw [if_neg hp]

theorem paidTo_append (hsilent : ∀ p, (shown.map (·.paysTo p)).sum = 0) (r : PlayerId)
    (events : List GameEvent) (p : PlayerState) :
    paidTo r (shown ++ events) p = paidTo r events p := by
  simp only [paidTo, List.map_append, List.sum_append, hsilent, Int.zero_add]

/-- What `r` is paid first is posted with what the rest of the roll books. -/
theorem Booked.after (h : Deposited r amount s s₁)
    (hsilent : ∀ p, (shown.map (·.paysTo p)).sum = 0) (hrents : ∀ e ∈ shown, e.RentBy s r)
    (hb : Booked r income s₁ events s') :
    Booked r (amount + income) s (shown ++ events) s' := by
  constructor
  · have hpaid : (s₁.accounts.map (paidTo r events)).sum =
        (s.accounts.map (paidTo r (shown ++ events))).sum := by
      rw [h.accounts, editSeat, editAt, List.map_map]
      refine congrArg List.sum (List.map_congr_left fun p _ => ?_)
      rw [paidTo_append hsilent]
      exact paidTo_credit r events amount p
    rw [hb.accounts, h.accounts, editSeat, editAt, List.map_map, ← editAt, ← editSeat,
      ← h.accounts]
    refine List.map_congr_left fun p _ => ?_
    simp only [Function.comp, entry, hpaid, paidTo_credit, paidTo_append hsilent]
    by_cases hp : p.id = r
    · simp only [hp, if_true, credit]
      congr 1
      omega
    · simp only [hp, if_false]
  · intro e he
    rcases List.mem_append.mp he with he | he
    · exact hrents e he
    · have hrent := hb.rents e he
      cases e with
      | rentPaid payerId _ ownerId _ _ _ _ =>
          obtain ⟨hpayer, howner, hspace⟩ := hrent
          exact ⟨hpayer, howner, by rw [← h.spaces]; exact hspace⟩
      | _ => trivial
  · exact hb.owing

theorem Booked.idle (haccounts : s'.accounts = s.accounts) (howing : Owing s') :
    Booked r 0 s [] s' := by
  constructor
  · have hnone : paidTo r [] = fun _ => 0 := funext fun p => by simp [paidTo]
    have hzero : ∀ p, entry r 0 [] s.accounts p = 0 := fun p => by simp [entry, hnone]
    simp only [hzero, credit_zero, haccounts, List.map_id']
  · simp
  · exact howing

theorem Booked.congr (hb : Booked r income s events s') (haccounts : s₂.accounts = s'.accounts)
    (hdebt : s₂.bankruptcy = s'.bankruptcy) : Booked r income s events s₂ where
  accounts := haccounts.trans hb.accounts
  rents := hb.rents
  owing := by
    intro debt hsome
    rw [cash_eq_of_accounts haccounts]
    exact hb.owing debt (hdebt ▸ hsome)

/-- What the events of a roll say of the bank is what it has paid. -/
abbrev Reported (goSalary : Int) (r : PlayerId) (s : GameState) (events : List GameEvent)
    (s' : GameState) : Prop :=
  Booked r (bankTotal goSalary s r s'.bankruptcy events) s events s'

theorem Reported.after (h : Deposited r amount s s₁)
    (hshows : Shows goSalary s r s'.bankruptcy shown amount)
    (hb : Reported goSalary r s₁ events s') : Reported goSalary r s (shown ++ events) s' := by
  have hbooked := Booked.after h hshows.silent hshows.rents hb
  rw [h.bankTotal, ← hshows.bank, bankTotal, bankTotal, ← List.sum_append, ← List.map_append]
    at hbooked
  exact hbooked

/-- The deposit is all there is. -/
theorem Reported.deposit (h : Deposited r amount s s') (hfree : s.bankruptcy = none)
    (hshows : Shows goSalary s r s'.bankruptcy events amount) :
    Reported goSalary r s events s' := by
  have hidle : Reported goSalary r s' [] s' :=
    .idle rfl (owing_of_none (h.bankruptcy.trans hfree))
  have hbooked := Reported.after h hshows hidle
  rwa [List.append_nil] at hbooked

/-- A debt was opened, and nothing else happened. -/
theorem Reported.opened (haccounts : s'.accounts = s.accounts) (howing : Owing s')
    (hshows : Shows goSalary s r s'.bankruptcy events 0) : Reported goSalary r s events s' := by
  have hidle : Reported goSalary r s [] s' := .idle haccounts howing
  have hbooked := Reported.after (.refl r s) hshows hidle
  rwa [List.append_nil] at hbooked

end Posting

/-! ## deposits of the bank -/

section Shown

variable {s : GameState} {r : PlayerId} {goSalary amount a b : Int} {e : GameEvent}
  {events shown : List GameEvent} {debt : Option BankruptcyState}

theorem shows_nil : Shows goSalary s r debt [] 0 := ⟨rfl, fun _ => rfl, by simp⟩

/-- A change of the roller that leaves its account as it was shows nothing. -/
theorem Reported.kept {s₁ s' : GameState} (hb : Reported goSalary r s₁ events s')
    (h : Deposited r 0 s s₁) : Reported goSalary r s events s' :=
  Reported.after h shows_nil hb

/-- An event the bank has no part in. -/
theorem Shows.cons (h : Shows goSalary s r debt events amount)
    (hbank : e.fromBank goSalary s r debt = 0) (hsilent : ∀ p, e.paysTo p = 0)
    (hrent : e.RentBy s r) : Shows goSalary s r debt (e :: events) amount where
  bank := by
    have hrest := h.bank
    simp only [bankTotal, List.map_cons, List.sum_cons, hbank, Int.zero_add] at hrest ⊢
    exact hrest
  silent := fun p => by rw [List.map_cons, List.sum_cons, hsilent, h.silent, Int.zero_add]
  rents := List.forall_mem_cons.mpr ⟨hrent, h.rents⟩

theorem shows_one (hbank : e.fromBank goSalary s r debt = amount) (hsilent : ∀ p, e.paysTo p = 0)
    (hrent : e.RentBy s r) : Shows goSalary s r debt [e] amount where
  bank := by simp [bankTotal, hbank]
  silent := fun p => by simp [hsilent]
  rents := by simpa using hrent

theorem shows_goBonus (p : PlayerState) (due : Bool) :
    Shows goSalary s r debt (if due then [.passedGo p.id p.displayName goSalary] else [])
      (if due then goSalary else 0) := by
  cases due with
  | false => exact shows_nil
  | true => exact shows_one rfl (fun _ => rfl) trivial

theorem Shows.append (h : Shows goSalary s r debt shown a) (h' : Shows goSalary s r debt events b) :
    Shows goSalary s r debt (shown ++ events) (a + b) where
  bank := by
    rw [← h.bank, ← h'.bank, bankTotal, bankTotal, bankTotal, List.map_append, List.sum_append]
  silent := fun p => by rw [List.map_append, List.sum_append, h.silent, h'.silent, Int.zero_add]
  rents := List.forall_mem_append.mpr ⟨h.rents, h'.rents⟩

/-- What a card does that moves no money itself. -/
def CardEffect.Moneyless : CardEffect → Prop
  | .advanceTo .. | .advanceToNearest .. | .goToJail | .goBack _ | .getOutOfJailFree => True
  | _ => False

theorem Shows.drawn {id : CardId} {effect : CardEffect} {name : String} {kind : CardKind}
    {pid : PlayerId} (h : Shows goSalary s r debt events amount)
    (heffect : effectOf id = some effect) (hfree : effect.Moneyless) :
    Shows goSalary s r debt (.cardDrawn pid name id kind :: events) amount := by
  refine h.cons ?_ (fun p => ?_) trivial
  · cases effect <;> first | exact hfree.elim | simp only [GameEvent.fromBank, heffect, cardCharge]
  · cases effect <;> first | exact hfree.elim | simp only [GameEvent.paysTo, heffect]

end Shown

/-! ## charges -/

/-- The table is ready for the player `p` to land: `p` is as the table has
them, and no debt is pending. -/
structure Ready (s : GameState) (p : PlayerState) : Prop where
  ids : (s.players.map (·.id)).Nodup
  free : s.bankruptcy = none
  seated : p.account ∈ s.accounts

section Charges

variable {s s₁ c : GameState} {p v : PlayerState} {r ownerId : PlayerId} {amount : Int}

theorem Ready.deposited (h : Ready s p) (hd : Deposited p.id amount s s₁)
    (hv : v.account = credit amount p.account) : Ready s₁ v where
  ids := hd.ids h.ids
  free := hd.bankruptcy.trans h.free
  seated := hd.mem h.seated hv

theorem Ready.same (h : Ready s p) (hd : Deposited p.id 0 s s₁) : Ready s₁ p :=
  h.deposited hd (credit_zero p.account).symm

/-- A charge for the bank is paid, or is the debt that is pending then. -/
theorem Charged.bank (hfree : s.bankruptcy = none) (hamount : 0 ≤ amount)
    (hc : Charged r amount none s c) : Deposited r (-amount) s c ∨
      c.accounts = s.accounts ∧ c.bankruptcy = some ⟨r, none, amount⟩ ∧ Owing c := by
  cases hc with
  | nothing hle hps =>
      obtain rfl : amount = 0 := by omega
      exact .inl (.of_accounts (accounts_of_same hps) rfl rfl)
  | paid _ _ hps =>
      have haccounts := accounts_of_seats hps fun _ => rfl
      exact .inl ⟨haccounts.trans (editSeat_debit r amount s.accounts).symm, rfl, rfl⟩
  | dropped _ _ hb _ => exact absurd hfree hb
  | indebted _ hlt _ hps =>
      refine .inr ⟨accounts_of_same hps, rfl, fun debt hdebt => ?_⟩
      obtain rfl := Option.some.inj hdebt
      rw [cash_eq_of_accounts (s := s) (accounts_of_same hps)]
      exact hlt

/-- The entries of a rent are its transfer. -/
theorem entry_rentPaid {accounts : List PlayerState} {q : PlayerState}
    (hids : (accounts.map (·.id)).Nodup) (hq : q ∈ accounts) (howner : q.id ≠ r)
    (payerName ownerName propertyName : String) (position : Nat) (amount : Int)
    (x : PlayerState) :
    credit (entry r 0 [.rentPaid r payerName q.id ownerName position propertyName amount]
      accounts x) x = transfer r (some q.id) amount x := by
  have hpaid : ∀ x, paidTo r [.rentPaid r payerName q.id ownerName position propertyName amount] x =
      if x.id = q.id then amount else 0 := by
    intro x
    simp only [paidTo, List.map_cons, List.map_nil, List.sum_cons, List.sum_nil,
      GameEvent.paysTo, Int.add_zero]
    by_cases hx : x.id = r
    · rw [if_pos hx, if_neg fun hxq => howner (hxq.symm.trans hx)]
    · rw [if_neg hx]
      exact if_congr eq_comm rfl rfl
  have htotal : (accounts.map (paidTo r
      [.rentPaid r payerName q.id ownerName position propertyName amount])).sum = amount := by
    rw [funext hpaid]
    exact sum_at_key PlayerState.id hids hq amount
  have hkey : (some q.id = some x.id) = (x.id = q.id) := by simp [eq_comm]
  simp only [entry, hpaid, htotal, credit, transfer, hkey]
  congr 1
  split <;> split <;> omega

/-- Rent is paid to the owner, or is the debt that is pending then. -/
theorem Charged.rent (h : Ready s p) {owner : PlayerState} (payerName propertyName : String)
    (position : Nat) (hamount : 0 ≤ amount) (howner : owner.id ≠ p.id)
    (hseated : owner.account ∈ s.accounts)
    (hspace : ∃ o ∈ s.spaces, o.ownerId = some owner.id)
    (hc : Charged p.id amount (some owner.id) s c) :
    (c.bankruptcy = none → Booked p.id 0 s [.rentPaid p.id payerName owner.id owner.displayName
      position propertyName amount] c) ∧ (c.bankruptcy ≠ none → Booked p.id 0 s [] c) := by
  have hids := nodup_accounts h.ids
  have hpaid (haccounts : c.accounts = s.accounts.map (transfer p.id (some owner.id) amount))
      (hnone : c.bankruptcy = none) : Booked p.id 0 s [.rentPaid p.id payerName owner.id
        owner.displayName position propertyName amount] c := by
    refine ⟨haccounts.trans (List.map_congr_left fun x _ => ?_), ?_, owing_of_none hnone⟩
    · exact (entry_rentPaid (q := owner.account) hids hseated howner _ _ _ _ _ x).symm
    · simp only [List.mem_singleton, forall_eq]
      exact ⟨rfl, howner, hspace⟩
  cases hc with
  | nothing hle hps =>
      obtain rfl : amount = 0 := by omega
      refine ⟨hpaid ?_, fun hb => absurd h.free hb⟩
      have hsame : transfer p.id (some owner.id) 0 = id := funext fun x => by simp [transfer]
      rw [hsame, List.map_id]
      exact accounts_of_same hps
  | paid _ _ hps =>
      exact ⟨hpaid (accounts_of_seats hps fun _ => rfl), fun hb => absurd h.free hb⟩
  | dropped _ _ hb _ => exact absurd h.free hb
  | indebted _ hlt _ hps =>
      refine ⟨fun hnone => absurd hnone (by simp), fun _ => .idle (accounts_of_same hps)
        fun debt hdebt => ?_⟩
      obtain rfl := Option.some.inj hdebt
      rw [cash_eq_of_accounts (s := s) (accounts_of_same hps)]
      exact hlt

end Charges

end Monopoly
