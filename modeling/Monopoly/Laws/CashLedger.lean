import Monopoly.Spec.Ledger
import Monopoly.Spec.Replay

/-!
# Monopoly.Laws.CashLedger

The cash of a roll is what its events say.  Money moves in the walk, in the
cards a landing draws and where the player comes to rest; each of these has
an event, except for the bail of a third failed roll.
-/

namespace Monopoly

/-! ## cards -/

section Cards

variable {s s₁ s' : GameState} {p q : PlayerState} {r : PlayerId} {goSalary amount : Int}
  {debt : Option BankruptcyState} {e : GameEvent} {events : List GameEvent} {card : CardDef}
  {land : Lander}

/-- Landings book what their events say. -/
def Lander.Books (goSalary : Int) (land : Lander) : Prop :=
  ∀ s p depth rentMultiplier rng, Ready s p →
    Ensures (land s p depth rentMultiplier rng) fun L =>
      Reported goSalary p.id s L.events L.state

/-- The salary for passing GO is shown by its event. -/
theorem collectGoBonus_shows (h : Ready s p) (due : Bool) :
    Ensures (collectGoBonus s p goSalary due) fun x => Ready x.1 x.2.1 ∧ x.2.1.id = p.id ∧
      ∃ amount, Deposited p.id amount s x.1 ∧
        ∀ r debt, Shows goSalary s r debt x.2.2 amount := by
  refine (collectGoBonus_deposits h.ids h.seated goSalary due).imp fun x hx => ?_
  obtain ⟨hd, hseated, hid, hevents⟩ := hx
  refine ⟨⟨hd.ids h.ids, hd.bankruptcy.trans h.free, hseated⟩, hid, _, hd, fun r debt => ?_⟩
  rw [hevents]
  exact shows_goBonus p due

theorem advanceAndLand_books (hland : land.Books goSalary) (h : Ready s p) (steps : Nat)
    (bonus : Bool) (depth rentMultiplier : Nat) (rng : Rng) :
    Ensures (advanceAndLand land goSalary s p steps bonus depth rentMultiplier rng) fun L =>
      Reported goSalary p.id s L.events L.state := by
  refine .after fun advanced _ => ?_
  obtain ⟨newPos, passedGo⟩ := advanced
  refine (setPlayer_deposits (v := { p with position := newPos }) h.ids h.seated rfl
    (credit_zero _).symm).seq fun s₁ h₁ => ?_
  have hmoved : Ready s₁ { p with position := newPos } := h.deposited h₁ (credit_zero _).symm
  refine (collectGoBonus_shows hmoved (passedGo && bonus)).seq fun collected hcollected => ?_
  obtain ⟨hready, hid, amount, h₂, hshows⟩ := hcollected
  replace hid : collected.2.1.id = p.id := hid
  refine (hland _ _ depth rentMultiplier rng hready).seq fun L hL => ?_
  rw [hid] at hL
  have hcollected : Reported goSalary p.id s₁ (cardMoveEvent p newPos :: collected.2.2 ++ L.events)
      L.state :=
    .after h₂ ((hshows p.id L.state.bankruptcy).cons rfl (fun _ => rfl) trivial) hL
  exact hcollected.kept h₁

theorem Ready.holdings (h : Ready s p) : s.holdings p.id = p.ownedPositions := by
  have hids := nodup_accounts h.ids
  rw [holdings_eq_find, ← account_id p, find?_key PlayerState.id hids h.seated]
  rfl

/-- The event is about shares of the other players, `total` in all. -/
theorem Reported.shared {share : PlayerState → Int} {total : Int}
    (hshare : ∀ q, paidTo r [e] q = share q) (htotal : (s.accounts.map share).sum = total)
    (hbank : e.fromBank goSalary s r s'.bankruptcy = 0) (hrent : e.RentBy s r)
    (hnone : s'.bankruptcy = none)
    (haccounts : s'.accounts = s.accounts.map fun q =>
      credit (share q + if q.id = r then -total else 0) q) : Reported goSalary r s [e] s' := by
  have hzero : bankTotal goSalary s r s'.bankruptcy [e] = 0 := by
    rw [bankTotal, List.map_cons, hbank]
    rfl
  refine ⟨haccounts.trans (List.map_congr_left fun q _ => ?_), by simpa using hrent,
    owing_of_none hnone⟩
  rw [entry, funext hshare, htotal, hzero, Int.zero_sub]

/-- A card that charges for the bank. -/
theorem attemptPayment_books (h : Ready s p) {due : Int} (hdue : 0 ≤ due)
    (heffect : effectOf card.id = some card.effect)
    (hcharge : cardCharge s p.id card.effect = some due) (goSalary : Int) (r : PlayerId)
    (name : String) (kind : CardKind) :
    Ensures (attemptPayment s p.id due none) fun s' =>
      Reported goSalary p.id s [.cardDrawn r name card.id kind] s' := by
  have hcollect : ∀ amount, card.effect ≠ .collect amount := by
    rintro amount heq
    rw [heq] at hcharge
    cases hcharge
  have hsilent (q : PlayerState) : (GameEvent.cardDrawn r name card.id kind).paysTo q = 0 := by
    simp only [GameEvent.paysTo, heffect]
    cases heff : card.effect <;> simp_all [cardCharge]
  have hbank (debt : Option BankruptcyState) :
      (GameEvent.cardDrawn r name card.id kind).fromBank goSalary s p.id debt =
        if debt = some ⟨p.id, none, due⟩ then 0 else -due := by
    simp only [GameEvent.fromBank, heffect]
    cases heff : card.effect <;> simp_all [cardCharge]
  refine (attemptPayment_charges h.ids).imp fun c hc => ?_
  rcases hc.bank h.free hdue with hd | ⟨haccounts, hdebt, howing⟩
  · refine .deposit hd h.free (shows_one ?_ hsilent trivial)
    rw [hbank, hd.bankruptcy, h.free]
    exact if_neg (by simp)
  · refine .opened haccounts howing (shows_one ?_ hsilent trivial)
    rw [hbank, hdebt]
    exact if_pos rfl

theorem otherActive_accounts (players : List PlayerState) (pid : PlayerId) (amount : Int) :
    ((accountsOf players).map fun q => if q.id = pid ∨ q.isBankrupt then 0 else amount).sum =
      amount * otherActive players pid := by
  induction players with
  | nil => simp [accountsOf, otherActive]
  | cons q rest ih =>
      have hsame : (q.account.id = pid ∨ q.account.isBankrupt = true) =
          (q.id = pid ∨ q.isBankrupt = true) := rfl
      rw [accountsOf_cons, List.map_cons, List.sum_cons, ih]
      simp only [hsame, otherActive, List.filter_cons]
      by_cases hskip : q.id = pid ∨ q.isBankrupt = true
      · simp [hskip]
      · simp [hskip, Int.mul_add, Int.add_comm]

theorem effectOf_eq (hcard : getCard card.id = .ok card) :
    effectOf card.id = some card.effect := by
  rw [effectOf, hcard]
  rfl

/-- A card under which every other active player gives to the drawer. -/
theorem collectFromEach_books (h : Ready s p) {each : Nat} (hcard : getCard card.id = .ok card)
    (heff : card.effect = .collectFromEachPlayer each) (r : PlayerId) (name : String)
    (kind : CardKind) (depth : Nat) (rng : Rng) :
    Ensures (applyCardEffect land goSalary s p card depth rng) fun L =>
      Reported goSalary p.id s (.cardDrawn r name card.id kind :: L.events) L.state := by
  have heffect := effectOf_eq hcard
  rw [heff] at heffect
  simp only [applyCardEffect, heff]
  refine (takeFromOthers_accounts p.id each s.players).seq fun taken htaken => ?_
  obtain ⟨players, total⟩ := taken
  obtain ⟨hplayers, htotal⟩ := htaken
  have hids : (players.map (·.id)).Nodup := by
    have hsame : (accountsOf players).map (·.id) = s.players.map (·.id) := by
      rw [hplayers, List.map_map, ← ids_accountsOf s.players]
      rfl
    rw [← ids_accountsOf, hsame]
    exact h.ids
  refine .after fun receiver hreceiver => ?_
  obtain ⟨hmem, hid⟩ := getPlayer_found (s := { s with players }) hreceiver
  refine (updatePlayerNetWorth_account _ _ _).seq fun paid hpaid => ?_
  refine (putPlayer_accounts (g := credit total) hids (List.mem_map_of_mem hmem)
    (id_eq_of_account (p := credit total receiver) hpaid) hpaid).seq fun players' hplayers' => ?_
  have hshare (q : PlayerState) : paidTo p.id [.cardDrawn r name card.id kind] q =
      -givenBy p.id each q := by
    simp only [paidTo, List.map_cons, List.map_nil, List.sum_cons, List.sum_nil,
      GameEvent.paysTo, heffect, Int.add_zero, givenBy]
    by_cases hq : q.id = p.id
    · simp [hq]
    · by_cases hout : q.isBankrupt = true <;> simp [hq, hout]
  have hsum : (s.accounts.map fun q => -givenBy p.id each q).sum = -total := by
    rw [show total = _ from htotal, List.sum_neg, List.map_map]
    rfl
  refine .shared hshare hsum ?_ trivial h.free ?_
  · simp [GameEvent.fromBank, heffect, cardCharge]
  · show accountsOf players' = _
    rw [hplayers', hid, hplayers, editSeat, editAt, List.map_map]
    refine List.map_congr_left fun q _ => ?_
    show (if q.id = p.id then credit total (debit (givenBy p.id each q) q)
      else debit (givenBy p.id each q) q) = _
    rw [Int.neg_neg]
    by_cases hq : q.id = p.id
    · have hzero : givenBy p.id each q = 0 := if_pos (.inl hq)
      rw [if_pos hq, if_pos hq, hzero, debit_zero, Int.neg_zero, Int.zero_add]
    · rw [if_neg hq, if_neg hq, Int.add_zero]
      rfl

/-- A card under which the drawer gives to every other active player. -/
theorem payEach_books (h : Ready s p) {each : Nat} (hcard : getCard card.id = .ok card)
    (heff : card.effect = .payEachPlayer each) (r : PlayerId) (name : String)
    (kind : CardKind) (depth : Nat) (rng : Rng) :
    Ensures (applyCardEffect land goSalary s p card depth rng) fun L =>
      Reported goSalary p.id s (.cardDrawn r name card.id kind :: L.events) L.state := by
  have heffect := effectOf_eq hcard
  rw [heff] at heffect
  simp only [applyCardEffect, heff]
  set total : Int := each * otherActive s.players p.id with htotal
  refine (updatePlayerNetWorth_account _ _ _).seq fun payer hpayer => ?_
  refine (putPlayer_accounts (g := debit total) h.ids h.seated
    (id_eq_of_account (p := debit total p) hpayer) hpayer).seq fun players hplayers => ?_
  refine (giveToOthers_accounts p.id each players).seq fun given hgiven => ?_
  refine (refreshAllNetWorth_accounts given _ _).seq fun players' hplayers' => ?_
  have hshare (q : PlayerState) : paidTo p.id [.cardDrawn r name card.id kind] q =
      if q.id = p.id ∨ q.isBankrupt then 0 else (each : Int) := by
    simp only [paidTo, List.map_cons, List.map_nil, List.sum_cons, List.sum_nil,
      GameEvent.paysTo, heffect, Int.add_zero]
    by_cases hq : q.id = p.id <;> simp [hq]
  have hsum : (s.accounts.map fun q => if q.id = p.id ∨ q.isBankrupt then 0 else (each : Int)).sum =
      total := otherActive_accounts s.players p.id each
  refine .shared hshare hsum ?_ trivial h.free ?_
  · simp [GameEvent.fromBank, heffect, cardCharge]
  · show accountsOf players' = _
    rw [hplayers', hgiven, hplayers, payEach_seats]
    refine List.map_congr_left fun q _ => ?_
    rw [payEach]
    by_cases hq : q.id = p.id
    · simp only [hq, true_or, if_true, Int.zero_add]
      rfl
    · by_cases hout : q.isBankrupt = true <;> simp [hq, hout, credit_zero]

/-- A drawn card books its own event and those of where it leads. -/
theorem applyCardEffect_books (hland : land.Books goSalary) (h : Ready s p)
    (hcard : getCard card.id = .ok card) (r : PlayerId) (name : String) (kind : CardKind)
    (depth : Nat) (rng : Rng) :
    Ensures (applyCardEffect land goSalary s p card depth rng) fun L =>
      Reported goSalary p.id s (.cardDrawn r name card.id kind :: L.events) L.state := by
  have heffect := effectOf_eq hcard
  have hkept {v : PlayerState} (hid : v.id = p.id) (hv : v.account = p.account) :
      Ensures (setPlayer s v) (Deposited p.id 0 s) :=
    setPlayer_deposits h.ids h.seated hid (hv.trans (credit_zero _).symm)
  cases heff : card.effect with
  | advanceTo position bonus =>
      rw [heff] at heffect
      simp only [applyCardEffect, heff]
      refine .after fun steps _ => (advanceAndLand_books hland h _ _ _ _ _).imp fun L hL => ?_
      exact Reported.after (.refl p.id s) (shows_nil.drawn heffect trivial) hL
  | advanceToNearest target payDouble =>
      rw [heff] at heffect
      simp only [applyCardEffect, heff]
      refine .after fun pos _ => .after fun steps _ => ?_
      refine (advanceAndLand_books hland h _ _ _ _ _).imp fun L hL => ?_
      exact Reported.after (.refl p.id s) (shows_nil.drawn heffect trivial) hL
  | goToJail =>
      rw [heff] at heffect
      simp only [applyCardEffect, heff]
      refine (hkept (v := sendToJail p s.gameMode) rfl rfl).seq fun s₁ h₁ => ?_
      have hsent : Shows goSalary s p.id s₁.bankruptcy [.sentToJail p.id p.displayName .card] 0 :=
        shows_one rfl (fun _ => rfl) trivial
      exact .deposit h₁ h.free (hsent.drawn heffect trivial)
  | goBack n =>
      rw [heff] at heffect
      simp only [applyCardEffect, heff]
      refine .after fun index _ => .after fun back _ => .after fun newPos _ => ?_
      refine (hkept (v := { p with position := newPos }) rfl rfl).seq fun s₁ h₁ => ?_
      have hmove (debt : Option BankruptcyState) : Shows goSalary s p.id debt
          [cardMoveEvent p newPos] 0 := shows_one rfl (fun _ => rfl) trivial
      have hshows (debt : Option BankruptcyState) : Shows goSalary s p.id debt
          [.cardDrawn r name card.id kind, cardMoveEvent p newPos] 0 :=
        (hmove debt).drawn heffect trivial
      have hready : Ready s₁ { p with position := newPos } :=
        h.deposited h₁ (credit_zero _).symm
      simp only [sat_ite]
      refine ⟨fun _ => .deposit h₁ h.free (hshows _), fun _ => ?_⟩
      exact (hland s₁ _ _ _ _ hready).seq fun L hL => Reported.after h₁ (hshows _) hL
  | collect amount =>
      rw [heff] at heffect
      simp only [applyCardEffect, heff]
      refine (setPlayer_deposits (v := credit amount p) (a := amount) h.ids h.seated rfl rfl).seq
        fun s₁ h₁ => ?_
      refine .deposit h₁ h.free (shows_one ?_ (fun q => ?_) trivial)
      · simp only [GameEvent.fromBank, heffect]
      · simp only [GameEvent.paysTo, heffect]
  | pay amount =>
      simp only [applyCardEffect, heff]
      have hcharge : cardCharge s p.id card.effect = some (amount : Int) := by rw [heff]; rfl
      exact (attemptPayment_books h (Int.natCast_nonneg amount) heffect hcharge goSalary r name
        kind).seq fun _ hs' => hs'
  | collectFromEachPlayer amount => exact collectFromEach_books h hcard heff _ _ _ _ _
  | payEachPlayer amount => exact payEach_books h hcard heff _ _ _ _ _
  | getOutOfJailFree =>
      rw [heff] at heffect
      simp only [applyCardEffect, heff]
      refine (hkept (v := { p with getOutOfJailCards := p.getOutOfJailCards + 1 }) rfl rfl).seq
        fun s₁ h₁ => ?_
      exact .deposit h₁ h.free (shows_nil.drawn heffect trivial)
  | repairs perHouse perHotel =>
      simp only [applyCardEffect, heff]
      refine .after fun cost hcost => ?_
      have hcharge : cardCharge s p.id card.effect = some (cost : Int) := by
        rw [heff, cardCharge, h.holdings, hcost]
        rfl
      exact (attemptPayment_books h (Int.natCast_nonneg cost) heffect hcharge goSalary r name
        kind).seq fun _ hs' => hs'

end Cards

/-! ## landings -/

section Landings

variable {s : GameState} {p : PlayerState} {goSalary : Int} {land : Lander}

theorem Ready.of_getPlayer {q : PlayerState} {pid : PlayerId}
    (hids : (s.players.map (·.id)).Nodup) (hfree : s.bankruptcy = none)
    (hq : getPlayerByIdFromState s pid = .ok q) : Ready s q ∧ q.id = pid := by
  obtain ⟨hmem, hid⟩ := getPlayer_account hq
  exact ⟨⟨hids, hfree, hmem⟩, hid⟩

theorem landOnGoToJail_books (h : Ready s p) (rng : Rng) :
    Ensures (landOnGoToJail s p rng) fun L => Reported goSalary p.id s L.events L.state := by
  refine (updatePlayerNetWorth_account _ _ _).seq fun jailed hjailed => ?_
  refine (putPlayer_accounts (g := credit 0) h.ids h.seated (id_eq_of_account hjailed)
    (hjailed.trans (credit_zero _).symm)).seq fun players hplayers => ?_
  refine (finalize_deposits hplayers _).seq fun s₁ h₁ => ?_
  exact .deposit h₁ h.free (shows_one rfl (fun _ => rfl) trivial)

theorem landOnTax_books (h : Ready s p) (taxAmount : Nat) (rng : Rng) :
    Ensures (landOnTax s p taxAmount rng) fun L =>
      Reported goSalary p.id s L.events L.state := by
  refine (finalize_keeps s _ p.id).seq fun s₁ h₁ => ?_
  have hready := h.same h₁
  refine (attemptPayment_charges hready.ids).seq fun c hc => ?_
  have hcharged := hc.bank hready.free (Int.natCast_nonneg taxAmount)
  simp only [sat_ite]
  refine ⟨fun hb => ?_, fun hb => ?_⟩
  · rcases hcharged with hd | ⟨haccounts, hdebt, howing⟩
    · rw [hd.bankruptcy, hready.free] at hb
      cases hb
    · have hopened : Reported goSalary p.id s₁ [] c := .opened haccounts howing shows_nil
      exact (Reported.after h₁ shows_nil hopened).congr rfl rfl
  · rcases hcharged with hd | ⟨-, hdebt, -⟩
    · refine (finalize_keeps c _ p.id).seq fun s₂ h₂ => ?_
      refine .deposit ((h₁.trans hd).trans h₂) h.free (shows_one ?_ (fun _ => rfl) trivial)
      show -(taxAmount : Int) = _
      rw [Int.zero_add, Int.add_zero]
    · rw [hdebt] at hb
      exact absurd rfl hb

theorem landOnRest_books (h : Ready s p) (purchasable : Bool) (ownership : SpaceOwnership)
    (rng : Rng) :
    Ensures (landOnRest s p purchasable ownership rng) fun L =>
      Reported goSalary p.id s L.events L.state :=
  (finalize_keeps s _ p.id).seq fun _ h₁ => .deposit h₁ h.free shows_nil

theorem landOnRent_books (h : Ready s p) (diceRoll : DiceRoll) (boardSpace : BoardSpace)
    {ownerId : PlayerId} (howner : ownerId ≠ p.id)
    (hspace : ∃ o ∈ s.spaces, o.ownerId = some ownerId) (rentMultiplier : Nat) (rng : Rng) :
    Ensures (landOnRent s p diceRoll boardSpace ownerId rentMultiplier rng) fun L =>
      Reported goSalary p.id s L.events L.state := by
  refine .after fun owner hfound => ?_
  obtain ⟨hmem, rfl⟩ := getPlayer_account hfound
  refine (calculateRent_nonneg _ _ _ _).seq fun rent hrent => ?_
  refine (finalize_keeps s _ p.id).seq fun s₁ h₁ => ?_
  have hready := h.same h₁
  have hseated : owner.account ∈ s₁.accounts := by
    rw [h₁.accounts, editSeat_credit_zero]
    exact hmem
  refine (attemptPayment_charges hready.ids).seq fun c hc => ?_
  obtain ⟨hpaid, howed⟩ := hc.rent hready p.displayName boardSpace.name p.position hrent howner
    hseated (h₁.spaces ▸ hspace)
  simp only [sat_ite]
  refine ⟨fun hb => ?_, fun hb => ?_⟩
  · have hopened : Reported goSalary p.id s₁ [] c := howed (Option.isSome_iff_ne_none.mp hb)
    exact (Reported.after h₁ shows_nil hopened).congr rfl rfl
  · have hrented : Reported goSalary p.id s₁ [.rentPaid p.id p.displayName owner.id
        owner.displayName p.position boardSpace.name rent] c := hpaid (by simpa using hb)
    exact (Reported.after h₁ shows_nil hrented).congr rfl rfl

/-- A space that draws no card and charges no tax. -/
theorem landOnSpace_books (h : Ready s p) (diceRoll : DiceRoll) (boardSpace : BoardSpace)
    (rentMultiplier : Nat) (rng : Rng) :
    Ensures (landOnSpace s p diceRoll boardSpace rentMultiplier rng) fun L =>
      Reported goSalary p.id s L.events L.state := by
  refine .after fun ownership hat => .after fun purchasable _ => ?_
  have hrest : Ensures (landOnRest s p purchasable ownership rng) fun L =>
      Reported goSalary p.id s L.events L.state :=
    landOnRest_books h purchasable ownership rng
  obtain ⟨i, -, hi, -⟩ := spaceAt_found hat
  cases howner : ownership.ownerId with
  | none => exact hrest
  | some ownerId =>
      simp only [sat_ite]
      refine ⟨fun hrent => ?_, fun _ => hrest⟩
      exact landOnRent_books h diceRoll boardSpace hrent.2.1
        ⟨ownership, List.mem_of_getElem? hi, howner⟩ rentMultiplier rng

theorem drawAndApply_books (hland : land.Books goSalary) (h : Ready s p) (kind : CardKind)
    (depth : Nat) (rng : Rng) :
    Ensures (drawAndApply land goSalary s p kind depth rng) fun x =>
      Reported goSalary p.id s x.1.events x.1.state := by
  refine (drawCard_deposits s kind rng p.id).seq fun drawn hdrawn => ?_
  obtain ⟨h₁, hcard⟩ := hdrawn
  refine .after fun q hq => ?_
  obtain ⟨hready, hid⟩ := Ready.of_getPlayer (h₁.ids h.ids) (h₁.bankruptcy.trans h.free) hq
  refine (applyCardEffect_books hland hready hcard p.id p.displayName drawn.2.1.kind depth
    drawn.2.2).seq fun L hL => ?_
  rw [hid] at hL
  exact Reported.after h₁ shows_nil hL

theorem landOnCard_books (hland : land.Books goSalary) (h : Ready s p) (kind : CardKind)
    (depth : Nat) (rng : Rng) :
    Ensures (landOnCard land goSalary s p kind depth rng) fun L =>
      Reported goSalary p.id s L.events L.state := by
  refine (finalize_keeps s _ p.id).seq fun s₁ h₁ => .after fun q hq => ?_
  obtain ⟨hready, hid⟩ := Ready.of_getPlayer (h₁.ids h.ids) (h₁.bankruptcy.trans h.free) hq
  refine (drawAndApply_books hland hready kind depth rng).seq fun drawn hdrawn => ?_
  rw [hid] at hdrawn
  have hbooked := Reported.after h₁ shows_nil hdrawn
  simp only [sat_ite]
  exact ⟨fun _ => hbooked.congr rfl rfl, fun _ => hbooked.congr rfl rfl⟩

/-- Every landing books what its events say, however many cards it draws. -/
theorem resolveLanding_books (diceRoll : DiceRoll) (goSalary : Int) (fuel : Nat) :
    Lander.Books goSalary (resolveLanding diceRoll goSalary fuel) :=
  resolveLanding_ensures (fun _ _ rng h => landOnGoToJail_books h rng)
    (fun _ _ amount rng h => landOnTax_books h amount rng)
    (fun _ hland _ _ kind depth rng h => landOnCard_books hland h kind depth rng)
    (fun _ _ boardSpace rentMultiplier rng h =>
      landOnSpace_books h diceRoll boardSpace rentMultiplier rng) fuel

end Landings

/-! ## rolls -/

/-- The bail a roll of `p` deducts: that of the third failed roll. -/
def bailDue (s : GameState) (p : PlayerState) (rng : Rng) (jailFine : Int) : Int :=
  match p.jailStatus with
  | some jail =>
      if (diceOf s.gameMode rng).isDoubles ∨ 0 < jail.turnsRemaining - 1 then 0 else jailFine
  | none => 0

section Rolls

variable {s : GameState} {p : PlayerState} {r : PlayerId} {goSalary jailFine a b : Int}
  {rng : Rng} {debt : Option BankruptcyState} {events shown : List GameEvent}

theorem walk_books (h : Ready s p) (steps : Nat) :
    Ensures (walk s p steps goSalary) fun x => Ready x.1 x.2.1 ∧ x.2.1.id = p.id ∧
      ∀ events s', Reported goSalary p.id x.1 events s' →
        Reported goSalary p.id s (x.2.2 ++ events) s' := by
  refine .after fun advanced _ => ?_
  obtain ⟨newPos, passedGo⟩ := advanced
  refine (assignPlayer_view (v := { p with position := newPos }) (g := credit 0) account_id h.ids
    h.seated rfl (credit_zero _).symm).seq fun players hplayers => ?_
  have h₁ : Deposited p.id 0 s { s with players } := ⟨hplayers, rfl, rfl⟩
  have hmoved : Ready { s with players } { p with position := newPos } :=
    h.deposited h₁ (credit_zero _).symm
  refine (collectGoBonus_shows hmoved passedGo).seq fun collected hcollected => ?_
  obtain ⟨hready, hid, amount, h₂, hshows⟩ := hcollected
  refine ⟨hready, hid, fun events s' hb => ?_⟩
  have hcollected : Reported goSalary p.id { s with players }
      (.playerMoved p.id p.displayName p.token p.position newPos steps .dice ::
        collected.2.2 ++ events) s' :=
    .after h₂ ((hshows p.id s'.bankruptcy).cons rfl (fun _ => rfl) trivial) hb
  exact hcollected.kept h₁

theorem executeMove_books (h : Ready s p) (diceRoll : DiceRoll) (extraRollAllowed : Bool)
    (rng : Rng) :
    Ensures (executeMove s p diceRoll extraRollAllowed rng goSalary) fun x =>
      Reported goSalary p.id s x.1.2 x.1.1 := by
  refine (walk_books h _).seq fun walked hwalked => ?_
  obtain ⟨hready, hid, hwalk⟩ := hwalked
  refine (resolveLanding_books diceRoll goSalary landingFuel _ _ 0 1 rng hready).seq
    fun L hL => ?_
  rw [hid] at hL
  have hdoubles (debt : Option BankruptcyState) : Shows goSalary walked.1 p.id debt
      (if diceRoll.isDoubles && extraRollAllowed then [.rolledDoubles p.id p.displayName
        (if diceRoll.isDoubles then s.turn.doublesStreak + 1 else 0)] else []) 0 := by
    split
    · exact shows_one rfl (fun _ => rfl) trivial
    · exact shows_nil
  have hbooked := hwalk _ _ (Reported.after (.refl p.id walked.1) (hdoubles _) hL)
  rw [← List.append_assoc] at hbooked
  exact hbooked.congr rfl rfl

theorem rollFree_books (h : Ready s p) (diceRoll : DiceRoll) (rng : Rng) :
    Ensures (rollFree s p diceRoll rng goSalary) fun x =>
      Reported goSalary p.id s x.1.2 x.1.1 := by
  simp only [rollFree, sat_ite]
  refine ⟨fun _ => ?_, fun _ => executeMove_books h _ _ _⟩
  refine (storePlayer_deposits (v := sendToJail p s.gameMode) h.ids h.seated rfl
    (credit_zero _).symm).seq fun s₁ h₁ => ?_
  have hsent : Reported goSalary p.id s [.sentToJail p.id p.displayName .doubles] s₁ :=
    .deposit h₁ h.free (shows_one rfl (fun _ => rfl) trivial)
  exact hsent.congr rfl rfl

theorem rollInJail_books (h : Ready s p) {jail : JailStatus} (hjail : p.jailStatus = some jail) :
    Ensures (rollInJail s p jail (diceOf s.gameMode rng) (afterDice s.gameMode rng) goSalary
      jailFine) fun x =>
      Booked p.id (bankTotal goSalary s p.id x.1.1.bankruptcy x.1.2 - bailDue s p rng jailFine) s
        x.1.2 x.1.1 := by
  simp only [rollInJail, sat_ite, bailDue, hjail]
  refine ⟨fun hd => ?_, fun hd => ⟨fun hleft => ?_, fun hleft => ?_⟩⟩
  · have hready : Ready s { p with jailStatus := none } := ⟨h.ids, h.free, h.seated⟩
    simp only [hd, true_or, if_true, Int.sub_zero]
    exact executeMove_books hready _ _ _
  · refine (storePlayer_deposits (v := { p with
      jailStatus := some { turnsRemaining := jail.turnsRemaining - 1 } }) h.ids h.seated rfl
      (credit_zero _).symm).seq fun s₁ h₁ => ?_
    have hstayed : Reported goSalary p.id s [] s₁ := .deposit h₁ h.free shows_nil
    simp only [hleft, or_true, if_true, Int.sub_zero]
    exact hstayed.congr rfl rfl
  · -- the bail has no event
    refine (storePlayer_deposits (a := -jailFine) (v := { p with
      jailStatus := none, balance := p.balance - jailFine }) h.ids h.seated rfl rfl).seq
      fun s₁ h₁ => ?_
    have hready : Ready s₁ { p with jailStatus := none, balance := p.balance - jailFine } :=
      h.deposited h₁ rfl
    refine (executeMove_books hready _ _ _).imp fun x hx => ?_
    have hbooked : Booked p.id (-jailFine + _) s ([] ++ x.1.2) x.1.1 :=
      .after h₁ (fun _ => rfl) (by simp) hx
    have hbail : ¬((diceOf s.gameMode rng).isDoubles = true ∨ 0 < jail.turnsRemaining - 1) := by
      rintro (h | h)
      · exact hd h
      · exact hleft h
    rw [if_neg hbail, Int.sub_eq_add_neg, Int.add_comm, ← h₁.bankTotal]
    exact hbooked

theorem handleRollDice_books (hids : (s.players.map (·.id)).Nodup) (hfree : s.bankruptcy = none)
    (r : PlayerId) :
    Ensures (handleRollDice s r rng goSalary jailFine) fun x => ∃ p ∈ s.players, p.id = r ∧
      Booked r (bankTotal goSalary s r x.1.1.bankruptcy x.1.2 - bailDue s p rng jailFine) s
        x.1.2 x.1.1 := by
  refine .after fun _ _ => .after fun p hp => .after fun _ _ => ?_
  obtain ⟨hready, rfl⟩ := Ready.of_getPlayer hids hfree hp
  obtain ⟨hmem, -⟩ := getPlayer_found hp
  cases hjail : p.jailStatus with
  | none =>
      have hnone : bailDue s p rng jailFine = 0 := by simp only [bailDue, hjail]
      refine (rollFree_books hready (diceOf s.gameMode rng) (afterDice s.gameMode rng)).imp
        fun x hx => ⟨p, hmem, rfl, ?_⟩
      rw [hnone, Int.sub_zero]
      exact hx
  | some jail => exact (rollInJail_books hready hjail).imp fun x hx => ⟨p, hmem, rfl, hx⟩

end Rolls

/-! ## the law -/

/-- Distinct ids, no pending debt, and records of ownership that agree:
whoever a space names lists it, and nobody who is out of the game lists
any. -/
structure Tabled (s : GameState) : Prop where
  ids : (s.players.map (·.id)).Nodup
  free : s.bankruptcy = none
  titles : ∀ o ∈ s.spaces, ∀ pid ∈ o.ownerId,
    ∃ p ∈ s.players, p.id = pid ∧ o.position ∈ p.ownedPositions
  broke : ∀ p ∈ s.players, p.isBankrupt = true → p.ownedPositions = []

section Law

variable {s s' m : GameState} {r : PlayerId} {env : Env} {events : List GameEvent} {rng : Rng}
  {income : Int} {p : PlayerState}

/-- The end of a call leaves the cash alone when no debt can be settled. -/
theorem finishCommand_books (hids : (m.players.map (·.id)).Nodup) (howing : Owing m)
    (command : GameCommand) :
    Ensures (finishCommand s command env m events) fun s' =>
      s'.accounts = m.accounts ∧ s'.bankruptcy = m.bankruptcy := by
  have hkept {a : GameState} (h : Tidied m a) :
      a.accounts = m.accounts ∧ a.bankruptcy = m.bankruptcy :=
    ⟨accounts_of_same h.seats_eq, h.bankruptcy⟩
  by_cases hreply : command.isReply = true
  · exact (finishCommand_reply hreply events).imp fun _ h => hkept h
  · refine (finishCommand_stages hreply events).imp ?_
    rintro s' ⟨b, n, htidy, hsettle, hs'⟩
    have hids' := nodup_of_accounts (congrArg _ (hkept htidy).1) hids
    have howing' : Owing b := by
      intro debt hdebt
      rw [htidy.cash]
      exact howing debt (htidy.bankruptcy ▸ hdebt)
    obtain rfl := (trySettleDebt_owing hids' howing').of_ok hsettle
    have hwon {a : GameState} : (checkWinCondition a).accounts = a.accounts ∧
        (checkWinCondition a).bankruptcy = a.bankruptcy := by
      unfold checkWinCondition
      split <;> exact ⟨rfl, rfl⟩
    exact ⟨(accounts_of_same hs'.seats_eq).trans (hwon.1.trans (hkept htidy).1),
      hs'.bankruptcy.trans (hwon.2.trans (hkept htidy).2)⟩

theorem Booked.ids (hb : Booked r income s events m) (hids : (s.players.map (·.id)).Nodup) :
    (m.players.map (·.id)).Nodup := by
  refine nodup_of_accounts ?_ hids
  rw [hb.accounts]
  exact ids_map (f := fun p => credit (entry r income events s.accounts p) p) fun _ _ => rfl

/-- The sum of the balances changes by the income. -/
theorem Booked.total (hb : Booked r income s events s') (hids : (s.players.map (·.id)).Nodup)
    (hp : p ∈ s.players) (hr : p.id = r) :
    (s'.players.map (·.balance)).sum = (s.players.map (·.balance)).sum + income := by
  have hkeys := nodup_accounts hids
  have hbalances (players : List PlayerState) :
      players.map (·.balance) = (accountsOf players).map (·.balance) := by
    rw [accountsOf, List.map_map]
    rfl
  have hone := sum_at_key PlayerState.id hkeys (a := p.account) (List.mem_map_of_mem hp)
    (income - (s.accounts.map (paidTo r events)).sum)
  rw [account_id, hr] at hone
  rw [hbalances, hbalances s.players, show accountsOf s'.players = _ from hb.accounts,
    List.map_map]
  show (s.accounts.map fun q => q.balance + entry r income events s.accounts q).sum = _
  have hcancel : ∀ x y : Int, x + (y + (income - y)) = x + income := fun x y => by omega
  simp only [entry, List.sum_map_add, hone]
  exact hcancel _ _

/-- Everybody's balance changes by their entry. -/
theorem Booked.cash (hb : Booked r income s events s') (hids : (s.players.map (·.id)).Nodup)
    (hp : p ∈ s.players) :
    s'.cash p.id = p.balance + entry r income events s.accounts p.account := by
  have hkeys := nodup_accounts hids
  have hfind := find?_key PlayerState.id hkeys (a := p.account) (List.mem_map_of_mem hp)
  rw [account_id] at hfind
  have hsame : ((fun q : PlayerState => decide (q.id = p.id)) ∘ fun q =>
      credit (entry r income events s.accounts q) q) = fun q => decide (q.id = p.id) := rfl
  rw [cash_eq_find, hb.accounts, List.find?_map, hsame, hfind]
  rfl

theorem apply_rollDice_books (hids : (s.players.map (·.id)).Nodup) (hfree : s.bankruptcy = none)
    (happly : apply s (.rollDice r) env = .ok ((s', events), rng)) :
    ∃ p ∈ s.players, p.id = r ∧
      Booked r (bankTotal env.goSalary s r s'.bankruptcy events -
        bailDue s p env.rng env.jailFine) s events s' := by
  suffices hensures : Ensures (apply s (.rollDice r) env) fun x => ∃ p ∈ s.players, p.id = r ∧
      Booked r (bankTotal env.goSalary s r x.1.1.bankruptcy x.1.2 -
        bailDue s p env.rng env.jailFine) s x.1.2 x.1.1 from ensures_iff.mp hensures _ happly
  refine .after fun _ _ => (handleRollDice_books hids hfree r).seq fun x hx => ?_
  obtain ⟨⟨m, events⟩, rng⟩ := x
  obtain ⟨p, hp, hr, hb⟩ := hx
  refine (finishCommand_books (hb.ids hids) hb.owing _).seq fun s' hs' => ⟨p, hp, hr, ?_⟩
  have hbooked := hb.congr hs'.1 hs'.2
  rw [← hs'.2] at hbooked
  exact hbooked

theorem paysTo_account (p : PlayerState) (e : GameEvent) : e.paysTo p.account = e.paysTo p := by
  cases e <;> rfl

theorem paidTo_account (r : PlayerId) (events : List GameEvent) (p : PlayerState) :
    paidTo r events p.account = paidTo r events p := by
  simp only [paidTo, paysTo_account, account_id]

/-- A roll changes the cash by what its events say.  The bank pays the
salaries, the taxes and the cards, and takes the bail of the third failed
roll; the rest moves between the player and the others, by rent to the owner
and by the each-player cards, and whoever else is out of the game keeps what
they have. -/
theorem roll_cash_ledger (h : Tabled s)
    (happly : apply s (.rollDice r) env = .ok ((s', events), rng)) :
    ∃ p ∈ s.players, p.id = r ∧
      (s'.players.map (·.balance)).sum = (s.players.map (·.balance)).sum +
        bankTotal env.goSalary s r s'.bankruptcy events - bailDue s p env.rng env.jailFine ∧
      s'.cash r = p.balance + bankTotal env.goSalary s r s'.bankruptcy events -
        bailDue s p env.rng env.jailFine - (s.players.map (paidTo r events)).sum ∧
      (∀ e ∈ events, e.RentBy s r) ∧
      (∀ q ∈ s.players, q.id ≠ r → s'.cash q.id = q.balance + paidTo r events q) ∧
      ∀ q ∈ s.players, q.id ≠ r → q.isBankrupt = true → s'.cash q.id = q.balance := by
  obtain ⟨p, hp, rfl, hb⟩ := apply_rollDice_books h.ids h.free happly
  have hothers (q : PlayerState) (hq : q ∈ s.players) (hne : q.id ≠ p.id) :
      s'.cash q.id = q.balance + paidTo p.id events q := by
    rw [hb.cash h.ids hq, entry, paidTo_account, account_id, if_neg hne, Int.add_zero]
  have hshares : s.accounts.map (paidTo p.id events) = s.players.map (paidTo p.id events) := by
    rw [GameState.accounts, accountsOf, List.map_map]
    exact List.map_congr_left fun q _ => paidTo_account p.id events q
  refine ⟨p, hp, rfl, ?_, ?_, hb.rents, hothers, fun q hq hne hout => ?_⟩
  · rw [hb.total h.ids hp rfl]
    omega
  · have hzero : paidTo p.id events p.account = 0 := if_pos rfl
    rw [hb.cash h.ids hp, entry, hzero, account_id, if_pos rfl, hshares]
    omega
  · have hsilent : ∀ e ∈ events, e.paysTo q = 0 := by
      intro e he
      have hrent := hb.rents e he
      cases e with
      | rentPaid payerId _ ownerId _ _ _ amount =>
          obtain ⟨-, -, o, ho, howner⟩ := hrent
          obtain ⟨x, hx, hxid, hlists⟩ := h.titles o ho ownerId howner
          refine if_neg fun hid => ?_
          obtain rfl := eq_of_key_eq PlayerState.id h.ids hx hq (hxid.trans hid)
          rw [h.broke x hx hout] at hlists
          cases hlists
      | cardDrawn _ _ cardId _ =>
          simp only [GameEvent.paysTo]
          split <;> simp [hout]
      | _ => rfl
    have hnothing : (events.map (·.paysTo q)).sum = 0 :=
      List.sum_eq_zero fun x hx => by
        obtain ⟨e, he, rfl⟩ := List.mem_map.mp hx
        exact hsilent e he
    rw [hothers q hq hne, paidTo, if_neg hne, hnothing, Int.add_zero]

/-- Player `1` pays the income tax. -/
theorem roll_cash_ledger_income_tax : ∃ s s' events rng,
    apply s (.rollDice 1) (callAt 0 [0, 2] (.rollDice 1)).env = .ok ((s', events), rng) ∧
      (s'.players.map (·.balance)).sum = (s.players.map (·.balance)).sum - 200 := by
  obtain ⟨s, s', events, rng, hcheck, happly⟩ := exists_call (duo 1500) id
    (callAt 0 [0, 2] (.rollDice 1))
    (fun s s' events => decide ((s.players.map PlayerState.id).Nodup ∧ s.bankruptcy = none ∧
      (∀ o ∈ s.spaces, o.ownerId = none) ∧ (∀ p ∈ s.players, p.isBankrupt = false) ∧
      (∀ p ∈ s.players, p.jailStatus = none) ∧
      bankTotal 200 s 1 s'.bankruptcy events = -200)) (by decide +kernel)
  obtain ⟨hids, hfree, hunowned, hactive, hfreed, htotal⟩ := of_decide_eq_true hcheck
  have htabled : Tabled s := by
    refine ⟨hids, hfree, fun o ho pid hpid => ?_, fun p hp hout => ?_⟩
    · rw [hunowned o ho] at hpid
      cases hpid
    · rw [hactive p hp] at hout
      cases hout
  refine ⟨s, s', events, rng, happly, ?_⟩
  obtain ⟨p, hp, -, hsum, -⟩ := roll_cash_ledger htabled happly
  have hbail : bailDue s p ⟨[0, 2]⟩ 50 = 0 := by
    rw [bailDue, hfreed p hp]
  rw [hsum, show bankTotal (callAt 0 [0, 2] (.rollDice 1)).env.goSalary s 1 s'.bankruptcy events =
    -200 from htotal, show bailDue s p (callAt 0 [0, 2] (.rollDice 1)).env.rng
      (callAt 0 [0, 2] (.rollDice 1)).env.jailFine = 0 from hbail]
  omega

/-- A game in progress that is played by the rules so far as the cash is
concerned. -/
structure RegularTable (s : GameState) : Prop extends Tabled s where
  playing : s.status = .inProgress
  active : 2 ≤ (s.players.filter fun p => ¬p.isBankrupt).length
  funded : ∀ p ∈ s.players, 0 ≤ p.balance
  deeds : ∀ p ∈ s.players, ∀ pos ∈ p.ownedPositions,
    ∃ o ∈ s.spaces, o.position = pos ∧ o.ownerId = some p.id
  standing : ∀ p ∈ s.players, OnBoard s.gameMode p.position
  chance : ∀ id ∈ s.chanceDeck, id ∈ fullDeck .chance s.gameMode
  chest : ∀ id ∈ s.chestDeck, id ∈ fullDeck .communityChest s.gameMode

/-- Player `1` is out of the game, and about to pass GO. -/
def outBeforeGo (s : GameState) : GameState :=
  { s with players := s.players.map fun p =>
      if p.id = 1 then { p with isBankrupt := true, balance := 0, position := 40 } else p }

/-- Nothing keeps the turn from a player who is out: they roll, and collect
the salary. -/
theorem eliminated_roller_collects : ∃ s s' events rng, RegularTable s ∧
    apply s (.rollDice 1) (callAt 0 [0, 2] (.rollDice 1)).env = .ok ((s', events), rng) ∧
      ∃ p ∈ s.players, p.isBankrupt = true ∧ s'.cash p.id ≠ p.balance := by
  obtain ⟨s, s', events, rng, hcheck, happly⟩ := exists_call (trio 1500) outBeforeGo
    (callAt 0 [0, 2] (.rollDice 1))
    (fun s s' _ => decide ((s.players.map PlayerState.id).Nodup ∧ s.bankruptcy = none ∧
      (∀ o ∈ s.spaces, o.ownerId = none) ∧ (∀ p ∈ s.players, p.ownedPositions = []) ∧
      s.status = .inProgress ∧ 2 ≤ (s.players.filter fun p => ¬p.isBankrupt).length ∧
      (∀ p ∈ s.players, 0 ≤ p.balance) ∧ (∀ p ∈ s.players, OnBoard s.gameMode p.position) ∧
      (∀ id ∈ s.chanceDeck, id ∈ fullDeck .chance s.gameMode) ∧
      (∀ id ∈ s.chestDeck, id ∈ fullDeck .communityChest s.gameMode) ∧
      ∃ p ∈ s.players, p.isBankrupt = true ∧ s'.cash p.id ≠ p.balance)) (by decide +kernel)
  obtain ⟨hids, hfree, hunowned, hempty, hplaying, hactive, hfunded, hstanding, hchance, hchest,
    hpaid⟩ := of_decide_eq_true hcheck
  refine ⟨s, s', events, rng, ?_, happly, hpaid⟩
  refine ⟨⟨hids, hfree, fun o ho pid hpid => ?_, fun p hp _ => hempty p hp⟩, hplaying, hactive,
    hfunded, fun p hp pos hpos => ?_, hstanding, hchance, hchest⟩
  · rw [hunowned o ho] at hpid
    cases hpid
  · rw [hempty p hp] at hpos
    cases hpos

end Law

end Monopoly
