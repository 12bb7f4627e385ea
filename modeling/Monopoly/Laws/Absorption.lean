import Monopoly.Spec.Replay

/-!
# Monopoly.Laws.Absorption

An eliminated player stays eliminated, with nothing left and named by
nothing that is pending, as long as nobody goes out whom a pending record
still names, and no eliminated player is offered a trade or rolls.
-/

namespace Monopoly

/-- Eliminated players have nothing, and what is pending brings them
nothing. -/
structure Departed (s : GameState) : Prop where
  stripped : ∀ p ∈ s.seats, p.isBankrupt = true → Stripped p
  bidder : ∀ a b, s.auction = some a → a.highestBidderId = some b → Active s b
  parties : ∀ t, s.trade = some t → Active s t.proposerId ∧ Active s t.targetId
  creditor : ∀ debt c, s.bankruptcy = some debt → debt.creditorId = some c →
    Active s debt.debtorId → Active s c

/-- The call takes nobody out whom a pending record names, and names no
eliminated player as a party of a trade or as the roller. -/
structure LeavesCleanly (s : GameState) (call : Call) : Prop where
  bidder : Eliminating s call.env call.command → ∀ a, s.auction = some a →
    a.highestBidderId ≠ some s.turn.currentPlayerId
  parties : Eliminating s call.env call.command → ∀ t, s.trade = some t →
    t.proposerId ≠ s.turn.currentPlayerId ∧ t.targetId ≠ s.turn.currentPlayerId
  creditor : Eliminating s call.env call.command → ∀ debt, s.bankruptcy = some debt →
    debt.creditorId = some s.turn.currentPlayerId → ¬ Active s debt.debtorId
  traders : ∀ pid target offer request, call.command = .proposeTrade pid target offer request →
    Active s pid ∧ Active s target
  roller : ∀ pid, call.command = .rollDice pid → Active s pid

/-! ## one call -/

section Calls

variable {s m e : GameState} {p d : PlayerState} {pid : PlayerId} {env : Env}
  {command : GameCommand} {f : PlayerState → PlayerState}

theorem Active.standing (hids : (s.seats.map (·.id)).Nodup) (h : Active s pid) (hp : p ∈ s.seats)
    (hid : p.id = pid) : p.isBankrupt = false := by
  obtain ⟨q, hq, hqid, hact⟩ := h
  rwa [eq_of_key_eq PlayerState.id hids hp hq (hid.trans hqid.symm)]

namespace Departed

theorem active_of (h : Departed s) (hp : p ∈ s.seats) (hnot : ¬ Stripped p) : Active s p.id :=
  ⟨p, hp, rfl, Bool.eq_false_iff.mpr fun hout => hnot (h.stripped p hp hout)⟩

/-- Owners are in the game. -/
theorem owner_active (hs : Sound s) (h : Departed s) {pos : Nat}
    (howner : (ownershipAt s.spaces pos).ownerId = some pid) : Active s pid := by
  by_cases hpos : OnBoard s.gameMode pos
  · obtain ⟨p, hp, rfl, hmem⟩ := hs.title hpos howner
    refine h.active_of hp fun hstripped => ?_
    rw [hstripped.owned] at hmem
    simp at hmem
  · rw [ownershipAt_off hs.layout hpos] at howner
    cases howner

/-- The roster stays, eliminated players get nothing, and the pending records
name players who were active. -/
theorem of_frame (h : Departed s) (hf : KeepsRoster f) (hseats : m.seats = s.seats.map f)
    (hstill : ∀ p ∈ s.seats, p.isBankrupt = true → f p = p)
    (hbidder : ∀ a b, m.auction = some a → a.highestBidderId = some b → Active s b)
    (hparties : ∀ t, m.trade = some t → Active s t.proposerId ∧ Active s t.targetId)
    (hcreditor : ∀ debt c, m.bankruptcy = some debt → debt.creditorId = some c →
      Active s debt.debtorId → Active s c) : Departed m where
  stripped q hq hout := by
    rw [hseats] at hq
    obtain ⟨p, hp, rfl⟩ := List.mem_map.mp hq
    rw [hf.bankrupt] at hout
    rw [hstill p hp hout]
    exact h.stripped p hp hout
  bidder a b ha hb := (hbidder a b ha hb).map hf hseats
  parties t ht := ⟨(hparties t ht).1.map hf hseats, (hparties t ht).2.map hf hseats⟩
  creditor debt c hdebt hc hdebtor :=
    (hcreditor debt c hdebt hc (hdebtor.of_map hf hseats)).map hf hseats

/-- No seat changes. -/
theorem of_seats (h : Departed s) (hseats : m.seats = s.seats)
    (hbidder : ∀ a b, m.auction = some a → a.highestBidderId = some b → Active s b)
    (hparties : ∀ t, m.trade = some t → Active s t.proposerId ∧ Active s t.targetId)
    (hdebt : m.bankruptcy = s.bankruptcy) : Departed m :=
  h.of_frame .refl (hseats.trans (List.map_id' _).symm) (fun _ _ _ => rfl) hbidder hparties
    fun debt c hd => h.creditor debt c (hdebt ▸ hd)

/-- The seat of one active player changes. -/
theorem of_edit (hids : (s.seats.map (·.id)).Nodup) (h : Departed s) (hactive : Active s pid)
    (hf : KeepsRoster f) (hseats : m.seats = editSeat pid f s.seats)
    (hbidder : ∀ a b, m.auction = some a → a.highestBidderId = some b → Active s b)
    (htrade : m.trade = s.trade) (hdebt : m.bankruptcy = s.bankruptcy) : Departed m := by
  refine h.of_frame (hf.edit pid) hseats (fun p hp hout => if_neg fun hid => ?_) hbidder
    (fun t ht => h.parties t (htrade ▸ ht)) fun debt c hd => h.creditor debt c (hdebt ▸ hd)
  rw [hactive.standing hids hp hid] at hout
  cases hout

end Departed

theorem RollFrame.departed (hs : Sound s) (h : Departed s) (hactive : Active s pid)
    (hr : RollFrame pid s m) : Departed m := by
  obtain ⟨f, hseats, hf, -, hstill⟩ := hr.seats
  have hauction : m.auction = s.auction := by rw [hr.frame]
  have htrade : m.trade = s.trade := by rw [hr.frame]
  refine h.of_frame hf.toKeepsRoster hseats (fun p hp hout => ?_)
    (fun a b ha => h.bidder a b (hauction ▸ ha)) (fun t ht => h.parties t (htrade ▸ ht)) ?_
  · have hne : p.id ≠ pid := fun hid => by
      rw [hactive.standing hs.ids hp hid] at hout
      cases hout
    have hunlanded : Unlanded s p.id := fun pos howner => by
      rw [(h.owner_active hs howner).standing hs.ids hp rfl] at hout
      cases hout
    exact hstill p hout hne hunlanded
  · intro debt c hdebt hc hdebtor
    rcases hr.debt with hsame | ⟨-, debt', hdebt', -, -, -, howner⟩
    · exact h.creditor debt c (hsame ▸ hdebt) hc hdebtor
    · obtain rfl := Option.some.inj (hdebt'.symm.trans hdebt)
      obtain ⟨-, pos, hpos⟩ := howner c hc
      exact h.owner_active hs hpos

/-- Nobody is left behind when the current player `d` goes out. -/
theorem Eliminated.departed (hw : WellFormed s) (h : Departed s) (hd : d ∈ s.seats)
    (hcurrent : d.id = s.turn.currentPlayerId) (hclean : LeavesCleanly s ⟨command, env⟩)
    (hout : Eliminating s env command) (he : Eliminated s d command e) : Departed e := by
  obtain ⟨heir, f, g, hheir, hr⟩ := he.removal hw
  have hstays {pid : PlayerId} (h : Active s pid) (hne : pid ≠ d.id) : Active e pid := by
    obtain ⟨p, hp, rfl, hact⟩ := h
    refine ⟨f p, hr.seats ▸ List.mem_map_of_mem hp, hr.id p, ?_⟩
    simp [hr.bankrupt, hact, hne]
  have hbefore {pid : PlayerId} (h : Active e pid) : Active s pid := by
    obtain ⟨q, hq, hid, hact⟩ := h
    rw [hr.seats] at hq
    obtain ⟨p, hp, rfl⟩ := List.mem_map.mp hq
    rw [hr.bankrupt] at hact
    exact ⟨p, hp, (hr.id p).symm.trans hid, (Bool.or_eq_false_iff.mp hact).1⟩
  refine ⟨fun q hq hbankrupt => ?_, fun a b ha hb => ?_, fun t ht => ?_,
    fun debt c hdebt hc hact => ?_⟩
  · rw [hr.seats] at hq
    obtain ⟨p, hp, rfl⟩ := List.mem_map.mp hq
    by_cases hpd : p.id = d.id
    · exact hr.stripped p hpd
    · have hpout : p.isBankrupt = true := by simpa [hr.bankrupt, hpd] using hbankrupt
      have hp' := h.stripped p hp hpout
      refine (hr.bystander p hpout hpd ?_).symm ▸ hp'
      -- an eliminated heir is the creditor of a debtor who is out as well
      by_cases hp_heir : heir = some p.id
      · obtain ⟨debt, hdebt, hdebtor, hc⟩ := hheir _ hp_heir
        refine .inr ⟨?_, hp'.owned⟩
        by_contra hd'
        have := (h.creditor debt _ hdebt hc (hdebtor ▸ h.active_of hd hd')).standing hw.ids hp rfl
        simp [hpout] at this
      · exact .inl hp_heir
  · rw [hr.frame] at ha
    refine hstays (h.bidder a b ha hb) fun hbd => ?_
    exact hclean.bidder hout a ha (by rw [hb, hbd, hcurrent])
  · rw [hr.frame] at ht
    obtain ⟨hp, htarget⟩ := h.parties t ht
    obtain ⟨hpd, htd⟩ := hclean.parties hout t ht
    exact ⟨hstays hp (hcurrent ▸ hpd), hstays htarget (hcurrent ▸ htd)⟩
  · rcases hr.debt with hnone | hsame
    · rw [hnone] at hdebt
      cases hdebt
    · rw [hsame] at hdebt
      refine hstays (h.creditor debt c hdebt hc (hbefore hact)) fun hcd => ?_
      exact hclean.creditor hout debt hdebt (by rw [hc, hcd, hcurrent]) (hbefore hact)

theorem AfterElimination.departed (h : Departed e) (ha : AfterElimination e m) : Departed m := by
  have hframe := ha.frame
  have hauction : m.auction = e.auction := by rw [hframe]
  have htrade : m.trade = e.trade := by rw [hframe]
  refine h.of_seats (by rw [hframe]; rfl) (fun a b ha => h.bidder a b (hauction ▸ ha))
    (fun t ht => h.parties t (htrade ▸ ht)) (by rw [hframe])

theorem TurnMoved.departed (h : Departed s) (ht : TurnMoved s m) : Departed m := by
  cases ht with
  | passed _ _ => exact h.of_seats rfl h.bidder h.parties rfl
  | nobody _ => exact h

/-- Who changes hands in a trade is active. -/
theorem Executed.departed (hids : (s.seats.map (·.id)).Nodup) (h : Departed s) {trade : TradeState}
    (htrade : s.trade = some trade) (hexec : Executed s trade m) : Departed m := by
  obtain ⟨hp, ht⟩ := h.parties trade htrade
  cases hexec with
  | mk _ _ hps =>
      refine h.of_frame ⟨swapSeat_id trade, swapSeat_isBankrupt trade⟩ hps (fun p hmem hout => ?_)
        h.bidder (by simp) h.creditor
      have hne {pid : PlayerId} (hact : Active s pid) : p.id ≠ pid := fun hid => by
        rw [hact.standing hids hmem hid] at hout
        cases hout
      rw [swapSeat, if_neg (hne hp), if_neg (hne ht)]

theorem Dispatched.departed (hw : WellFormed s) (h : Departed s) (hmay : MayAct s command)
    (hclean : LeavesCleanly s ⟨command, env⟩) (hd : Dispatched s env command m) : Departed m := by
  have hids := hw.ids
  cases hd with
  | rolled _ hp _ hr =>
      exact (hr.rollFrame hw.toSound).departed hw.toSound h (hclean.roller _ rfl)
  | @bought p position price ps _ hpending _ hprice hp hfunds hps =>
      obtain ⟨price', hprice', hpos⟩ := (hw.pending _ hpending).price_pos
      obtain rfl : price = price' := Option.some.inj (hprice.symm.trans hprice')
      have hact := h.active_of hp fun hs => by have := hs.balance; omega
      exact h.of_edit hids hact (.purchase _ _) hps h.bidder rfl rfl
  | passed _ _ =>
      refine h.of_seats rfl (fun a b ha hb => ?_) h.parties rfl
      obtain rfl := Option.some.inj ha
      cases hb
  | ended _ _ _ _ _ => exact h.of_seats rfl h.bidder h.parties rfl
  | bailed _ hp hjail _ hps =>
      have hact := h.active_of hp fun hs => hjail hs.jail
      exact h.of_edit hids hact (KeepsEstate.bail _).toKeepsRoster hps h.bidder rfl rfl
  | cardSpent _ hp hjail _ hps =>
      have hact := h.active_of hp fun hs => hjail hs.jail
      exact h.of_edit hids hact KeepsEstate.spendJailCard.toKeepsRoster hps h.bidder
        rfl rfl
  | reworked _ _ hr =>
      cases hr with
      | mk howner hps _ _ _ =>
          exact h.of_edit hids (h.owner_active hw.toSound howner)
            (KeepsEstate.credit _).toKeepsRoster hps h.bidder rfl rfl
  | proposed _ hprop =>
      have hparties := hclean.traders _ _ _ _ rfl
      cases hprop
      refine h.of_seats rfl h.bidder (fun t ht => ?_) rfl
      obtain rfl := Option.some.inj ht
      exact hparties
  | responded hresp =>
      cases hresp with
      | rejected _ _ => exact h.of_seats rfl h.bidder (by simp [dropTrade]) rfl
      | countered htrade _ _ _ =>
          have hparties := h.parties _ htrade
          refine h.of_seats rfl h.bidder (fun t ht => ?_) rfl
          obtain rfl := Option.some.inj ht
          exact hparties
      | accepted htrade _ _ hexec => exact hexec.departed hids h htrade
  | bid hbid =>
      cases hbid with
      | mk hauction _ hp hid hact _ _ =>
          refine h.of_seats rfl (fun a b ha hb => ?_) h.parties rfl
          obtain rfl := Option.some.inj ha
          obtain rfl := Option.some.inj hb
          exact ⟨_, hp, hid, hact⟩
  | bankrupted hdebt hdebtor hdm hl ha =>
      exact ha.departed ((Eliminated.bankrupted hdebt hdebtor hl).departed hw h hdm
        (hmay _ rfl rfl).symm hclean trivial)
  | surrendered hp hact hsurr ha =>
      exact ha.departed ((Eliminated.surrendered hact hsurr).departed hw h hp
        (hmay _ rfl rfl).symm hclean trivial)
  | auctionIdle _ | tradeIdle _ | timerIdle _ => exact h
  | auctioned _ hauction hr =>
      cases hr with
      | unsold _ hps => exact h.of_seats hps (by simp) h.parties rfl
      | sold hbidder hps =>
          exact h.of_edit hids (h.bidder _ _ hauction hbidder) (.award _ _) hps (by simp) rfl rfl
  | tradeLapsed _ _ => exact h.of_seats rfl h.bidder (by simp [dropTrade]) rfl
  | timerSkipped _ _ _ _ hps ht =>
      have h' : Departed { s with players := _ } := h.of_seats hps h.bidder h.parties rfl
      exact ht.departed h'
  | timerSpent _ _ _ _ _ hps => exact h.of_seats hps h.bidder h.parties rfl
  | timerForced hdue hp hid hmax hact hsurr ha =>
      have he : Eliminated s (PlayerState.bare _) .turnTimeout _ := .forced hact hsurr
      exact ha.departed (he.departed hw h (mem_seats hp) hid hclean
        ⟨hdue, _, hp, hid, hmax, hact⟩)

/-- A debt is settled between active players. -/
theorem Settled.departed (hw : WellFormed s) (h : Departed s) (hsettled : Settled s m) :
    Departed m := by
  cases hsettled with
  | free _ | owing _ _ => exact h
  | @paid debt ps hdebt hle hps =>
      have hformed := hw.debts debt hdebt
      obtain ⟨q, hq, hid⟩ := hformed.debtor
      have hdebtor : Active s debt.debtorId := by
        rw [← hid]
        refine h.active_of hq fun hstripped => ?_
        rw [← hid, hw.toSound.cash_seat hq, hstripped.balance] at hle
        exact absurd hle (Int.not_le.mpr hformed.owed)
      refine h.of_frame (KeepsEstate.transfer _ _ _).toKeepsRoster hps (fun p hp hout => ?_)
        h.bidder h.parties (by simp)
      have hne {pid : PlayerId} (hact : Active s pid) : p.id ≠ pid := fun heq => by
        rw [hact.standing hw.ids hp heq] at hout
        cases hout
      have hcreditor : debt.creditorId ≠ some p.id := fun hc =>
        hne (h.creditor debt _ hdebt hc hdebtor) rfl
      simp [transfer, hne hdebtor, hcreditor]

theorem Stepped.departed (hw : WellFormed s) (h : Departed s) (hmay : MayAct s command)
    (hclean : LeavesCleanly s ⟨command, env⟩) {s' : GameState} (hstep : Stepped s env command s') :
    Departed s' := by
  have htidy {a b : GameState} (ha : Departed a) (ht : Tidied a b) : Departed b := by
    cases ht with
    | mk hps => exact ha.of_seats hps ha.bidder ha.parties rfl
  cases hstep with
  | replied _ hd ht => exact htidy (hd.departed hw h hmay hclean) ht
  | played _ hd hsettled ht =>
      exact htidy (hsettled.departed (hd.wellFormed hw) (hd.departed hw h hmay hclean)) ht

/-- The player has been eliminated. -/
def Out (s : GameState) (pid : PlayerId) : Prop := ∃ p ∈ s.seats, p.id = pid ∧ p.isBankrupt = true

theorem Out.of_map (hid : ∀ p, (f p).id = p.id)
    (hout : ∀ p, p.isBankrupt = true → (f p).isBankrupt = true)
    (hseats : m.seats = s.seats.map f) (h : Out s pid) : Out m pid := by
  obtain ⟨p, hp, rfl, hbankrupt⟩ := h
  exact ⟨f p, hseats ▸ List.mem_map_of_mem hp, hid p, hout p hbankrupt⟩

/-- Nobody comes back into the game. -/
theorem Stepped.out {s' : GameState} (hw : WellFormed s) (hmay : MayAct s command)
    (hstep : Stepped s env command s') (h : Out s pid) : Out s' pid := by
  have hhandler {m : GameState} (hd : Dispatched s env command m) : Out m pid := by
    rcases hd.roster hw hmay with ⟨-, f, hf, hseats, -⟩ | ⟨-, d, e, -, -, he, ha⟩
    · exact h.of_map hf.id (fun p hp => (hf.bankrupt p).trans hp) hseats
    · obtain ⟨heir, f, g, -, hr⟩ := he.removal hw
      have hseats : m.seats = s.seats.map f := by
        rw [← hr.seats, show m.seats = e.seats by rw [ha.frame]; rfl]
      exact h.of_map hr.id (fun p hp => by simp [hr.bankrupt, hp]) hseats
  have hsame {a b : GameState} (hseats : b.seats = a.seats) (ha : Out a pid) : Out b pid := by
    obtain ⟨p, hp, hrest⟩ := ha
    exact ⟨p, hseats ▸ hp, hrest⟩
  cases hstep with
  | replied _ hd ht => exact hsame ht.seats_eq (hhandler hd)
  | played _ hd hsettled ht =>
      refine hsame ht.seats_eq ?_
      cases hsettled with
      | free _ | owing _ _ => exact hhandler hd
      | paid _ _ hps =>
          exact (hhandler hd).of_map (f := transfer _ _ _) (fun _ => rfl) (fun _ hp => hp) hps

end Calls

/-! ## every run -/

/-- What holds of an eliminated player. -/
structure Absorbed (s : GameState) (p : PlayerState) : Prop extends Stripped p where
  unlanded : ∀ o ∈ s.spaces, o.ownerId ≠ some p.id
  bidder : ∀ auction, s.auction = some auction → auction.highestBidderId ≠ some p.id
  parties : ∀ trade, s.trade = some trade → trade.proposerId ≠ p.id ∧ trade.targetId ≠ p.id
  turn : s.status = .inProgress → s.turn.currentPlayerId ≠ p.id

theorem Departed.absorbed {s : GameState} {p : PlayerState} (hw : WellFormed s) (hl : Live s)
    (h : Departed s) (hp : p ∈ s.players) (hout : p.isBankrupt = true) : Absorbed s p := by
  have hseat := mem_seats hp
  have hstripped := h.stripped _ hseat hout
  have hne {pid : PlayerId} (hact : Active s pid) : pid ≠ p.id := fun hid => by
    have hin : p.bare.isBankrupt = false := hact.standing hw.ids hseat hid.symm
    rw [bare_isBankrupt] at hin
    exact absurd hout (by simp [hin])
  refine ⟨⟨hstripped.balance, hstripped.owned, hstripped.cards, hstripped.jail⟩,
    fun o ho howner => ?_, fun a ha hb => hne (h.bidder a _ ha hb) rfl,
    fun t ht => ⟨hne (h.parties t ht).1, hne (h.parties t ht).2⟩, fun hin => hne (hl hin).1⟩
  have hat := ownershipAt_of_mem hw.layout ho
  rw [← hat] at howner
  exact hne (h.owner_active hw.toSound howner) rfl

/-- **Elimination is absorbing.** In every game whose calls leave cleanly an
eliminated player has nothing, owns no space, is named by no pending auction
or trade and does not have the turn; and whoever was eliminated before one
of the calls still is. -/
theorem elimination_absorbing {h : List (Taken GameState Call)} {s : GameState} (hplay : Play h s)
    (hclean : ∀ t ∈ h, LeavesCleanly t.before t.label) :
    (∀ p ∈ s.players, p.isBankrupt = true → Absorbed s p) ∧
    ∀ t ∈ h, ∀ p ∈ t.before.players, p.isBankrupt = true →
      ∃ q ∈ s.players, q.id = p.id ∧ q.isBankrupt = true := by
  obtain ⟨hw, hl⟩ := Play.formed hplay
  have hdeparted : Departed s := by
    refine Play.invariant_of (fun args s hopens => ?_)
      (fun s call s' hw _ hI hok hmay hstep => hstep.departed hw hI hmay hok) hplay hclean
    have hfresh := hopens.fresh
    refine ⟨fun p hp hout => ?_, fun a _ ha => ?_, fun t ht => ?_, fun debt _ hdebt => ?_⟩
    · rw [(hfresh.seats p hp).2.2.2.2.2] at hout
      cases hout
    · rw [hfresh.auction] at ha
      cases ha
    · rw [hfresh.trade] at ht
      cases ht
    · rw [hfresh.bankruptcy] at hdebt
      cases hdebt
  refine ⟨fun p hp hout => hdeparted.absorbed hw hl hp hout, fun t ht p hp hout => ?_⟩
  obtain ⟨q, hq, hid, hbankrupt⟩ : Out s p.id := by
    refine Run.persists (P := (Out · p.id)) (fun h s call s' hplay hP ha => ?_) hplay ht
      ⟨_, mem_seats hp, rfl, hout⟩
    obtain ⟨hw, hl⟩ := Play.formed hplay
    obtain ⟨hmay, hstep⟩ := ha.stepped hw hl
    exact hstep.out hw hmay hP
  obtain ⟨r, hr, rfl⟩ := exists_player hq
  exact ⟨r, hr, hid, hbankrupt⟩

/-- Player `1` bids on position `4` and surrenders to the two others before
the auction is resolved. -/
def bidderSurrenders : List Call :=
  [callAt 0 [0, 1] (.rollDice 1),
    callAt 0 [] (.passBuy 1),
    callAt 0 [] (.placeBid 1 10),
    callAt 0 [] (.surrender 1),
    callAt 40000 [] .advanceAuction]

/-- The auction hands position `4` to the player who is out, on credit. -/
theorem bidder_surrender_breaks_absorption :
    ∃ h s, Play h s ∧ h.reverse.map (·.label) = bidderSurrenders ∧ s.status = .inProgress ∧
      ∃ p ∈ s.players, p.isBankrupt = true ∧ p.balance = -10 ∧ p.ownedPositions = [4] ∧
        ¬ Absorbed s p := by
  obtain ⟨h, s, hplay, hlabels, hcheck⟩ := play_of_reaches (trio 1500) bidderSurrenders
    (fun _ s => decide (s.status = .inProgress) &&
      s.players.any fun p => decide (p.isBankrupt = true ∧ p.balance = -10 ∧
        p.ownedPositions = [4]))
    (by decide) (by decide +kernel)
  obtain ⟨hstatus, hany⟩ := (Bool.and_eq_true _ _).mp hcheck
  obtain ⟨p, hp, hchecked⟩ := List.any_eq_true.mp hany
  obtain ⟨hout, hbalance, howned⟩ := of_decide_eq_true hchecked
  refine ⟨h, s, hplay, hlabels, of_decide_eq_true hstatus, p, hp, hout, hbalance, howned, ?_⟩
  intro habsorbed
  rw [habsorbed.balance] at hbalance
  cases hbalance

/-- One of three players surrenders on the first turn. -/
theorem elimination_absorbing_first_surrender :
    ∃ h s, Play h s ∧ h.reverse.map (·.label) = [callAt 0 [] (.surrender 1)] ∧
      ∃ p ∈ s.players, p.isBankrupt = true ∧ Absorbed s p := by
  obtain ⟨h, s, hplay, hlabels, hcheck⟩ := play_of_reaches (trio 1500)
    [callAt 0 [] (.surrender 1)]
    (fun h s => (h.all fun (t : Taken GameState Call) => decide
      (t.before.auction = none ∧ t.before.trade = none ∧ t.before.bankruptcy = none)) &&
      s.players.any fun p => p.isBankrupt) (by decide) (by decide +kernel)
  obtain ⟨hquiet, hany⟩ := (Bool.and_eq_true _ _).mp hcheck
  obtain ⟨p, hp, hout⟩ := List.any_eq_true.mp hany
  refine ⟨h, s, hplay, hlabels, p, hp, hout,
    (elimination_absorbing hplay fun t ht => ?_).1 p hp hout⟩
  obtain ⟨hauction, htrade, hdebt⟩ := of_decide_eq_true (List.all_eq_true.mp hquiet t ht)
  have hcommand : t.label = callAt 0 [] (.surrender 1) := by
    simpa using label_mem_of_reverse hlabels ht
  exact ⟨by simp [hauction], by simp [htrade], by simp [hdebt], by simp [hcommand, callAt],
    by simp [hcommand, callAt]⟩

end Monopoly
