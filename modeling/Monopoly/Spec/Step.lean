import Monopoly.Spec.Preserve

/-!
# Monopoly.Spec.Step

One call of `apply` on a well formed state with a live turn: the handler,
the settlement of a payable debt, and the refresh of the display fields.
Both conditions are kept.
-/

namespace Monopoly

/-! ## the live turn -/

section Turn

variable {s e m : GameState} {pid : PlayerId}

theorem length_survivors_map {f : PlayerState → PlayerState} (hf : KeepsRoster f)
    (seats : List PlayerState) :
    (survivors (seats.map f)).length = (survivors seats).length := by
  simp only [survivors, List.filter_map, List.length_map]
  congr 1
  exact List.filter_congr fun p _ => by simp [hf.bankrupt]

theorem Active.map {f : PlayerState → PlayerState} (hf : KeepsRoster f)
    (hseats : m.seats = s.seats.map f) (h : Active s pid) : Active m pid := by
  obtain ⟨p, hp, rfl, hact⟩ := h
  exact ⟨f p, hseats ▸ List.mem_map_of_mem hp, hf.id p, (hf.bankrupt p).trans hact⟩

theorem Active.of_map {f : PlayerState → PlayerState} (hf : KeepsRoster f)
    (hseats : m.seats = s.seats.map f) (h : Active m pid) : Active s pid := by
  obtain ⟨q, hq, hid, hact⟩ := h
  rw [hseats] at hq
  obtain ⟨p, hp, rfl⟩ := List.mem_map.mp hq
  exact ⟨p, hp, (hf.id p).symm.trans hid, (hf.bankrupt p).symm.trans hact⟩

/-- The roster and the status stay, and the turn stays or goes to an active
player. -/
theorem Live.of_roster {f : PlayerState → PlayerState} (h : Live s) (hf : KeepsRoster f)
    (hseats : m.seats = s.seats.map f) (hstatus : m.status = s.status)
    (hturn : m.turn.currentPlayerId = s.turn.currentPlayerId ∨
      Active s m.turn.currentPlayerId) : Live m := by
  intro hin
  obtain ⟨hcurrent, htwo⟩ := h (hstatus ▸ hin)
  refine ⟨?_, by rw [hseats, length_survivors_map hf]; exact htwo⟩
  rcases hturn with hturn | hturn
  · rw [hturn]; exact hcurrent.map hf hseats
  · exact hturn.map hf hseats

theorem AfterElimination.live {d : PlayerState} {heir : Option PlayerId}
    {f : PlayerState → PlayerState} {g : SpaceOwnership → SpaceOwnership} (hs : Sound s)
    (h : Live s) (hr : Removal d heir f g s e) (ha : AfterElimination e m) : Live m := by
  cases ha with
  | ended _ hfin => exact fun hin => by rw [hfin] at hin; cases hin
  | passed hno _ ht =>
      intro hin
      have hein : e.status = .inProgress := by cases ht <;> exact hin
      obtain ⟨p, hp, hact, hne⟩ := exists_other hs.ids (h (by rw [← hein, hr.frame])).2 d.id
      have hsurvivor : f p ∈ survivors e.seats := by
        rw [hr.seats]
        exact mem_survivors.mpr ⟨List.mem_map_of_mem hp, by simp [hr.bankrupt, hact, hne]⟩
      have htwo : 2 ≤ (survivors e.seats).length := by
        cases hlen : survivors e.seats with
        | nil => rw [hlen] at hsurvivor; simp at hsurvivor
        | cons w rest =>
            cases rest with
            | nil => exact absurd hlen (hno hein w)
            | cons _ _ => simp
      cases ht with
      | @passed next _ hnext hnact => exact ⟨⟨next, hnext, rfl, hnact⟩, htwo⟩
      | nobody hall =>
          have hmem := mem_survivors.mp hsurvivor
          rw [hall _ hmem.1] at hmem
          simp at hmem

/-- Everybody active but `p` receives a share. -/
theorem length_recipients {seats : List PlayerState} {p : PlayerState}
    (hids : (seats.map (·.id)).Nodup) (hp : p ∈ seats) (hact : p.isBankrupt = false) :
    (seats.filter (isRecipient p.id)).length + 1 = (survivors seats).length := by
  have hnodup : ((survivors seats).map (·.id)).Nodup := hids.sublist (List.filter_sublist.map _)
  have hmem : p.id ∈ (survivors seats).map (·.id) :=
    List.mem_map_of_mem (mem_survivors.mpr ⟨hp, hact⟩)
  have herase := List.length_erase_of_mem hmem
  rw [hnodup.erase_eq_filter, List.filter_map, List.length_map, List.length_map, survivors,
    List.filter_filter] at herase
  have hsame : seats.filter (isRecipient p.id) = seats.filter fun q =>
      ((fun a => a != p.id) ∘ fun x => x.id) q && decide ¬ q.isBankrupt = true :=
    List.filter_congr fun q _ => by rw [Bool.eq_iff_iff]; simp [isRecipient]
  rw [hsame]
  have hpos : 0 < (survivors seats).length := List.length_pos_of_mem (mem_survivors.mpr ⟨hp, hact⟩)
  simp only [survivors] at hpos ⊢
  omega

/-- One active player fewer. -/
theorem Removal.length_survivors {d : PlayerState} {heir : Option PlayerId}
    {f : PlayerState → PlayerState} {g : SpaceOwnership → SpaceOwnership}
    (hids : (s.seats.map (·.id)).Nodup) (hd : d ∈ s.seats) (hact : d.isBankrupt = false)
    (hr : Removal d heir f g s e) :
    (survivors e.seats).length + 1 = (survivors s.seats).length := by
  rw [← length_recipients hids hd hact, hr.seats, survivors, List.filter_map, List.length_map]
  congr 2
  exact List.filter_congr fun q _ => by
    rw [Bool.eq_iff_iff]
    simp [isRecipient, hr.bankrupt, and_comm]

/-- An elimination that does not end the game hands the turn on. -/
theorem AfterElimination.handedOn (hl : Live m) (hin : m.status = .inProgress)
    (ha : AfterElimination e m) : (∀ w, survivors e.seats ≠ [w]) ∧
      ∃ next round, m = { e with turn := passTurn e.turn next round } := by
  cases ha with
  | ended _ hfin => rw [hfin] at hin; cases hin
  | passed hno _ ht =>
      cases ht with
      | passed _ _ => exact ⟨hno hin, _, _, rfl⟩
      | nobody hall =>
          obtain ⟨⟨p, hp, -, hact⟩, -⟩ := hl hin
          rw [hall p hp] at hact
          cases hact

/-- The turn timer runs in the phases where the current player is to act. -/
theorem isTurnExpired_phase {nowMs : Int} (h : isTurnExpired s nowMs = true) :
    s.turn.phase ∈ activeTurnPhases := by
  unfold isTurnExpired at h
  split at h
  · cases h
  · exact of_decide_eq_true ((Bool.and_eq_true _ _).mp h).2

/-- The timer forces the current player out: the third strike. -/
def ForcedOut (s : GameState) (nowMs : Int) : Prop :=
  isTurnExpired s nowMs = true ∧ ∃ p ∈ s.players, p.id = s.turn.currentPlayerId ∧
    maxAfkStrikes ≤ p.afkStrikes + 1 ∧ p.isBankrupt = false

theorem ForcedOut.current {nowMs : Int} (h : ForcedOut s nowMs)
    (hids : (s.players.map (·.id)).Nodup) {p : PlayerState} (hp : p ∈ s.players)
    (hid : p.id = s.turn.currentPlayerId) :
    maxAfkStrikes ≤ p.afkStrikes + 1 ∧ p.isBankrupt = false := by
  obtain ⟨-, q, hq, hqid, hmax, hact⟩ := h
  obtain rfl : q = p := eq_of_key_eq PlayerState.id hids hq hp (hqid.trans hid.symm)
  exact ⟨hmax, hact⟩

/-- The command is one that eliminates the current player. -/
def Eliminating (s : GameState) (env : Env) : GameCommand → Prop
  | .declareBankruptcy _ | .surrender _ => True
  | .turnTimeout => ForcedOut s env.clock.nowMs
  | _ => False

/-- The command takes the current player out by surrender, on their own word
or on the third strike of the timer. -/
def Surrenders (s : GameState) (env : Env) : GameCommand → Prop
  | .surrender _ => True
  | .turnTimeout => ForcedOut s env.clock.nowMs
  | _ => False

/-- The command is a trade or an auction command that sets the phase, whatever
it is. -/
def SetsPhase (s : GameState) (env : Env) : GameCommand → Prop
  | .proposeTrade .. => True
  | .respondTrade _ _ response _ => response ≠ .counter
  | .advanceAuction => isAuctionExpired s env.clock.nowMs = true
  | .expireTrade => ∃ trade, s.trade = some trade ∧ trade.expiresAt ≤ env.clock.now
  | _ => False

variable {env : Env} {command : GameCommand}

theorem Surrenders.eliminating (h : Surrenders s env command) : Eliminating s env command := by
  cases command with
  | surrender _ => trivial
  | turnTimeout => exact h
  | _ => cases h

/-- How a command takes the current player `d` out of the game, before the
turn passes on. -/
inductive Eliminated (s : GameState) (d : PlayerState) : GameCommand → GameState → Prop
  | bankrupted {debt : BankruptcyState} {e : GameState} : s.bankruptcy = some debt →
      debt.debtorId = d.id → Liquidated s debt d e →
      Eliminated s d (.declareBankruptcy d.id) e
  | surrendered {e : GameState} : d.isBankrupt = false → Surrendered s d e →
      Eliminated s d (.surrender d.id) e
  | forced {e : GameState} : d.isBankrupt = false → Surrendered s d e →
      Eliminated s d .turnTimeout e

/-- An elimination is a removal, in favour of the creditor of the eliminated
player if there is one. -/
theorem Eliminated.removal {d : PlayerState} (hw : WellFormed s) (he : Eliminated s d command e) :
    ∃ heir f g, (∀ c, heir = some c → ∃ debt, s.bankruptcy = some debt ∧ debt.debtorId = d.id ∧
      debt.creditorId = some c) ∧ Removal d heir f g s e := by
  cases he with
  | bankrupted hdebt hdebtor hl =>
      have hformed := hw.debts _ hdebt
      obtain ⟨f, g, hr⟩ := hl.removal hformed.owed fun hc =>
        (hformed.creditor _ hc).2 hdebtor.symm
      exact ⟨_, f, g, fun c hc => ⟨_, hdebt, hdebtor, hc⟩, hr⟩
  | surrendered _ hsurr | forced _ hsurr =>
      obtain ⟨f, g, hr⟩ := hsurr.removal
      exact ⟨none, f, g, by simp, hr⟩

/-- An elimination that does not end the game: more than two players were
active, and the turn is handed on. -/
theorem Eliminated.handedOn {d : PlayerState} (hw : WellFormed s) (hl : Live s) (hd : d ∈ s.seats)
    (hcurrent : d.id = s.turn.currentPlayerId) (he : Eliminated s d command e)
    (ha : AfterElimination e m) (hlm : Live m) (hin : m.status = .inProgress) :
    (survivors s.seats).length ≠ 2 ∧
      ∃ next round, m = { e with turn := passTurn e.turn next round } := by
  obtain ⟨hno, next, round, rfl⟩ := ha.handedOn hlm hin
  obtain ⟨heir, f, g, -, hr⟩ := he.removal hw
  have hest : e.status = s.status := by rw [hr.frame]
  obtain ⟨x, hx, hxid, hxact⟩ := (hl (hest ▸ hin)).1
  obtain rfl : d = x := eq_of_key_eq PlayerState.id hw.ids hd hx (hcurrent.trans hxid.symm)
  have hcount := hr.length_survivors hw.ids hd hxact
  refine ⟨fun htwo => ?_, next, round, rfl⟩
  obtain ⟨w, hone⟩ := List.length_eq_one_iff.mp
    (show (survivors e.seats).length = 1 by omega)
  exact hno w hone

/-- A handler keeps the roster and the status, or eliminates the current
player and passes the turn on. -/
theorem Dispatched.roster (hw : WellFormed s) (hmay : MayAct s command)
    (hd : Dispatched s env command m) :
    (¬ Eliminating s env command ∧ ∃ f, KeepsRoster f ∧ m.seats = s.seats.map f ∧
      m.status = s.status ∧ m.winnerId = s.winnerId ∧
      (m.turn.currentPlayerId = s.turn.currentPlayerId ∨ Active s m.turn.currentPlayerId)) ∨
    Eliminating s env command ∧ ∃ d e, d ∈ s.seats ∧ d.id = s.turn.currentPlayerId ∧
      Eliminated s d command e ∧ AfterElimination e m := by
  have hsame : ∀ seats : List PlayerState, seats = seats.map fun p => p := fun _ =>
    (List.map_id' _).symm
  cases hd with
  | rolled _ _ _ hr =>
      have hframe := hr.rollFrame hw.toSound
      obtain ⟨f, hseats, hf, -⟩ := hframe.seats
      exact .inl ⟨id, f, hf.toKeepsRoster, hseats, by rw [hframe.frame], by rw [hframe.frame],
        .inl (by rw [hframe.frame])⟩
  | bought _ _ _ _ _ _ hps =>
      exact .inl ⟨id, _, (KeepsRoster.purchase _ _).edit _, hps,
        rfl, rfl, .inl rfl⟩
  | passed _ _ => exact .inl ⟨id, _, KeepsRoster.refl, hsame _, rfl, rfl, .inl rfl⟩
  | ended _ _ _ hnext hact =>
      exact .inl ⟨id, _, KeepsRoster.refl, hsame _, rfl, rfl, .inr ⟨_, hnext, rfl, hact⟩⟩
  | bailed _ _ _ _ hps =>
      exact .inl ⟨id, _, (KeepsEstate.bail _).toKeepsRoster.edit _, hps,
        rfl, rfl, .inl rfl⟩
  | cardSpent _ _ _ _ hps =>
      exact .inl ⟨id, _, KeepsEstate.spendJailCard.toKeepsRoster.edit _, hps,
        rfl, rfl, .inl rfl⟩
  | reworked hcommand _ hr =>
      have hnot : ¬ Eliminating s env command := by
        cases command <;> simp [GameCommand.rework] at hcommand <;> exact id
      cases hr with
      | mk _ hps _ _ _ =>
          exact .inl ⟨hnot, _, (KeepsEstate.credit _).toKeepsRoster.edit _, hps,
            rfl, rfl, .inl rfl⟩
  | proposed _ hprop =>
      cases hprop
      exact .inl ⟨id, _, KeepsRoster.refl, hsame _, rfl, rfl, .inl rfl⟩
  | responded hresp =>
      cases hresp with
      | rejected _ _ => exact .inl ⟨id, _, KeepsRoster.refl, hsame _, rfl, rfl, .inl rfl⟩
      | countered _ _ _ _ => exact .inl ⟨id, _, KeepsRoster.refl, hsame _, rfl, rfl, .inl rfl⟩
      | accepted _ _ _ hexec =>
          cases hexec with
          | mk _ _ hps =>
              exact .inl ⟨id, _, ⟨swapSeat_id _, swapSeat_isBankrupt _⟩, hps, rfl, rfl, .inl rfl⟩
  | bid hbid => cases hbid; exact .inl ⟨id, _, KeepsRoster.refl, hsame _, rfl, rfl, .inl rfl⟩
  | bankrupted hdebt hdebtor hd hl ha =>
      exact .inr ⟨trivial, _, _, hd, (hmay _ rfl rfl).symm, .bankrupted hdebt hdebtor hl, ha⟩
  | surrendered hp hact hsurr ha =>
      exact .inr ⟨trivial, _, _, hp, (hmay _ rfl rfl).symm, .surrendered hact hsurr, ha⟩
  | auctionIdle _ => exact .inl ⟨id, _, KeepsRoster.refl, hsame _, rfl, rfl, .inl rfl⟩
  | auctioned _ _ hr =>
      cases hr with
      | unsold _ hps =>
          exact .inl ⟨id, _, KeepsRoster.refl, (hsame _).trans (congrArg _ hps), rfl, rfl, .inl rfl⟩
      | sold _ hps =>
          exact .inl ⟨id, _, (KeepsRoster.award _ _).edit _, hps,
            rfl, rfl, .inl rfl⟩
  | tradeIdle _ => exact .inl ⟨id, _, KeepsRoster.refl, hsame _, rfl, rfl, .inl rfl⟩
  | tradeLapsed _ _ => exact .inl ⟨id, _, KeepsRoster.refl, hsame _, rfl, rfl, .inl rfl⟩
  | timerIdle hidle =>
      have hnot : ¬ ForcedOut s env.clock.nowMs := fun h => by simp [h.1] at hidle
      exact .inl ⟨hnot, _, KeepsRoster.refl, hsame _, rfl, rfl, .inl rfl⟩
  | timerSkipped _ hp hid hmax hps ht =>
      have hnot : ¬ ForcedOut s env.clock.nowMs := fun h => by
        have := (h.current hw.playerIds hp hid).1
        omega
      cases ht with
      | passed hnext hact =>
          exact .inl ⟨hnot, _, KeepsRoster.refl, (hsame _).trans (congrArg _ hps), rfl, rfl,
            .inr ⟨_, hps ▸ hnext, rfl, hact⟩⟩
      | nobody _ =>
          exact .inl ⟨hnot, _, KeepsRoster.refl, (hsame _).trans (congrArg _ hps), rfl, rfl,
            .inl rfl⟩
  | timerSpent _ hp hid _ hout hps =>
      have hnot : ¬ ForcedOut s env.clock.nowMs := fun h => by
        simp [(h.current hw.playerIds hp hid).2] at hout
      exact .inl ⟨hnot, _, KeepsRoster.refl, (hsame _).trans (congrArg _ hps), rfl, rfl, .inl rfl⟩
  | timerForced hdue hp hid hmax hact hsurr ha =>
      exact .inr ⟨⟨hdue, _, hp, hid, hmax, hact⟩, _, _, mem_seats hp, hid, .forced hact hsurr, ha⟩

/-- A game that is on after a handler was on before it. -/
theorem Dispatched.inProgress (hw : WellFormed s) (hmay : MayAct s command)
    (hd : Dispatched s env command m) (hin : m.status = .inProgress) : s.status = .inProgress := by
  rcases hd.roster hw hmay with ⟨-, f, -, -, hst, -⟩ | ⟨-, d, e, -, -, he, ha⟩
  · exact hst ▸ hin
  · obtain ⟨heir, f, g, -, hr⟩ := he.removal hw
    have hest : e.status = s.status := by rw [hr.frame]
    cases ha with
    | ended _ hfin => rw [hfin] at hin; cases hin
    | passed _ _ ht => exact hest ▸ (by cases ht <;> exact hin)

theorem Dispatched.live (hw : WellFormed s) (h : Live s) (hmay : MayAct s command)
    (hd : Dispatched s env command m) : Live m := by
  rcases hd.roster hw hmay with ⟨-, f, hf, hseats, hstatus, -, hturn⟩ |
    ⟨-, d, e, -, -, he, ha⟩
  · exact h.of_roster hf hseats hstatus hturn
  · obtain ⟨heir, f, g, -, hr⟩ := he.removal hw
    exact ha.live hw.toSound h hr

end Turn

/-! ## the end of a call -/

/-- The fields for display and for the timers are refreshed. -/
inductive Tidied (a : GameState) : GameState → Prop
  | mk {ps : List PlayerState} {activeCard : Option ActiveCard} {log : List LogEntry}
      {turnDeadlineMs : Option Int} {actionsAvailable : ActionSet} :
      seatsOf ps = a.seats →
      Tidied a { a with
        players := ps
        activeCard, log
        turn := { a.turn with turnDeadlineMs, actionsAvailable } }

/-- What an accepted call does: the handler, then for all but the replies
the settlement of the debt, then the refresh. -/
inductive Stepped (s : GameState) (env : Env) (command : GameCommand) : GameState → Prop
  | replied {m s' : GameState} : command.isReply = true → Dispatched s env command m →
      Tidied m s' → Stepped s env command s'
  | played {m n s' : GameState} : command.isReply = false → Dispatched s env command m →
      Settled m n → Tidied n s' → Stepped s env command s'

section Finish

variable {s a b c : GameState} {env : Env} {command : GameCommand}

theorem Tidied.trans (h : Tidied a b) (h' : Tidied b c) : Tidied a c := by
  cases h with
  | mk hps => cases h' with
    | mk hps' => exact .mk (hps'.trans hps)

theorem Tidied.seats_eq (h : Tidied a b) : b.seats = a.seats := by
  cases h with
  | mk hps => exact hps

theorem Tidied.gameMode (h : Tidied a b) : b.gameMode = a.gameMode := by cases h; rfl

theorem Tidied.status (h : Tidied a b) : b.status = a.status := by cases h; rfl

theorem Tidied.phase (h : Tidied a b) : b.turn.phase = a.turn.phase := by cases h; rfl

theorem Tidied.spaces (h : Tidied a b) : b.spaces = a.spaces := by cases h; rfl

theorem Tidied.bankruptcy (h : Tidied a b) : b.bankruptcy = a.bankruptcy := by cases h; rfl

theorem Tidied.auction (h : Tidied a b) : b.auction = a.auction := by cases h; rfl

theorem Tidied.trade (h : Tidied a b) : b.trade = a.trade := by cases h; rfl

theorem Tidied.currentPlayerId (h : Tidied a b) :
    b.turn.currentPlayerId = a.turn.currentPlayerId := by cases h; rfl

theorem Tidied.cash (h : Tidied a b) (pid : PlayerId) : b.cash pid = a.cash pid := by
  rw [GameState.cash, GameState.seat?, h.seats_eq]; rfl

theorem Settled.status (h : Settled a b) : b.status = a.status := by cases h <;> rfl

theorem Tidied.wellFormed (ha : WellFormed a) (h : Tidied a b) : WellFormed b := by
  cases h with
  | mk hps =>
      exact .of_records (s := a) (ha.toSound.congr rfl hps rfl rfl) rfl
        (congrArg (List.map (·.id)) hps) ha.current ha.pending ha.auctions ha.trades ha.debts

theorem Tidied.live (ha : Live a) (h : Tidied a b) : Live b := by
  have hseats := h.seats_eq
  refine ha.of_roster .refl (hseats.trans (List.map_id' _).symm) h.status (.inl h.currentPlayerId)

theorem Settled.wellFormed (ha : WellFormed a) (h : Settled a b) : WellFormed b := by
  cases h with
  | free _ | owing _ _ => exact ha
  | @paid debt ps _ _ hps =>
      have hs := ha.toSound.keepEstate (m := { a with players := ps }) (g := id)
        (.transfer _ _ _) rfl hps (List.map_id _).symm ha.standing (fun _ => rfl) (fun _ => rfl)
        ha.decks
      exact .of_records (s := a) (hs.congr rfl rfl rfl rfl) rfl
        ((congrArg (List.map (·.id)) hps).trans (ids_map (f := transfer _ _ _) fun _ _ => rfl))
        ha.current ha.pending ha.auctions ha.trades (by simp)

/-- The pending debt is settled, or it stays. -/
theorem WellFormed.settles (ha : WellFormed a) :
    Sat (fun _ => False) (trySettleDebt a) (Settled a) :=
  trySettleDebt_sat ha.toSound fun debt hdebt =>
    ⟨(ha.debts debt hdebt).debtor, fun c hc => ((ha.debts debt hdebt).creditor c hc).1⟩

theorem Settled.live (ha : Live a) (h : Settled a b) : Live b := by
  cases h with
  | free _ | owing _ _ => exact ha
  | paid _ _ hps =>
      exact ha.of_roster (KeepsEstate.transfer _ _ _).toKeepsRoster hps rfl (.inl rfl)

theorem Dispatched.gameMode (hs : Sound s) (h : Dispatched s env command a) :
    a.gameMode = s.gameMode := by
  cases h with
  | rolled _ _ _ hr => rw [(hr.rollFrame hs).frame]
  | reworked _ _ hr => cases hr; rfl
  | proposed _ hprop => cases hprop; rfl
  | responded hresp =>
      cases hresp with
      | accepted _ _ _ hexec => cases hexec; rfl
      | _ => rfl
  | bid hbid => cases hbid; rfl
  | bankrupted _ _ _ hl ha => rw [ha.frame]; cases hl <;> rfl
  | surrendered _ _ hsurr ha | timerForced _ _ _ _ _ hsurr ha => rw [ha.frame]; cases hsurr; rfl
  | auctioned _ _ hr => cases hr <;> rfl
  | timerSkipped _ _ _ _ _ ht => cases ht <;> rfl
  | _ => rfl

/-- A game is played in one mode. -/
theorem Stepped.gameMode (hs : Sound s) (h : Stepped s env command a) :
    a.gameMode = s.gameMode := by
  cases h with
  | replied _ hd ht => exact ht.gameMode.trans (hd.gameMode hs)
  | played _ hd hsettled ht =>
      refine ht.gameMode.trans (Eq.trans ?_ (hd.gameMode hs))
      cases hsettled <;> rfl

/-- The settlement does not look at the refreshed fields. -/
theorem Tidied.settled (h : Tidied a b) (hb : Settled b c) : ∃ n, Settled a n ∧ Tidied n c := by
  have hseats := h.seats_eq
  have hcash := h.cash
  cases h with
  | mk hps =>
      cases hb with
      | free hnone => exact ⟨a, .free hnone, .mk hps⟩
      | owing hdebt hlt => exact ⟨a, .owing hdebt (hcash _ ▸ hlt), .mk hps⟩
      | paid hdebt hle hpaid =>
          exact ⟨_, .paid hdebt (hcash _ ▸ hle) (hseats ▸ hpaid), .mk rfl⟩

theorem seatsOf_resetStrikes (pid : PlayerId) (players : List PlayerState) :
    seatsOf (resetStrikes pid players) = seatsOf players := by
  induction players with
  | nil => rfl
  | cons p rest ih =>
      simp only [resetStrikes]
      split
      · rfl
      · simp only [seatsOf_cons, ih]

theorem tidied_resetActor (a : GameState) (command : GameCommand) :
    Tidied a (resetActor a command) := by
  unfold resetActor
  split
  · exact .mk (seatsOf_resetStrikes _ _)
  · exact .mk rfl

theorem tidied_clearActiveCard (s a : GameState) (command : GameCommand) :
    Tidied a (clearActiveCard s a command) := by
  unfold clearActiveCard
  split <;> exact .mk rfl

theorem tidied_withTurnDeadline (a : GameState) (nowMs : Int) :
    Tidied a (withTurnDeadline a nowMs) := .mk rfl

theorem tidied_appendLog (a : GameState) (events : List GameEvent) (clock : Clock) :
    Tidied a (appendLog a events clock) := .mk rfl

theorem withActions_sat (hw : WellFormed a) :
    Sat (fun _ => False) (withActions a) (Tidied a) := by
  obtain ⟨actions, hactions⟩ := withActions_eq hw.laid hw.current fun _ q hq =>
    (hw.pending q hq).onBoard
  rw [hactions]
  exact .mk rfl

theorem withActions_tidied (a : GameState) : Ensures (withActions a) (Tidied a) :=
  .after fun _ _ => .mk rfl

/-- The end of a reply that returns is a refresh. -/
theorem finishCommand_reply (hreply : command.isReply = true) (events : List GameEvent) :
    Ensures (finishCommand s command env a events) (Tidied a) := by
  have htidy := (tidied_resetActor a command).trans (tidied_withTurnDeadline _ env.clock.nowMs)
  unfold finishCommand
  rw [if_pos hreply]
  exact (withActions_tidied _).imp fun _ h => htidy.trans h

/-- The end of any other call that returns: the settlement of the debt, the
win check and a refresh. -/
theorem finishCommand_stages (hplay : ¬command.isReply = true) (events : List GameEvent) :
    Ensures (finishCommand s command env a events) fun s' => ∃ b n, Tidied a b ∧
      trySettleDebt b = .ok n ∧ Tidied (checkWinCondition n) s' := by
  have htidy := (tidied_resetActor a command).trans (tidied_clearActiveCard s _ command)
  unfold finishCommand
  rw [if_neg hplay]
  refine .after fun n hn => (withActions_tidied _).imp fun s' hs' => ⟨_, n, htidy, hn, ?_⟩
  exact (tidied_withTurnDeadline _ env.clock.nowMs).trans
    ((tidied_appendLog _ events env.clock).trans hs')

/-- While two players are active the game is not won. -/
theorem checkWinCondition_live (h : Live a) : checkWinCondition a = a := by
  have hcheck := checkWinCondition_spec a
  generalize checkWinCondition a = c at hcheck
  cases hcheck with
  | won hin hone => have htwo := (h hin).2; simp [hone] at htwo
  | unchanged _ => rfl

/-- The end of a call raises nothing. -/
theorem finishCommand_sat (hw : WellFormed a) (hl : Live a) (events : List GameEvent) :
    Sat (fun _ => False) (finishCommand s command env a events) fun s' =>
      if command.isReply = true then Tidied a s' else ∃ n, Settled a n ∧ Tidied n s' := by
  have hreset := tidied_resetActor a command
  unfold finishCommand
  cases hreply : command.isReply with
  | true =>
      have htidy := hreset.trans (tidied_withTurnDeadline _ env.clock.nowMs)
      exact (withActions_sat (htidy.wellFormed hw)).imp fun s' hs' => htidy.trans hs'
  | false =>
      have htidy := hreset.trans (tidied_clearActiveCard s _ command)
      have hw' := htidy.wellFormed hw
      simp only [Bool.false_eq_true, if_false, sat_bind]
      refine hw'.settles.imp fun n hn => ?_
      have hn' := hn.wellFormed hw'
      rw [checkWinCondition_live (hn.live (htidy.live hl))]
      have htidy' := (tidied_withTurnDeadline n env.clock.nowMs).trans
        (tidied_appendLog _ events env.clock)
      obtain ⟨n', hsettled, hn'tidy⟩ := htidy.settled hn
      exact (withActions_sat (htidy'.wellFormed hn')).imp fun s' hs' =>
        ⟨n', hsettled, hn'tidy.trans (htidy'.trans hs')⟩

theorem assertMayAct_sat :
    Sat PyError.IsIllegalMove (assertMayAct s command) fun _ => MayAct s command := by
  unfold assertMayAct MayAct
  cases command.player with
  | none => simp
  | some pid =>
      cases hreply : command.isReply with
      | true => simp
      | false =>
          simp only [Bool.false_eq_true, if_false, assertCurrentPlayer, sat_illegalIf]
          exact ⟨fun _ => trivial, fun hpid _ hp _ => Option.some.inj hp ▸ not_not.mp hpid⟩

/-- `apply` on a well formed state with a live turn: an accepted call is a
step, and in a game that is on, a command about the game's own players and
positions raises `IllegalMove` or nothing. -/
theorem apply_sat (hw : WellFormed s) (hl : Live s) (env : Env) (command : GameCommand) :
    Sat (fun e => s.status = .inProgress → Addressed s command → e.IsIllegalMove)
      (apply s command env) fun r => MayAct s command ∧ Stepped s env command r.1.1 := by
  simp only [apply, sat_bind, sat_pure]
  refine assertMayAct_sat.mono (fun _ h _ _ => h) fun _ hmay => ?_
  refine (dispatch_sat hw hl hmay).imp fun r hd => ?_
  obtain ⟨⟨m, events⟩, rng⟩ := r
  refine (finishCommand_sat (hd.wellFormed hw) (hd.live hw hl hmay) events).mono
    (fun _ h => h.elim) fun s' hs' => ⟨hmay, ?_⟩
  split at hs'
  · rename_i hreply; exact .replied hreply hd hs'
  · rename_i hreply
    obtain ⟨n, hsettled, htidy⟩ := hs'
    exact .played (by simpa using hreply) hd hsettled htidy

theorem Stepped.wellFormed (hw : WellFormed s) (h : Stepped s env command a) : WellFormed a := by
  cases h with
  | replied _ hd ht => exact ht.wellFormed (hd.wellFormed hw)
  | played _ hd hs ht => exact ht.wellFormed (hs.wellFormed (hd.wellFormed hw))

theorem Stepped.live (hw : WellFormed s) (hl : Live s) (hmay : MayAct s command)
    (h : Stepped s env command a) : Live a := by
  cases h with
  | replied _ hd ht => exact ht.live (hd.live hw hl hmay)
  | played _ hd hs ht => exact ht.live (hs.live (hd.live hw hl hmay))

/-- A game that is on after a call was on before it. -/
theorem Stepped.inProgress (hw : WellFormed s) (hmay : MayAct s command)
    (hstep : Stepped s env command a) (hin : a.status = .inProgress) :
    s.status = .inProgress := by
  cases hstep with
  | replied _ hd ht => exact hd.inProgress hw hmay (ht.status ▸ hin)
  | played _ hd hsettled ht =>
      exact hd.inProgress hw hmay (hsettled.status ▸ ht.status ▸ hin)

end Finish

end Monopoly
