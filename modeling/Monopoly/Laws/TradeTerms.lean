import Monopoly.Spec.Queries
import Monopoly.Spec.Replay

/-!
# Monopoly.Laws.TradeTerms

Whether a pending trade can be accepted.  Both sides are checked when it is
proposed, but a debt may be settled before the proposal returns, and a
counter-offer is checked against the proposer and stored as the target's
side.
-/

namespace Monopoly

/-! ## the settlement, as the lookups see it -/

/-- What a player has once the pending debt is settled, if it can be. -/
def settledSeat (s : GameState) (p : PlayerState) : PlayerState :=
  match s.bankruptcy with
  | none => p
  | some debt =>
      if debt.amountOwed ≤ s.cash debt.debtorId
        then transfer debt.debtorId debt.creditorId debt.amountOwed p else p

/-- The cash of a player once the pending debt is settled, if it can be. -/
def GameState.settledCash (s : GameState) (pid : PlayerId) : Int :=
  match s.bankruptcy with
  | none => s.cash pid
  | some debt =>
      if debt.amountOwed ≤ s.cash debt.debtorId
        then s.cash pid - (if pid = debt.debtorId then debt.amountOwed else 0) +
          (if debt.creditorId = some pid then debt.amountOwed else 0)
        else s.cash pid

section Settlement

variable {s s' : GameState} {p v : PlayerState} {q pid payer : PlayerId}
  {players ps : List PlayerState} {amount : Int} {creditor : Option PlayerId}

theorem seat?_of_found (hp : getPlayerByIdFromState s q = .ok p) : s.seat? q = some p.bare := by
  have hseat := getPlayer_asSeats s q
  rw [hp] at hseat
  simp only [getPlayerByIdFromState, getPlayerById, GameState.asSeats] at hseat
  rw [GameState.seat?]
  cases hfound : s.seats.find? (fun p => decide (p.id = q)) with
  | none => rw [hfound] at hseat; cases hseat
  | some x => rw [hfound] at hseat; exact congrArg some (Except.ok.inj hseat)

theorem cash_of_found (hp : getPlayerByIdFromState s q = .ok p) : s.cash q = p.balance := by
  rw [GameState.cash, seat?_of_found hp]
  rfl

theorem jailCards_of_found (hp : getPlayerByIdFromState s q = .ok p) :
    s.jailCards q = p.getOutOfJailCards := by
  rw [GameState.jailCards, seat?_of_found hp]
  rfl

theorem getPlayer_eq_find :
    getPlayerByIdFromState s q = .ok p ↔ s.players.find? (fun p => decide (p.id = q)) = some p := by
  unfold getPlayerByIdFromState getPlayerById
  cases s.players.find? fun p => decide (p.id = q) <;> simp [orRaise]

theorem pyNext_eq_find : pyNext (fun p : PlayerState => decide (p.id = q)) players = .ok p ↔
    players.find? (fun p => decide (p.id = q)) = some p := by
  unfold pyNext
  cases players.find? fun p => decide (p.id = q) <;> simp [orRaise]

/-- Whoever is found before an assignment at the index of `pid` is found after
it, edited if it is `pid`. -/
theorem assignPlayer_finds {r : PlayerState} {g : PlayerState → PlayerState}
    (hr : players.find? (fun p => decide (p.id = pid)) = some r) (hv : v.bare = g r.bare)
    (hg : ∀ p, (g p).id = p.id) (hq : players.find? (fun p => decide (p.id = q)) = some p) :
    Ensures (assignPlayer players pid v) fun ps => ∃ p',
      ps.find? (fun p => decide (p.id = q)) = some p' ∧
        p'.bare = if p.id = pid then g p.bare else p.bare := by
  have hrid : r.id = pid := by simpa using List.find?_some hr
  have hpid : p.id = q := by simpa using List.find?_some hq
  have hvid : v.id = pid := by rw [← bare_id v, hv, hg, bare_id, hrid]
  obtain ⟨i, hindex, hget⟩ : ∃ i, players.findIdx? (fun p => decide (p.id = pid)) = some i ∧
      players[i]? = some r := by
    rw [List.find?_eq_bind_findIdx?_getElem?] at hr
    exact Option.bind_eq_some_iff.mp hr
  have hassign : assignPlayer players pid v = .ok (players.set i v) := by
    rw [assignPlayer, nextPlayerIdx, pyNextIdx, hindex]
    rfl
  rw [hassign, hpid]
  refine sat_ok.mpr ?_
  by_cases hqp : q = pid
  · subst hqp
    obtain rfl : r = p := Option.some.inj (hr.symm.trans hq)
    have hfound : (players.set i v).find? (fun p => decide (p.id = q)) = some v :=
      find?_key_set hindex hvid
    exact ⟨v, hfound, hv.trans (if_pos rfl).symm⟩
  · refine ⟨p, ?_, (if_neg hqp).symm⟩
    have hsame : (players.set i v).findIdx? (fun p => decide (p.id = q)) =
        players.findIdx? fun p => decide (p.id = q) :=
      findIdx?_key_set hget (hvid.trans hrid.symm) q
    rw [List.find?_eq_bind_findIdx?_getElem?, hsame, ← hq, List.find?_eq_bind_findIdx?_getElem?]
    cases hj : players.findIdx? (fun p => decide (p.id = q)) with
    | none => rfl
    | some j =>
        obtain ⟨b, hb, hbk⟩ : ∃ b, players[j]? = some b ∧ b.id = q := findIdx?_key_get hj
        have hij : i ≠ j := by
          rintro rfl
          obtain rfl : r = b := Option.some.inj (hget.symm.trans hb)
          exact hqp (hbk.symm.trans hrid)
        simp [hij]

/-- Whoever is found before a transfer of funds is found after it. -/
theorem transferFunds_found (hp : getPlayerByIdFromState s q = .ok p) :
    Ensures (transferFunds s payer creditor amount) fun s' => ∃ p',
      getPlayerByIdFromState s' q = .ok p' ∧ p'.bare = transfer payer creditor amount p.bare := by
  simp only [getPlayer_eq_find] at hp ⊢
  refine .after fun debtor hdebtor => ?_
  refine (updatePlayerNetWorth_bare _ _ _).seq fun paid hpaid => ?_
  refine (assignPlayer_finds (g := debit amount) (pyNext_eq_find.mp hdebtor) hpaid (fun _ => rfl)
    hp).seq ?_
  rintro ps ⟨p₁, hp₁, hbare₁⟩
  cases creditor with
  | none =>
      refine ⟨p₁, hp₁, hbare₁.trans ?_⟩
      by_cases hpayer : p.id = payer
      · simp [hpayer, transfer, debit]
      · simp [hpayer, transfer]
        rfl
  | some c =>
      refine .after fun owner howner => ?_
      refine (updatePlayerNetWorth_bare _ _ _).seq fun credited hcredited => ?_
      refine (assignPlayer_finds (g := credit amount) (pyNext_eq_find.mp howner) hcredited
        (fun _ => rfl) hp₁).seq ?_
      rintro ps' ⟨p₂, hp₂, hbare₂⟩
      refine ⟨p₂, hp₂, hbare₂.trans ?_⟩
      rw [← credit_debit_eq, ← bare_id p₁, hbare₁]
      rfl

theorem trySettleDebt_found (hp : getPlayerByIdFromState s q = .ok p) :
    Ensures (trySettleDebt s) fun s' => ∃ p',
      getPlayerByIdFromState s' q = .ok p' ∧ p'.bare = settledSeat s p.bare := by
  unfold trySettleDebt settledSeat
  cases s.bankruptcy with
  | none => exact ⟨p, hp, rfl⟩
  | some debt =>
      refine .after fun debtor hdebtor => ?_
      obtain ⟨-, hid⟩ := getPlayer_found hdebtor
      simp only [cash_of_found hdebtor]
      split
      · rw [hid]
        refine (transferFunds_found hp).seq ?_
        rintro s' ⟨p', hp', hbare⟩
        exact ⟨p', hp', hbare⟩
      · exact ⟨p, hp, rfl⟩

/-- The settled seat has the settled cash. -/
theorem settledSeat_balance (hp : getPlayerByIdFromState s q = .ok p) :
    (settledSeat s p.bare).balance = s.settledCash q := by
  obtain ⟨-, rfl⟩ := getPlayer_found hp
  unfold settledSeat GameState.settledCash
  cases s.bankruptcy with
  | none => exact (cash_of_found hp).symm
  | some debt =>
      dsimp only
      split
      · rw [cash_of_found hp]
        rfl
      · exact (cash_of_found hp).symm

theorem settledSeat_same (s : GameState) (p : PlayerState) :
    (settledSeat s p).id = p.id ∧
      (settledSeat s p).getOutOfJailCards = p.getOutOfJailCards := by
  unfold settledSeat
  split
  · exact ⟨rfl, rfl⟩
  · split <;> exact ⟨rfl, rfl⟩

end Settlement

/-! ## negotiations -/

/-- An accepted counter-offer. -/
def Counters (s : GameState) (call : Call) (s' : GameState) : Prop :=
  Accepted s call s' ∧
    ∃ pid tradeId counter, call.command = .respondTrade pid tradeId .counter counter

/-- The latest of the counter-offers. -/
def lastCounter (h : List (Taken GameState Call)) : Option TradeOffer :=
  h.head?.bind fun t => match t.label.command with
    | .respondTrade _ _ _ counter => counter
    | _ => none

/-- The spaces are the player's and not built on. -/
def TitlesHeld (s : GameState) (q : PlayerId) (positions : List Nat) : Prop :=
  ∀ pos ∈ positions, ∃ o, spaceAt s.spaces pos = .ok o ∧ o.ownerId = some q ∧
    o.houses = 0 ∧ o.hasHotel = false

/-- Where a negotiation stands that was opened in `s₀`. -/
structure Bargained (s₀ : GameState) (pid target : PlayerId) (offer request : TradeOffer)
    (counter : Option TradeOffer) (s : GameState) : Prop where
  trade : ∃ trade, s.trade = some trade ∧ trade.proposerId = pid ∧ trade.targetId = target ∧
    trade.proposerOffer = offer ∧ trade.targetRequest = counter.getD request
  spaces : s.spaces = s₀.spaces
  found : ∀ q p, getPlayerByIdFromState s₀ q = .ok p → ∃ p', getPlayerByIdFromState s q = .ok p' ∧
    p'.bare = settledSeat s₀ p.bare
  countered : ∀ c, counter = some c → TitlesHeld s₀ pid c.positions
  shown : ∃ b, withActions b = .ok s

section Negotiation

variable {s₀ s s' m : GameState} {pid target q : PlayerId} {offer request x : TradeOffer}
  {counter : Option TradeOffer} {p : PlayerState} {call : Call} {command : GameCommand} {env : Env}
  {events : List GameEvent}

/-- The check of an offer, read off the state. -/
theorem validateTradeOffer_holdings (hp : getPlayerByIdFromState s q = .ok p) :
    validateTradeOffer s q x = .ok () ↔ x.money ≤ s.cash q ∧
      x.getOutOfJailCards ≤ s.jailCards q ∧ TitlesHeld s q x.positions := by
  obtain ⟨-, hid⟩ := getPlayer_found hp
  rw [validateTradeOffer_iff hp, cash_of_found hp, jailCards_of_found hp]
  subst hid
  exact ⟨fun h => ⟨h.money, h.cards, h.titles⟩, fun ⟨hmoney, hcards, htitles⟩ =>
    ⟨hmoney, hcards, htitles⟩⟩

/-- What a player has in a negotiation. -/
theorem Bargained.holdings (hn : Bargained s₀ pid target offer request counter s)
    (hp : getPlayerByIdFromState s₀ q = .ok p) :
    validateTradeOffer s q x = .ok () ↔ x.money ≤ s₀.settledCash q ∧
      x.getOutOfJailCards ≤ s₀.jailCards q ∧ TitlesHeld s₀ q x.positions := by
  obtain ⟨p', hp', hbare⟩ := hn.found q p hp
  have hcash : s.cash q = s₀.settledCash q := by
    rw [cash_of_found hp', ← bare_balance, hbare, settledSeat_balance hp]
  have hcards : s.jailCards q = s₀.jailCards q := by
    rw [jailCards_of_found hp', ← bare_getOutOfJailCards, hbare, (settledSeat_same _ _).2,
      bare_getOutOfJailCards, jailCards_of_found hp]
  have htitles : TitlesHeld s q x.positions ↔ TitlesHeld s₀ q x.positions := by
    rw [TitlesHeld, hn.spaces]
    rfl
  rw [validateTradeOffer_holdings hp', hcash, hcards, htitles]

theorem finishCommand_shown (hfinish : finishCommand s command env m events = .ok s') :
    ∃ b, withActions b = .ok s' := by
  suffices hshown : Ensures (finishCommand s command env m events) fun s' =>
      ∃ b, withActions b = .ok s' from hshown.of_ok hfinish
  unfold finishCommand
  split
  · exact ensures_iff.mpr fun s' h => ⟨_, h⟩
  · exact .after fun n _ => ensures_iff.mpr fun s' h => ⟨_, h⟩

/-- The proposal that opens a negotiation. -/
theorem negotiated_of_proposal
    (h : Accepted s₀ ⟨.proposeTrade pid target offer request, env⟩ s) :
    pid ≠ target ∧ validateTradeOffer s₀ pid offer = .ok () ∧
      validateTradeOffer s₀ target request = .ok () ∧
      Bargained s₀ pid target offer request none s := by
  obtain ⟨-, m, events, rng, hdispatch, hfinish⟩ := h.handled
  have hproposed : Ensures (dispatch s₀ (.proposeTrade pid target offer request) env) fun r =>
      pid ≠ target ∧ validateTradeOffer s₀ pid offer = .ok () ∧
      validateTradeOffer s₀ target request = .ok () ∧
      (∃ trade, r.1.1.trade = some trade ∧ trade.proposerId = pid ∧ trade.targetId = target ∧
        trade.proposerOffer = offer ∧ trade.targetRequest = request) ∧
      r.1.1 = { s₀ with trade := r.1.1.trade, turn := r.1.1.turn } :=
    sat_map.mpr (sat_bind.mpr (.guard fun hne => .guard fun _ => .guard fun _ => .after fun _ _ =>
      .after fun _ hoffer => .after fun _ hrequest =>
        ⟨hne, hoffer, hrequest, ⟨_, rfl, rfl, rfl, rfl, rfl⟩, rfl⟩))
  obtain ⟨hne, hoffer, hrequest, htrade, hframe⟩ := hproposed.of_ok hdispatch
  refine ⟨hne, hoffer, hrequest, ?_⟩
  dsimp only at htrade hframe
  obtain ⟨b, n, hb, hsettle, hs⟩ :=
    (finishCommand_stages (fun h => by cases h) events).of_ok hfinish
  have hseats : b.seats = s₀.seats := hb.seats_eq.trans (by rw [hframe]; rfl)
  have hspaces : b.spaces = s₀.spaces := hb.spaces.trans (by rw [hframe])
  have hdebt : b.bankruptcy = s₀.bankruptcy := hb.bankruptcy.trans (by rw [hframe])
  have hsettled : ∀ p, settledSeat b p = settledSeat s₀ p := by
    have hcash : b.cash = s₀.cash := by
      funext q
      rw [GameState.cash, GameState.seat?, hseats]
      rfl
    intro p
    rw [settledSeat, hdebt, hcash]
    rfl
  have hbilled : n.trade = b.trade ∧ n.spaces = b.spaces := by
    cases (trySettleDebt_billed b).of_ok hsettle
    exact ⟨rfl, rfl⟩
  have hwin : (checkWinCondition n).trade = n.trade ∧ (checkWinCondition n).spaces = n.spaces ∧
      (checkWinCondition n).seats = n.seats := by
    have hcheck := checkWinCondition_spec n
    generalize checkWinCondition n = c at hcheck
    cases hcheck <;> exact ⟨rfl, rfl, rfl⟩
  have hkept : s.trade = m.trade := by
    rw [hs.trade, hwin.1, hbilled.1, hb.trade]
  refine ⟨hkept ▸ htrade, by rw [hs.spaces, hwin.2.1, hbilled.2, hspaces], ?_,
    fun c hc => absurd hc (by simp), finishCommand_shown hfinish⟩
  intro q p hp
  obtain ⟨p₁, hp₁, hbare₁⟩ := getPlayer_of_seats hseats hp
  obtain ⟨p₂, hp₂, hbare₂⟩ := (trySettleDebt_found hp₁).of_ok hsettle
  obtain ⟨p₃, hp₃, hbare₃⟩ := getPlayer_of_seats (hs.seats_eq.trans hwin.2.2) hp₂
  exact ⟨p₃, hp₃, by rw [hbare₃, hbare₂, hbare₁, hsettled]⟩

/-- A counter-offer that is accepted replaces the target's side. -/
theorem Bargained.counters (hn : Bargained s₀ pid target offer request counter s)
    (hp : getPlayerByIdFromState s₀ pid = .ok p) (h : Counters s call s') :
    ∃ c, lastCounter [⟨s, call, s'⟩] = some c ∧
      Bargained s₀ pid target offer request (some c) s' := by
  obtain ⟨haccepted, replier, tradeId, c?, hcommand⟩ := h
  obtain ⟨command, env⟩ := call
  obtain rfl : command = .respondTrade replier tradeId .counter c? := hcommand
  obtain ⟨-, m, events, rng, hdispatch, hfinish⟩ := haccepted.handled
  obtain ⟨trade, htrade, hproposer, htarget, hoffer, -⟩ := hn.trade
  have hcountered : Ensures (dispatch s (.respondTrade replier tradeId .counter c?) env) fun r =>
      ∃ c, c? = some c ∧ validateTradeOffer s pid c = .ok () ∧
        ∃ status expiresAt, r.1.1 = { s with trade := some { trade with
          targetRequest := c, status, expiresAt } } := by
    refine sat_map.mpr ?_
    rw [respondTrade, htrade]
    refine sat_bind.mpr (.guard fun _ => ?_)
    cases c? with
    | none => trivial
    | some c =>
        refine .guard fun _ => .after fun _ hvalid => ⟨c, rfl, ?_, _, _, rfl⟩
        rw [← hproposer]
        exact hvalid
  obtain ⟨c, rfl, hvalid, status, expiresAt, hm⟩ := hcountered.of_ok hdispatch
  dsimp only at hm
  subst hm
  have htidy := (finishCommand_reply rfl events).of_ok hfinish
  refine ⟨c, rfl, ⟨_, htidy.trade, hproposer, htarget, hoffer, rfl⟩, htidy.spaces.trans hn.spaces,
    fun q p hq => ?_, ?_, finishCommand_shown hfinish⟩
  · obtain ⟨p₁, hp₁, hbare₁⟩ := hn.found q p hq
    have hseats : s'.seats = _ := htidy.seats_eq
    obtain ⟨p₂, hp₂, hbare₂⟩ := getPlayer_of_seats hseats hp₁
    exact ⟨p₂, hp₂, hbare₂.trans hbare₁⟩
  · intro c' hc'
    obtain rfl := Option.some.inj hc'
    exact ((hn.holdings hp).mp hvalid).2.2

/-- The terms after any number of counter-offers. -/
theorem negotiated_of_run {s₁ : GameState} {h : List (Taken GameState Call)}
    (hstart : Bargained s₀ pid target offer request none s₁)
    (hp : getPlayerByIdFromState s₀ pid = .ok p) (hrun : Run (· = s₁) Counters h s) :
    Bargained s₀ pid target offer request (lastCounter h) s := by
  induction hrun with
  | start hs => exact hs ▸ hstart
  | @next h s s' call _ hstep ih =>
      obtain ⟨c, hlast, hn⟩ := ih.counters hp hstep
      have hlatest : lastCounter (⟨s, call, s'⟩ :: h) = some c := hlast
      rw [hlatest]
      exact hn

end Negotiation

/-! ## the terms -/

/-- Both sides of the pending trade are covered, and neither party's
acceptance is refused. -/
structure TermsExecutable (s : GameState) (trade : TradeState) : Prop where
  offer : validateTradeOffer s trade.proposerId trade.proposerOffer = .ok ()
  request : validateTradeOffer s trade.targetId trade.targetRequest = .ok ()
  accept : ∀ party counter env, party = trade.proposerId ∨ party = trade.targetId →
    Unrefused (apply s (.respondTrade party trade.id .accept counter) env)

/-- Settling the debt has left the proposer the money offered, and either the
target the money asked for, or the latest counter-offer names no property and
no more than the target has. -/
def StillCovered (s₀ : GameState) (pid target : PlayerId) (offer request : TradeOffer)
    (counter : Option TradeOffer) : Prop :=
  offer.money ≤ s₀.settledCash pid ∧ match counter with
    | none => request.money ≤ s₀.settledCash target
    | some c => c.positions = [] ∧ c.money ≤ s₀.settledCash target ∧
        c.getOutOfJailCards ≤ s₀.jailCards target

section Law

variable {s₀ s₁ s : GameState} {pid target : PlayerId} {offer request : TradeOffer}
  {trade : TradeState} {h : List (Taken GameState Call)}

/-- Nothing is two players' at once. -/
theorem TitlesHeld.disjoint {positions : List Nat} (hheld : TitlesHeld s pid positions)
    (hne : pid ≠ target) : TitlesHeld s target positions ↔ positions = [] := by
  constructor
  · intro hheld'
    cases positions with
    | nil => rfl
    | cons q rest =>
        obtain ⟨o, hat, howner, -⟩ := hheld q List.mem_cons_self
        obtain ⟨o', hat', howner', -⟩ := hheld' q List.mem_cons_self
        obtain rfl := Except.ok.inj (hat.symm.trans hat')
        exact absurd (Option.some.inj (howner.symm.trans howner')) hne
  · rintro rfl q hq
    exact absurd hq List.not_mem_nil

/-- Checked terms can be accepted. -/
theorem apply_accept_unrefused (htrade : s.trade = some trade)
    (hoffer : validateTradeOffer s trade.proposerId trade.proposerOffer = .ok ())
    (hrequest : validateTradeOffer s trade.targetId trade.targetRequest = .ok ())
    {party : PlayerId} (counter : Option TradeOffer) (env : Env)
    (hparty : party = trade.proposerId ∨ party = trade.targetId) :
    Unrefused (apply s (.respondTrade party trade.id .accept counter) env) := by
  have hrespond : Unrefused (respondTrade s party trade.id .accept counter env.clock.now) := by
    have hentitled : ¬(party ≠ trade.proposerId ∧ party ≠ trade.targetId) := fun hnot =>
      hparty.elim hnot.1 hnot.2
    rw [respondTrade, htrade]
    simp only [illegalIf, raiseIf, ne_eq, not_true_eq_false, if_false, if_neg hentitled, ok_bind]
    exact executeTrade_unrefused hoffer hrequest
  refine Unrefused.bind (.ok ()) fun _ => Unrefused.bind (.map (hrespond.bind fun _ => .ok _)) ?_
  exact fun _ => (finishCommand_unrefused _ _ _ _ _).bind fun _ => .ok _

/-- A counter-offer that the check of the proposer lets through is accepted. -/
theorem accepted_counter_iff (hshown : ∃ b, withActions b = .ok s) (htrade : s.trade = some trade)
    (counter : TradeOffer) (env : Env) :
    (∃ s', Accepted s ⟨.respondTrade trade.targetId trade.id .counter (some counter), env⟩ s') ↔
      validateTradeOffer s trade.proposerId counter = .ok () := by
  constructor
  · rintro ⟨s', haccepted⟩
    obtain ⟨-, m, events, rng, hdispatch, -⟩ := haccepted.handled
    have hchecked : Ensures (dispatch s (.respondTrade trade.targetId trade.id .counter
        (some counter)) env) fun _ => validateTradeOffer s trade.proposerId counter = .ok () := by
      refine sat_map.mpr ?_
      rw [respondTrade, htrade]
      exact sat_bind.mpr (.guard fun _ => .guard fun _ => .after fun _ hvalid => hvalid)
    exact hchecked.of_ok hdispatch
  · intro hvalid
    set m : GameState := { s with trade := some { trade with
      targetRequest := counter
      status := .countered
      expiresAt := tradeExpiry env.clock.now } }
    have hrespond : respondTrade s trade.targetId trade.id .counter (some counter) env.clock.now =
        .ok m := by
      rw [respondTrade, htrade]
      simp only [illegalIf, raiseIf, ne_eq, not_true_eq_false, if_false, ok_bind, hvalid]
      rfl
    set command : GameCommand := .respondTrade trade.targetId trade.id .counter (some counter)
    set m' := withTurnDeadline (resetActor m command) env.clock.nowMs
    have htidy : Tidied m m' := (tidied_resetActor m command).trans (tidied_withTurnDeadline _ _)
    obtain ⟨b, hb⟩ := hshown
    have hb' := (withActions_tidied b).of_ok hb
    obtain ⟨s', hs'⟩ := withActions_returns hb m' <| calc
      computeActions m' m'.turn.currentPlayerId
        = computeActions m s.turn.currentPlayerId := by
          rw [htidy.currentPlayerId, htidy.computeActions]
      _ = computeActions s s.turn.currentPlayerId := computeActions_trade htrade _
      _ = computeActions b b.turn.currentPlayerId := by
          rw [hb'.currentPlayerId, hb'.computeActions]
    refine ⟨s', [], env.rng, ?_⟩
    have hdispatch : dispatch s command env = .ok ((m, []), env.rng) := by
      show Except.map _ (respondTrade _ _ _ _ _ _ >>= _) = _
      rw [hrespond]
      rfl
    have hfinish : finishCommand s command env m [] = .ok s' := hs'
    have hmay : assertMayAct s command = .ok () := rfl
    rw [apply, hmay, ok_bind, hdispatch, ok_bind]
    show (finishCommand s command env m [] >>= _) = _
    rw [hfinish]
    rfl

/-- The pending terms can be accepted exactly as long as the settlement of the
debt and the latest counter-offer leave them covered, and a counter-offer that
the target covers is accepted exactly when the proposer covers it too, and it
names no property. -/
theorem pending_terms_iff {env : Env}
    (hpropose : Accepted s₀ ⟨.proposeTrade pid target offer request, env⟩ s₁)
    (hrun : Run (· = s₁) Counters h s) (htrade : s.trade = some trade) :
    (TermsExecutable s trade ↔ StillCovered s₀ pid target offer request (lastCounter h)) ∧
      ∀ counter env, validateTradeOffer s trade.targetId counter = .ok () →
        ((∃ s', Accepted s ⟨.respondTrade trade.targetId trade.id .counter (some counter), env⟩
            s') ↔
          counter.positions = [] ∧ counter.money ≤ s.cash trade.proposerId ∧
            counter.getOutOfJailCards ≤ s.jailCards trade.proposerId) := by
  obtain ⟨hne, hoffer, hrequest, hstart⟩ := negotiated_of_proposal hpropose
  obtain ⟨p, hp, hpcovers⟩ := validateTradeOffer_found hoffer
  obtain ⟨t, ht, htcovers⟩ := validateTradeOffer_found hrequest
  have hn := negotiated_of_run hstart hp hrun
  obtain ⟨trade', htrade', rfl, rfl, hoffered, hrequested⟩ := hn.trade
  obtain rfl : trade' = trade := Option.some.inj (htrade'.symm.trans htrade)
  constructor
  · have hofferSide : validateTradeOffer s trade'.proposerId trade'.proposerOffer = .ok () ↔
        offer.money ≤ s₀.settledCash trade'.proposerId := by
      rw [hoffered, hn.holdings hp]
      exact ⟨fun h => h.1, fun h => ⟨h, ((validateTradeOffer_holdings hp).mp hoffer).2⟩⟩
    have hrequestSide : validateTradeOffer s trade'.targetId trade'.targetRequest = .ok () ↔
        match lastCounter h with
        | none => request.money ≤ s₀.settledCash trade'.targetId
        | some c => c.positions = [] ∧ c.money ≤ s₀.settledCash trade'.targetId ∧
            c.getOutOfJailCards ≤ s₀.jailCards trade'.targetId := by
      rw [hrequested, hn.holdings ht]
      cases hlast : lastCounter h with
      | none =>
          exact ⟨fun h => h.1, fun h => ⟨h, ((validateTradeOffer_holdings ht).mp hrequest).2⟩⟩
      | some c =>
          have htitles := (hn.countered c hlast).disjoint hne
          exact ⟨fun ⟨hmoney, hcards, h⟩ => ⟨htitles.mp h, hmoney, hcards⟩,
            fun ⟨h, hmoney, hcards⟩ => ⟨hmoney, hcards, htitles.mpr h⟩⟩
    constructor
    · intro hterms
      exact ⟨hofferSide.mp hterms.offer, hrequestSide.mp hterms.request⟩
    · rintro ⟨hmoney, hasked⟩
      have hoffer := hofferSide.mpr hmoney
      have hrequest := hrequestSide.mpr hasked
      exact ⟨hoffer, hrequest, fun _ counter env =>
        apply_accept_unrefused htrade hoffer hrequest counter env⟩
  · intro counter env hcovered
    obtain ⟨p', hp', -⟩ := hn.found _ p hp
    obtain ⟨t', ht', -⟩ := hn.found _ t ht
    have hheld := ((validateTradeOffer_holdings ht').mp hcovered).2.2
    rw [accepted_counter_iff hn.shown htrade, validateTradeOffer_holdings hp',
      hheld.disjoint hne.symm]
    tauto

/-- The opening, and what player `2` answers to the proposal of player `1`. -/
def answered (counter : TradeOffer) : List Call :=
  firstPurchase ++ [callAt 0 [] (.proposeTrade 1 2 {} {}),
    callAt 0 [] (.respondTrade 2 7 .counter (some counter))]

/-- Player `2` offers money for nothing. -/
theorem pending_terms_iff_gift : ∃ s₀ s₁ s trade,
    Accepted s₀ (callAt 0 [] (.proposeTrade 1 2 {} {})) s₁ ∧
    Accepted s₁ (callAt 0 [] (.respondTrade 2 7 .counter (some { money := 100 }))) s ∧
    s.trade = some trade ∧ TermsExecutable s trade := by
  obtain ⟨h, s, hplay, hlabels, hcheck⟩ := play_of_reaches (duo 1500) (answered { money := 100 })
    (fun h s => s.trade.isSome && h[1]?.any fun (proposal : Taken GameState Call) => decide
      (0 ≤ proposal.before.settledCash 1 ∧ 100 ≤ proposal.before.settledCash 2 ∧
        0 ≤ proposal.before.jailCards 2)) (by decide) (by decide +kernel)
  obtain ⟨h₀, s₀, s₁, rfl, -, hpropose, hcounter⟩ := last_two_of_play hplay hlabels
  obtain ⟨hsome, hfacts⟩ := Bool.and_eq_true_iff.mp hcheck
  obtain ⟨trade, htrade⟩ := Option.isSome_iff_exists.mp hsome
  obtain ⟨hoffer, hmoney, hcards⟩ := of_decide_eq_true hfacts
  have hcounters : Counters s₁ _ s := ⟨hcounter, 2, 7, some { money := 100 }, rfl⟩
  have hterms := (pending_terms_iff hpropose (.next (.start rfl) hcounters) htrade).1
  exact ⟨s₀, s₁, s, trade, hpropose, hcounter, htrade,
    hterms.mpr ⟨hoffer, rfl, hmoney, hcards⟩⟩

/-- The title asked for is the proposer's own: the counter-offer is let
through, and player `1` cannot accept it. -/
theorem countered_terms_stuck : ∃ h s trade, Play h s ∧
    h.reverse.map (·.label) = answered { positions := [4] } ∧ s.trade = some trade ∧
    validateTradeOffer s trade.targetId trade.targetRequest =
      .error (.illegalMove "cannot trade property you do not own") ∧
    (apply s (.respondTrade 1 7 .accept none) (callAt 0 [] .expireTrade).env).map (fun _ => ()) =
      .error (.illegalMove "cannot trade property you do not own") := by
  obtain ⟨h, s, hplay, hlabels, hcheck⟩ := play_of_reaches (duo 1500)
    (answered { positions := [4] }) (fun _ s => decide (∃ trade ∈ s.trade,
      validateTradeOffer s trade.targetId trade.targetRequest =
        .error (.illegalMove "cannot trade property you do not own") ∧
      (apply s (.respondTrade 1 7 .accept none) (callAt 0 [] .expireTrade).env).map
        (fun _ => ()) = .error (.illegalMove "cannot trade property you do not own")))
    (by decide) (by decide +kernel)
  obtain ⟨trade, htrade, hrequest, haccept⟩ := of_decide_eq_true hcheck
  exact ⟨h, s, trade, hplay, hlabels, htrade, hrequest, haccept⟩

end Law

end Monopoly
