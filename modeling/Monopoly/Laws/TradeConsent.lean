import Monopoly.Spec.Replay

/-!
# Monopoly.Laws.TradeConsent

What the history of a game says about the pending trade: who proposed it,
and which counters were made since.  A trade that is executed was agreed to
by both parties exactly when the party who answers is the one who did not
author the terms.
-/

namespace Monopoly

/-! ## the negotiation in the history -/

/-- The parties, the offer and the request of a proposal. -/
structure Proposal where
  proposerId : PlayerId
  targetId : PlayerId
  offer : TradeOffer
  request : TradeOffer
  deriving DecidableEq, Repr

/-- The latest proposal of a history, which has the latest call first. -/
def lastProposal : List (Taken GameState Call) → Option Proposal
  | [] => none
  | t :: rest =>
      match t.label.command with
      | .proposeTrade pid target offer request => some ⟨pid, target, offer, request⟩
      | _ => lastProposal rest

/-- The counters since the latest proposal, each with its author. -/
def countersSince : List (Taken GameState Call) → List (PlayerId × TradeOffer)
  | [] => []
  | t :: rest =>
      match t.label.command with
      | .proposeTrade .. => []
      | .respondTrade pid _ .counter (some offer) => (pid, offer) :: countersSince rest
      | _ => countersSince rest

/-- The command authors the terms of a trade. -/
def GameCommand.authorsTerms : GameCommand → Bool
  | .proposeTrade .. => true
  | .respondTrade _ _ .counter _ => true
  | _ => false

theorem lastProposal_cons {t : Taken GameState Call} (h : List (Taken GameState Call))
    (hquiet : t.label.command.authorsTerms = false) : lastProposal (t :: h) = lastProposal h := by
  rw [lastProposal]
  split
  · rename_i hcommand
    rw [hcommand] at hquiet
    cases hquiet
  · rfl

theorem countersSince_cons {t : Taken GameState Call} (h : List (Taken GameState Call))
    (hquiet : t.label.command.authorsTerms = false) :
    countersSince (t :: h) = countersSince h := by
  rw [countersSince]
  split
  · rename_i hcommand
    rw [hcommand] at hquiet
    cases hquiet
  · rename_i hcommand
    rw [hcommand] at hquiet
    cases hquiet
  · rfl

/-! ## one call -/

/-- What a command does to the pending trade. -/
inductive TradeStep (s : GameState) : GameCommand → Option TradeState → Prop
  | offered {pid target : PlayerId} {offer request : TradeOffer} {id : Nat} {expiresAt : Int} :
      TradeStep s (.proposeTrade pid target offer request) (some
        { id, proposerId := pid, targetId := target, proposerOffer := offer,
          targetRequest := request, status := .pending, expiresAt })
  | countered {trade : TradeState} {tradeId : Nat} {offer : TradeOffer} {expiresAt : Int} :
      s.trade = some trade →
      TradeStep s (.respondTrade trade.targetId tradeId .counter (some offer))
        (some { trade with targetRequest := offer, status := .countered, expiresAt })
  | kept {command : GameCommand} : command.authorsTerms = false → TradeStep s command s.trade
  | closed {command : GameCommand} : command.authorsTerms = false → TradeStep s command none

section Calls

variable {s m : GameState} {env : Env} {command : GameCommand}

theorem Dispatched.tradeStep (hw : WellFormed s) (hd : Dispatched s env command m) :
    TradeStep s command m.trade := by
  have helim {d : PlayerState} {e : GameState} (he : Eliminated s d command e)
      (ha : AfterElimination e m) (hquiet : command.authorsTerms = false) :
      TradeStep s command m.trade := by
    obtain ⟨heir, f, g, -, hr⟩ := he.removal hw
    have htrade : m.trade = s.trade := by rw [ha.frame]; show e.trade = _; rw [hr.frame]
    exact htrade ▸ .kept hquiet
  cases hd with
  | rolled _ _ _ hr =>
      rw [show m.trade = s.trade by rw [(hr.rollFrame hw.toSound).frame]]
      exact .kept rfl
  | bought _ _ _ _ _ _ _ | passed _ _ | ended _ _ _ _ _ | bailed _ _ _ _ _
  | cardSpent _ _ _ _ _ => exact .kept rfl
  | reworked hcommand _ hr =>
      have hquiet : command.authorsTerms = false := by
        cases command <;> simp [GameCommand.rework] at hcommand <;> rfl
      cases hr
      exact .kept hquiet
  | proposed _ hprop => cases hprop; exact .offered
  | responded hresp =>
      cases hresp with
      | rejected _ _ => exact .closed rfl
      | countered htrade _ hpid _ => exact hpid ▸ .countered htrade
      | accepted _ _ _ hexec => cases hexec; exact .closed rfl
  | bid hbid => cases hbid; exact .kept rfl
  | bankrupted hdebt hdebtor _ hl ha => exact helim (.bankrupted hdebt hdebtor hl) ha rfl
  | surrendered _ hact hsurr ha => exact helim (.surrendered hact hsurr) ha rfl
  | auctionIdle _ | tradeIdle _ | timerIdle _ => exact .kept rfl
  | auctioned _ _ hr => cases hr <;> exact .kept rfl
  | tradeLapsed _ _ => exact .closed rfl
  | timerSkipped _ _ _ _ _ ht => cases ht <;> exact .kept rfl
  | timerSpent _ _ _ _ _ _ => exact .kept rfl
  | timerForced _ _ _ _ hact hsurr ha =>
      have he : Eliminated s (PlayerState.bare _) .turnTimeout _ := .forced hact hsurr
      exact helim he ha rfl

theorem Stepped.tradeStep {s' : GameState} (hw : WellFormed s) (hstep : Stepped s env command s') :
    TradeStep s command s'.trade := by
  cases hstep with
  | replied _ hd ht =>
      rw [show s'.trade = _ by cases ht; rfl]
      exact hd.tradeStep hw
  | @played m n _ _ hd hsettled ht =>
      rw [show s'.trade = m.trade by cases ht; cases hsettled <;> rfl]
      exact hd.tradeStep hw

/-- An accepted response names the pending trade. -/
theorem Stepped.response {pid : PlayerId} {tradeId : Nat} {response : TradeResponse}
    {counter : Option TradeOffer} {s' : GameState}
    (hstep : Stepped s env (.respondTrade pid tradeId response counter) s') :
    ∃ trade, s.trade = some trade ∧
      (response ≠ .reject → pid = trade.proposerId ∨ pid = trade.targetId) := by
  cases hstep with
  | played hreply _ _ _ => simp [GameCommand.isReply] at hreply
  | replied _ hd _ =>
      cases hd with
      | reworked hcommand _ _ => simp [GameCommand.rework] at hcommand
      | responded hresp =>
          cases hresp with
          | rejected htrade _ => exact ⟨_, htrade, by simp⟩
          | countered htrade _ hpid _ => exact ⟨_, htrade, fun _ => .inr hpid⟩
          | accepted htrade _ hparty _ => exact ⟨_, htrade, fun _ => hparty⟩

end Calls

/-! ## every run -/

section Runs

variable {h : List (Taken GameState Call)} {s s' : GameState}

/-- What the history says about the pending trade: its parties and its offer
are those of the last proposal, its request is too as long as it is pending,
and the target countered with it otherwise. -/
structure Negotiated (h : List (Taken GameState Call)) (trade : TradeState) : Prop where
  proposal : ∃ request,
    lastProposal h = some ⟨trade.proposerId, trade.targetId, trade.proposerOffer, request⟩ ∧
      (trade.status = .pending → trade.targetRequest = request)
  status : trade.status = .pending ∧ countersSince h = [] ∨
    trade.status = .countered ∧ (trade.targetId, trade.targetRequest) ∈ countersSince h

theorem Play.negotiated (hplay : Play h s) {trade : TradeState} (htrade : s.trade = some trade) :
    Negotiated h trade := by
  induction hplay generalizing trade with
  | start hopens =>
      obtain ⟨args, hopens⟩ := hopens
      rw [hopens.fresh.trade] at htrade
      cases htrade
  | @next h s s' call hplay ha ih =>
      obtain ⟨hw, hl⟩ := Play.formed hplay
      obtain ⟨command, env⟩ := call
      have hstep := (ha.stepped hw hl).2.tradeStep hw
      generalize s'.trade = after at hstep htrade
      cases hstep with
      | offered =>
          obtain rfl := Option.some.inj htrade
          exact ⟨⟨_, rfl, fun _ => rfl⟩, .inl ⟨rfl, rfl⟩⟩
      | countered hbefore =>
          obtain ⟨⟨request, hlast, -⟩, -⟩ := ih hbefore
          obtain rfl := Option.some.inj htrade
          exact ⟨⟨request, hlast, by simp⟩, .inr ⟨rfl, List.mem_cons_self⟩⟩
      | kept hquiet =>
          have hprev := ih htrade
          have hlast := lastProposal_cons (t := ⟨s, ⟨command, env⟩, s'⟩) h hquiet
          have hcounters := countersSince_cons (t := ⟨s, ⟨command, env⟩, s'⟩) h hquiet
          exact ⟨hlast ▸ hprev.proposal, hcounters ▸ hprev.status⟩
      | closed hquiet => cases htrade

/-- The proposer agreed to the terms: by proposing them, or by accepting them
after a counter. -/
def ProposerAgreed (h : List (Taken GameState Call)) (trade : TradeState) (pid : PlayerId) : Prop :=
  lastProposal h =
      some ⟨trade.proposerId, trade.targetId, trade.proposerOffer, trade.targetRequest⟩ ∨
    pid = trade.proposerId ∧ countersSince h ≠ []

/-- The target agreed to the terms: by accepting them, or by countering with
them. -/
def TargetAgreed (h : List (Taken GameState Call)) (trade : TradeState) (pid : PlayerId) : Prop :=
  pid = trade.targetId ∨ (trade.targetId, trade.targetRequest) ∈ countersSince h

/-- The answer of `pid` to the pending trade is a party's, and an acceptance
finds both parties agreed on the terms. -/
structure Consented (h : List (Taken GameState Call)) (s : GameState) (pid : PlayerId)
    (response : TradeResponse) : Prop where
  party : ∀ trade, s.trade = some trade → pid = trade.proposerId ∨ pid = trade.targetId
  agreed : response = .accept → ∀ trade, s.trade = some trade →
    ProposerAgreed h trade pid ∧ TargetAgreed h trade pid

/-- The counters have not changed the request of the last proposal. -/
def Restated (h : List (Taken GameState Call)) (trade : TradeState) : Prop :=
  (lastProposal h).map (·.request) = some trade.targetRequest

/-- A rejection is a party's.  A pending trade is accepted by the target, and
a countered one by the proposer, unless the counter has restated the
request. -/
def AnswersInTurn (h : List (Taken GameState Call)) (s : GameState) (pid : PlayerId)
    (response : TradeResponse) : Prop :=
  ∀ trade, s.trade = some trade →
    match response with
    | .counter => True
    | .reject => pid = trade.proposerId ∨ pid = trade.targetId
    | .accept => (trade.status = .pending → pid = trade.targetId) ∧
        (trade.status = .countered → pid = trade.proposerId ∨ Restated h trade)

/-- Whether both parties have agreed to the terms that `pid`, one of them,
accepts. -/
theorem agreed_iff {trade : TradeState} (hn : Negotiated h trade) (pid : PlayerId) :
    ProposerAgreed h trade pid ∧ TargetAgreed h trade pid ↔
      (trade.status = .pending → pid = trade.targetId) ∧
        (trade.status = .countered → pid = trade.proposerId ∨ Restated h trade) := by
  obtain ⟨request, hlast, hrequest⟩ := hn.proposal
  have hrestated : Restated h trade ↔ request = trade.targetRequest := by
    rw [Restated, hlast]; simp
  have hauthored : lastProposal h =
      some ⟨trade.proposerId, trade.targetId, trade.proposerOffer, trade.targetRequest⟩ ↔
      request = trade.targetRequest := by
    rw [hlast]; simp
  rw [ProposerAgreed, TargetAgreed, hauthored, hrestated]
  rcases hn.status with ⟨hpending, hnone⟩ | ⟨hcountered, hmem⟩
  · have := hrequest hpending
    simp [hpending, hnone, this]
  · have hsome : countersSince h ≠ [] := List.ne_nil_of_mem hmem
    simp [hcountered, hmem, hsome, or_comm]

/-- **Trade consent.** An accepted answer to a trade is a party's, and an
acceptance finds both parties agreed to the terms that execute, if and only
if the answer comes from the party whose turn it is to answer. -/
theorem trade_consent_iff (hplay : Play h s) {call : Call} (haccepted : Accepted s call s')
    {pid : PlayerId} {tradeId : Nat} {response : TradeResponse} {counter : Option TradeOffer}
    (hcommand : call.command = .respondTrade pid tradeId response counter) :
    Consented h s pid response ↔ AnswersInTurn h s pid response := by
  obtain ⟨hw, hl⟩ := Play.formed hplay
  have hstep := (haccepted.stepped hw hl).2
  rw [hcommand] at hstep
  obtain ⟨trade, htrade, hparty⟩ := hstep.response
  have hiff := agreed_iff (Play.negotiated hplay htrade) pid
  have hthe {t : TradeState} (ht : s.trade = some t) : t = trade :=
    Option.some.inj (ht.symm.trans htrade)
  constructor
  · intro hconsent t ht
    obtain rfl := hthe ht
    cases response with
    | counter => trivial
    | reject => exact hconsent.party t htrade
    | accept => exact hiff.mp (hconsent.agreed rfl t htrade)
  · intro hanswers
    have hanswer := hanswers trade htrade
    constructor
    · intro t ht
      obtain rfl := hthe ht
      cases response with
      | counter | accept => exact hparty (by simp)
      | reject => exact hanswer
    · intro haccept t ht
      obtain rfl := hthe ht
      subst haccept
      exact hiff.mpr hanswer

end Runs

/-- Player `1` asks player `2` for `1000`, and `answerer` accepts. -/
def askedFor (answerer : PlayerId) : List Call :=
  [callAt 0 [] (.proposeTrade 1 2 {} { money := 1000 }),
    callAt 0 [] (.respondTrade answerer 7 .accept none)]

theorem askedFor_play (answerer : PlayerId) (hreaches : Reaches (duo 1500) (askedFor answerer)
    (fun h s => (h.head?.any fun (t : Taken GameState Call) =>
      t.before.trade.any fun (trade : TradeState) => decide (trade.targetId = 2 ∧
        trade.status = .pending ∧ countersSince h.tail = [])) &&
      s.players.any fun p => decide (p.id = 2 ∧ p.balance = 500)) = true) :
    ∃ t h s trade, Play (t :: h) s ∧ (t :: h).reverse.map (·.label) = askedFor answerer ∧
      t.before.trade = some trade ∧ trade.targetId = 2 ∧ trade.status = .pending ∧
      countersSince h = [] ∧ ∃ p ∈ s.players, p.id = 2 ∧ p.balance = 500 := by
  obtain ⟨h, s, hplay, hlabels, hcheck⟩ := play_of_reaches _ _ _ (by decide) hreaches
  obtain ⟨hpending, hany⟩ := (Bool.and_eq_true _ _).mp hcheck
  obtain ⟨p, hp, hmoved⟩ := List.any_eq_true.mp hany
  cases h with
  | nil => simp [askedFor] at hlabels
  | cons t h =>
      obtain ⟨trade, htrade, hchecked⟩ := (Option.any_eq_true _ _).mp (by simpa using hpending)
      obtain ⟨htarget, hstatus, hnone⟩ := of_decide_eq_true hchecked
      exact ⟨t, h, s, trade, hplay, hlabels, htrade, htarget, hstatus, hnone, p, hp,
        of_decide_eq_true hmoved⟩

/-- The commands of player `1` alone move the cash of player `2`. -/
theorem self_acceptance_breaks_consent :
    ∃ t h s, Play (t :: h) s ∧ (t :: h).reverse.map (·.label) = askedFor 1 ∧
      (∃ p ∈ s.players, p.id = 2 ∧ p.balance = 500) ∧ ¬ Consented h t.before 1 .accept := by
  obtain ⟨t, h, s, trade, hplay, hlabels, htrade, htarget, -, hnone, hmoved⟩ :=
    askedFor_play 1 (by decide +kernel)
  refine ⟨t, h, s, hplay, hlabels, hmoved, fun hconsent => ?_⟩
  rcases (hconsent.agreed rfl trade htrade).2 with hself | hmem
  · rw [htarget] at hself
    cases hself
  · rw [hnone] at hmem
    simp at hmem

/-- The same trade accepted by player `2`. -/
theorem trade_consent_target_accepts :
    ∃ t h s, Play (t :: h) s ∧ (t :: h).reverse.map (·.label) = askedFor 2 ∧
      Consented h t.before 2 .accept := by
  obtain ⟨t, h, s, trade, hplay, hlabels, htrade, htarget, hstatus, -, -⟩ :=
    askedFor_play 2 (by decide +kernel)
  refine ⟨t, h, s, hplay, hlabels, ?_⟩
  cases hplay with
  | @next _ s₀ _ call hplay haccepted =>
      have hcall : call = callAt 0 [] (.respondTrade 2 7 .accept none) := by
        have := congrArg List.getLast? hlabels
        simpa [askedFor] using this
      refine (trade_consent_iff hplay haccepted (congrArg Call.command hcall)).mpr fun t ht => ?_
      obtain rfl := Option.some.inj (ht.symm.trans htrade)
      exact ⟨fun _ => htarget.symm, by simp [hstatus]⟩

end Monopoly
