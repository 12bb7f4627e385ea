import Monopoly.Spec.Redisplay
import Monopoly.Spec.Replay

/-!
# Monopoly.Laws.RefusedTrade

An offer that comes to nothing.  When the target refuses it, or its time is
up, the phase is `POST_ROLL`, whatever it was before the offer; everything
else is as it was, unless the offer has settled a debt.
-/

namespace Monopoly

/-- The offer that is pending is turned down by its target, or has expired. -/
def Refuses (s : GameState) (target : PlayerId) (call : Call) : Prop :=
  ∃ trade, s.trade = some trade ∧
    ((∃ counter, call.command = .respondTrade target trade.id .reject counter) ∨
      call.command = .expireTrade ∧ trade.expiresAt ≤ call.env.clock.now)

/-- The state again, one offer later. -/
def Restored (s s' : GameState) : Prop :=
  Redisplayed { s with
    turn := { s.turn with tradeOffersMade := s.turn.tradeOffersMade + 1 } } s'

/-! ## the two calls -/

section Calls

variable {s s₁ s₂ a : GameState} {command : GameCommand} {call : Call} {env : Env}
  {pid target : PlayerId} {offer request : TradeOffer}

theorem Accepted.redisplayed (hw : WellFormed s) (hl : Live s)
    (hquiet : Ensures (dispatch s call.command call.env) fun r => r.1.2 = [])
    (ha : Accepted s call s₁) : ∃ m, Dispatched s call.env call.command m ∧
      (Owing m → Redisplayed m s₁) := by
  obtain ⟨events, rng, happly⟩ := ha
  suffices hensures : Ensures (apply s call.command call.env) fun r =>
      ∃ m, Dispatched s call.env call.command m ∧ (Owing m → Redisplayed m r.1.1) from
    ensures_iff.mp hensures _ happly
  refine Sat.seq (assertMayAct_sat.mono (fun _ _ => trivial) fun _ hmay => hmay) fun _ hmay => ?_
  refine .after fun r hr => ?_
  have hd := (dispatch_sat hw hl hmay).of_ok hr
  have hnil := ensures_iff.mp hquiet r hr
  obtain ⟨⟨m, events⟩, rng⟩ := r
  obtain rfl : events = [] := hnil
  refine .after fun n hn => ⟨m, hd, fun howing => ?_⟩
  have hw' := hd.wellFormed hw
  exact ((finishCommand_redisplayed (fun _ ht => howing.settles hw' ht)
    fun hin => (hd.live hw hl hmay hin).2).of_ok hn).1

/-- The state with an offer pending. -/
def offered (s : GameState) (trade : TradeState) : GameState :=
  { s with
    trade := some trade
    turn := { s.turn with
      phase := .tradeNegotiation, tradeOffersMade := s.turn.tradeOffersMade + 1 } }

theorem accepted_proposal (hw : WellFormed s) (hl : Live s) (howing : Owing s)
    (ha : Accepted s ⟨.proposeTrade pid target offer request, env⟩ s₁) :
    s.trade = none ∧ ∃ trade, Redisplayed (offered s trade) s₁ := by
  have hquiet : Ensures (dispatch s (.proposeTrade pid target offer request) env)
      fun r => r.1.2 = [] := sat_map.mpr (.after fun _ _ => rfl)
  obtain ⟨m, hd, hshown⟩ := ha.redisplayed hw hl hquiet
  cases hd with
  | reworked hcommand _ _ => cases hcommand
  | proposed _ hprop =>
      cases hprop with
      | mk _ hnone _ _ _ _ => exact ⟨hnone, _, hshown howing⟩

/-- A proposal settles a debt that can be paid. -/
theorem bankruptcy_of_proposal (hw : WellFormed s) (hl : Live s) (hpays : ¬Owing s)
    (ha : Accepted s ⟨.proposeTrade pid target offer request, env⟩ s₁) :
    s.bankruptcy ≠ none ∧ s₁.bankruptcy = none := by
  refine ⟨fun hnone => hpays fun debt hdebt => ?_, ?_⟩
  · rw [hnone] at hdebt
    cases hdebt
  obtain ⟨-, hstep⟩ := ha.stepped hw hl
  cases hstep with
  | replied hreply _ _ => cases hreply
  | played _ hd hsettled ht =>
      cases hd with
      | reworked hcommand _ _ => cases hcommand
      | proposed _ hprop =>
          cases hprop
          rw [ht.bankruptcy]
          cases hsettled with
          | free hnone => exact hnone
          | owing hdebt hless =>
              refine absurd (fun debt' hdebt' => ?_) hpays
              obtain rfl := Option.some.inj (hdebt.symm.trans hdebt')
              exact hless
          | paid _ _ _ => rfl

theorem Refuses.mayAct (h : Refuses s target call) : MayAct s call.command := by
  intro pid hplayer hreply
  obtain ⟨trade, -, ⟨counter, hcommand⟩ | ⟨hcommand, -⟩⟩ := h
  · rw [hcommand] at hreply
    cases hreply
  · rw [hcommand] at hplayer
    cases hplayer

/-- The handler of a refusal drops the trade. -/
theorem Refuses.dispatch_eq (h : Refuses s target call) :
    dispatch s call.command call.env = .ok ((dropTrade s, []), call.env.rng) := by
  obtain ⟨command, env⟩ := call
  obtain ⟨trade, htrade, ⟨counter, rfl⟩ | ⟨rfl, hdue⟩⟩ := h
  · simp only [dispatch, respondTrade, htrade, illegalIf, raiseIf, ne_eq, not_true_eq_false,
      if_false]
    rfl
  · simp only [dispatch, htrade, expireTrade, if_neg (Int.not_lt.mpr hdue)]
    rfl

theorem Refuses.accepted (hw : WellFormed s) (hl : Live s) (h : Refuses s target call) :
    ∃ s', Accepted s call s' := by
  refine accepted_of_returns hw hl h.mayAct ?_
  rw [h.dispatch_eq]
  trivial

theorem Refuses.redisplayed (hw : WellFormed s) (hl : Live s) (howing : Owing s)
    (h : Refuses s target call) (ha : Accepted s call s₁) : Redisplayed (dropTrade s) s₁ := by
  have hquiet : Ensures (dispatch s call.command call.env) fun r => r.1.2 = [] := by
    rw [h.dispatch_eq]
    rfl
  obtain ⟨m, hd, hshown⟩ := ha.redisplayed hw hl hquiet
  have hm : m = dropTrade s := by
    obtain ⟨command, env⟩ := call
    obtain ⟨trade, htrade, ⟨counter, rfl⟩ | ⟨rfl, hdue⟩⟩ := h
    · cases hd with
      | reworked hcommand _ _ => cases hcommand
      | responded hresp =>
          cases hresp
          rfl
    · cases hd with
      | reworked hcommand _ _ => cases hcommand
      | tradeIdle hearly => exact absurd (hearly trade htrade) (Int.not_lt.mpr hdue)
      | tradeLapsed _ _ => rfl
  exact hm ▸ hshown (hm ▸ howing)

end Calls

/-! ## the law -/

section Law

variable {h : List (Taken GameState Call)} {s s₁ : GameState} {call : Call} {env : Env}
  {pid target : PlayerId} {offer request : TradeOffer}

theorem Redisplayed.owing {a b : GameState} (h : Redisplayed a b) (howing : Owing a) : Owing b :=
  (owing_iff_of_tidied h.tidied).mpr howing

/-- A trade that was proposed and then refused by the target, or that has
expired, leaves everything as it was but the phase, which is `POST_ROLL`,
and a debt that could be paid, which is settled. -/
theorem refused_trade_restores (hplay : Play h s)
    (hpropose : Accepted s ⟨.proposeTrade pid target offer request, env⟩ s₁)
    (hrefuses : Refuses s₁ target call) :
    (∃ s₂, Accepted s₁ call s₂) ∧ ∀ s₂, Accepted s₁ call s₂ →
      (Restored s s₂ ↔ s.turn.phase = .postRoll ∧ Owing s) := by
  obtain ⟨hw, hl⟩ := Play.formed hplay
  obtain ⟨hw₁, hl₁⟩ := Play.formed (hplay.next hpropose)
  refine ⟨hrefuses.accepted hw₁ hl₁, fun s₂ ha => ?_⟩
  by_cases howing : Owing s
  · obtain ⟨hnone, trade, hoffered⟩ := accepted_proposal hw hl howing hpropose
    have howing' : Owing (offered s trade) := howing
    have hdropped := hrefuses.redisplayed hw₁ hl₁ (hoffered.owing howing') ha
    obtain ⟨hframe₁, hplayers₁⟩ := hoffered
    obtain ⟨hframe₂, hplayers₂⟩ := hdropped
    have hphase₂ : s₂.turn.phase = .postRoll := by rw [hframe₂]; rfl
    constructor
    · rintro ⟨hframe, -⟩
      refine ⟨?_, howing⟩
      rw [← hphase₂, hframe]
    · rintro ⟨hphase, -⟩
      refine ⟨?_, hplayers₂.trans hplayers₁⟩
      rw [hframe₂, hframe₁]
      simp only [dropTrade, offered, ← hphase, ← hnone]
  · obtain ⟨hdebt, hpaid⟩ := bankruptcy_of_proposal hw hl howing hpropose
    have howing₁ : Owing s₁ := by
      intro debt hsome
      rw [hpaid] at hsome
      cases hsome
    obtain ⟨hframe₂, -⟩ := hrefuses.redisplayed hw₁ hl₁ howing₁ ha
    have hnone₂ : s₂.bankruptcy = none := by rw [hframe₂]; exact hpaid
    refine iff_of_false (fun hrestored => hdebt ?_) fun hcond => howing hcond.2
    rw [← hnone₂, hrestored.frame]

/-- The trade that is pending before the last call has the id `7`, and the
state before the call before that passes the check. -/
def offeredFrom (check : GameState → Bool) : List (Taken GameState Call) → Bool
  | t₂ :: t₁ :: _ => decide (t₂.before.trade.map (·.id) = some 7) && check t₁.before
  | _ => false

/-- An offer is made after the income tax was paid, and refused. -/
theorem refused_trade_after_roll : ∃ h s s₁ s₂, Play h s ∧
    Accepted s (callAt 0 [] (.proposeTrade 1 2 {} {})) s₁ ∧
    Accepted s₁ (callAt 0 [] (.respondTrade 2 7 .reject none)) s₂ ∧ Restored s s₂ := by
  obtain ⟨h, s₂, hplay, hlabels, hcheck⟩ := play_of_reaches (duo 1500)
    ([callAt 0 [0, 2] (.rollDice 1)] ++ [callAt 0 [] (.proposeTrade 1 2 {} {}),
      callAt 0 [] (.respondTrade 2 7 .reject none)])
    (fun h _ => offeredFrom (fun s =>
      decide (s.turn.phase = .postRoll ∧ s.bankruptcy = none)) h)
    (by decide) (by decide +kernel)
  obtain ⟨h₀, s, s₁, rfl, hbefore, hpropose, hreject⟩ := last_two_of_play hplay hlabels
  obtain ⟨htrade, hstate⟩ := Bool.and_eq_true_iff.mp hcheck
  obtain ⟨trade, htrade, hid⟩ := Option.map_eq_some_iff.mp (of_decide_eq_true htrade)
  obtain ⟨hphase, hnone⟩ := of_decide_eq_true hstate
  have hrefuses : Refuses s₁ 2 (callAt 0 [] (.respondTrade 2 7 .reject none)) :=
    ⟨trade, htrade, .inl ⟨none, by rw [hid]; rfl⟩⟩
  refine ⟨h₀, s, s₁, s₂, hbefore, hpropose, hreject, ?_⟩
  refine ((refused_trade_restores hbefore hpropose hrefuses).2 s₂ hreject).mpr
    ⟨hphase, fun debt hdebt => ?_⟩
  rw [show s.bankruptcy = none from hnone] at hdebt
  cases hdebt

/-- An offer is made before the roll, and refused: the turn goes on as if
the player had rolled. -/
theorem refused_trade_skips_roll : ∃ h s s₁ s₂, Play h s ∧ s.status = .inProgress ∧
    Accepted s (callAt 0 [] (.proposeTrade 1 2 {} {})) s₁ ∧
    Refuses s₁ 2 (callAt 0 [] (.respondTrade 2 7 .reject none)) ∧
    Accepted s₁ (callAt 0 [] (.respondTrade 2 7 .reject none)) s₂ ∧
    s.turn.phase = .preRoll ∧ s₂.turn.phase = .postRoll ∧ ¬Restored s s₂ := by
  obtain ⟨h, s₂, hplay, hlabels, hcheck⟩ := play_of_reaches (duo 1500)
    ([] ++ [callAt 0 [] (.proposeTrade 1 2 {} {}), callAt 0 [] (.respondTrade 2 7 .reject none)])
    (fun h s₂ => decide (s₂.turn.phase = .postRoll) && offeredFrom (fun s =>
      decide (s.status = .inProgress ∧ s.turn.phase = .preRoll)) h)
    (by decide) (by decide +kernel)
  obtain ⟨h₀, s, s₁, rfl, hbefore, hpropose, hreject⟩ := last_two_of_play hplay hlabels
  obtain ⟨hafter, hoffer⟩ := Bool.and_eq_true_iff.mp hcheck
  obtain ⟨htrade, hstate⟩ := Bool.and_eq_true_iff.mp hoffer
  replace hafter : s₂.turn.phase = .postRoll := of_decide_eq_true hafter
  obtain ⟨trade, htrade, hid⟩ := Option.map_eq_some_iff.mp (of_decide_eq_true htrade)
  obtain ⟨hin, hphase⟩ := of_decide_eq_true hstate
  refine ⟨h₀, s, s₁, s₂, hbefore, hin, hpropose, ⟨trade, htrade, .inl ⟨none, by rw [hid]; rfl⟩⟩,
    hreject, hphase, hafter, fun hrestored => ?_⟩
  rw [hrestored.frame] at hafter
  exact absurd (hphase.symm.trans hafter) (by decide)

end Law

end Monopoly
