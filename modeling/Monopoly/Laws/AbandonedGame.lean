import Mathlib.Algebra.Order.BigOperators.Group.List
import Mathlib.Algebra.Order.Group.Nat
import Monopoly.Laws.AfkStrikes
import Monopoly.Laws.IdleTimers
import Monopoly.Laws.Snapshot
import Monopoly.Lib.Path
import Monopoly.Service.Schedule
import Monopoly.Spec.Phases

/-!
# Monopoly.Laws.AbandonedGame

A game whose players are all gone.  The ticks of the scheduler are all that
is left of it: they close the auction and the trade that are pending, let
the turns run out one after the other, and take the players out at their
third strike, until one is left.  Only a debt that waits to be resolved
stops them, since no timer runs in that phase.
-/

namespace Monopoly

/-- The game waits for a player to resolve a debt, and nothing else is
pending. -/
def Waits (s : GameState) : Prop :=
  s.turn.phase = .bankruptResolution ∧ s.auction = none ∧ s.trade = none

/-- At this time everything that is pending is due. -/
structure Overdue (s : GameState) (clock : Clock) : Prop where
  auction : ∀ a ∈ s.auction, auctionTimeRemaining a clock.nowMs ≤ 0
  trade : ∀ t ∈ s.trade, t.expiresAt ≤ clock.now
  turn : ∀ d ∈ s.turn.turnDeadlineMs, d ≤ clock.nowMs

/-- A reading of the clock at least a turn's time after another one. -/
def ATurnLater (mode : GameMode) (before after : Clock) : Prop :=
  before.nowMs + turnTimeoutOf mode ≤ after.nowMs ∧ before.now ≤ after.now

instance (mode : GameMode) (before after : Clock) : Decidable (ATurnLater mode before after) :=
  inferInstanceAs (Decidable (_ ∧ _))

/-- How many more strikes take the player out. -/
def PlayerState.patience (p : PlayerState) : Nat :=
  if p.isBankrupt then 0 else maxAfkStrikes - p.afkStrikes

/-- How many ticks the game can go on for by itself. -/
def patience (s : GameState) : Nat :=
  (s.profiles.map PlayerState.patience).sum + s.auction.toList.length + s.trade.toList.length

section Step

variable {s m s' : GameState} {env : Env} {command : GameCommand} {clock : Clock} {call : Call}
  {h : List (Taken GameState Call)}

/-! ## what a tick finds due -/

/-- Every call sets the deadline of the turn anew. -/
theorem Accepted.deadline (hcall : Accepted s call s') :
    s'.turn.turnDeadlineMs = some (call.env.clock.nowMs + turnTimeoutOf s'.gameMode) := by
  obtain ⟨-, m, events, rng, -, hfinish⟩ := hcall.handled
  refine Sat.of_ok (Q := fun s' : GameState => s'.turn.turnDeadlineMs =
    some (call.env.clock.nowMs + turnTimeoutOf s'.gameMode)) (E := fun _ => True) ?_ hfinish
  unfold finishCommand
  rw [sat_ite]
  exact ⟨fun _ => .after fun _ _ => rfl, fun _ => .after fun _ _ => .after fun _ _ => rfl⟩

theorem Play.deadline (hplay : Play h s) : ∃ d, s.turn.turnDeadlineMs = some d := by
  cases hplay with
  | start hopens =>
      obtain ⟨args, -, uuid4, -, rng, hnew⟩ := hopens
      refine Sat.of_ok (E := fun _ => True)
        (Q := fun r => ∃ d, r.1.turn.turnDeadlineMs = some d) ?_ hnew
      exact .after fun _ _ => ⟨_, rfl⟩
  | next _ hcall => exact ⟨_, hcall.deadline⟩

/-- A game is on, or it is over. -/
theorem Play.on_or_over (hplay : Play h s) : s.status = .inProgress ∨ s.status = .finished := by
  refine Play.invariant (I := fun s => s.status = .inProgress ∨ s.status = .finished)
    (fun args s hopens => .inl hopens.fresh.status)
    (fun s call s' hw hl hI hmay hstep => ?_) hplay
  have hhandler : ∀ m, Dispatched s call.env call.command m →
      m.status = .inProgress ∨ m.status = .finished := by
    intro m hd
    rcases hd.roster hw hmay with ⟨-, f, -, -, hstatus, -⟩ | ⟨-, d, e, -, -, he, ha⟩
    · rw [hstatus]
      exact hI
    · obtain ⟨heir, f, g, -, hr⟩ := he.removal hw
      cases ha with
      | ended _ hfin => exact .inr hfin
      | passed _ _ ht =>
          have hsame : e.status = s.status := by rw [hr.frame]
          cases ht <;> exact hsame ▸ hI
  cases hstep with
  | replied _ hd ht => exact ht.status ▸ hhandler _ hd
  | played _ hd hsettled ht => exact ht.status ▸ hsettled.status ▸ hhandler _ hd

/-- A game on which a timer is due at `clock`, with the command of the timer:
the auction first, then the trade, then the turn. -/
inductive Due (s : GameState) (clock : Clock) : GameCommand → Prop
  | auction {a : AuctionState} : s.auction = some a →
      isAuctionExpired s clock.nowMs = true → Due s clock .advanceAuction
  | trade {t : TradeState} : s.auction = none → s.trade = some t → t.expiresAt ≤ clock.now →
      Due s clock .expireTrade
  | turn : s.auction = none → s.trade = none → isTurnExpired s clock.nowMs = true →
      Due s clock .turnTimeout

/-- Where everything pending is due and nothing waits, the scheduler finds a
command to give. -/
theorem Play.due (hplay : Play h s) (hon : s.status = .inProgress) (hnot : ¬Waits s)
    (hover : Overdue s clock) : ∃ command, dueCommand s clock = some command ∧
      Due s clock command := by
  unfold dueCommand
  cases hauction : s.auction with
  | some a =>
      have hexpired : isAuctionExpired s clock.nowMs = true := by
        rw [isAuctionExpired, hauction]
        exact decide_eq_true (hover.auction a hauction)
      exact ⟨_, if_pos ⟨rfl, hexpired⟩, .auction hauction hexpired⟩
  | none =>
      rw [if_neg (by simp)]
      cases htrade : s.trade with
      | some t =>
          have hlapsed := hover.trade t htrade
          exact ⟨_, if_pos ⟨t, rfl, hlapsed⟩, .trade hauction htrade hlapsed⟩
      | none =>
          rw [if_neg (by simp)]
          obtain ⟨d, hd⟩ := hplay.deadline
          have hphase : s.turn.phase ∈ activeTurnPhases := by
            have hphased := hplay.phased
            have hrest : s.turn.phase ≠ .bankruptResolution := fun h => hnot ⟨h, hauction, htrade⟩
            unfold Phased at hphased
            cases hcase : s.turn.phase <;>
              simp [hcase, hauction, htrade, hon, activeTurnPhases] at hphased hrest ⊢
          have hexpired : isTurnExpired s clock.nowMs = true := by
            simp [isTurnExpired, hd, hover.turn d hd, hphase]
          exact ⟨_, if_pos hexpired, .turn hauction htrade hexpired⟩

/-- Where the game waits no timer is ever due. -/
theorem Waits.dueCommand (hwaits : Waits s) (clock : Clock) : dueCommand s clock = none := by
  obtain ⟨hphase, hauction, htrade⟩ := hwaits
  have hturn : isTurnExpired s clock.nowMs = false := by
    unfold isTurnExpired
    split <;> simp [hphase, activeTurnPhases]
  simp [Monopoly.dueCommand, hauction, htrade, hturn]

/-! ## what the command leaves -/

/-- What is left when a timer that was due has been served: the auction is
closed, the trade is closed or as it was, and no debt waits. -/
structure Closed (s m : GameState) (command : GameCommand) : Prop where
  auction : m.auction = none
  trade : m.trade = if command = .advanceAuction then s.trade else none
  phase : m.turn.phase ≠ .bankruptResolution

theorem opening_ne_bankrupt (turn : TurnState) (next : PlayerState) (round : Nat) :
    (passTurn turn next round).phase ≠ .bankruptResolution := by
  rcases openingPhase_cases next with h | h <;> simp [passTurn, h]

theorem AfterElimination.closed {e : GameState} (h : Closed s e command)
    (ha : AfterElimination e m) : Closed s m command := by
  refine ⟨by rw [ha.frame]; exact h.auction, by rw [ha.frame]; exact h.trade, ?_⟩
  cases ha with
  | ended hc _ =>
      cases hc with
      | won _ _ => simp
      | unchanged _ => exact h.phase
  | passed _ _ ht =>
      cases ht with
      | passed _ _ => exact opening_ne_bankrupt _ _ _
      | nobody _ => exact h.phase

theorem Due.handled (hdue : Due s env.clock command) (hd : Dispatched s env command m) :
    Closed s m command := by
  cases hdue with
  | auction ha hexpired =>
      cases hd with
      | auctionIdle hidle => rw [hidle] at hexpired; cases hexpired
      | auctioned _ _ hr =>
          have hafter : afterAuction s.turn ≠ .bankruptResolution := by
            unfold afterAuction
            split <;> simp
          cases hr <;> exact ⟨rfl, by simp, hafter⟩
      | reworked hcommand _ _ => cases hcommand
  | trade ha ht hlapsed =>
      cases hd with
      | tradeIdle hidle => have := hidle _ ht; omega
      | tradeLapsed _ _ => exact ⟨ha, by simp [dropTrade], by simp [dropTrade]⟩
      | reworked hcommand _ _ => cases hcommand
  | turn ha ht hexpired =>
      have hphase : s.turn.phase ≠ .bankruptResolution := by
        intro h
        have hactive := isTurnExpired_phase hexpired
        simp [h, activeTurnPhases] at hactive
      cases hd with
      | timerIdle hidle => rw [hidle] at hexpired; cases hexpired
      | timerSkipped _ _ _ _ _ hmoved =>
          cases hmoved with
          | passed _ _ => exact ⟨ha, by simpa using ht, opening_ne_bankrupt _ _ _⟩
          | nobody _ => exact ⟨ha, by simpa using ht, hphase⟩
      | timerSpent _ _ _ _ _ _ => exact ⟨ha, by simpa using ht, hphase⟩
      | timerForced _ _ _ _ _ hsurr hafter =>
          refine hafter.closed ?_
          cases hsurr
          exact ⟨ha, by simpa using ht, hphase⟩
      | reworked hcommand _ _ => cases hcommand

theorem Due.player (hdue : Due s clock command) : command.player = none := by
  cases hdue <;> rfl

theorem Due.isReply (hdue : Due s clock command) : command.isReply = false := by
  cases hdue <;> rfl

/-- The call of a timer that was due. -/
theorem Due.closed (hw : WellFormed s) (hl : Live s) (hdue : Due s call.env.clock call.command)
    (hcall : Accepted s call s') : Closed s s' call.command := by
  have hreply : call.command.isReply = false := hdue.isReply
  obtain ⟨-, hstep⟩ := hcall.stepped hw hl
  cases hstep with
  | replied hyes _ _ => rw [hyes] at hreply; cases hreply
  | played _ hd hsettled htidy =>
      have hm := hdue.handled hd
      refine ⟨?_, ?_, ?_⟩
      · rw [htidy.auction]
        cases hsettled <;> exact hm.auction
      · rw [htidy.trade]
        cases hsettled <;> exact hm.trade
      · rw [htidy.phase]
        cases hsettled with
        | free _ | owing _ _ => exact hm.phase
        | paid _ _ _ => simp

/-! ## patience -/

/-- The timer takes patience from the player it runs out on. -/
theorem patience_timedOut {p : PlayerState} {n : Nat} (hin : p.isBankrupt = false)
    (hfew : p.afkStrikes < maxAfkStrikes) : (p.timedOut n).patience < p.patience := by
  unfold PlayerState.timedOut
  split
  · simp only [PlayerState.patience, PlayerState.retired, hin, if_true, Bool.false_eq_true,
      if_false]
    omega
  · rename_i hkept
    have hmore : ¬maxAfkStrikes ≤ p.afkStrikes + 1 := fun h => hkept ⟨h, hin⟩
    simp only [PlayerState.patience, PlayerState.struck, hin, Bool.false_eq_true, if_false]
    omega

theorem patience_players (s : GameState) :
    (s.profiles.map PlayerState.patience) = s.players.map PlayerState.patience := by
  simp only [GameState.profiles, profilesOf, List.map_map]
  rfl

/-- Every timer that was due takes from the patience of the game. -/
theorem Due.impatient (hplay : Play h s) (hon : s.status = .inProgress)
    (hdue : Due s call.env.clock call.command) (hcall : Accepted s call s') :
    patience s' < patience s := by
  obtain ⟨hw, hl⟩ := hplay.formed
  have hclosed := hdue.closed hw hl hcall
  have hprofiles := hcall.profiles hw.playerIds
  have hleaves : call.leaves s = call.command.marks s call.env :=
    funext fun p => if_neg (by simp [hdue.player])
  rw [hleaves] at hprofiles
  have hauction := hclosed.auction
  have htrade := hclosed.trade
  generalize hcommand : call.command = command at *
  unfold patience
  rw [hprofiles, hauction, htrade, List.map_map]
  cases hdue with
  | auction ha _ =>
      have hsame : GameCommand.advanceAuction.marks s call.env = id := rfl
      simp [hsame, ha]
  | trade ha ht _ =>
      have hsame : GameCommand.expireTrade.marks s call.env = id := rfl
      simp [hsame, ha, ht]
  | turn ha ht hexpired =>
      simp only [ha, ht, Option.toList_none, List.length_nil, Nat.add_zero, reduceCtorEq, if_false]
      obtain ⟨p, hp, hcurrent, hin⟩ := (hl hon).1
      obtain ⟨q, hq, rfl⟩ := exists_player hp
      have hfew := (hplay.tallied hq hin).few
      have hstrike : (q.profile.timedOut s.turn.turnNumber).patience < q.profile.patience :=
        patience_timedOut hin hfew
      have hmarks : ∀ r : PlayerState, GameCommand.turnTimeout.marks s call.env r =
          if r.id = q.id then r.timedOut s.turn.turnNumber else r := fun r => by
        rw [GameCommand.marks, if_pos hexpired, ← hcurrent]
        rfl
      refine List.sum_lt_sum _ _ (fun r hr => ?_) ⟨q.profile, List.mem_map_of_mem hq, ?_⟩
      · obtain ⟨r, hseat, rfl⟩ := List.mem_map.mp hr
        simp only [Function.comp, hmarks]
        split
        · rename_i hid
          obtain rfl : r = q := eq_of_key_eq PlayerState.id hw.playerIds hseat hq hid
          exact hstrike.le
        · exact le_rfl
      · simp only [Function.comp, hmarks]
        rw [if_pos (show q.profile.id = q.id from rfl)]
        exact hstrike

/-- A timer that is due is never refused. -/
theorem Due.accepted (hplay : Play h s) (hon : s.status = .inProgress)
    (hdue : Due s env.clock command) : ∃ s', Accepted s ⟨command, env⟩ s' := by
  obtain ⟨hw, hl⟩ := hplay.formed
  have hunrefused : Unrefused (apply s command env) := by
    have hmay : assertMayAct s command = .ok () := by
      rw [assertMayAct, hdue.player]
      rfl
    cases hdue with
    | auction _ _ => exact apply_advanceAuction_unrefused s env
    | trade _ ht hlapsed =>
        refine .bind (.ok ()) fun _ => .bind (.map ?_) fun r =>
          (finishCommand_unrefused _ _ _ _ _).bind fun _ => .ok _
        rw [ht]
        exact .ite (.ok _) (.ok _)
    | turn _ _ _ =>
        refine .bind (.ok ()) fun _ => .bind (.map ?_) fun r =>
          (finishCommand_unrefused _ _ _ _ _).bind fun _ => .ok _
        exact (handleTurnTimeout_sat hw).mono (fun _ h => h.elim) fun _ _ => trivial
  have hsafe := apply_sat hw hl env command
  cases happly : apply s command env with
  | ok r => exact ⟨r.1.1, r.1.2, r.2, happly⟩
  | error e =>
      rw [happly] at hsafe hunrefused
      refine absurd (hsafe hon ⟨?_, ?_⟩) hunrefused
      · cases hdue <;> simp [GameCommand.playerIds, GameCommand.player]
      · cases hdue <;> simp [GameCommand.positions]

end Step

/-! ## the ticks -/

/-- What the clock answered, if it was asked. -/
def Event.reading : Event FlowId Op Op.Ans → Option Clock
  | ⟨_, .now, clock⟩ => some clock
  | _ => none

/-- Reads return the current document, and the clock says `clock`. -/
def AnsweredAt (clock : Clock) (w : World) (e : Event FlowId Op Op.Ans) : Prop :=
  ReadsLatest w e ∧ ∀ now ∈ e.reading, now = clock

/-- One round of `_tick` for the session with nobody else about: the game is
ticked while it is in progress, and not looked at otherwise. -/
inductive Ticked (settings : Settings) (w : World) (clock : Clock) : World → Prop
  | visited {doc : GameDocument} {i : FlowId} {outcome : Outcome} {w' : World} :
      w.current = some doc → doc.state.status = .inProgress →
      (tickOne settings).Alone (Exec.under exec (AnsweredAt clock)) i w outcome w' →
      Ticked settings w clock w'
  | passedOver : (∀ doc ∈ w.current, doc.state.status ≠ .inProgress) → Ticked settings w clock w

section Ticks

variable {settings : Settings} {w w' : World} {doc : GameDocument} {clock : Clock} {i : FlowId}
  {outcome outcome' : Outcome} {command : GameCommand} {h : List (Taken GameState Call)}

/-- What is left of a tick once it has read the game and the clock. -/
theorem tickOne_reads (hcurrent : w.current = some doc)
    (h : (tickOne settings).Alone (Exec.under exec (AnsweredAt clock)) i w outcome w') :
    (tickDue settings doc.toDomain clock (dueCommand doc.state clock)).Alone
      (Exec.under exec (AnsweredAt clock)) i w outcome w' := by
  obtain ⟨found, v, ⟨⟨hlatest, -⟩, rfl, -⟩, hread⟩ := Co.alone_await.mp h
  have hfound : found = some doc.toDomain := by
    rw [hlatest found rfl, hcurrent]
    rfl
  subst hfound
  obtain ⟨now, v, ⟨⟨-, hclock⟩, rfl⟩, hdue⟩ := Co.alone_await.mp hread
  obtain rfl := hclock now rfl
  exact hdue

theorem tickOne_idle (hcurrent : w.current = some doc) (hidle : dueCommand doc.state clock = none)
    (h : (tickOne settings).Alone (Exec.under exec (AnsweredAt clock)) i w outcome w') :
    w' = w := by
  have hdue := tickOne_reads hcurrent h
  rw [hidle] at hdue
  exact hdue.2

/-- The end of the game leaves the document. -/
theorem finishIfOver_current {game : StoredGame}
    (h : (finishIfOver game outcome finishTicked).Alone (Exec.under exec (AnsweredAt clock)) i w
      outcome' w') (hcurrent : w.current = some doc) : w'.current = some doc := by
  have hkeeps : (finishIfOver game outcome finishTicked).Uses fun op => ∀ (w : World) r w',
      exec i w op r w' → w'.commits = w.commits := by
    have hmark : Op.markFinished.Free := trivial
    have hrate : Op.applyRatings.Free := trivial
    refine finishIfOver_uses (finishTicked_uses ?_ ?_ ?_ ?_) game outcome
    · exact fun w r w' hexec => (exec_free hmark hexec).1
    · exact fun w r w' hexec => (exec_free hrate hexec).1
    · rintro w r w' ⟨-, rfl⟩
      rfl
    · rintro seq w r w' rfl
      rfl
  refine hkeeps.alone_keeps (A := fun w => w.current = some doc) ?_ h hcurrent
  intro w op r w' hop hw hexec
  rw [World.current, hop w r w' hexec.2]
  exact hw

theorem tickOne_due (hcurrent : w.current = some doc)
    (hdue : dueCommand doc.state clock = some command)
    (haccepted : ∀ env : Env, env.clock = clock → ∃ s', Accepted doc.state ⟨command, env⟩ s')
    (h : (tickOne settings).Alone (Exec.under exec (AnsweredAt clock)) i w outcome w') :
    ∃ env s' doc', env.clock = clock ∧ Accepted doc.state ⟨command, env⟩ s' ∧
      w'.current = some doc' ∧ doc'.state = s' := by
  have hserve := tickOne_reads hcurrent h
  rw [hdue] at hserve
  obtain ⟨tradeId, v, ⟨-, hv⟩, hstore⟩ := Co.alone_await.mp hserve
  rw [show v = w from hv] at hstore
  let env := applyEnv settings doc.toDomain clock tradeId
  obtain ⟨s', events, rng, happly⟩ := haccepted env rfl
  have happly' : apply doc.toDomain.state command env = .ok ((s', events), rng) := happly
  refine ⟨env, s', { doc with state := s', rngState := rng, version := doc.version + 1 }, rfl,
    ⟨events, rng, happly⟩, ?_, rfl⟩
  rw [happly'] at hstore
  obtain ⟨updated, v, ⟨-, hupdate⟩, hpublish⟩ := Co.alone_await.mp hstore
  simp only [exec, World.updateWithVersion, hcurrent, GameDocument.toDomain, and_self, if_true,
    Prod.mk.injEq] at hupdate
  obtain ⟨rfl, rfl⟩ := hupdate
  obtain ⟨seq, v, ⟨-, -, rfl⟩, hrest⟩ := Co.alone_await.mp hpublish
  obtain ⟨-, v, ⟨-, rfl⟩, hfinish⟩ := Co.alone_await.mp hrest
  exact finishIfOver_current hfinish rfl

/-- The game of the session is over, and it was played to its end. -/
def EndedGame (w : World) : Prop :=
  ∃ h doc, w.current = some doc ∧ Play h doc.state ∧ doc.state.status = .finished

/-- The game goes on by itself, and the clock readings to come leave every
turn its time. -/
def RunsOut (w : World) (clocks : List Clock) : Prop :=
  ∃ h doc, w.current = some doc ∧ Play h doc.state ∧ doc.state.status = .inProgress ∧
    ¬Waits doc.state ∧ (∀ clock ∈ clocks.head?, Overdue doc.state clock) ∧
    clocks.IsChain (ATurnLater doc.state.gameMode)

/-- The ticks that are left to the game that is stored. -/
def ticksLeft (w : World) : Nat := (w.current.map fun doc => patience doc.state).getD 0

/-- The player whose turn it is has patience left. -/
theorem RunsOut.ticksLeft_pos {clocks : List Clock} (hruns : RunsOut w clocks) :
    0 < ticksLeft w := by
  obtain ⟨h, doc, hcurrent, hplay, hon, -⟩ := hruns
  obtain ⟨-, hl⟩ := hplay.formed
  obtain ⟨p, hp, -, hin⟩ := (hl hon).1
  obtain ⟨q, hq, rfl⟩ := exists_player hp
  have hin : q.isBankrupt = false := hin
  have hfew := (hplay.tallied hq hin).few
  have hpatient : 0 < q.patience := by
    simp only [PlayerState.patience, hin, Bool.false_eq_true, if_false]
    omega
  have hsum : q.patience ≤ (doc.state.players.map PlayerState.patience).sum :=
    List.le_sum_of_mem (List.mem_map_of_mem hq)
  simp only [ticksLeft, hcurrent, Option.map_some, Option.getD_some, patience, patience_players]
  omega

/-- Once a timer has been served, everything that is left is due a turn's time
later. -/
theorem Due.overdue_next {s s' : GameState} {env : Env} {next : Clock}
    (hclosed : Closed s s' command) (hcall : Accepted s ⟨command, env⟩ s')
    (hmode : s'.gameMode = s.gameMode) (hover : Overdue s env.clock)
    (hlater : ATurnLater s.gameMode env.clock next) : Overdue s' next where
  auction a ha := by
    rw [hclosed.auction] at ha
    cases ha
  trade t ht := by
    rw [hclosed.trade] at ht
    split at ht
    · exact (hover.trade t ht).trans hlater.2
    · cases ht
  turn d hd := by
    rw [hcall.deadline, hmode] at hd
    obtain rfl := Option.some.inj hd
    exact hlater.1

/-- One round: the game is over, or it has less patience left. -/
theorem RunsOut.ticked {clocks : List Clock} (hruns : RunsOut w (clock :: clocks))
    (htick : Ticked settings w clock w') :
    EndedGame w' ∨ RunsOut w' clocks ∧ ticksLeft w' < ticksLeft w := by
  obtain ⟨h, doc, hcurrent, hplay, hon, hnot, hover, hspaced⟩ := hruns
  have hnow := hover clock rfl
  obtain ⟨command, hcommand, hdue⟩ := hplay.due hon hnot hnow
  cases htick with
  | passedOver hoff => exact absurd hon (hoff doc hcurrent)
  | visited hcurrent' _ halone =>
      obtain rfl := Option.some.inj (hcurrent'.symm.trans hcurrent)
      obtain ⟨env, s', doc', rfl, hcall, hcurrent'', rfl⟩ := tickOne_due hcurrent hcommand
        (fun env henv => Due.accepted hplay hon (henv ▸ hdue)) halone
      obtain ⟨hw, hl⟩ := hplay.formed
      have hplay' := hplay.next hcall
      have hclosed := Due.closed hw hl (by exact hdue) hcall
      have hmode : doc'.state.gameMode = _ := (hcall.stepped hw hl).2.gameMode hw.toSound
      have hless := Due.impatient hplay hon hdue hcall
      cases hstatus : doc'.state.status with
      | finished => exact .inl ⟨_, doc', hcurrent'', hplay', hstatus⟩
      | inProgress =>
          refine .inr ⟨⟨_, doc', hcurrent'', hplay', hstatus, fun hwaits => hclosed.phase hwaits.1,
            fun next hnext => ?_, ?_⟩, ?_⟩
          · cases hspaced with
            | singleton => cases hnext
            | cons_cons hlater _ =>
                obtain rfl := Option.some.inj hnext
                exact Due.overdue_next hclosed hcall hmode hnow hlater
          · rw [hmode]
            exact hspaced.of_cons
          · simp only [ticksLeft, hcurrent, hcurrent'', Option.map_some, Option.getD_some]
            exact hless
      | lobby =>
          rcases Play.on_or_over hplay' with h | h <;> rw [h] at hstatus <;> cases hstatus

/-- A game that is over is not looked at any more. -/
theorem EndedGame.ticked (hended : EndedGame w) (htick : Ticked settings w clock w') :
    EndedGame w' := by
  cases htick with
  | passedOver _ => exact hended
  | visited hcurrent hon _ =>
      obtain ⟨-, doc, hcurrent', -, hfin⟩ := hended
      obtain rfl := Option.some.inj (hcurrent.symm.trans hcurrent')
      rw [hon] at hfin
      cases hfin

theorem patience_le {s : GameState} : patience s ≤
    3 * (survivors s.players).length + s.auction.toList.length + s.trade.toList.length := by
  have hplayers : (s.players.map PlayerState.patience).sum ≤
      3 * (survivors s.players).length := by
    induction s.players with
    | nil => simp
    | cons p rest ih =>
        rw [List.map_cons, List.sum_cons, survivors, List.filter_cons]
        rw [survivors] at ih
        cases hout : p.isBankrupt <;>
          simp [hout, PlayerState.patience, maxAfkStrikes] at ih ⊢ <;> omega
  rw [patience, patience_players]
  omega

/-- **An abandoned game ends.** From any state of a game that is on, the
scheduler alone, ticking at times that leave every turn its time, brings the
game to an end in at most three ticks for each player who is left, one for an
auction that is pending and one for a trade that is pending: unless the game
waits for a debt to be resolved, which no tick at any time does anything
about. -/
theorem abandoned_game_ends {clocks : List Clock} (hplay : Play h doc.state)
    (hon : doc.state.status = .inProgress) (hcurrent : w.current = some doc)
    (hticks : Path (Ticked settings) w clocks w') :
    (Waits doc.state → w' = w) ∧
    (¬Waits doc.state → (∀ clock ∈ clocks.head?, Overdue doc.state clock) →
      clocks.IsChain (ATurnLater doc.state.gameMode) →
      3 * (survivors doc.state.players).length + doc.state.auction.toList.length +
        doc.state.trade.toList.length ≤ clocks.length → EndedGame w') := by
  refine ⟨fun hwaits => ?_, fun hnot hover hspaced hlong => ?_⟩
  · induction hticks with
    | nil => rfl
    | @cons a b _ clock _ hfirst _ ih =>
        have hsame : b = a := by
          cases hfirst with
          | passedOver _ => rfl
          | visited hcurrent' _ halone =>
              obtain rfl := Option.some.inj (hcurrent'.symm.trans hcurrent)
              exact tickOne_idle hcurrent (hwaits.dueCommand clock) halone
        subst hsame
        exact ih hcurrent
  · refine Path.reaches_end (m := ticksLeft) (P := RunsOut)
      (fun _ _ _ hended htick => hended.ticked htick) (fun _ _ hruns => hruns.ticksLeft_pos)
      (fun _ _ _ _ hruns htick => hruns.ticked htick)
      hticks ⟨h, doc, hcurrent, hplay, hon, hnot, hover, hspaced⟩ ?_
    simp only [ticksLeft, hcurrent, Option.map_some, Option.getD_some]
    exact patience_le.trans hlong

/-- The operations of a tick, none of which has to wait. -/
def Op.OfTick : Op → Prop
  | .findBySessionId | .now | .uuid4 | .updateWithVersion .. | .incr _ | .publish _
  | .markFinished | .applyRatings => True
  | _ => False

theorem tickOne_ops (settings : Settings) : (tickOne settings).Uses Op.OfTick := by
  refine ⟨trivial, fun (stored : Option StoredGame) => ?_⟩
  cases stored with
  | none => trivial
  | some stored =>
      refine ⟨trivial, fun (clock : Clock) => ?_⟩
      show (tickDue settings stored clock (dueCommand stored.state clock)).Uses Op.OfTick
      cases dueCommand stored.state clock with
      | none => trivial
      | some command =>
          refine ⟨trivial, fun (tradeId : Nat) => ?_⟩
          show (storeTick stored
            (apply stored.state command (applyEnv settings stored clock tradeId))).Uses Op.OfTick
          cases apply stored.state command (applyEnv settings stored clock tradeId) with
          | error e => trivial
          | ok applied =>
              refine ⟨trivial, fun (updated : Option StoredGame) => ?_⟩
              cases updated with
              | none => trivial
              | some game =>
                  exact ⟨trivial, fun _ => ⟨trivial, fun _ => finishIfOver_uses
                    (finishTicked_uses trivial trivial trivial fun _ => trivial) _ _⟩⟩

/-- The operations of a tick can always be carried out. -/
theorem exec_ofTick (clock : Clock) (w : World) (op : Op) (hop : op.OfTick) :
    ∃ r w', Exec.under exec (AnsweredAt clock) i w op r w' := by
  cases op with
  | findBySessionId =>
      refine ⟨w.current.map (·.toDomain), w, ⟨fun found hfound => ?_, fun now hnow => ?_⟩, rfl, ?_⟩
      · exact (Option.some.inj hfound).symm
      · cases hnow
      · cases hcurrent : w.current with
        | none => exact .inl rfl
        | some doc =>
            obtain ⟨c, hc, rfl⟩ := Option.map_eq_some_iff.mp hcurrent
            exact .inr ⟨c, List.mem_of_mem_head? hc, rfl⟩
  | now =>
      refine ⟨clock, w, ⟨fun found hfound => ?_, fun now hnow => ?_⟩, rfl⟩
      · cases hfound
      · exact (Option.some.inj hnow).symm
  | uuid4 => exact ⟨0, w, ⟨fun _ h => (by cases h), fun _ h => (by cases h)⟩, rfl⟩
  | updateWithVersion gameId state version rng =>
      exact ⟨_, _, ⟨fun _ h => (by cases h), fun _ h => (by cases h)⟩, rfl⟩
  | incr version => exact ⟨_, _, ⟨fun _ h => (by cases h), fun _ h => (by cases h)⟩, rfl, rfl⟩
  | publish msg => exact ⟨(), _, ⟨fun _ h => (by cases h), fun _ h => (by cases h)⟩, rfl⟩
  | markFinished =>
      exact ⟨none, w, ⟨fun _ h => (by cases h), fun _ h => (by cases h)⟩, by simp, rfl⟩
  | applyRatings => exact ⟨none, w, ⟨fun _ h => (by cases h), fun _ h => (by cases h)⟩, rfl⟩
  | _ => exact hop.elim

/-- The scheduler can always tick. -/
theorem ticks_exist (settings : Settings) (clocks : List Clock) (w : World) :
    ∃ w', Path (Ticked settings) w clocks w' := by
  induction clocks generalizing w with
  | nil => exact ⟨w, .nil⟩
  | cons clock clocks ih =>
      have htick : ∃ v, Ticked settings w clock v := by
        by_cases hon : ∃ doc, w.current = some doc ∧ doc.state.status = .inProgress
        · obtain ⟨doc, hcurrent, hon⟩ := hon
          obtain ⟨outcome, v, halone⟩ := (tickOne_ops settings).alone (exec_ofTick (i := 0) clock) w
          exact ⟨v, .visited hcurrent hon halone⟩
        · exact ⟨w, .passedOver fun doc hdoc hin => hon ⟨doc, hdoc, hin⟩⟩
      obtain ⟨v, htick⟩ := htick
      obtain ⟨w', hrest⟩ := ih v
      exact ⟨w', .cons htick hrest⟩

/-- Readings of the clock a hundred seconds apart. -/
def hundreds (n : Nat) : List Clock :=
  (List.range n).map fun k => ⟨(k + 1) * 100000, (k + 1) * 100000000⟩

/-- A table of two is left during an auction. -/
theorem abandoned_game_ends_auction : ∃ h doc w', Play h doc.state ∧ doc.state.auction ≠ none ∧
    Path (Ticked defaultSettings) (quietWorld doc) (hundreds 7) w' ∧ EndedGame w' := by
  obtain ⟨h, s, hplay, -, hcheck⟩ := play_of_reaches (duo 1500)
    [callAt 0 [0, 1] (.rollDice 1), callAt 0 [] (.passBuy 1)]
    (fun _ s => decide (s.status = .inProgress ∧ s.auction ≠ none ∧ s.trade = none ∧
      (∀ a ∈ s.auction, auctionTimeRemaining a 100000 ≤ 0) ∧
      (∀ d ∈ s.turn.turnDeadlineMs, d ≤ 100000) ∧ s.gameMode = .normal ∧
      (survivors s.players).length = 2)) (by decide) (by decide +kernel)
  obtain ⟨hon, hauction, htrade, hexpired, hturn, hmode, htwo⟩ := of_decide_eq_true hcheck
  let doc : GameDocument := { id := 1, rngState := ⟨[]⟩, version := 0, state := s }
  obtain ⟨w', hticks⟩ := ticks_exist defaultSettings (hundreds 7) (quietWorld doc)
  refine ⟨h, doc, w', hplay, hauction, hticks, ?_⟩
  have hplay' : Play h doc.state := hplay
  refine (abandoned_game_ends hplay' hon rfl hticks).2 (fun hwaits => ?_) ?_ ?_ ?_
  · exact hauction hwaits.2.1
  · intro clock hclock
    obtain rfl := Option.some.inj hclock
    exact ⟨hexpired, fun t ht => by simp [doc, htrade] at ht, hturn⟩
  · rw [show doc.state.gameMode = .normal from hmode]
    decide
  · rw [htwo, show doc.state.trade = none from htrade]
    cases doc.state.auction <;> simp [hundreds]

end Ticks

end Monopoly
