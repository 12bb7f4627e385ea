import Monopoly.Spec.Redisplay
import Monopoly.Spec.Replay

/-!
# Monopoly.Laws.IdleTimers

A timer command that is not due.  Its handler returns the state it was given,
but what `apply` does at the end of every command is done for it too: the
deadline of the turn is set anew, the card on display is taken down by the
turn timer, and a debt that can be paid is settled.
-/

namespace Monopoly

/-- A timer command that is not due: no auction or an unexpired one, no trade
or an unexpired one, a turn whose time is not up. -/
def NotDue (s : GameState) (env : Env) : GameCommand → Prop
  | .advanceAuction => isAuctionExpired s env.clock.nowMs = false
  | .expireTrade => ∀ trade, s.trade = some trade → env.clock.now < trade.expiresAt
  | .turnTimeout => isTurnExpired s env.clock.nowMs = false
  | _ => False

/-- The state again, but for the action flags. -/
def Reflagged (a b : GameState) : Prop :=
  b = { a with turn := { a.turn with actionsAvailable := b.turn.actionsAvailable } }

/-- The command reports nothing and leaves the state, its flags apart. -/
def NoOp (s : GameState) (command : GameCommand) (env : Env) : Prop :=
  ∃ s' rng, apply s command env = .ok ((s', []), rng) ∧ Reflagged s s'

/-- `config.turn_timeout_ms or TURN_TIMEOUT_MS`, as the deadline is set. -/
def turnTimeoutOf (mode : GameMode) : Int :=
  match (getGameConfig mode).turnTimeoutMs with
  | some t => if t = 0 then turnTimeoutMs else t
  | none => turnTimeoutMs

/-- The end of the command finds nothing to do: the deadline was set at this
very time, no card is on display that the turn timer would take down, and no
debt is pending that could be paid. -/
structure AtRest (s : GameState) (command : GameCommand) (env : Env) : Prop where
  deadline : s.turn.turnDeadlineMs = some (env.clock.nowMs + turnTimeoutOf s.gameMode)
  card : command = .turnTimeout → s.activeCard = none
  owing : Owing s

/-- The turn's time is up later than it was. -/
def Postponed (a b : GameState) : Prop :=
  ∃ d d', a.turn.turnDeadlineMs = some d ∧ b.turn.turnDeadlineMs = some d' ∧ d < d'

section Law

variable {s s' a b c : GameState} {command : GameCommand} {env : Env}
  {h k : List (Taken GameState Call)}

/-! ## one command -/

theorem Reflagged.refl (a : GameState) : Reflagged a a := rfl

theorem Reflagged.trans (h : Reflagged a b) (h' : Reflagged b c) : Reflagged a c := by
  unfold Reflagged at h h' ⊢
  rw [h', h]

theorem Reflagged.symm (h : Reflagged a b) : Reflagged b a := by
  unfold Reflagged at h ⊢
  rw [h]

theorem Reflagged.tidied (h : Reflagged a b) : Tidied a b := by
  rw [h]
  exact .mk rfl

theorem Reflagged.deadline (h : Reflagged a b) :
    b.turn.turnDeadlineMs = a.turn.turnDeadlineMs := by rw [h]

theorem Reflagged.card (h : Reflagged a b) : b.activeCard = a.activeCard := by rw [h]

theorem Reflagged.bankruptcy (h : Reflagged a b) : b.bankruptcy = a.bankruptcy := by rw [h]

/-- A debt that stays was not to be paid. -/
theorem Settled.owing_of_kept (h : Settled a b) (hkept : b.bankruptcy = a.bankruptcy) :
    Owing a := by
  cases h with
  | free hnone => exact fun debt hdebt => by simp [hnone] at hdebt
  | owing hdebt hlt =>
      intro debt' hdebt'
      obtain rfl := Option.some.inj (hdebt.symm.trans hdebt')
      exact hlt
  | paid hdebt _ _ =>
      rw [hdebt] at hkept
      cases hkept

theorem NotDue.player (hidle : NotDue s env command) : command.player = none := by
  cases command <;> first | rfl | exact hidle.elim

theorem NotDue.isReply (hidle : NotDue s env command) : command.isReply = false := by
  cases command <;> first | rfl | exact hidle.elim

/-- The handler returns the state it was given. -/
theorem NotDue.dispatch_eq (hidle : NotDue s env command) :
    dispatch s command env = .ok ((s, []), env.rng) := by
  cases command with
  | advanceAuction =>
      have hauction : isAuctionExpired s env.clock.nowMs = false := hidle
      simp only [dispatch, hauction, Bool.not_false, if_true]
      rfl
  | expireTrade =>
      cases htrade : s.trade with
      | none =>
          simp only [dispatch, htrade]
          rfl
      | some trade =>
          have hlater : trade.expiresAt > env.clock.now := hidle trade htrade
          simp only [dispatch, htrade, hlater, if_true]
          rfl
  | turnTimeout =>
      have hturn : isTurnExpired s env.clock.nowMs = false := hidle
      simp only [dispatch, handleTurnTimeout, hturn, Bool.not_false, if_true]
      rfl
  | _ => exact hidle.elim

/-- It goes through the common end. -/
theorem NotDue.finishCommand_eq (hidle : NotDue s env command) :
    finishCommand s command env s [] = (do
      let n ← trySettleDebt (clearActiveCard s s command)
      withActions (appendLog (withTurnDeadline (checkWinCondition n) env.clock.nowMs) []
        env.clock)) := by
  simp only [finishCommand, resetActor, hidle.player, hidle.isReply, Bool.false_eq_true, if_false]

theorem NotDue.apply_iff (hidle : NotDue s env command) {events : List GameEvent} {rng : Rng} :
    apply s command env = .ok ((s', events), rng) ↔
      finishCommand s command env s [] = .ok s' ∧ events = [] ∧ rng = env.rng := by
  have hmay : assertMayAct s command = .ok () := by
    rw [assertMayAct, hidle.player]
    rfl
  simp only [apply, hmay, hidle.dispatch_eq, ok_bind]
  cases finishCommand s command env s [] with
  | error e => simp
  | ok n =>
      simp only [ok_bind]
      constructor
      · intro h
        cases h
        exact ⟨rfl, rfl, rfl⟩
      · rintro ⟨h, rfl, rfl⟩
        cases h
        rfl

/-- What the end does to the deadline, the card and the debt. -/
theorem NotDue.finished (hidle : NotDue s env command) :
    Ensures (finishCommand s command env s []) fun s' =>
      ∃ n, trySettleDebt (clearActiveCard s s command) = .ok n ∧
        s'.turn.turnDeadlineMs = some (env.clock.nowMs + turnTimeoutOf n.gameMode) ∧
        s'.activeCard = n.activeCard ∧ s'.bankruptcy = n.bankruptcy := by
  rw [hidle.finishCommand_eq]
  refine .after fun n hn => .after fun actions _ => ?_
  have hwon : (checkWinCondition n).gameMode = n.gameMode ∧
      (checkWinCondition n).activeCard = n.activeCard ∧
      (checkWinCondition n).bankruptcy = n.bankruptcy := by
    unfold checkWinCondition
    split <;> exact ⟨rfl, rfl, rfl⟩
  refine ⟨n, hn, ?_, hwon.2⟩
  rw [← hwon.1]
  rfl

theorem clearActiveCard_idle (hcard : command = .turnTimeout → s.activeCard = none)
    (hidle : NotDue s env command) : clearActiveCard s s command = s := by
  refine if_neg ?_
  rintro ⟨hsome, hauction, htrade⟩
  cases command with
  | advanceAuction => exact hauction rfl
  | expireTrade => exact htrade rfl
  | turnTimeout => simp [hcard rfl] at hsome
  | _ => exact hidle

theorem withTurnDeadline_kept {nowMs : Int}
    (hdeadline : s.turn.turnDeadlineMs = some (nowMs + turnTimeoutOf s.gameMode)) :
    withTurnDeadline s nowMs = s := by
  have hset : withTurnDeadline s nowMs = { s with turn := { s.turn with
      turnDeadlineMs := some (nowMs + turnTimeoutOf s.gameMode) } } := rfl
  rw [hset, ← hdeadline]

theorem appendLog_nil (a : GameState) (clock : Clock) : appendLog a [] clock = a := by
  simp only [appendLog, List.map_nil, List.append_nil]

/-- What a no-op shows of the state. -/
theorem NoOp.atRest (hw : WellFormed s) (hidle : NotDue s env command)
    (h : NoOp s command env) : AtRest s command env := by
  obtain ⟨s', rng, happly, hsame⟩ := h
  obtain ⟨n, hn, hdeadline, hcard, hdebt⟩ := hidle.finished.of_ok (hidle.apply_iff.mp happly).1
  have hclear := tidied_clearActiveCard s s command
  have hsettled := (hclear.wellFormed hw).settles.of_ok hn
  -- a debt that was paid would be gone
  have howing := hsettled.owing_of_kept
    (hdebt.symm.trans (hsame.bankruptcy.trans hclear.bankruptcy.symm))
  obtain rfl := hsettled.eq_of_owing howing
  rw [hclear.gameMode] at hdeadline
  refine ⟨hsame.deadline.symm.trans hdeadline, fun hcommand => ?_,
    (owing_iff_of_tidied hclear).mp howing⟩
  rw [← hsame.card, hcard]
  subst hcommand
  cases hup : s.activeCard with
  | none => simp [clearActiveCard, hup]
  | some card => simp [clearActiveCard, hup]

theorem AtRest.noOp (hw : WellFormed s) (hl : Live s) (hidle : NotDue s env command)
    (h : AtRest s command env) : NoOp s command env := by
  obtain ⟨hdeadline, hcard, howing⟩ := h
  have hsettles : trySettleDebt s = .ok s := howing.settles hw (.mk rfl)
  obtain ⟨actions, hactions⟩ := withActions_eq hw.laid hw.current fun _ q hq =>
    (hw.pending q hq).onBoard
  refine ⟨{ s with turn := { s.turn with actionsAvailable := actions } }, env.rng,
    hidle.apply_iff.mpr ⟨?_, rfl, rfl⟩, rfl⟩
  rw [hidle.finishCommand_eq, clearActiveCard_idle hcard hidle, hsettles, ok_bind,
    checkWinCondition_live hl, withTurnDeadline_kept hdeadline, appendLog_nil, hactions]

/-- A timer command that is not due is a no-op exactly when the end of the
command finds nothing to do. -/
theorem noOp_iff (hw : WellFormed s) (hl : Live s) (hidle : NotDue s env command) :
    NoOp s command env ↔ AtRest s command env :=
  ⟨fun h => h.atRest hw hidle, fun h => h.noOp hw hl hidle⟩

/-! ## sequences of commands -/

/-- A timer command that is not due is accepted. -/
def Idles (a : GameState) (call : Call) (b : GameState) : Prop :=
  Accepted a call b ∧ NotDue a call.env call.command

theorem NoOp.reflagged {call : Call} (h : NoOp a call.command call.env) (ha : Accepted a call b) :
    Reflagged a b := by
  obtain ⟨c, rng, happly, hsame⟩ := h
  obtain ⟨events, rng', happly'⟩ := ha
  cases happly.symm.trans happly'
  exact hsame

theorem Idles.reflagged_iff {call : Call} (hw : WellFormed a) (hl : Live a) (h : Idles a call b) :
    Reflagged a b ↔ AtRest a call.command call.env := by
  obtain ⟨ha, hidle⟩ := h
  rw [← noOp_iff hw hl hidle]
  refine ⟨fun hsame => ?_, fun hno => hno.reflagged ha⟩
  obtain ⟨events, rng, happly⟩ := ha
  obtain ⟨hfinish, -, -⟩ := hidle.apply_iff.mp happly
  exact ⟨b, call.env.rng, hidle.apply_iff.mpr ⟨hfinish, rfl, rfl⟩, hsame⟩

/-- The deadline is set anew. -/
theorem Idles.deadline {call : Call} (hw : WellFormed a) (h : Idles a call b) :
    b.turn.turnDeadlineMs = some (call.env.clock.nowMs + turnTimeoutOf a.gameMode) := by
  obtain ⟨⟨events, rng, happly⟩, hidle⟩ := h
  obtain ⟨n, hn, hdeadline, -⟩ := hidle.finished.of_ok (hidle.apply_iff.mp happly).1
  have hclear := tidied_clearActiveCard a a call.command
  have hmode : n.gameMode = (clearActiveCard a a call.command).gameMode := by
    cases (hclear.wellFormed hw).settles.of_ok hn <;> rfl
  rw [hdeadline, hmode, hclear.gameMode]

theorem idle_run_formed (hw : WellFormed s) (hl : Live s) (hrun : Run (· = s) Idles k s') :
    WellFormed s' ∧ Live s' ∧ s'.gameMode = s.gameMode := by
  refine Run.invariant (I := fun b => WellFormed b ∧ Live b ∧ b.gameMode = s.gameMode) ?_ ?_ hrun
  · rintro _ rfl
    exact ⟨hw, hl, rfl⟩
  · rintro a call b ⟨hw, hl, hmode⟩ ⟨ha, -⟩
    obtain ⟨hmay, hstep⟩ := ha.stepped hw hl
    exact ⟨hstep.wellFormed hw, hstep.live hw hl hmay, (hstep.gameMode hw.toSound).trans hmode⟩

/-- The states of a sequence are all the first one, but for the flags, exactly
when each command of it finds nothing to do. -/
theorem idle_run_iff (hw : WellFormed s) (hl : Live s) (hrun : Run (· = s) Idles k s') :
    (Reflagged s s' ∧ ∀ t ∈ k, Reflagged s t.before) ↔
      ∀ t ∈ k, AtRest t.before t.label.command t.label.env := by
  refine Run.invariant_iff (I := Reflagged s)
    (A := fun a call => AtRest a call.command call.env) ?_ ?_ hrun
  · rintro _ rfl
    exact .refl _
  · intro k a call b hrun hsame hidles
    obtain ⟨hw', hl', -⟩ := idle_run_formed hw hl hrun
    rw [← hidles.reflagged_iff hw' hl']
    exact ⟨fun h => hsame.symm.trans h, fun h => hsame.trans h⟩

/-- The deadline after a sequence is the one its last command has set. -/
theorem not_postponed_iff (hw : WellFormed s) (hl : Live s) (hrun : Run (· = s) Idles k s') :
    ¬Postponed s s' ↔ ∀ t ∈ k.head?, ∀ d, s.turn.turnDeadlineMs = some d →
      t.label.env.clock.nowMs + turnTimeoutOf s.gameMode ≤ d := by
  cases hrun with
  | start hs =>
      subst hs
      refine iff_of_true ?_ (by simp)
      rintro ⟨d, d', hd, hd', hlt⟩
      obtain rfl := Option.some.inj (hd.symm.trans hd')
      exact lt_irrefl _ hlt
  | next hrun hidles =>
      obtain ⟨hw', -, hmode⟩ := idle_run_formed hw hl hrun
      have hdeadline := hidles.deadline hw'
      rw [hmode] at hdeadline
      constructor
      · intro hno t ht d hd
        obtain rfl := Option.some.inj ht
        exact not_lt.mp fun hlt => hno ⟨d, _, hd, hdeadline, hlt⟩
      · rintro hle ⟨d, d', hd, hd', hlt⟩
        obtain rfl := Option.some.inj (hdeadline.symm.trans hd')
        exact not_le_of_gt hlt (hle _ rfl d hd)

/-- In a game, a timer command that is not due is a no-op exactly when it
comes at the very time the deadline was set, no card is on display that it
takes down and no debt is pending that can be paid; a sequence of them leaves
the state alone exactly when that holds for each, and does not postpone the
deadline exactly when the last one is not later than the deadline was set. -/
theorem idle_timers_iff (hplay : Play h s) :
    (∀ (command : GameCommand) (env : Env), NotDue s env command →
      (NoOp s command env ↔ AtRest s command env)) ∧
    ∀ (k : List (Taken GameState Call)) (s' : GameState), Run (· = s) Idles k s' →
      ((Reflagged s s' ∧ ∀ t ∈ k, Reflagged s t.before) ↔
        ∀ t ∈ k, AtRest t.before t.label.command t.label.env) ∧
      (¬Postponed s s' ↔ ∀ t ∈ k.head?, ∀ d, s.turn.turnDeadlineMs = some d →
        t.label.env.clock.nowMs + turnTimeoutOf s.gameMode ≤ d) := by
  obtain ⟨hw, hl⟩ := Play.formed hplay
  exact ⟨fun _ _ hidle => noOp_iff hw hl hidle, fun _ _ hrun =>
    ⟨idle_run_iff hw hl hrun, not_postponed_iff hw hl hrun⟩⟩

/-- In the millisecond a game is opened, the auction timer finds nothing to
do. -/
theorem idle_timers_opened : ∃ h s env, Play h s ∧ NotDue s env .advanceAuction ∧
    NoOp s .advanceAuction env := by
  obtain ⟨h, s, hplay, -, hcheck⟩ := play_of_reaches (duo 1500) []
    (fun _ s => decide (s.turn.turnDeadlineMs = some (0 + turnTimeoutOf s.gameMode) ∧
      s.bankruptcy = none ∧ isAuctionExpired s 0 = false)) (by decide) (by decide +kernel)
  obtain ⟨hdeadline, hdebt, hidle⟩ := of_decide_eq_true hcheck
  have howing : Owing s := fun debt hd => by simp [hdebt] at hd
  set env := (callAt 0 [] .advanceAuction).env
  have hidle' : NotDue s env .advanceAuction := hidle
  refine ⟨h, s, env, hplay, hidle', ?_⟩
  exact ((idle_timers_iff hplay).1 .advanceAuction env hidle').mpr
    ⟨hdeadline, (fun hcommand => by cases hcommand), howing⟩

/-- Half a minute into a game the turn timer is not due; it postpones the
deadline. -/
theorem idle_timers_postpone : ∃ h s env s', Play h s ∧ NotDue s env .turnTimeout ∧
    Accepted s ⟨.turnTimeout, env⟩ s' ∧ ¬NoOp s .turnTimeout env ∧ Postponed s s' := by
  obtain ⟨h, s', hplay, hlabels, hcheck⟩ := play_of_reaches (duo 1500)
    [callAt 30000 [] .turnTimeout]
    (fun h _ => h.head?.any fun (t : Taken GameState Call) =>
      decide (t.before.turn.turnDeadlineMs = some 90000 ∧
        t.after.turn.turnDeadlineMs = some 120000 ∧ isTurnExpired t.before 30000 = false))
    (by decide) (by decide +kernel)
  cases hplay with
  | start _ => cases hlabels
  | @next h s s' call hplay ha =>
      obtain ⟨hbefore, hafter, hidle⟩ := of_decide_eq_true hcheck
      obtain rfl : call = callAt 30000 [] .turnTimeout :=
        List.mem_singleton.mp (label_mem_of_reverse hlabels List.mem_cons_self)
      have hpostponed : Postponed s s' := ⟨90000, 120000, hbefore, hafter, by decide⟩
      refine ⟨h, s, (callAt 30000 [] .turnTimeout).env, s', hplay, hidle, ha, fun hno => ?_,
        hpostponed⟩
      have hsame : s'.turn.turnDeadlineMs = s.turn.turnDeadlineMs := (hno.reflagged ha).deadline
      rw [hbefore, hafter] at hsame
      cases hsame

end Law

end Monopoly
