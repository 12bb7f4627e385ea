import Monopoly.Spec.Replay

/-!
# Monopoly.Laws.WinCondition

A game that is on has two active players and one of them has the turn, and
the call that leaves a single player ends it.  The ending is complete
unless the end of the call settles a debt that the elimination has made
payable: the settlement takes the phase back to `POST_ROLL`.
-/

namespace Monopoly

/-- The surrender leaves one player, and with the cash it hands out somebody
else's debt can be paid. -/
def SettlesOnWin (s : GameState) (call : Call) : Prop :=
  Surrenders s call.env call.command ∧ (survivors s.seats).length = 2 ∧
    ∃ debt, s.bankruptcy = some debt ∧ debt.debtorId ≠ s.turn.currentPlayerId ∧
      (debt.amountOwed ≤ s.cash debt.debtorId ∨ Active s debt.debtorId ∧
        debt.amountOwed ≤ s.cash debt.debtorId + s.cash s.turn.currentPlayerId)

/-- The state is finished exactly when a single player is active, and then
that player is the winner and the phase is `GAME_OVER`. -/
structure WinDeclared (s : GameState) : Prop where
  finished_iff : s.status = .finished ↔ (survivors s.players).length = 1
  winner : s.status = .finished → ∃ w, survivors s.players = [w] ∧ s.winnerId = some w.id ∧
    s.turn.phase = .gameOver

section Counting

variable {seats : List PlayerState} {p : PlayerState}

/-- The single other active player gets all of the cash, the eliminated ones
nothing. -/
theorem shareOf_sole (hids : (seats.map (·.id)).Nodup) (hp : p ∈ seats)
    (hact : p.isBankrupt = false) (htwo : (survivors seats).length = 2) {q : PlayerState}
    (hne : q.id ≠ p.id) (cash : Int) :
    shareOf seats p.id cash q = if q.isBankrupt = false then max 0 cash else 0 := by
  have hone : (seats.filter (isRecipient p.id)).length = 1 := by
    have := length_recipients hids hp hact
    omega
  simp only [shareOf, List.length_map, hone]
  cases hq : q.isBankrupt with
  | true => simp [isRecipient, hq]
  | false =>
      by_cases hcash : cash > 0
      · rw [if_pos ⟨by simp [isRecipient, hq, hne], hcash⟩]
        simp
        omega
      · rw [if_neg fun h => hcash h.2]
        simp
        omega

end Counting

section Endings

variable {s e m : GameState} {p d : PlayerState} {command : GameCommand} {env : Env}

/-- What a player has after the surrender of another one that leaves a
single player active. -/
theorem Surrendered.cash (hs : Sound s) (hp : p ∈ s.seats) (hact : p.isBankrupt = false)
    (htwo : (survivors s.seats).length = 2) (hsurr : Surrendered s p e) {q : PlayerState}
    (hq : q ∈ s.seats) (hne : q.id ≠ p.id) :
    e.cash q.id = q.balance + if q.isBankrupt = false then max 0 p.balance else 0 := by
  obtain ⟨f, g, hr⟩ := hsurr.removal
  have he := hr.sound hs hp (by simp)
  cases hsurr with
  | @mk ps _ _ hps =>
      have hmem : credit (shareOf s.seats p.id p.balance q) q ∈ seatsOf ps := by
        rw [hps]
        exact List.mem_map.mpr ⟨q, hq, if_neg hne⟩
      have hcash := he.cash_seat hmem
      rw [credit_id] at hcash
      rw [hcash, credit, shareOf_sole hs.ids hp hact htwo hne]

/-- After a surrender that leaves a single player active: whether the pending
debt can be paid. -/
theorem Surrendered.payable_iff (hw : WellFormed s) (hp : p ∈ s.seats)
    (hact : p.isBankrupt = false) (htwo : (survivors s.seats).length = 2)
    (hsurr : Surrendered s p e) :
    (∃ debt, e.bankruptcy = some debt ∧ debt.amountOwed ≤ e.cash debt.debtorId) ↔
      ∃ debt, s.bankruptcy = some debt ∧ debt.debtorId ≠ p.id ∧
        (debt.amountOwed ≤ s.cash debt.debtorId ∨ Active s debt.debtorId ∧
          debt.amountOwed ≤ s.cash debt.debtorId + s.cash p.id) := by
  have hs := hw.toSound
  have hdebts : e.bankruptcy = s.bankruptcy := by cases hsurr; rfl
  rw [hdebts]
  refine exists_congr fun debt => and_congr_right fun hdebt => ?_
  have hformed := hw.debts debt hdebt
  obtain ⟨q, hq, hqid⟩ := hformed.debtor
  have hactive : Active s debt.debtorId ↔ q.isBankrupt = false := by
    constructor
    · rintro ⟨x, hx, hid, hxact⟩
      rwa [eq_of_key_eq PlayerState.id hs.ids hq hx (hqid.trans hid.symm)]
    · exact fun h => ⟨q, hq, hqid, h⟩
  rw [hactive, ← hqid, hs.cash_seat hq, hs.cash_seat hp]
  by_cases hqp : q.id = p.id
  · obtain rfl : q = p := eq_of_key_eq PlayerState.id hs.ids hq hp hqp
    obtain ⟨f, g, hr⟩ := hsurr.removal
    have hmem : f q ∈ e.seats := hr.seats ▸ List.mem_map_of_mem hq
    have hzero := (hr.sound hs hp (by simp)).cash_seat hmem
    rw [hr.id, (hr.stripped q rfl).balance] at hzero
    have howed := hformed.owed
    simp only [hzero, ne_eq, not_true_eq_false, false_and, iff_false]
    omega
  · rw [hsurr.cash hs hp hact htwo hq hqp]
    cases hqact : q.isBankrupt with
    | true => simp [hqp]
    | false =>
        simp only [if_true, ne_eq, hqp, not_false_eq_true, true_and]
        omega

theorem winDeclared_of_inProgress (hl : Live m) (hin : m.status = .inProgress) :
    WinDeclared m := by
  have htwo := (hl hin).2
  rw [GameState.seats, survivors_seatsOf, seatsOf, List.length_map] at htwo
  exact ⟨by rw [hin]; simp; omega, fun hfin => by rw [hin] at hfin; cases hfin⟩

/-- A finished table of a single active player: the ending is declared
exactly when the phase still says so. -/
theorem winDeclared_iff_phase {w : PlayerState} (hfin : m.status = .finished)
    (hone : survivors m.seats = [w]) (hwinner : m.winnerId = some w.id) :
    WinDeclared m ↔ m.turn.phase = .gameOver := by
  obtain ⟨v, hv, hvw⟩ : ∃ v, survivors m.players = [v] ∧ v.bare = w := by
    rw [GameState.seats, survivors_seatsOf, seatsOf, List.map_eq_singleton_iff] at hone
    exact hone
  constructor
  · intro h
    obtain ⟨-, -, -, hphase⟩ := h.winner hfin
    exact hphase
  · intro hphase
    exact ⟨by simp [hfin, hv], fun _ => ⟨v, hv, by rw [hwinner, ← hvw]; rfl, hphase⟩⟩

/-- The end of a call that leaves the single player `w` active. -/
theorem settled_winDeclared_iff {n s' : GameState} {w : PlayerState}
    (hone : survivors e.seats = [w]) (hm : m = { e with
      status := .finished, winnerId := some w.id, turn := { e.turn with phase := .gameOver } })
    (hsettled : Settled m n) (ht : Tidied n s') :
    WinDeclared s' ↔
      ¬ ∃ debt, e.bankruptcy = some debt ∧ debt.amountOwed ≤ e.cash debt.debtorId := by
  have hseats := ht.seats_eq
  subst hm
  cases hsettled with
  | free hnone =>
      have hdeclared : WinDeclared s' := by
        refine (winDeclared_iff_phase (w := w) ?_ (by rw [hseats]; exact hone) ?_).mpr ?_
        all_goals cases ht; rfl
      have hfree : e.bankruptcy = none := hnone
      refine iff_of_true hdeclared ?_
      rintro ⟨debt, hdebt, -⟩
      simp [hfree] at hdebt
  | @owing debt hdebt hlt =>
      have hdeclared : WinDeclared s' := by
        refine (winDeclared_iff_phase (w := w) ?_ (by rw [hseats]; exact hone) ?_).mpr ?_
        all_goals cases ht; rfl
      refine iff_of_true hdeclared ?_
      rintro ⟨debt', hdebt', hle⟩
      obtain rfl : debt = debt' := Option.some.inj (hdebt.symm.trans hdebt')
      exact absurd hle (Int.not_le.mpr hlt)
  | paid hdebt hle _ =>
      refine iff_of_false (fun hdeclared => ?_) fun hno => hno ⟨_, hdebt, hle⟩
      obtain ⟨-, -, -, hphase⟩ := hdeclared.winner (by cases ht; rfl)
      cases ht
      cases hphase

theorem Stepped.winDeclared_iff {s' : GameState} (hw : WellFormed s) (hl : Live s)
    (hin : s.status = .inProgress) (hmay : MayAct s command)
    (hstep : Stepped s env command s') :
    WinDeclared s' ↔ ¬ SettlesOnWin s ⟨command, env⟩ := by
  have hl' := hstep.live hw hl hmay
  have hgoesOn (hnot : ¬ SettlesOnWin s ⟨command, env⟩) (hin' : s'.status = .inProgress) :
      WinDeclared s' ↔ ¬ SettlesOnWin s ⟨command, env⟩ :=
    iff_of_true (winDeclared_of_inProgress hl' hin') hnot
  have hquiet (h : ¬ Eliminating s env command) : ¬ SettlesOnWin s ⟨command, env⟩ :=
    fun hsettles => h hsettles.1.eliminating
  cases hstep with
  | replied hreply hd ht =>
      rcases hd.roster hw hmay with ⟨hnot, f, -, -, hst, -⟩ | ⟨heliminating, -⟩
      · exact hgoesOn (hquiet hnot) (by rw [ht.status, hst, hin])
      · cases command <;> simp [GameCommand.isReply, Eliminating] at hreply heliminating
  | @played m n _ _ hd hsettled ht =>
      rcases hd.roster hw hmay with ⟨hnot, f, -, -, hst, -⟩ | ⟨hout, d, e, hdmem, hcurrent, he, ha⟩
      · exact hgoesOn (hquiet hnot) (by rw [ht.status, hsettled.status, hst, hin])
      · obtain ⟨x, hx, hxid, hxact⟩ := (hl hin).1
        have hact : d.isBankrupt = false := by
          rwa [eq_of_key_eq PlayerState.id hw.ids hdmem hx (hcurrent.trans hxid.symm)]
        obtain ⟨heir, f, g, -, hr⟩ := he.removal hw
        have hcount := hr.length_survivors hw.ids hdmem hact
        have hein : e.status = .inProgress := by rw [hr.frame, hin]
        cases ha with
        | passed hno _ hmoved =>
            have hm : m.status = e.status := by cases hmoved <;> rfl
            refine hgoesOn (fun hsettles => ?_) (by rw [ht.status, hsettled.status, hm, hein])
            obtain ⟨w, hw'⟩ := List.length_eq_one_iff.mp
              (show (survivors e.seats).length = 1 by have := hsettles.2.1; omega)
            exact hno hein w hw'
        | ended hc hfin =>
            cases hc with
            | unchanged _ => rw [hein] at hfin; cases hfin
            | @won w _ hone =>
                rw [settled_winDeclared_iff hone rfl hsettled ht, not_iff_not]
                have htwo : (survivors s.seats).length = 2 := by
                  rw [hone] at hcount
                  exact hcount.symm
                have hcase (hsurrenders : Surrenders s env command)
                    (hsurr : Surrendered s d e) : (∃ debt, e.bankruptcy = some debt ∧
                      debt.amountOwed ≤ e.cash debt.debtorId) ↔
                    SettlesOnWin s ⟨command, env⟩ := by
                  rw [hsurr.payable_iff hw hdmem hact htwo, hcurrent]
                  exact ⟨fun h => ⟨hsurrenders, htwo, h⟩, fun h => h.2.2⟩
                cases he with
                | bankrupted _ _ hl =>
                    refine iff_of_false ?_ fun hsettles => ?_
                    · cases hl <;> simp
                    · exact hsettles.1
                | surrendered _ hsurr => exact hcase trivial hsurr
                | forced _ hsurr => exact hcase hout hsurr

end Endings

/-- **Live turn and win condition.** While a game is on two players are
active and one of them has the turn.  An accepted call leaves a state that
is finished exactly when a single player is active, with that player as the
winner and the phase `GAME_OVER`, if and only if it does not settle a debt
on top of the win. -/
theorem win_condition_iff {h : List (Taken GameState Call)} {s : GameState} (hplay : Play h s) :
    (s.status = .inProgress → 2 ≤ (survivors s.players).length ∧
      ∃ p ∈ survivors s.players, p.id = s.turn.currentPlayerId) ∧
    ∀ call s', s.status = .inProgress → Accepted s call s' →
      (WinDeclared s' ↔ ¬ SettlesOnWin s call) := by
  obtain ⟨hw, hl⟩ := Play.formed hplay
  constructor
  · intro hin
    obtain ⟨⟨p, hp, hid, hact⟩, htwo⟩ := hl hin
    obtain ⟨q, hq, rfl⟩ := exists_player hp
    rw [GameState.seats, survivors_seatsOf, seatsOf, List.length_map] at htwo
    exact ⟨htwo, q, mem_survivors.mpr ⟨hq, hact⟩, hid⟩
  · intro call s' hin haccepted
    obtain ⟨hmay, hstep⟩ := haccepted.stepped hw hl
    exact hstep.winDeclared_iff hw hl hin hmay

/-- With `100` in hand player `1` cannot pay the income tax; a rejected
trade and the turn timer leave the debt pending on the turn of player `2`,
who surrenders. -/
def lateSettlement : List Call :=
  [callAt 0 [0, 2] (.rollDice 1),
    callAt 0 [] (.proposeTrade 1 2 {} {}),
    callAt 0 [] (.respondTrade 2 7 .reject none),
    callAt 90000 [] .turnTimeout,
    callAt 90000 [] (.surrender 2)]

/-- The cash of player `2` settles the debt of player `1`, and the game ends
in the phase `POST_ROLL`. -/
theorem late_settlement_breaks_ending :
    ∃ t h s, Play (t :: h) s ∧ (t :: h).reverse.map (·.label) = lateSettlement ∧
      t.before.status = .inProgress ∧ s.status = .finished ∧ s.turn.phase = .postRoll := by
  obtain ⟨h, s, hplay, hlabels, hcheck⟩ := play_of_reaches (duo 100) lateSettlement
    (fun h s => h.head?.any (fun (t : Taken GameState Call) =>
      decide (t.before.status = .inProgress)) && decide (s.status = .finished ∧
        s.turn.phase = .postRoll)) (by decide) (by decide +kernel)
  cases h with
  | nil => simp [lateSettlement] at hlabels
  | cons t h =>
      have hboth := (Bool.and_eq_true _ _).mp hcheck
      exact ⟨t, h, s, hplay, hlabels, of_decide_eq_true (by simpa using hboth.1),
        of_decide_eq_true hboth.2⟩

/-- The surrender of player `1` on the first turn ends a game of two. -/
theorem win_condition_first_surrender : ∃ s s', Play [] s ∧
    Accepted s (callAt 0 [] (.surrender 1)) s' ∧
    (WinDeclared s' ↔ ¬ SettlesOnWin s (callAt 0 [] (.surrender 1))) := by
  obtain ⟨h, s', hplay, hlabels, hcheck⟩ := play_of_reaches (duo 1500)
    [callAt 0 [] (.surrender 1)]
    (fun h _ => h.all fun (t : Taken GameState Call) => decide (t.before.status = .inProgress))
    (by decide) (by decide +kernel)
  cases hplay with
  | start _ => simp at hlabels
  | @next h s _ call hplay haccepted =>
      obtain rfl : h = [] := by simpa using congrArg List.length hlabels
      obtain rfl : call = callAt 0 [] (.surrender 1) := by simpa using hlabels
      have hin : s.status = .inProgress := by simpa using hcheck
      exact ⟨s, s', hplay, haccepted, (win_condition_iff hplay).2 _ s' hin haccepted⟩

end Monopoly
