import Monopoly.Laws.CardGate
import Monopoly.Lib.Calls

/-!
# Monopoly.Laws.LandingDepth

How deep landings nest.  A card may lead to another landing, and the depth
counter of the source does not count the advance cards.  Each card that
moves the player leads to a space from which fewer cards can follow, so the
recursion ends after three landings and two cards, with the cap left out.
-/

namespace Monopoly

/-! ## the recursion without the cap -/

/-- A call of `resolve_landing`, `recursion_depth` left out. -/
structure LandingCall where
  state : GameState
  player : PlayerState
  rentMultiplier : Nat
  rng : Rng

/-- The body of `resolve_landing`, with `land` for the landing it recurses
into. -/
def landingStep (diceRoll : DiceRoll) (goSalary : Int) (land : Lander) : Lander :=
  fun state player depth rentMultiplier rng => do
    let boardSpace ← getBoardSpace player.position state.gameMode
    if boardSpace.corner = some .gotojail then landOnGoToJail state player rng
    else match boardSpace.tax, boardSpace.type.cardKind with
    | some amount, _ => landOnTax state player amount rng
    | none, some kind => landOnCard land goSalary state player kind depth rng
    | none, none => landOnSpace state player diceRoll boardSpace rentMultiplier rng

/-- The recursion of `resolve_landing` without `recursion_depth`: every call
is made at depth zero, where the cap does not apply. -/
def uncapped (diceRoll : DiceRoll) (goSalary : Int) (f : LandingCall → Py Landing)
    (call : LandingCall) : Py Landing :=
  landingStep diceRoll goSalary (fun state player _ rentMultiplier rng =>
    f ⟨state, player, rentMultiplier, rng⟩) call.state call.player 0 call.rentMultiplier call.rng

/-- The cards that were drawn. -/
def drawsIn (events : List GameEvent) : Nat := events.countP (·.isCardDrawn)

/-- The landing returns after at most three landings and two cards, and what
it returns is what the recursion without the cap returns, whatever stands in
for a fourth landing. -/
structure ReturnsInThree (diceRoll : DiceRoll) (goSalary : Int) (call : LandingCall) : Prop where
  landings : ∃ n ≤ 3, CallChain (uncapped diceRoll goSalary) call n ∧
    ∀ f, (uncapped diceRoll goSalary)^[n] f call = resolveLanding diceRoll goSalary landingFuel
      call.state call.player 0 call.rentMultiplier call.rng
  cards : ∃ L, resolveLanding diceRoll goSalary landingFuel call.state call.player 0
    call.rentMultiplier call.rng = .ok L ∧ drawsIn L.events ≤ 2

/-! ## one landing -/

section Landings

variable {s : GameState} {p : PlayerState} {diceRoll : DiceRoll} {goSalary : Int} {card : CardDef}
  {multiplier : Nat} {rng : Rng} {n : Nat}

theorem resolveLanding_succ (fuel : Nat) : resolveLanding diceRoll goSalary (fuel + 1) =
    landingStep diceRoll goSalary (resolveLanding diceRoll goSalary fuel) := by
  funext state player depth rentMultiplier rng
  rfl

/-- A card that moves nobody does not land. -/
theorem applyCardEffect_still (hcard : cardMove s.gameMode p.position card.effect = none)
    (land land' : Lander) (depth depth' : Nat) :
    applyCardEffect land goSalary s p card depth rng =
      applyCardEffect land' goSalary s p card depth' rng := by
  unfold applyCardEffect
  cases he : card.effect with
  | advanceTo position bonus => simp [he, cardMove] at hcard
  | advanceToNearest target payDouble => simp [he, cardMove] at hcard
  | goBack spaces => simp [he, cardMove] at hcard
  | _ => rfl

/-- Where a landing leads: nowhere, or to one more landing, with fewer cards
ahead. -/
theorem landingStep_calls (hs : Sound s) (hp : p.bare ∈ s.seats) (diceRoll : DiceRoll)
    (goSalary : Int) (multiplier : Nat) (rng : Rng) :
    (∀ land land' depth depth', landingStep diceRoll goSalary land s p depth multiplier rng =
      landingStep diceRoll goSalary land' s p depth' multiplier rng) ∨
    ∃ s' p' multiplier' rng' deeper k, Sound s' ∧ p'.bare ∈ s'.seats ∧
      cardsAhead s'.gameMode p'.position < cardsAhead s.gameMode p.position ∧ deeper ≤ 1 ∧
      ∀ land depth, depth < cardLandingRecursionLimit →
        landingStep diceRoll goSalary land s p depth multiplier rng =
          land s' p' (depth + deeper) multiplier' rng' >>= k := by
  have hboard : OnBoard s.gameMode p.position := hs.standing p.bare hp
  simp only [landingStep, getBoardSpace_eq hboard, ok_bind]
  by_cases hcorner : (squareAt s.gameMode p.position).corner = some .gotojail
  · simp only [if_pos hcorner]
    exact .inl fun _ _ _ _ => trivial
  simp only [if_neg hcorner]
  cases htax : (squareAt s.gameMode p.position).tax with
  | some amount => exact .inl fun _ _ _ _ => rfl
  | none =>
      cases hkind : (squareAt s.gameMode p.position).type.cardKind with
      | none => exact .inl fun _ _ _ _ => rfl
      | some kind =>
          obtain ⟨s₂, q, deck, card, rng', hdrawn, hdraws⟩ :=
            landOnCard_draws goSalary rng hs hp hkind
          have hqpos : q.position = p.position := by rw [← bare_position, hdrawn.record]; rfl
          have hq : q.bare ∈ s₂.seats := by rw [hdrawn.seats, hdrawn.record]; exact hp
          have hmode : s₂.gameMode = s.gameMode := by rw [hdrawn.form]
          simp only [hdraws]
          cases hmove : cardMove s.gameMode p.position card.effect with
          | none =>
              refine .inl fun land land' depth depth' => ?_
              rw [applyCardEffect_still (by rw [hmode, hqpos]; exact hmove) land land' depth depth']
          | some move =>
              obtain ⟨hdest, hlt⟩ := hdrawn.leads move hmove
              obtain ⟨s', p', events, deeper, hmoved, hdeeper, hcalls⟩ :=
                applyCardEffect_calls goSalary hdrawn.sound hq
                  (by rw [hmode, hqpos]; exact hmove) (by rw [hmode]; exact hdest)
              refine .inr ⟨s', p', move.multiplier, rng', deeper, fun L =>
                .ok (announced q card { L with events := events ++ L.events }), hmoved.sound,
                hmoved.seated, ?_, hdeeper, fun land depth hdepth => ?_⟩
              · rw [hmoved.gameMode, hmode, hmoved.position]
                exact hlt
              · rw [hcalls land depth rng' hdepth, bind_assoc]
                rfl

end Landings

/-! ## the cards -/

section Counts

variable {s : GameState} {p : PlayerState} {land : Lander} {n : Nat}

theorem drawsIn_append (events events' : List GameEvent) :
    drawsIn (events ++ events') = drawsIn events + drawsIn events' := List.countP_append

theorem drawsIn_eq_zero {events : List GameEvent} (h : ∀ e ∈ events, e.isCardDrawn = false) :
    drawsIn events = 0 :=
  List.countP_eq_zero.mpr fun e he => by simp [h e he]

theorem cardsAhead_pos {mode : GameMode} {pos : Nat} (h : OnCardSpace mode pos) :
    0 < cardsAhead mode pos := by
  obtain ⟨kind, hkind⟩ := Option.isSome_iff_exists.mp h
  simp only [cardsAhead, hkind]
  cases kind <;> cases mode <;> decide

theorem cardsAhead_le (mode : GameMode) (pos : Nat) : cardsAhead mode pos ≤ 2 := by
  unfold cardsAhead
  split <;> omega

/-- Landings draw at most `n` cards. -/
def Lander.DrawsAtMost (land : Lander) (n : Nat) : Prop :=
  ∀ s p depth rentMultiplier rng,
    Ensures (land s p depth rentMultiplier rng) fun L => drawsIn L.events ≤ n

theorem advanceAndLand_counts (hland : land.DrawsAtMost n) (goSalary : Int) (s : GameState)
    (p : PlayerState) (steps : Nat) (bonus : Bool) (depth rentMultiplier : Nat) (rng : Rng) :
    Ensures (advanceAndLand land goSalary s p steps bonus depth rentMultiplier rng) fun L =>
      drawsIn L.events ≤ n := by
  refine .after fun advanced _ => .after fun s₁ _ => ?_
  refine (collectGoBonus_uncarded s₁ _ goSalary _).seq fun collected hc => ?_
  refine (hland _ _ _ _ _).seq fun L hL => ?_
  have hquiet : drawsIn (cardMoveEvent p advanced.1 :: collected.2.2) = 0 :=
    drawsIn_eq_zero (List.forall_mem_cons.mpr ⟨rfl, hc⟩)
  show drawsIn (cardMoveEvent p advanced.1 :: collected.2.2 ++ L.events) ≤ n
  rw [drawsIn_append, hquiet, Nat.zero_add]
  exact hL

/-- The effect of a card draws what the landing it leads to draws. -/
theorem applyCardEffect_counts (hland : land.DrawsAtMost n) (goSalary : Int) (s : GameState)
    (p : PlayerState) (card : CardDef) (depth : Nat) (rng : Rng) :
    Ensures (applyCardEffect land goSalary s p card depth rng) fun L => drawsIn L.events ≤ n := by
  have hmove : ∀ pos, drawsIn [cardMoveEvent p pos] = 0 := fun _ => rfl
  unfold applyCardEffect
  cases card.effect with
  | advanceTo position bonus =>
      exact .after fun _ _ => advanceAndLand_counts hland _ _ _ _ _ _ _ _
  | advanceToNearest target payDouble =>
      exact .after fun _ _ => .after fun _ _ => advanceAndLand_counts hland _ _ _ _ _ _ _ _
  | goToJail => exact .after fun _ _ => Nat.zero_le n
  | goBack spaces =>
      refine .after fun _ _ => .after fun _ _ => .after fun pos _ => .after fun _ _ => ?_
      split
      · exact Nat.zero_le n
      · refine (hland _ _ _ _ _).seq fun L hL => ?_
        show drawsIn ([cardMoveEvent p pos] ++ L.events) ≤ n
        rw [drawsIn_append, hmove, Nat.zero_add]
        exact hL
  | collect amount => exact .after fun _ _ => Nat.zero_le n
  | pay amount => exact .after fun _ _ => Nat.zero_le n
  | collectFromEachPlayer amount =>
      refine .after fun _ _ => .after fun _ _ => .after fun _ _ => .after fun _ _ => ?_
      exact Nat.zero_le n
  | payEachPlayer amount =>
      refine .after fun _ _ => .after fun _ _ => .after fun _ _ => .after fun _ _ => ?_
      exact Nat.zero_le n
  | getOutOfJailFree => exact .after fun _ _ => Nat.zero_le n
  | repairs perHouse perHotel => exact .after fun _ _ => .after fun _ _ => Nat.zero_le n

theorem landOnCard_counts (hland : land.DrawsAtMost n) (goSalary : Int) (s : GameState)
    (p : PlayerState) (kind : CardKind) (depth : Nat) (rng : Rng) :
    Ensures (landOnCard land goSalary s p kind depth rng) fun L => drawsIn L.events ≤ n + 1 := by
  refine .after fun s₁ _ => .after fun q _ => ?_
  have hdraw : Ensures (drawAndApply land goSalary s₁ q kind depth rng) fun r =>
      drawsIn r.1.events ≤ n + 1 := by
    refine .after fun drawn _ => .after fun q' _ => ?_
    refine (applyCardEffect_counts hland goSalary _ _ _ _ _).seq fun L hL => ?_
    simp only [sat_pure, drawsIn, List.countP_cons, GameEvent.isCardDrawn, if_true]
    exact Nat.succ_le_succ hL
  refine hdraw.seq fun r hr => ?_
  simp only [sat_ite]
  exact ⟨fun _ => hr, fun _ => hr⟩

/-- A landing draws one card more than the landings it leads to, on a space
that draws, and else none. -/
theorem landingStep_counts (hland : land.DrawsAtMost n) (hboard : OnBoard s.gameMode p.position)
    (diceRoll : DiceRoll) (goSalary : Int) (depth rentMultiplier : Nat) (rng : Rng) :
    Ensures (landingStep diceRoll goSalary land s p depth rentMultiplier rng) fun L =>
      drawsIn L.events ≤ n + 1 ∧ (¬OnCardSpace s.gameMode p.position → drawsIn L.events = 0) := by
  have hquiet : ∀ L : Landing, Uncarded s L.state L.events →
      drawsIn L.events ≤ n + 1 ∧ (¬OnCardSpace s.gameMode p.position → drawsIn L.events = 0) := by
    intro L hL
    rw [drawsIn_eq_zero hL.2]
    exact ⟨Nat.zero_le _, fun _ => rfl⟩
  simp only [landingStep, getBoardSpace_eq hboard, ok_bind, sat_ite]
  refine ⟨fun _ => (landOnGoToJail_uncarded s p rng).imp hquiet, fun _ => ?_⟩
  cases (squareAt s.gameMode p.position).tax with
  | some amount => exact (landOnTax_uncarded s p amount rng).imp hquiet
  | none =>
      cases hkind : (squareAt s.gameMode p.position).type.cardKind with
      | none => exact (landOnSpace_uncarded s p _ _ _ rng).imp hquiet
      | some kind =>
          have hdraws : OnCardSpace s.gameMode p.position := by simp [OnCardSpace, hkind]
          exact (landOnCard_counts hland goSalary s p kind depth rng).imp fun L hL =>
            ⟨hL, fun hnone => absurd hdraws hnone⟩

end Counts

/-! ## the whole landing -/

section Runs

variable {s : GameState} {p : PlayerState} {diceRoll : DiceRoll} {goSalary : Int}
  {multiplier : Nat} {rng : Rng}

/-- The table of a call can be evaluated, and its player sits at it. -/
def LandingCall.Sound (call : LandingCall) : Prop :=
  Monopoly.Sound call.state ∧ call.player.bare ∈ call.state.seats

/-- The cards that can follow from where the player lands. -/
def LandingCall.ahead (call : LandingCall) : Nat :=
  cardsAhead call.state.gameMode call.player.position

theorem uncapped_chain (diceRoll : DiceRoll) (goSalary : Int) :
    ∀ call : LandingCall, call.Sound →
      ∃ n ≤ call.ahead + 1, CallChain (uncapped diceRoll goSalary) call n := by
  refine exists_callChain LandingCall.ahead fun call hcall => ?_
  obtain ⟨hs, hp⟩ := hcall
  rcases landingStep_calls hs hp diceRoll goSalary call.rentMultiplier call.rng with hends | hcalls
  · exact .inl fun f g => hends _ _ _ _
  · obtain ⟨s', p', multiplier', rng', deeper, k, hs', hp', hlt, -, hk⟩ := hcalls
    exact .inr ⟨⟨s', p', multiplier', rng'⟩, ⟨(· >>= k), fun f => hk _ 0 (by decide)⟩, ⟨hs', hp'⟩,
      hlt⟩

/-- The recursion of the source is the one without the cap: the counter stays
below it. -/
theorem uncapped_iterate {fuel depth n : Nat} {call : LandingCall} (hcall : call.Sound)
    (hfuel : call.ahead < fuel) (hdepth : depth + call.ahead ≤ 2) (hn : call.ahead < n)
    (f : LandingCall → Py Landing) : (uncapped diceRoll goSalary)^[n] f call =
      resolveLanding diceRoll goSalary fuel call.state call.player depth call.rentMultiplier
        call.rng := by
  induction fuel generalizing depth n call with
  | zero => omega
  | succ fuel ih =>
      obtain ⟨n, rfl⟩ := Nat.exists_eq_add_one.mpr (Nat.zero_lt_of_lt hn)
      obtain ⟨hs, hp⟩ := hcall
      rw [Function.iterate_succ_apply', resolveLanding_succ, uncapped]
      rcases landingStep_calls hs hp diceRoll goSalary call.rentMultiplier call.rng with
        hends | hcalls
      · exact hends _ _ _ _
      · obtain ⟨s', p', multiplier', rng', deeper, k, hs', hp', hlt, hdeeper, hk⟩ := hcalls
        have hlt' : LandingCall.ahead ⟨s', p', multiplier', rng'⟩ < call.ahead := hlt
        rw [hk _ 0 (by decide), hk _ depth (by simp only [cardLandingRecursionLimit]; omega)]
        have hcall' : LandingCall.Sound ⟨s', p', multiplier', rng'⟩ := ⟨hs', hp'⟩
        have hrec : (uncapped diceRoll goSalary)^[n] f ⟨s', p', multiplier', rng'⟩ =
            resolveLanding diceRoll goSalary fuel s' p' (depth + deeper) multiplier' rng' :=
          ih hcall' (by omega) (by omega) (by omega)
        rw [hrec]

/-- Landings draw at most as many cards as there are ahead. -/
theorem resolveLanding_counts {fuel depth : Nat} (hs : Sound s) (hp : p.bare ∈ s.seats)
    (hdepth : depth + cardsAhead s.gameMode p.position ≤ 2) :
    Ensures (resolveLanding diceRoll goSalary fuel s p depth multiplier rng) fun L =>
      drawsIn L.events ≤ cardsAhead s.gameMode p.position := by
  induction fuel generalizing s p depth multiplier rng with
  | zero => trivial
  | succ fuel ih =>
      have hboard : OnBoard s.gameMode p.position := hs.standing p.bare hp
      rw [resolveLanding_succ]
      rcases landingStep_calls hs hp diceRoll goSalary multiplier rng with hends | hcalls
      · -- without a further landing, any other would do: one that raises
        rw [hends _ (fun _ _ _ _ _ => .error .recursionError) depth depth]
        have hnone : Lander.DrawsAtMost (fun _ _ _ _ _ => .error .recursionError) 0 :=
          fun _ _ _ _ _ => trivial
        refine (landingStep_counts hnone hboard diceRoll goSalary depth multiplier rng).imp
          fun L hL => ?_
        by_cases hcard : OnCardSpace s.gameMode p.position
        · exact hL.1.trans (cardsAhead_pos hcard)
        · rw [hL.2 hcard]
          exact Nat.zero_le _
      · obtain ⟨s', p', multiplier', rng', deeper, k, hs', hp', hlt, hdeeper, hk⟩ := hcalls
        have hbelow : depth < cardLandingRecursionLimit := by
          simp only [cardLandingRecursionLimit]
          omega
        have hrec : Ensures (resolveLanding diceRoll goSalary fuel s' p' (depth + deeper)
            multiplier' rng') fun L => drawsIn L.events ≤ cardsAhead s'.gameMode p'.position :=
          ih hs' hp' (by omega)
        have hconst : Lander.DrawsAtMost (fun _ _ _ _ _ => resolveLanding diceRoll goSalary fuel s'
            p' (depth + deeper) multiplier' rng') (cardsAhead s'.gameMode p'.position) :=
          fun _ _ _ _ _ => hrec
        have hcounts := landingStep_counts hconst hboard diceRoll goSalary depth multiplier rng
        rw [hk _ depth hbelow] at hcounts ⊢
        exact hcounts.imp fun L hL => hL.1.trans hlt

/-- Every landing on a table that can be evaluated ends. -/
theorem LandingCall.Sound.returns {call : LandingCall} (hcall : call.Sound) (diceRoll : DiceRoll)
    (goSalary : Int) : ReturnsInThree diceRoll goSalary call := by
  have hle : call.ahead ≤ 2 := cardsAhead_le _ _
  have hfuel : call.ahead < landingFuel := by
    simp only [landingFuel]
    omega
  constructor
  · obtain ⟨n, hn, hchain⟩ := uncapped_chain diceRoll goSalary call hcall
    refine ⟨n, by omega, hchain, fun f => ?_⟩
    rw [hchain.unroll_le (m := 3) (by omega)]
    exact uncapped_iterate hcall hfuel (by omega) (by omega) f
  · have hdepth : 0 + call.ahead ≤ 2 := by omega
    have hreturns := resolveLanding_landsOn diceRoll goSalary landingFuel call.state call.player 0
      call.rentMultiplier call.rng hcall.1 hcall.2 hfuel hdepth
    obtain ⟨L, hL, -⟩ := hreturns.exists_ok
    have hcounts : Ensures (resolveLanding diceRoll goSalary landingFuel call.state call.player 0
        call.rentMultiplier call.rng) fun L => drawsIn L.events ≤ call.ahead :=
      resolveLanding_counts hcall.1 hcall.2 hdepth
    exact ⟨L, hL, (hcounts.of_ok hL).trans hle⟩

end Runs

/-! ## the law -/

section Law

variable {s : GameState} {p q : PlayerState} {pid : PlayerId} {h : List (Taken GameState Call)}

/-- `_execute_move`, with `land` for the landing at the end of the walk. -/
def executeMoveBy (land : DiceRoll → Lander) (state : GameState) (player : PlayerState)
    (diceRoll : DiceRoll) (extraRollAllowed : Bool) (rng : Rng) (goSalary : Int) :
    Py (Handled × Rng) := do
  let steps := diceRoll.die1 + diceRoll.die2
  let (working, moved, walkEvents) ← walk state player steps goSalary
  let newStreak := if diceRoll.isDoubles then state.turn.doublesStreak + 1 else 0
  let extraRoll := diceRoll.isDoubles && extraRollAllowed
  let doublesEvents :=
    if extraRoll then [.rolledDoubles player.id player.displayName newStreak] else []
  let landing ← land diceRoll working moved 0 1 rng
  let turn := turnAfterMove landing.state diceRoll extraRoll landing.sentToJail newStreak
  return (({ landing.state with turn }, walkEvents ++ doublesEvents ++ landing.events),
    landing.rng)

/-- A roll out of jail, with `land` for the landing. -/
def rollInJailBy (land : DiceRoll → Lander) (state : GameState) (player : PlayerState)
    (jail : JailStatus) (diceRoll : DiceRoll) (rng : Rng) (goSalary jailFine : Int) :
    Py (Handled × Rng) := do
  if diceRoll.isDoubles then
    executeMoveBy land state { player with jailStatus := none } diceRoll false rng goSalary
  else
    let remaining := jail.turnsRemaining - 1
    if remaining > 0 then
      let state ← storePlayer state { player with
        jailStatus := some { turnsRemaining := remaining } }
      return (({ state with turn := stayTurn state.turn diceRoll }, []), rng)
    else
      let freed := { player with jailStatus := none, balance := player.balance - jailFine }
      let state ← storePlayer state freed
      executeMoveBy land state freed diceRoll false rng goSalary

/-- A roll of a player who is not jailed, with `land` for the landing. -/
def rollFreeBy (land : DiceRoll → Lander) (state : GameState) (player : PlayerState)
    (diceRoll : DiceRoll) (rng : Rng) (goSalary : Int) : Py (Handled × Rng) := do
  let newStreak := if diceRoll.isDoubles then state.turn.doublesStreak + 1 else 0
  if diceRoll.isDoubles ∧ newStreak ≥ doublesJailThreshold then
    let state ← storePlayer state (sendToJail player state.gameMode)
    return (({ state with turn := stayTurn state.turn diceRoll },
      [.sentToJail player.id player.displayName .doubles]), rng)
  else
    executeMoveBy land state player diceRoll diceRoll.isDoubles rng goSalary

/-- `_handle_roll_dice`, with `land` for the landing. -/
def handleRollDiceBy (land : DiceRoll → Lander) (state : GameState) (playerId : PlayerId)
    (rng : Rng) (goSalary jailFine : Int) : Py (Handled × Rng) := do
  illegalIf (state.turn.phase ≠ .preRoll ∧ state.turn.phase ≠ .jailDecision)
    "cannot roll dice in current phase"
  let player ← getPlayerByIdFromState state playerId
  illegalIf (player.jailStatus.isSome ∧ state.turn.phase = .preRoll)
    "must resolve jail decision before rolling"
  let ((die1, die2), rng) := rollDiceCount rng (getGameConfig state.gameMode).diceCount
  let diceRoll := { die1, die2, isDoubles := decide (die1 = die2) }
  match player.jailStatus with
  | some jail => rollInJailBy land state player jail diceRoll rng goSalary jailFine
  | none => rollFreeBy land state player diceRoll rng goSalary

theorem handleRollDice_eq (state : GameState) (playerId : PlayerId) (rng : Rng)
    (goSalary jailFine : Int) : handleRollDice state playerId rng goSalary jailFine =
      handleRollDiceBy (fun diceRoll => resolveLanding diceRoll goSalary landingFuel) state playerId
        rng goSalary jailFine :=
  rfl

/-- What the landing is asked makes no difference, or it is asked once, with
a call that returns. -/
def LandsAtMostOnce (goSalary : Int) (roll : (DiceRoll → Lander) → Py (Handled × Rng)) : Prop :=
  (∀ land land', roll land = roll land') ∨
  ∃ (diceRoll : DiceRoll) (call : LandingCall) (k : Landing → Py (Handled × Rng)),
    ReturnsInThree diceRoll goSalary call ∧ ∀ land, roll land =
      land diceRoll call.state call.player 0 call.rentMultiplier call.rng >>= k

/-- What goes before the landing does not ask it. -/
theorem LandsAtMostOnce.after {A : Type} {goSalary : Int} (x : Py A)
    {roll : A → (DiceRoll → Lander) → Py (Handled × Rng)}
    (h : ∀ a, x = .ok a → LandsAtMostOnce goSalary (roll a)) :
    LandsAtMostOnce goSalary fun land => x >>= fun a => roll a land := by
  cases x with
  | error e => exact .inl fun _ _ => rfl
  | ok a => exact h a rfl

theorem executeMoveBy_lands (hs : Sound s) (hq : q ∈ s.players) (hid : q.id = p.id)
    (howned : p.ownedPositions = q.ownedPositions) (hpos : p.position = q.position)
    (diceRoll : DiceRoll) (extraRoll : Bool) (rng : Rng) (goSalary : Int) :
    LandsAtMostOnce goSalary fun land =>
      executeMoveBy land s p diceRoll extraRoll rng goSalary := by
  obtain ⟨ps, m, events, (hwalk : walk s p _ goSalary = _), hps, hm, hs'⟩ :=
    walk_eq hs hq hid howned hpos (diceRoll.die1 + diceRoll.die2)
  have hmem : m.bare ∈ seatsOf ps := by
    rw [hps]
    exact mem_editSeat.mpr ⟨q.bare, mem_seats hq, if_pos hid⟩
  have hcall : LandingCall.Sound ⟨{ s with players := ps }, m, 1, rng⟩ := ⟨hs', hmem⟩
  have hmove : ∃ k : Landing → Py (Handled × Rng), ∀ land : DiceRoll → Lander,
      executeMoveBy land s p diceRoll extraRoll rng goSalary =
        land diceRoll { s with players := ps } m 0 1 rng >>= k := by
    simp only [executeMoveBy, hwalk, ok_bind]
    exact ⟨_, fun _ => rfl⟩
  obtain ⟨k, hk⟩ := hmove
  exact .inr ⟨diceRoll, _, k, hcall.returns diceRoll goSalary, hk⟩

theorem rollFreeBy_lands (hs : Sound s) (hp : p ∈ s.players) (diceRoll : DiceRoll) (rng : Rng)
    (goSalary : Int) :
    LandsAtMostOnce goSalary fun land => rollFreeBy land s p diceRoll rng goSalary := by
  by_cases hthird : diceRoll.isDoubles = true ∧
      (if diceRoll.isDoubles = true then s.turn.doublesStreak + 1 else 0) ≥ doublesJailThreshold
  · simp only [rollFreeBy, if_pos hthird]
    exact .inl fun _ _ => rfl
  · simp only [rollFreeBy, if_neg hthird]
    exact executeMoveBy_lands hs hp rfl rfl rfl _ _ _ _

theorem rollInJailBy_lands (hs : Sound s) (hp : p ∈ s.players) (jail : JailStatus)
    (diceRoll : DiceRoll) (rng : Rng) (goSalary jailFine : Int) :
    LandsAtMostOnce goSalary fun land =>
      rollInJailBy land s p jail diceRoll rng goSalary jailFine := by
  by_cases hdoubles : diceRoll.isDoubles = true
  · simp only [rollInJailBy, if_pos hdoubles]
    exact executeMoveBy_lands (p := { p with jailStatus := none }) hs hp rfl rfl rfl _ _ _ _
  by_cases hleft : jail.turnsRemaining - 1 > 0
  · simp only [rollInJailBy, if_neg hdoubles, if_pos hleft]
    exact .inl fun _ _ => rfl
  · let freed : PlayerState := { p with jailStatus := none, balance := p.balance - jailFine }
    obtain ⟨ps, x, (hstore : storePlayer s freed = _), -, hs₁, hx, hxb⟩ :=
      storePlayer_freed (v := freed) hs hp rfl
    have howned : freed.ownedPositions = x.ownedPositions := by
      rw [← bare_ownedPositions x, hxb]
      rfl
    have hpos : freed.position = x.position := by
      rw [← bare_position x, hxb]
      rfl
    simp only [rollInJailBy, if_neg hdoubles, if_neg hleft]
    show LandsAtMostOnce goSalary fun land => storePlayer s freed >>= _
    rw [hstore]
    exact executeMoveBy_lands hs₁ hx (id_eq_of_bare hxb) howned hpos _ _ _ _

theorem handleRollDiceBy_lands (hs : Sound s) (pid : PlayerId) (rng : Rng)
    (goSalary jailFine : Int) : LandsAtMostOnce goSalary fun land =>
      handleRollDiceBy land s pid rng goSalary jailFine := by
  refine .after _ fun _ _ => .after _ fun p hp => .after _ fun _ _ => ?_
  obtain ⟨hmem, -⟩ := getPlayer_found hp
  cases hjail : p.jailStatus with
  | none => exact rollFreeBy_lands hs hmem _ _ _
  | some jail => exact rollInJailBy_lands hs hmem jail _ _ _ _

/-- Every roll of a reachable game returns after at most three landings and
two cards, and no landing on the way meets the cap. -/
theorem landings_return (hplay : Play h s) (pid : PlayerId) (env : Env) :
    dispatch s (.rollDice pid) env =
      handleRollDiceBy (fun diceRoll => resolveLanding diceRoll env.goSalary landingFuel) s pid
        env.rng env.goSalary env.jailFine ∧
    LandsAtMostOnce env.goSalary fun land =>
      handleRollDiceBy land s pid env.rng env.goSalary env.jailFine :=
  ⟨handleRollDice_eq _ _ _ _ _,
    handleRollDiceBy_lands (Play.formed hplay).1.toSound pid env.rng env.goSalary env.jailFine⟩

/-- Player `1` rolls to a Community Chest. -/
theorem landings_return_first : ∃ h s handled rng, Play h s ∧
    dispatch s (.rollDice 1) firstCard.env = .ok (handled, rng) ∧ drawsIn handled.2 = 1 ∧
    LandsAtMostOnce firstCard.env.goSalary fun land => handleRollDiceBy land s 1
      firstCard.env.rng firstCard.env.goSalary firstCard.env.jailFine := by
  obtain ⟨h, s, hplay, -, hcheck⟩ := play_of_reaches (duo 1500) []
    (fun _ s => (dispatch s (.rollDice 1) firstCard.env).toOption.any
      fun (r : Handled × Rng) => decide (drawsIn r.1.2 = 1)) (by decide) (by decide +kernel)
  obtain ⟨⟨handled, rng⟩, hrolled, hdraws⟩ := ok_of_any hcheck
  exact ⟨h, s, handled, rng, hplay, hrolled, of_decide_eq_true hdraws,
    (landings_return hplay 1 firstCard.env).2⟩

end Law

end Monopoly
