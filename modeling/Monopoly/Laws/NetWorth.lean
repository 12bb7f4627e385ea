import Monopoly.Spec.Replay
import Monopoly.Spec.Stock

/-!
# Monopoly.Laws.NetWorth

The cached net worth of a player is never stale.  A landing may be reached
with a stale record, that of a player whose bail was just deducted, but every
landing refreshes the whole table; every other command refreshes the players
it charges.

The cache is a field of the player that nothing invalidates: each operation
that touches cash, titles, buildings or mortgages has to renew it, for the
payer and for the receiver, or for everybody.  `Refreshed` says that
`compute_net_worth` returns what every player has cached.  Most operations
keep it; some (`finalize`, `updateHolding`, `executeTrade`) establish it
whatever was before, because they end with `refresh_all_net_worth`, and these
carry no hypothesis.  Landings nest, so what they do is said of a lander as a
parameter and proved by induction on the fuel.
-/

namespace Monopoly

/-- Every cached net worth is what `compute_net_worth` returns. -/
def Refreshed (players : List PlayerState) (spaces : List SpaceOwnership) (mode : GameMode) :
    Prop :=
  ∀ p ∈ players, computeNetWorth p spaces mode = .ok p.netWorth

/-- Every cache of the table is current. -/
def GameState.Refreshed (s : GameState) : Prop :=
  Monopoly.Refreshed s.players s.spaces s.gameMode

/-! ## the cache -/

section Cache

variable {players : List PlayerState} {spaces spaces' : List SpaceOwnership} {mode : GameMode}
  {p : PlayerState}

/-- A renewed cache is current. -/
theorem updatePlayerNetWorth_fresh (p : PlayerState) (spaces : List SpaceOwnership)
    (mode : GameMode) :
    Ensures (updatePlayerNetWorth p spaces mode) fun q =>
      computeNetWorth q spaces mode = .ok q.netWorth :=
  .after fun _ hworth => hworth

/-- All of them are, after renewing all. -/
theorem refreshAllNetWorth_refreshed (players : List PlayerState) (spaces : List SpaceOwnership)
    (mode : GameMode) :
    Ensures (refreshAllNetWorth players spaces mode) fun ps => Refreshed ps spaces mode := by
  unfold refreshAllNetWorth
  induction players with
  | nil => simp [Refreshed]
  | cons p rest ih =>
      rw [List.mapM_cons]
      refine (updatePlayerNetWorth_fresh p spaces mode).seq fun q hq => ih.seq fun qs hqs => ?_
      simp only [sat_pure, Refreshed, List.forall_mem_cons]
      exact ⟨hq, hqs⟩

/-- A player with a current cache may be put anywhere. -/
theorem Refreshed.set (h : Refreshed players spaces mode)
    (hp : computeNetWorth p spaces mode = .ok p.netWorth) (i : Nat) :
    Refreshed (players.set i p) spaces mode := by
  intro q hq
  obtain hmem | rfl := List.mem_or_eq_of_mem_set hq
  · exact h q hmem
  · exact hp

/-- So may one who is written back, -/
theorem assignPlayer_refreshed (h : Refreshed players spaces mode)
    (hp : computeNetWorth p spaces mode = .ok p.netWorth) (pid : PlayerId) :
    Ensures (assignPlayer players pid p) fun ps => Refreshed ps spaces mode :=
  .after fun i _ => h.set hp i

/-- by either of the writes. -/
theorem putPlayer_refreshed (h : Refreshed players spaces mode)
    (hp : computeNetWorth p spaces mode = .ok p.netWorth) :
    Ensures (putPlayer players p) fun ps => Refreshed ps spaces mode :=
  .after fun i _ => h.set hp i

/-- The net worth reads the spaces through the worth of each position. -/
theorem computeNetWorth_congr
    (h : ∀ pos, positionWorth spaces' mode pos = positionWorth spaces mode pos)
    (p : PlayerState) : computeNetWorth p spaces' mode = computeNetWorth p spaces mode := by
  have hadd : ∀ total, addWorth spaces' mode p.ownedPositions total =
      addWorth spaces mode p.ownedPositions total := by
    induction p.ownedPositions with
    | nil => exact fun _ => rfl
    | cons pos rest ih =>
        intro total
        simp only [addWorth, h, ih]
  exact hadd p.balance

/-- A change of owner is worth nothing to anybody who does not list the
position. -/
theorem replaceSpace_refreshed {o : SpaceOwnership} {pos : Nat}
    (h : Refreshed players spaces mode) (hat : spaceAt spaces pos = .ok o)
    (owner : Option PlayerId) :
    Ensures (replaceSpace spaces pos { o with ownerId := owner }) fun spaces' =>
      Refreshed players spaces' mode := by
  obtain ⟨-, -, -, hpos⟩ := spaceAt_found hat
  have hposition : ({ o with ownerId := owner } : SpaceOwnership).position = pos := hpos
  obtain ⟨i, hreplace, -, hothers⟩ := replaceSpace_at hat hposition
  rw [hreplace]
  refine fun p hp => (computeNetWorth_congr (fun q => ?_) p).trans (h p hp)
  simp only [positionWorth, hothers]
  by_cases hq : q = pos
  · subst hq
    simp [hat]
  · rw [if_neg hq]

end Cache

/-! ## charges -/

section Charges

variable {s : GameState} {p : PlayerState} {pid : PlayerId}

/-- A payment renews both sides. -/
theorem transferFunds_refreshed (hs : s.Refreshed) (pid : PlayerId) (creditor : Option PlayerId)
    (amount : Int) : Ensures (transferFunds s pid creditor amount) GameState.Refreshed := by
  refine .after fun payer _ => (updatePlayerNetWorth_fresh _ _ _).seq fun paid hpaid => ?_
  refine (assignPlayer_refreshed hs hpaid pid).seq fun players hplayers => ?_
  cases creditor with
  | none => exact hplayers
  | some c =>
      refine .after fun _ _ => (updatePlayerNetWorth_fresh _ _ _).seq fun credited hcredited => ?_
      exact (assignPlayer_refreshed hplayers hcredited c).seq fun _ h => h

/-- A charge pays, or leaves the players alone. -/
theorem attemptPayment_refreshed (hs : s.Refreshed) (pid : PlayerId) (amount : Int)
    (creditor : Option PlayerId) :
    Ensures (attemptPayment s pid amount creditor) GameState.Refreshed := by
  unfold attemptPayment
  simp only [sat_ite]
  refine ⟨fun _ => hs, fun _ => .after fun payer _ => ?_⟩
  simp only [sat_ite]
  exact ⟨fun _ => transferFunds_refreshed hs pid creditor amount, fun _ =>
    ⟨fun _ => hs, fun _ => hs⟩⟩

/-- So does the settlement of a debt. -/
theorem trySettleDebt_refreshed (hs : s.Refreshed) :
    Ensures (trySettleDebt s) GameState.Refreshed := by
  unfold trySettleDebt
  cases s.bankruptcy with
  | none => exact hs
  | some debt =>
      refine .after fun debtor _ => ?_
      simp only [sat_ite]
      refine ⟨fun _ => ?_, fun _ => hs⟩
      exact (transferFunds_refreshed hs _ _ _).seq fun _ h => h

/-- A roll renews the player it writes back, as stale as they were. -/
theorem storePlayer_refreshed (hs : s.Refreshed) (p : PlayerState) :
    Ensures (storePlayer s p) GameState.Refreshed := by
  refine (updatePlayerNetWorth_fresh _ _ _).seq fun updated hupdated => ?_
  exact (assignPlayer_refreshed hs hupdated p.id).seq fun _ h => h

/-- The whole table is refreshed, whatever it was. -/
theorem setPlayer_refreshed (s : GameState) (p : PlayerState) :
    Ensures (setPlayer s p) GameState.Refreshed := by
  refine .after fun _ _ => .after fun players _ => ?_
  exact (refreshAllNetWorth_refreshed players s.spaces s.gameMode).seq fun _ h => h

/-- The end of a landing renews the whole table. -/
theorem finalize_refreshed (s : GameState) (players : List PlayerState) (turn : TurnState) :
    Ensures (finalize s players turn) GameState.Refreshed :=
  (refreshAllNetWorth_refreshed players s.spaces s.gameMode).seq fun _ h => h

/-- Each player who pays is renewed on the way; the collector is written back
later. -/
theorem takeFromOthers_refreshed {players : List PlayerState} {spaces : List SpaceOwnership}
    {mode : GameMode} (h : Refreshed players spaces mode) (pid : PlayerId) (amount : Int) :
    Ensures (takeFromOthers pid amount spaces mode players) fun r =>
      Refreshed r.1 spaces mode := by
  induction players with
  | nil => exact h
  | cons other rest ih =>
      obtain ⟨hother, hrest⟩ := List.forall_mem_cons.mp h
      unfold takeFromOthers
      simp only [sat_ite]
      refine ⟨fun _ => (ih hrest).seq fun r hr => ?_, fun _ => ?_⟩
      · exact List.forall_mem_cons.mpr ⟨hother, hr⟩
      · refine (updatePlayerNetWorth_fresh _ _ _).seq fun paid hpaid => ?_
        exact (ih hrest).seq fun r hr => List.forall_mem_cons.mpr ⟨hpaid, hr⟩

end Charges

/-! ## landings -/

/-- Landings refresh the whole table, whatever it was. -/
def Lander.Refreshes (land : Lander) : Prop :=
  ∀ s p depth rentMultiplier rng,
    Ensures (land s p depth rentMultiplier rng) fun r => r.state.Refreshed

section Landings

variable {s : GameState} {land : Lander}

/-- A card that moves the player ends in a landing. -/
theorem advanceAndLand_refreshed (hland : land.Refreshes) (goSalary : Int) (s : GameState)
    (p : PlayerState) (steps : Nat) (bonus : Bool) (depth rentMultiplier : Nat) (rng : Rng) :
    Ensures (advanceAndLand land goSalary s p steps bonus depth rentMultiplier rng)
      fun r => r.state.Refreshed := by
  refine .after fun advanced _ => .after fun s₁ _ => .after fun collected _ => ?_
  exact (hland _ _ _ _ _).seq fun _ h => h

/-- Every effect ends in a landing, in a charge, or in a write that renews the
table or the players it changes. -/
theorem applyCardEffect_refreshed (hland : land.Refreshes) (goSalary : Int) (hs : s.Refreshed)
    (p : PlayerState) (card : CardDef) (depth : Nat) (rng : Rng) :
    Ensures (applyCardEffect land goSalary s p card depth rng)
      fun r => r.state.Refreshed := by
  unfold applyCardEffect
  cases card.effect with
  | advanceTo position bonus =>
      exact .after fun steps _ => advanceAndLand_refreshed hland _ _ _ _ _ _ _ _
  | advanceToNearest target payDouble =>
      refine .after fun pos _ => .after fun steps _ => ?_
      exact advanceAndLand_refreshed hland _ _ _ _ _ _ _ _
  | goToJail => exact (setPlayer_refreshed s _).seq fun _ h => h
  | goBack n =>
      refine .after fun index _ => .after fun back _ => .after fun pos _ => ?_
      refine (setPlayer_refreshed s _).seq fun s₁ h₁ => ?_
      simp only [sat_ite]
      exact ⟨fun _ => h₁, fun _ => (hland _ _ _ _ _).seq fun _ h₂ => h₂⟩
  | collect amount => exact (setPlayer_refreshed s _).seq fun _ h => h
  | pay amount => exact (attemptPayment_refreshed hs _ _ _).seq fun _ h => h
  | collectFromEachPlayer amount =>
      refine (takeFromOthers_refreshed hs p.id amount).seq fun taken htaken => ?_
      refine .after fun receiver _ => (updatePlayerNetWorth_fresh _ _ _).seq fun paid hpaid => ?_
      exact (putPlayer_refreshed htaken hpaid).seq fun _ h => h
  | payEachPlayer amount =>
      refine .after fun payer _ => .after fun _ _ => .after fun players _ => ?_
      exact (refreshAllNetWorth_refreshed players s.spaces s.gameMode).seq fun _ h => h
  | getOutOfJailFree => exact (setPlayer_refreshed s _).seq fun _ h => h
  | repairs perHouse perHotel =>
      exact .after fun _ _ => (attemptPayment_refreshed hs _ _ _).seq fun _ h => h

/-- A draw moves a card. -/
theorem drawCard_refreshed (hs : s.Refreshed) (kind : CardKind) (rng : Rng) :
    Ensures (drawCard s kind rng) fun r => r.1.Refreshed := by
  refine .after fun drawn _ => ?_
  obtain ⟨deck, rng'⟩ := drawn
  cases deck with
  | nil => trivial
  | cons cardId rest => cases kind <;> exact .after fun card _ => hs

/-- A card space, where the table may be stale before. -/
theorem landOnCard_refreshed (hland : land.Refreshes) (goSalary : Int) (s : GameState)
    (p : PlayerState) (kind : CardKind) (depth : Nat) (rng : Rng) :
    Ensures (landOnCard land goSalary s p kind depth rng) fun r => r.state.Refreshed := by
  refine (finalize_refreshed s _ _).seq fun s₁ h₁ => .after fun player _ => ?_
  have hdraw : Ensures (drawAndApply land goSalary s₁ player kind depth rng)
      fun r => r.1.state.Refreshed := by
    refine (drawCard_refreshed h₁ kind rng).seq fun drawn h₂ => .after fun player' _ => ?_
    exact (applyCardEffect_refreshed hland goSalary h₂ _ _ _ _).seq fun _ h => h
  refine hdraw.seq fun drawn h₂ => ?_
  simp only [sat_ite]
  exact ⟨fun _ => h₂, fun _ => h₂⟩

/-- A tax ends in `finalize`. -/
theorem landOnTax_refreshed (s : GameState) (p : PlayerState) (taxAmount : Nat) (rng : Rng) :
    Ensures (landOnTax s p taxAmount rng) fun r => r.state.Refreshed := by
  refine (finalize_refreshed s _ _).seq fun s₁ h₁ => ?_
  refine (attemptPayment_refreshed h₁ _ _ _).seq fun s₂ h₂ => ?_
  simp only [sat_ite]
  exact ⟨fun _ => h₂, fun _ => (finalize_refreshed s₂ _ _).seq fun _ h => h⟩

/-- So does every other space, -/
theorem landOnSpace_refreshed (s : GameState) (p : PlayerState) (diceRoll : DiceRoll)
    (boardSpace : BoardSpace) (rentMultiplier : Nat) (rng : Rng) :
    Ensures (landOnSpace s p diceRoll boardSpace rentMultiplier rng)
      fun r => r.state.Refreshed := by
  refine landOnSpace_ensures (fun ownerId => ?_) fun _ _ =>
    (finalize_refreshed s _ _).seq fun _ h => h
  refine .after fun owner _ => .after fun rent _ => ?_
  refine (finalize_refreshed s _ _).seq fun s₁ h₁ => ?_
  refine (attemptPayment_refreshed h₁ _ _ _).seq fun s₂ h₂ => ?_
  simp only [sat_ite]
  exact ⟨fun _ => h₂, fun _ => h₂⟩

/-- and the way to jail. -/
theorem landOnGoToJail_refreshed (s : GameState) (p : PlayerState) (rng : Rng) :
    Ensures (landOnGoToJail s p rng) fun r => r.state.Refreshed :=
  .after fun _ _ => .after fun _ _ => (finalize_refreshed s _ _).seq fun _ h => h

/-- By induction on the fuel: landings renew the table, however deep they nest.
-/
theorem resolveLanding_refreshed (diceRoll : DiceRoll) (goSalary : Int) (fuel : Nat) :
    Lander.Refreshes (resolveLanding diceRoll goSalary fuel) := by
  have hlands := resolveLanding_ensures (P := fun _ _ => True)
    (Q := fun _ _ r => r.state.Refreshed) (fun s p rng _ => landOnGoToJail_refreshed s p rng)
    (fun s p amount rng _ => landOnTax_refreshed s p amount rng)
    (fun _ hland s p kind depth rng _ =>
      landOnCard_refreshed (fun s p depth rentMultiplier rng =>
        hland s p depth rentMultiplier rng trivial) goSalary s p kind depth rng)
    (fun s p boardSpace rentMultiplier rng _ =>
      landOnSpace_refreshed s p diceRoll boardSpace rentMultiplier rng) fuel
  exact fun s p depth rentMultiplier rng => hlands s p depth rentMultiplier rng trivial

end Landings

/-! ## commands -/

section Commands

variable {s : GameState} {pid : PlayerId}

/-- The walk may leave a stale record: the landing refreshes it. -/
theorem executeMove_refreshed (s : GameState) (p : PlayerState) (diceRoll : DiceRoll)
    (extraRollAllowed : Bool) (rng : Rng) (goSalary : Int) :
    Ensures (executeMove s p diceRoll extraRollAllowed rng goSalary)
      fun r => r.1.1.Refreshed := by
  refine .after fun walked _ => ?_
  exact (resolveLanding_refreshed diceRoll goSalary landingFuel _ _ _ _ _).seq fun _ h => h

/-- A roll moves on to a landing, or stores the player it was about. -/
theorem handleRollDice_refreshed (hs : s.Refreshed) (pid : PlayerId) (rng : Rng)
    (goSalary jailFine : Int) :
    Ensures (handleRollDice s pid rng goSalary jailFine) fun r => r.1.1.Refreshed := by
  refine .after fun _ _ => .after fun player _ => .after fun _ _ => ?_
  cases player.jailStatus with
  | none =>
      simp only [rollFree, sat_ite]
      refine ⟨fun _ => ?_, fun _ => executeMove_refreshed s _ _ _ _ _⟩
      exact (storePlayer_refreshed hs _).seq fun _ h => h
  | some jail =>
      simp only [rollInJail, sat_ite]
      refine ⟨fun _ => executeMove_refreshed s _ _ _ _ _, fun _ => ⟨fun _ => ?_, fun _ => ?_⟩⟩
      · exact (storePlayer_refreshed hs _).seq fun _ h => h
      · exact .after fun s₁ _ => executeMove_refreshed s₁ _ _ _ _ _

/-- A purchase renews the buyer. -/
theorem handleBuyProperty_refreshed (hs : s.Refreshed) (pid : PlayerId) (pos : Nat) :
    Ensures (handleBuyProperty s pid pos) fun r => r.1.Refreshed := by
  refine .after fun _ _ => .after fun _ _ => .after fun _ _ => .after fun _ _ => ?_
  refine .after fun ownership hat => .after fun _ _ => .after fun player _ => ?_
  refine .after fun boardSpace _ => .after fun price _ => .after fun _ _ => ?_
  refine (replaceSpace_refreshed hs hat _).seq fun spaces hspaces => ?_
  refine (updatePlayerNetWorth_fresh _ _ _).seq fun buyer hbuyer => ?_
  exact (assignPlayer_refreshed hspaces hbuyer _).seq fun _ h => h

/-- An auction renews the winner. -/
theorem resolveAuction_refreshed (hs : s.Refreshed) :
    Ensures (resolveAuction s) GameState.Refreshed := by
  unfold resolveAuction
  cases s.auction with
  | none => exact hs
  | some auction =>
      refine .after fun awarded _ => ?_
      exact (refreshAllNetWorth_refreshed awarded.1 awarded.2 s.gameMode).seq fun _ h => h

/-- The tail of building and mortgaging renews the table, -/
theorem updateHolding_refreshed (s : GameState) (pid : PlayerId) (p : PlayerState) (pos : Nat)
    (o : SpaceOwnership) (delta : Int) :
    Ensures (updateHolding s pid p pos o delta) GameState.Refreshed := by
  refine .after fun spaces _ => .after fun _ _ => .after fun players _ => ?_
  exact (refreshAllNetWorth_refreshed players spaces s.gameMode).seq fun _ h => h

/-- for a house built, -/
theorem buildHouse_refreshed (s : GameState) (pid : PlayerId) (pos : Nat) :
    Ensures (buildHouse s pid pos) GameState.Refreshed := by
  refine .after fun _ _ => .after fun _ _ => .after fun _ _ => .after fun _ _ => ?_
  refine .after fun boardSpace _ => ?_
  simp only [sat_ite]
  exact ⟨fun _ => (updateHolding_refreshed s _ _ _ _ _).seq fun _ h => h,
    fun _ => (updateHolding_refreshed s _ _ _ _ _).seq fun _ h => h⟩

/-- a house sold, -/
theorem sellHouse_refreshed (s : GameState) (pid : PlayerId) (pos : Nat) :
    Ensures (sellHouse s pid pos) GameState.Refreshed := by
  refine .after fun _ _ => .after fun _ _ => .after fun _ _ => .after fun _ _ => ?_
  refine .after fun boardSpace _ => ?_
  simp only [sat_ite]
  exact ⟨fun _ => (updateHolding_refreshed s _ _ _ _ _).seq fun _ h => h,
    fun _ => (updateHolding_refreshed s _ _ _ _ _).seq fun _ h => h⟩

/-- a mortgage taken, -/
theorem mortgageProperty_refreshed (s : GameState) (pid : PlayerId) (pos : Nat) :
    Ensures (mortgageProperty s pid pos) GameState.Refreshed := by
  refine .after fun _ _ => .after fun _ _ => .after fun _ _ => .after fun _ _ => ?_
  exact .after fun _ _ => updateHolding_refreshed s _ _ _ _ _

/-- and one redeemed. -/
theorem unmortgageProperty_refreshed (s : GameState) (pid : PlayerId) (pos : Nat) :
    Ensures (unmortgageProperty s pid pos) GameState.Refreshed := by
  refine .after fun _ _ => .after fun _ _ => .after fun _ _ => .after fun _ _ => ?_
  exact .after fun _ _ => updateHolding_refreshed s _ _ _ _ _

/-- A bid costs nothing yet. -/
theorem placeBid_refreshed (hs : s.Refreshed) (pid : PlayerId) (amount : Int) :
    Ensures (placeBid s pid amount) GameState.Refreshed := by
  unfold placeBid
  cases s.auction with
  | none => trivial
  | some auction =>
      exact .after fun _ _ => .after fun _ _ => .after fun _ _ => .after fun _ _ => hs

/-- An offer moves nothing, -/
theorem proposeTrade_refreshed (hs : s.Refreshed) (pid target : PlayerId)
    (offer request : TradeOffer) (now : Int) (tradeId : Nat) :
    Ensures (proposeTrade s pid target offer request now tradeId) GameState.Refreshed := by
  refine .after fun _ _ => .after fun _ _ => .after fun _ _ => .after fun _ _ => ?_
  exact .after fun _ _ => .after fun _ _ => hs

/-- an agreement moves money, titles and cards, and renews everybody; -/
theorem executeTrade_refreshed (s : GameState) (trade : TradeState) :
    Ensures (executeTrade s trade) GameState.Refreshed := by
  refine .after fun _ _ => .after fun _ _ => .after fun _ _ => .after fun _ _ => ?_
  refine .after fun _ _ => .after fun _ _ => .after fun _ _ => .after fun requested _ => ?_
  exact (refreshAllNetWorth_refreshed _ requested.2.2 s.gameMode).seq fun _ h => h

/-- an answer is an agreement, or moves nothing. -/
theorem respondTrade_refreshed (hs : s.Refreshed) (pid : PlayerId) (tradeId : Nat)
    (response : TradeResponse) (counterOffer : Option TradeOffer) (now : Int) :
    Ensures (respondTrade s pid tradeId response counterOffer now) GameState.Refreshed := by
  unfold respondTrade
  cases s.trade with
  | none => trivial
  | some trade =>
      refine .after fun _ _ => ?_
      cases response with
      | reject => exact hs
      | accept => exact .after fun _ _ => executeTrade_refreshed s trade
      | counter =>
          cases counterOffer with
          | none => trivial
          | some counter => exact .after fun _ _ => .after fun _ _ => hs

/-! ## elimination -/

/-- The end of the game is no matter of worth. -/
theorem checkWinCondition_refreshed (hs : s.Refreshed) : (checkWinCondition s).Refreshed := by
  unfold checkWinCondition
  split <;> exact hs

/-- Nor is the next turn. -/
theorem advanceTurnOffPlayer_refreshed (hs : s.Refreshed) (pid : PlayerId) :
    Ensures (advanceTurnOffPlayer s pid) GameState.Refreshed := by
  refine .after fun start _ => .after fun next _ => ?_
  cases next with
  | none => exact hs
  | some found => exact hs

/-- A bankruptcy renews the table after the estate is gone. -/
theorem resolveBankruptcy_refreshed (hs : s.Refreshed) (pid : PlayerId) :
    Ensures (resolveBankruptcy s pid) GameState.Refreshed := by
  unfold resolveBankruptcy
  cases s.bankruptcy with
  | none => exact hs
  | some debt =>
      simp only [sat_ite]
      refine ⟨fun _ => hs, fun _ => ?_⟩
      refine .after fun debtor _ => .after fun idx _ => .after fun settled _ => ?_
      refine (refreshAllNetWorth_refreshed _ settled.spaces s.gameMode).seq fun players h => ?_
      simp only [afterElimination, sat_ite]
      refine ⟨fun _ => ?_, fun _ => advanceTurnOffPlayer_refreshed ?_ pid⟩
      · exact checkWinCondition_refreshed h
      · exact checkWinCondition_refreshed h

/-- So does a surrender. -/
theorem resolveSurrender_refreshed (hs : s.Refreshed) (pid : PlayerId) :
    Ensures (resolveSurrender s pid) GameState.Refreshed := by
  refine .after fun player _ => ?_
  simp only [sat_ite]
  refine ⟨fun _ => hs, fun _ => .after fun idx _ => .after fun cleared _ => ?_⟩
  refine (refreshAllNetWorth_refreshed _ cleared.1 s.gameMode).seq fun players h => ?_
  simp only [sat_ite, sat_pure]
  refine ⟨fun _ => ?_, fun _ => ⟨fun _ => advanceTurnOffPlayer_refreshed ?_ pid, fun _ => ?_⟩⟩
  · exact checkWinCondition_refreshed h
  · exact checkWinCondition_refreshed h
  · exact checkWinCondition_refreshed h

/-- A strike is no part of the net worth. -/
theorem handleTurnTimeout_refreshed (hs : s.Refreshed) (nowMs : Int) :
    Ensures (handleTurnTimeout s nowMs) fun r => r.1.Refreshed := by
  unfold handleTurnTimeout
  simp only [sat_ite]
  refine ⟨fun _ => hs, fun _ => .after fun player hplayer => ?_⟩
  have hstruck : computeNetWorth { player with afkStrikes := player.afkStrikes + 1 } s.spaces
      s.gameMode = .ok player.netWorth := hs player (getPlayer_found hplayer).1
  refine (assignPlayer_refreshed hs hstruck _).seq fun players h => ?_
  simp only [sat_ite]
  constructor
  · intro _
    exact (resolveSurrender_refreshed (s := { s with players }) h _).seq fun _ h' => h'
  · intro _
    exact (advanceTurnOffPlayer_refreshed (s := { s with players }) h _).seq fun _ h' => h'

end Commands

/-! ## every state -/

section Law

variable {s s' : GameState} {call : Call} {calls : List (Taken GameState Call)}

/-- One case for each command. -/
theorem dispatch_refreshed (hs : s.Refreshed) (command : GameCommand) (env : Env) :
    Ensures (dispatch s command env) fun r => r.1.1.Refreshed := by
  have hkeep : ∀ {x : Py Handled}, Ensures x (fun r => r.1.Refreshed) →
      Ensures (x.map (·, env.rng)) fun r => r.1.1.Refreshed := fun hx => sat_map.mpr hx
  cases command with
  | rollDice pid => exact handleRollDice_refreshed hs _ _ _ _
  | buyProperty pid pos => exact hkeep (handleBuyProperty_refreshed hs _ _)
  | passBuy pid =>
      exact hkeep (.after fun _ _ => .after fun _ _ => .after fun _ _ => .after fun _ _ => hs)
  | endTurn pid =>
      refine hkeep (.after fun _ _ => .after fun _ _ => .after fun _ _ => .after fun _ _ => ?_)
      exact .after fun _ _ => .after fun _ _ => .after fun _ _ => hs
  | payJailFine pid =>
      refine hkeep (.after fun _ _ => .after fun player _ => .after fun _ _ => .after fun _ _ => ?_)
      exact (storePlayer_refreshed hs _).seq fun _ h => h
  | useJailCard pid =>
      refine hkeep (.after fun _ _ => .after fun player _ => .after fun _ _ => .after fun _ _ => ?_)
      exact (storePlayer_refreshed (s := returnJailCardToDeck s .chance chanceJailCard) hs _).seq
        fun _ h => h
  | buildHouse pid pos =>
      exact hkeep (.after fun _ _ => (buildHouse_refreshed s pid pos).seq fun _ h => h)
  | sellHouse pid pos =>
      exact hkeep (.after fun _ _ => (sellHouse_refreshed s pid pos).seq fun _ h => h)
  | mortgage pid pos =>
      exact hkeep (.after fun _ _ => (mortgageProperty_refreshed s pid pos).seq fun _ h => h)
  | unmortgage pid pos =>
      exact hkeep (.after fun _ _ => (unmortgageProperty_refreshed s pid pos).seq fun _ h => h)
  | proposeTrade pid target offer request =>
      exact hkeep ((proposeTrade_refreshed hs pid target offer request _ _).seq fun _ h => h)
  | respondTrade pid tradeId response counter =>
      exact hkeep ((respondTrade_refreshed hs _ _ _ _ _).seq fun _ h => h)
  | placeBid pid amount =>
      exact hkeep ((placeBid_refreshed hs pid amount).seq fun _ h => h)
  | declareBankruptcy pid =>
      refine hkeep ?_
      unfold handleDeclareBankruptcy
      cases s.bankruptcy with
      | none => trivial
      | some debt =>
          exact .after fun _ _ => (resolveBankruptcy_refreshed hs pid).seq fun _ h => h
  | surrender pid =>
      refine hkeep (.after fun _ _ => .after fun _ _ => ?_)
      exact (resolveSurrender_refreshed hs pid).seq fun _ h => h
  | turnTimeout => exact hkeep (handleTurnTimeout_refreshed hs _)
  | advanceAuction =>
      refine hkeep ?_
      simp only [sat_ite]
      exact ⟨fun _ => hs, fun _ => (resolveAuction_refreshed hs).seq fun _ h => h⟩
  | expireTrade =>
      refine hkeep ?_
      unfold expireTrade
      cases s.trade with
      | none => exact hs
      | some trade =>
          simp only [sat_ite]
          exact ⟨fun _ => hs, fun _ => hs⟩

/-- Strikes are not worth anything. -/
theorem resetStrikes_refreshed {players : List PlayerState} {spaces : List SpaceOwnership}
    {mode : GameMode} (h : Refreshed players spaces mode) (pid : PlayerId) :
    Refreshed (resetStrikes pid players) spaces mode := by
  induction players with
  | nil => exact h
  | cons p rest ih =>
      obtain ⟨hp, hrest⟩ := List.forall_mem_cons.mp h
      unfold resetStrikes
      split
      · exact List.forall_mem_cons.mpr ⟨hp, hrest⟩
      · exact List.forall_mem_cons.mpr ⟨hp, ih hrest⟩

/-- The end of a call settles a debt or refreshes the display. -/
theorem finishCommand_refreshed {m : GameState} (hm : m.Refreshed) (s : GameState)
    (command : GameCommand) (env : Env) (events : List GameEvent) :
    Ensures (finishCommand s command env m events) GameState.Refreshed := by
  have hreset : (resetActor m command).Refreshed := by
    unfold resetActor
    split
    · exact resetStrikes_refreshed hm _
    · exact hm
  have hcard : (clearActiveCard s (resetActor m command) command).Refreshed := by
    unfold clearActiveCard
    split <;> exact hreset
  unfold finishCommand
  simp only [sat_ite]
  refine ⟨fun _ => .after fun _ _ => hreset, fun _ => ?_⟩
  refine (trySettleDebt_refreshed hcard).seq fun n hn => ?_
  exact .after fun _ _ => checkWinCondition_refreshed hn

/-- An accepted call leaves no stale net worth, where there was none. -/
theorem Accepted.refreshed (h : Accepted s call s') (hs : s.Refreshed) : s'.Refreshed := by
  obtain ⟨events, rng, happly⟩ := h
  have hcall : Ensures (apply s call.command call.env) fun r => r.1.1.Refreshed := by
    refine .after fun _ _ => (dispatch_refreshed hs call.command call.env).seq fun r hr => ?_
    exact (finishCommand_refreshed hr s _ _ _).seq fun _ h => h
  exact hcall.of_ok happly

/-- A new player owns nothing and is worth the balance. -/
theorem newGame_refreshed {uuid4 : Nat → PlayerId} {args : NewGame} {rng : Rng}
    (h : newGame uuid4 args = .ok (s, rng)) : s.Refreshed := by
  intro p hp
  rw [newGame_players h] at hp
  obtain ⟨i, hi, rfl⟩ := List.mem_mapIdx.mp hp
  rfl

/-- So every cache is current in every state of a game. -/
theorem Play.refreshed (hplay : Play calls s) : s.Refreshed := by
  refine Run.invariant (I := GameState.Refreshed) ?_ (fun s call s' hs h => h.refreshed hs) hplay
  rintro s ⟨args, -, uuid4, -, rng, hnew⟩
  exact newGame_refreshed hnew

/-- Every stored net worth is the one computed from the player's balance and
positions. -/
theorem net_worth_current (hplay : Play calls s) :
    ∀ p ∈ s.players, computeNetWorth p s.spaces s.gameMode = .ok p.netWorth :=
  hplay.refreshed

/-- A purchase turns cash into property, and the cache follows. -/
theorem net_worth_current_after_purchase :
    ∃ h s, Play h s ∧ (∃ p ∈ s.players, p.ownedPositions ≠ []) ∧
      ∀ p ∈ s.players, computeNetWorth p s.spaces s.gameMode = .ok p.netWorth := by
  obtain ⟨h, s, hplay, -, hcheck⟩ := play_of_reaches (duo 1500) firstPurchase
    (fun _ s => decide (∃ p ∈ s.players, p.ownedPositions ≠ [])) (by decide) (by decide +kernel)
  exact ⟨h, s, hplay, of_decide_eq_true hcheck, net_worth_current hplay⟩

end Law

end Monopoly
