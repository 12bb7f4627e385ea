import Monopoly.Spec.Deals

/-!
# Monopoly.Spec.Queries

The queries behind `compute_actions`, on any table: a lookup of theirs may
crash but none refuses a move, and they look at the players as the rules see
them.

Every accepted call ends with `compute_actions`.  If a query could raise
`IllegalMove`, a move that its handler has accepted could still be refused by
the flags it is shown with; `Unrefused` says that a computation has no such
error, and the lemmas go through the queries one by one, down to the lookups.
The timers rely on it most: a call of theirs has no sender who could be told.

The second part is about views: the flags do not read the cached net worth or
the strikes, so they can be computed from the seats.
-/

namespace Monopoly

/-! ## no query refuses -/

section Unrefused

variable {s : GameState} {pid : PlayerId} {pos : Nat} {spaces : List SpaceOwnership}
  {mode : GameMode}

/-- A position that is not there is a `KeyError`. -/
theorem spaceIndex_unrefused : Unrefused (spaceIndex spaces pos) := .orRaise id _

/-- So it is for the record, -/
theorem spaceAt_unrefused : Unrefused (spaceAt spaces pos) :=
  spaceIndex_unrefused.bind fun _ => .pyGet _ _

/-- for writing one back, -/
theorem replaceSpace_unrefused (o : SpaceOwnership) : Unrefused (replaceSpace spaces pos o) :=
  spaceIndex_unrefused.bind fun _ => .ok _

/-- and for the board. -/
theorem getBoardSpace_unrefused : Unrefused (getBoardSpace pos mode) := .orRaise id _

/-- A player who is not there is a `KeyError` too. -/
theorem getPlayer_unrefused : Unrefused (getPlayerByIdFromState s pid) := .orRaise id _

/-- Looking through a group looks up its spaces. -/
theorem ownsAllUnmortgaged_unrefused (group : List Nat) :
    Unrefused (ownsAllUnmortgaged pid spaces group) := by
  induction group with
  | nil => exact .ok _
  | cons q rest ih => exact spaceAt_unrefused.bind fun _ => .ite (.ok _) ih

/-- Whether a group is complete is asked of its spaces. -/
theorem playerOwnsMonopoly_unrefused (p : PlayerState) (color : PropertyColor) :
    Unrefused (playerOwnsMonopoly p color spaces mode) := by
  unfold playerOwnsMonopoly
  split
  · exact .ok _
  · exact ownsAllUnmortgaged_unrefused _

/-- The levels of a group are those of its spaces. -/
theorem groupLevels_unrefused (group : List Nat) : Unrefused (groupLevels spaces group) := by
  induction group with
  | nil => exact .ok _
  | cons q rest ih => exact spaceAt_unrefused.bind fun _ => ih.bind fun _ => .ok _

/-- Whether a group is free of buildings is asked of its spaces. -/
theorem groupUnbuilt_unrefused (group : List Nat) : Unrefused (groupUnbuilt spaces group) := by
  induction group with
  | nil => exact .ok _
  | cons q rest ih => exact spaceAt_unrefused.bind fun _ => .ite (.ok _) ih

/-- The check of a building site answers yes or no; only its caller refuses. -/
theorem canBuildOn_unrefused : Unrefused (canBuildOn s pid pos) := by
  refine getPlayer_unrefused.bind fun p => spaceAt_unrefused.bind fun o => ?_
  refine .ite (.ok _) (getBoardSpace_unrefused.bind fun space => ?_)
  split
  · refine .ite (.ok _) ((playerOwnsMonopoly_unrefused _ _).bind fun _ => .ite (.ok _) ?_)
    refine (groupLevels_unrefused _).bind fun _ => ?_
    exact (Unrefused.orRaise id _).bind fun _ => .ite (.ok _) (.ite (.ok _) (.ok _))
  · exact .ok _

/-- The same for a mortgage, -/
theorem canMortgage_unrefused : Unrefused (canMortgage s pid pos) := by
  refine getPlayer_unrefused.bind fun p => spaceAt_unrefused.bind fun o => ?_
  refine .ite (.ok _) (.ite (.ok _) (getBoardSpace_unrefused.bind fun space => ?_))
  have hallows : Unrefused (groupAllowsMortgage s space) := by
    unfold groupAllowsMortgage
    split
    · exact groupUnbuilt_unrefused _
    · exact .ok _
  exact hallows.bind fun _ => .ite (.ok _) (getBoardSpace_unrefused.bind fun _ => .ok _)

/-- and for its redemption. -/
theorem canUnmortgage_unrefused : Unrefused (canUnmortgage s pid pos) := by
  refine getPlayer_unrefused.bind fun p => spaceAt_unrefused.bind fun o => ?_
  exact .ite (.ok _) (getBoardSpace_unrefused.bind fun _ => .ok _)

/-- Asking for any position refuses no more than the check. -/
theorem anyPosition_unrefused {check : Nat → Py Bool} (hcheck : ∀ q, Unrefused (check q))
    (positions : List Nat) : Unrefused (anyPosition check positions) := by
  induction positions with
  | nil => exact .ok _
  | cons q rest ih => exact (hcheck q).bind fun _ => .ite (.ok _) ih

/-- Is there anything to build on? -/
theorem hasAnyBuildable_unrefused : Unrefused (hasAnyBuildable s pid) :=
  getPlayer_unrefused.bind fun _ => anyPosition_unrefused (fun _ => canBuildOn_unrefused) _

/-- Is there anything to mortgage? -/
theorem hasAnyMortgageable_unrefused : Unrefused (hasAnyMortgageable s pid) :=
  getPlayer_unrefused.bind fun _ => anyPosition_unrefused (fun _ => canMortgage_unrefused) _

/-- Is there anything to redeem? -/
theorem hasAnyUnmortgageable_unrefused : Unrefused (hasAnyUnmortgageable s pid) :=
  getPlayer_unrefused.bind fun _ => anyPosition_unrefused (fun _ => canUnmortgage_unrefused) _

/-- So the flags are computed, or a lookup crashes. -/
theorem computeActions_unrefused : Unrefused (computeActions s pid) := by
  have hbuy : Unrefused (canBuyPending s) := by
    unfold canBuyPending
    split
    · exact .ok _
    · exact spaceAt_unrefused.bind fun _ => .ok _
  refine getPlayer_unrefused.bind fun p => ?_
  dsimp only
  split
  · split <;> exact .ok _
  · exact .ok _
  · exact .ite (.ok _) (.ok _)
  · exact .ite (.ok _) (hasAnyBuildable_unrefused.bind fun _ =>
      hasAnyMortgageable_unrefused.bind fun _ => hasAnyUnmortgageable_unrefused.bind fun _ => .ok _)
  · exact .ite (.ok _) (hbuy.bind fun _ => hasAnyBuildable_unrefused.bind fun _ =>
      hasAnyMortgageable_unrefused.bind fun _ => hasAnyUnmortgageable_unrefused.bind fun _ => .ok _)
  · exact .ite (.ok _) (.ok _)
  · exact .ite (.ok _) (hasAnyBuildable_unrefused.bind fun _ =>
      hasAnyMortgageable_unrefused.bind fun _ => hasAnyUnmortgageable_unrefused.bind fun _ => .ok _)
  · exact .ok _
  · exact .ok _

/-- The flags are put on the turn. -/
theorem withActions_unrefused (s : GameState) : Unrefused (withActions s) :=
  computeActions_unrefused.bind fun _ => .ok _

/-- The net worth is computed from lookups, -/
theorem updatePlayerNetWorth_unrefused (p : PlayerState) :
    Unrefused (updatePlayerNetWorth p spaces mode) := by
  have hworth (owned : List Nat) (total : Int) : Unrefused (addWorth spaces mode owned total) := by
    induction owned generalizing total with
    | nil => exact .ok _
    | cons q rest ih =>
        have hone : Unrefused (positionWorth spaces mode q) :=
          getBoardSpace_unrefused.bind fun _ => spaceAt_unrefused.bind fun _ => .ite (.ok _) (.ok _)
        exact hone.bind fun _ => ih _
  exact (hworth _ _).bind fun _ => .ok _

/-- for every player. -/
theorem refreshAllNetWorth_unrefused (players : List PlayerState) :
    Unrefused (refreshAllNetWorth players spaces mode) := by
  unfold refreshAllNetWorth
  induction players with
  | nil => exact .ok _
  | cons p rest ih =>
      rw [List.mapM_cons]
      exact (updatePlayerNetWorth_unrefused p).bind fun _ => ih.bind fun _ => .ok _

/-- A player is written back where they were found. -/
theorem assignPlayer_unrefused (players : List PlayerState) (p : PlayerState) :
    Unrefused (assignPlayer players pid p) :=
  (Unrefused.orRaise id _).bind fun _ => .ok _

/-- A debt that cannot be paid stays; that is no refusal. -/
theorem trySettleDebt_unrefused (s : GameState) : Unrefused (trySettleDebt s) := by
  have htransfer (debtor : PlayerId) (creditor : Option PlayerId) (amount : Int) :
      Unrefused (transferFunds s debtor creditor amount) := by
    refine (Unrefused.orRaise id _).bind fun payer => (updatePlayerNetWorth_unrefused _).bind ?_
    refine fun _ => (assignPlayer_unrefused _ _).bind fun _ => ?_
    cases creditor with
    | none => exact .ok _
    | some creditor =>
        refine (Unrefused.orRaise id _).bind fun _ => (updatePlayerNetWorth_unrefused _).bind ?_
        exact fun _ => (assignPlayer_unrefused _ _).bind fun _ => .ok _
  unfold trySettleDebt
  cases s.bankruptcy with
  | none => exact .ok _
  | some debt =>
      refine getPlayer_unrefused.bind fun debtor => .ite ?_ (.ok _)
      exact (htransfer _ _ _).bind fun _ => .ok _

/-- What follows the handler refuses nothing. -/
theorem finishCommand_unrefused (state : GameState) (command : GameCommand) (env : Env)
    (newState : GameState) (events : List GameEvent) :
    Unrefused (finishCommand state command env newState events) :=
  .ite (withActions_unrefused _) ((trySettleDebt_unrefused _).bind fun _ => withActions_unrefused _)

/-- Nor does the end of an auction. -/
theorem resolveAuction_unrefused (s : GameState) : Unrefused (resolveAuction s) := by
  have haward (auction : AuctionState) : Unrefused (awardProperty s auction) := by
    unfold awardProperty
    cases auction.highestBidderId with
    | none => exact .ok _
    | some bidder =>
        refine getPlayer_unrefused.bind fun p => spaceAt_unrefused.bind fun o => ?_
        refine (replaceSpace_unrefused _).bind fun _ => (updatePlayerNetWorth_unrefused _).bind ?_
        exact fun _ => (assignPlayer_unrefused _ _).bind fun _ => .ok _
  unfold resolveAuction
  cases s.auction with
  | none => exact .ok _
  | some auction =>
      exact (haward auction).bind fun _ => (refreshAllNetWorth_unrefused _).bind fun _ => .ok _

/-- The timer of an auction is never refused: it is early, it is due, or it
crashes. -/
theorem apply_advanceAuction_unrefused (s : GameState) (env : Env) :
    Unrefused (apply s .advanceAuction env) := by
  have hhandler : Unrefused (dispatch s .advanceAuction env) :=
    .map (.ite (.ok _) ((resolveAuction_unrefused s).bind fun _ => .ok _))
  refine Unrefused.bind (.ok ()) fun _ => hhandler.bind fun r => ?_
  exact (finishCommand_unrefused _ _ _ _ _).bind fun _ => .ok _

/-- A trade that was agreed on is carried out. -/
theorem transferOffer_unrefused (giver receiver : PlayerState) (offer : TradeOffer)
    (receiverId : PlayerId) : Unrefused (transferOffer giver receiver spaces offer receiverId) := by
  have hloop (positions given received : List Nat) (spaces : List SpaceOwnership) :
      Unrefused (transferPositions receiverId positions given received spaces) := by
    induction positions generalizing given received spaces with
    | nil => exact .ok _
    | cons q rest ih =>
        exact spaceAt_unrefused.bind fun _ => (replaceSpace_unrefused _).bind fun _ => ih _ _ _
  exact (hloop _ _ _ _).bind fun _ => .ok _

/-- A trade whose offers are covered is not refused. -/
theorem executeTrade_unrefused {trade : TradeState}
    (hoffer : validateTradeOffer s trade.proposerId trade.proposerOffer = .ok ())
    (hrequest : validateTradeOffer s trade.targetId trade.targetRequest = .ok ()) :
    Unrefused (executeTrade s trade) := by
  rw [executeTrade, hoffer, hrequest, ok_bind, ok_bind]
  refine getPlayer_unrefused.bind fun p => getPlayer_unrefused.bind fun t => ?_
  refine (Unrefused.orRaise id _).bind fun i => (Unrefused.orRaise id _).bind fun j => ?_
  refine (transferOffer_unrefused _ _ _ _).bind fun _ => (transferOffer_unrefused _ _ _ _).bind ?_
  exact fun _ => (refreshAllNetWorth_unrefused _).bind fun _ => .ok _

end Unrefused

/-! ## what the queries look at -/

/-- The state with the players as the rules see them. -/
def GameState.asSeats (s : GameState) : GameState := { s with players := s.seats }

section Views

variable {s s' : GameState} {pid : PlayerId}

/-- A lookup among the seats finds the seat of whom a lookup among the players
finds. -/
theorem getPlayer_asSeats (s : GameState) (pid : PlayerId) :
    getPlayerByIdFromState s.asSeats pid = (getPlayerByIdFromState s pid).map PlayerState.bare := by
  simp only [getPlayerByIdFromState, getPlayerById, GameState.asSeats, GameState.seats, seatsOf,
    List.find?_map]
  show orRaise ((s.players.find? fun p => decide (p.id = pid)).map PlayerState.bare) _ = _
  cases s.players.find? fun p => decide (p.id = pid) <;> rfl

/-- Who is found in the one state is found, as the rules see them, in the
other. -/
theorem getPlayer_of_seats {p : PlayerState} (h : s'.seats = s.seats)
    (hp : getPlayerByIdFromState s pid = .ok p) :
    ∃ p', getPlayerByIdFromState s' pid = .ok p' ∧ p'.bare = p.bare := by
  have hsame : getPlayerByIdFromState s'.asSeats pid = getPlayerByIdFromState s.asSeats pid := by
    rw [getPlayerByIdFromState, GameState.asSeats, h]
    rfl
  rw [getPlayer_asSeats, getPlayer_asSeats, hp] at hsame
  cases hp' : getPlayerByIdFromState s' pid with
  | error e => rw [hp'] at hsame; cases hsame
  | ok p' => rw [hp'] at hsame; exact ⟨p', rfl, Except.ok.inj hsame⟩

/-- Who may build can be read off the seats, -/
theorem canBuildOn_asSeats (s : GameState) : canBuildOn s.asSeats pid = canBuildOn s pid := by
  funext pos
  unfold canBuildOn
  rw [getPlayer_asSeats]
  cases getPlayerByIdFromState s pid <;> rfl

/-- who may mortgage, -/
theorem canMortgage_asSeats (s : GameState) : canMortgage s.asSeats pid = canMortgage s pid := by
  funext pos
  unfold canMortgage
  rw [getPlayer_asSeats]
  cases getPlayerByIdFromState s pid <;> rfl

/-- and who may redeem. -/
theorem canUnmortgage_asSeats (s : GameState) :
    canUnmortgage s.asSeats pid = canUnmortgage s pid := by
  funext pos
  unfold canUnmortgage
  rw [getPlayer_asSeats]
  cases getPlayerByIdFromState s pid <;> rfl

/-- So can all flags. -/
theorem computeActions_asSeats (s : GameState) :
    computeActions s.asSeats pid = computeActions s pid := by
  have hbuild : hasAnyBuildable s.asSeats pid = hasAnyBuildable s pid := by
    unfold hasAnyBuildable
    rw [getPlayer_asSeats, canBuildOn_asSeats]
    cases getPlayerByIdFromState s pid <;> rfl
  have hmortgage : hasAnyMortgageable s.asSeats pid = hasAnyMortgageable s pid := by
    unfold hasAnyMortgageable
    rw [getPlayer_asSeats, canMortgage_asSeats]
    cases getPlayerByIdFromState s pid <;> rfl
  have hunmortgage : hasAnyUnmortgageable s.asSeats pid = hasAnyUnmortgageable s pid := by
    unfold hasAnyUnmortgageable
    rw [getPlayer_asSeats, canUnmortgage_asSeats]
    cases getPlayerByIdFromState s pid <;> rfl
  unfold computeActions
  rw [getPlayer_asSeats, hbuild, hmortgage, hunmortgage]
  cases getPlayerByIdFromState s pid <;> rfl

/-- A refresh leaves what can be done. -/
theorem Tidied.computeActions (h : Tidied s s') :
    Monopoly.computeActions s' pid = Monopoly.computeActions s pid := by
  rw [← computeActions_asSeats s', ← computeActions_asSeats s]
  cases h with
  | @mk ps activeCard log turnDeadlineMs actionsAvailable hps =>
      have hview : ({ s with
          players := ps
          activeCard, log
          turn := { s.turn with turnDeadlineMs, actionsAvailable } } : GameState).asSeats =
          { s.asSeats with
            activeCard, log
            turn := { s.turn with turnDeadlineMs, actionsAvailable } } := by
        rw [GameState.asSeats, GameState.asSeats, ← hps]
        rfl
      rw [hview]
      rfl

/-- It matters only whether a trade is pending. -/
theorem computeActions_trade {trade : TradeState} (h : s.trade = some trade) (trade' : TradeState) :
    computeActions { s with trade := some trade' } pid = computeActions s pid := by
  have hs : s = { s with trade := some trade } := by rw [← h]
  rw [hs]
  rfl

/-- Where the refresh returns, it returns again. -/
theorem withActions_returns (h : withActions s = .ok s') (b : GameState)
    (hb : computeActions b b.turn.currentPlayerId =
      computeActions s s.turn.currentPlayerId) : ∃ b', withActions b = .ok b' := by
  unfold withActions at h ⊢
  rw [hb]
  cases hactions : computeActions s s.turn.currentPlayerId with
  | error e => rw [hactions] at h; cases h
  | ok actions => exact ⟨_, rfl⟩

end Views

end Monopoly
