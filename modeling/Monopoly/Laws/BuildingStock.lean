import Monopoly.Spec.Replay
import Monopoly.Spec.Stock

/-!
# Monopoly.Laws.BuildingStock

Houses and hotels are on the board or in the bank.  Every command keeps
their numbers but a bankruptcy to the bank, which clears the spaces of the
debtor and leaves their buildings to nobody; where a space carries houses
and a hotel at once, a sale and a surrender lose the houses too.
-/

namespace Monopoly

/-- The command takes `p` out of the game by surrender. -/
def LeavesBySurrender (s : GameState) (env : Env) (p : PlayerState) : GameCommand → Prop
  | .surrender pid => getPlayerByIdFromState s pid = .ok p
  | .turnTimeout => isTurnExpired s env.clock.nowMs = true ∧
      getPlayerByIdFromState s s.turn.currentPlayerId = .ok p ∧
      maxAfkStrikes ≤ p.afkStrikes + 1 ∧ p.isBankrupt = false
  | _ => False

/-- The space at `pos` does not carry houses beside a hotel. -/
def Proper (spaces : List SpaceOwnership) (pos : Nat) : Prop :=
  ∀ o, spaceAt spaces pos = .ok o → o.hasHotel = true → o.houses = 0

/-- The space at `pos` carries no building. -/
def Unbuilt (spaces : List SpaceOwnership) (pos : Nat) : Prop :=
  ∀ o, spaceAt spaces pos = .ok o → o.houses = 0 ∧ o.hasHotel = false

/-- No building is cleared without being returned: the debtor of a bankruptcy
to the bank has none, and a space that is sold on or surrendered has no
houses beside its hotel. -/
structure ReturnsStock (s : GameState) (call : Call) : Prop where
  sold : ∀ pid pos, call.command = .sellHouse pid pos → Proper s.spaces pos
  surrendered : ∀ p, LeavesBySurrender s call.env p call.command →
    ∀ q ∈ p.ownedPositions, Proper s.spaces q
  bankrupted : ∀ p debt, call.command = .declareBankruptcy debt.debtorId →
    s.bankruptcy = some debt → debt.creditorId = none →
    getPlayerByIdFromState s debt.debtorId = .ok p → ∀ q ∈ p.ownedPositions, Unbuilt s.spaces q

/-! ## building -/

section Building

variable {s : GameState} {pid : PlayerId} {pos : Nat}

theorem updateHolding_stock {o : SpaceOwnership} (hat : spaceAt s.spaces pos = .ok o)
    (o' : SpaceOwnership) (hpos : o'.position = o.position) (p : PlayerState) (delta : Int) :
    Ensures (updateHolding s pid p pos o' delta) fun s' =>
      (s'.bankHouses = s.bankHouses ∧ s'.bankHotels = s.bankHotels) ∧
      s'.stock.houses + o.houses = s.stock.houses + o'.houses ∧
      s'.stock.hotels + o.hasHotel.toNat = s.stock.hotels + o'.hasHotel.toNat := by
  obtain ⟨-, -, -, hap⟩ := spaceAt_found hat
  refine .after fun spaces hreplace => .after fun _ _ => .after fun _ _ => .after fun _ _ => ?_
  obtain ⟨_, hspaces, hhouses, hhotels, -⟩ :=
    replaceSpace_stock hat (hpos.trans hap) s.bankHouses s.bankHotels
  obtain rfl := Except.ok.inj (hreplace.symm.trans hspaces)
  exact ⟨⟨rfl, rfl⟩, hhouses, hhotels⟩

theorem canBuildOn_noHotel (s : GameState) (pid : PlayerId) (pos : Nat) :
    Ensures (canBuildOn s pid pos) fun b =>
      b = true → ∀ o, spaceAt s.spaces pos = .ok o → o.hasHotel = false := by
  refine .after fun player _ => .after fun ownership hat => ?_
  simp only [sat_ite, sat_pure]
  refine ⟨fun _ => by simp, fun _ => .after fun boardSpace _ => ?_⟩
  split
  · simp only [sat_ite, sat_pure]
    refine ⟨fun _ => by simp, fun hfree => ensures_iff.mpr fun b _ _ o ho => ?_⟩
    obtain rfl := Except.ok.inj (hat.symm.trans ho)
    simpa using (not_or.mp hfree).2
  · simp

theorem canSellOn_built (s : GameState) (pid : PlayerId) (pos : Nat) :
    Ensures (canSellOn s pid pos) fun b =>
      b = true → ∀ o, spaceAt s.spaces pos = .ok o → o.houses ≠ 0 ∨ o.hasHotel = true := by
  refine .after fun player _ => .after fun ownership hat => ?_
  simp only [sat_ite, sat_pure]
  refine ⟨fun _ => by simp, fun _ => .after fun boardSpace _ => ?_⟩
  split
  · simp only [sat_ite, sat_pure]
    refine ⟨fun _ => by simp, fun hbuilt => ensures_iff.mpr fun b _ _ o ho => ?_⟩
    obtain rfl := Except.ok.inj (hat.symm.trans ho)
    by_cases hhouses : ownership.houses = 0
    · exact .inr (by simpa [hhouses] using hbuilt)
    · exact .inl hhouses
  · simp

theorem buildHouse_stock (s : GameState) (pid : PlayerId) (pos : Nat) :
    KeepsStock s (buildHouse s pid pos) := by
  refine (canBuildOn_noHotel s pid pos).seq fun allowed hallowed => ?_
  refine .guard fun hyes => .after fun player _ => .after fun ownership hat => ?_
  have hhotel := hallowed (by simpa using hyes) ownership hat
  refine .after fun boardSpace _ => ?_
  simp only [sat_ite]
  constructor
  · intro hfour
    refine (updateHolding_stock hat { ownership with houses := 0, hasHotel := true } rfl _ _).seq
      fun s' hs' => ?_
    obtain ⟨⟨hbank, hbank'⟩, hhouses, hhotels⟩ := hs'
    simp only [GameState.stock, stockOf, hfour, hhotel, Bool.toNat_false, Bool.toNat_true]
      at hhouses hhotels
    refine Stock.ext ?_ ?_ <;> simp only [GameState.stock, stockOf] <;> omega
  · intro _
    refine (updateHolding_stock hat { ownership with houses := ownership.houses + 1 } rfl _ _).seq
      fun s' hs' => ?_
    obtain ⟨⟨hbank, hbank'⟩, hhouses, hhotels⟩ := hs'
    simp only [GameState.stock, stockOf] at hhouses hhotels
    refine Stock.ext ?_ ?_ <;> simp only [GameState.stock, stockOf] <;> omega

/-- A sale keeps the stock unless the space has houses beside its hotel. -/
theorem sellHouse_stock (s : GameState) (pid : PlayerId) (pos : Nat) :
    Ensures (sellHouse s pid pos) fun s' => s'.stock = s.stock ↔ Proper s.spaces pos := by
  refine (canSellOn_built s pid pos).seq fun allowed hallowed => ?_
  refine .guard fun hyes => .after fun player _ => .after fun ownership hat => ?_
  have hbuilt := hallowed (by simpa using hyes) ownership hat
  have hproper : Proper s.spaces pos ↔ (ownership.hasHotel = true → ownership.houses = 0) :=
    ⟨fun h => h ownership hat, fun h o ho => Except.ok.inj (hat.symm.trans ho) ▸ h⟩
  rw [hproper]
  refine .after fun boardSpace _ => ?_
  simp only [sat_ite]
  constructor
  · intro hhotel
    refine (updateHolding_stock hat { ownership with houses := 4, hasHotel := false } rfl _ _).seq
      fun s' hs' => ?_
    obtain ⟨⟨hbank, hbank'⟩, hhouses, hhotels⟩ := hs'
    simp only [GameState.stock, stockOf, hhotel, Bool.toNat_false, Bool.toNat_true]
      at hhouses hhotels
    simp only [sat_pure, Stock.ext_iff, GameState.stock, stockOf, hhotel, forall_const]
    omega
  · intro hnone
    refine (updateHolding_stock hat { ownership with houses := ownership.houses - 1 } rfl _ _).seq
      fun s' hs' => ?_
    obtain ⟨⟨hbank, hbank'⟩, hhouses, hhotels⟩ := hs'
    have hpos : ownership.houses ≠ 0 := hbuilt.resolve_right hnone
    have hno : ownership.hasHotel = false := by simpa using hnone
    simp only [GameState.stock, stockOf] at hhouses hhotels
    simp only [sat_pure, Stock.ext_iff, GameState.stock, stockOf, hno, Bool.false_eq_true,
      false_implies, iff_true]
    omega

/-- A mortgage, taken out or paid back, changes no building. -/
theorem updateHolding_mortgage {o : SpaceOwnership} (hat : spaceAt s.spaces pos = .ok o)
    (isMortgaged : Bool) (p : PlayerState) (delta : Int) :
    KeepsStock s (updateHolding s pid p pos { o with isMortgaged } delta) := by
  refine .after fun spaces hreplace => .after fun _ _ => .after fun _ _ => .after fun _ _ => ?_
  exact (replaceSpace_mortgage hat isMortgaged).of_ok hreplace _ _

theorem mortgageProperty_stock (s : GameState) (pid : PlayerId) (pos : Nat) :
    KeepsStock s (mortgageProperty s pid pos) := by
  refine .after fun _ _ => .after fun _ _ => .after fun player _ => .after fun boardSpace _ => ?_
  exact .after fun ownership hat => updateHolding_mortgage hat true _ _

theorem unmortgageProperty_stock (s : GameState) (pid : PlayerId) (pos : Nat) :
    KeepsStock s (unmortgageProperty s pid pos) := by
  refine .after fun _ _ => .after fun _ _ => .after fun player _ => .after fun boardSpace _ => ?_
  exact .after fun ownership hat => updateHolding_mortgage hat false _ _

end Building

/-! ## elimination -/

section Elimination

variable {s : GameState} {pid : PlayerId}

/-- Looking up another position after a space was cleared. -/
theorem forall_spaceAt_cleared {P : SpaceOwnership → Prop} {spaces spaces' : List SpaceOwnership}
    {pos : Nat} {o o' : SpaceOwnership} (hat : spaceAt spaces pos = .ok o)
    (hothers : ∀ q, spaceAt spaces' q = if q = pos then .ok o' else spaceAt spaces q)
    (hclear : P o') (rest : List Nat) :
    (P o ∧ ∀ q ∈ rest, ∀ o, spaceAt spaces' q = .ok o → P o) ↔
      ∀ q ∈ pos :: rest, ∀ o, spaceAt spaces q = .ok o → P o := by
  have hfirst : (∀ a, spaceAt spaces pos = .ok a → P a) ↔ P o :=
    ⟨fun h => h o hat, fun h a ha => Except.ok.inj (hat.symm.trans ha) ▸ h⟩
  rw [List.forall_mem_cons, hfirst]
  refine and_congr_right fun hP => forall₂_congr fun q _ => ?_
  rw [hothers]
  by_cases hq : q = pos
  · subst hq
    simp [hclear, hat, hP]
  · rw [if_neg hq]

/-- A surrender returns the buildings of the spaces it clears, houses beside
a hotel apart. -/
theorem clearSpaces_stock {positions : List Nat} {spaces : List SpaceOwnership}
    {bankHouses bankHotels : Int} :
    Ensures (clearSpaces positions spaces bankHouses bankHotels) fun r =>
      (stockOf r.1 r.2.1 r.2.2).hotels = (stockOf spaces bankHouses bankHotels).hotels ∧
      (stockOf r.1 r.2.1 r.2.2).houses ≤ (stockOf spaces bankHouses bankHotels).houses ∧
      ((stockOf r.1 r.2.1 r.2.2).houses = (stockOf spaces bankHouses bankHotels).houses ↔
        ∀ q ∈ positions, Proper spaces q) := by
  induction positions generalizing spaces bankHouses bankHotels with
  | nil => simp [clearSpaces]
  | cons pos rest ih =>
      refine .after fun o hat => ?_
      obtain ⟨-, -, -, hap⟩ := spaceAt_found hat
      set o' : SpaceOwnership :=
        { o with ownerId := none, houses := 0, hasHotel := false, isMortgaged := false }
      obtain ⟨spaces', hreplace, hhouses, hhotels, hothers⟩ :=
        replaceSpace_stock hat (show o'.position = pos from hap) bankHouses bankHotels
      have hproper := forall_spaceAt_cleared (P := fun o => o.hasHotel = true → o.houses = 0) hat
        hothers (fun _ => rfl) rest
      simp only [hreplace, ok_bind, sat_ite]
      refine ⟨fun hhotel => ih.imp fun r hr => ?_, fun hno => ih.imp fun r hr => ?_⟩
      · obtain ⟨hrhotels, hrle, hriff⟩ := hr
        have hiff := (and_congr_right fun _ => hriff).trans hproper
        simp only [stockOf, hhotel, Bool.toNat_true, o', Bool.toNat_false, forall_const] at *
        refine ⟨by omega, by omega, Iff.trans ?_ hiff⟩
        omega
      · obtain ⟨hrhotels, hrle, hriff⟩ := hr
        have hiff := (and_congr_right fun _ => hriff).trans hproper
        have hhotel : o.hasHotel = false := by simpa using hno
        simp only [stockOf, hhotel, Bool.false_eq_true, false_implies, true_and, o',
          Bool.toNat_false] at *
        refine ⟨by omega, by omega, Iff.trans ?_ hiff⟩
        omega

/-- A bankruptcy to the bank loses the buildings of the spaces it clears. -/
theorem releaseSpaces_stock {positions : List Nat} {spaces : List SpaceOwnership}
    (bankHouses bankHotels : Int) :
    Ensures (releaseSpaces positions spaces) fun r =>
      (stockOf r bankHouses bankHotels).hotels ≤ (stockOf spaces bankHouses bankHotels).hotels ∧
      (stockOf r bankHouses bankHotels).houses ≤ (stockOf spaces bankHouses bankHotels).houses ∧
      (stockOf r bankHouses bankHotels = stockOf spaces bankHouses bankHotels ↔
        ∀ q ∈ positions, Unbuilt spaces q) := by
  induction positions generalizing spaces with
  | nil => simp [releaseSpaces]
  | cons pos rest ih =>
      refine .after fun o hat => ?_
      obtain ⟨-, -, -, hap⟩ := spaceAt_found hat
      set o' : SpaceOwnership :=
        { o with ownerId := none, isMortgaged := false, houses := 0, hasHotel := false }
      obtain ⟨spaces', hreplace, hhouses, hhotels, hothers⟩ :=
        replaceSpace_stock hat (show o'.position = pos from hap) bankHouses bankHotels
      have hunbuilt := forall_spaceAt_cleared (P := fun o => o.houses = 0 ∧ o.hasHotel = false) hat
        hothers ⟨rfl, rfl⟩ rest
      simp only [hreplace, ok_bind]
      refine ih.imp fun r hr => ?_
      obtain ⟨hrhotels, hrhouses, hriff⟩ := hr
      have hiff := (and_congr_right fun _ => hriff).trans hunbuilt
      have hnone : o.hasHotel = false ↔ o.hasHotel.toNat = 0 := by cases o.hasHotel <;> simp
      simp only [Stock.ext_iff, stockOf, hnone, o', Bool.toNat_false] at *
      refine ⟨by omega, by omega, Iff.trans ?_ hiff⟩
      omega

theorem checkWinCondition_stock (s : GameState) : (checkWinCondition s).stock = s.stock := by
  unfold checkWinCondition
  split <;> rfl

theorem advanceTurnOffPlayer_stock (s : GameState) (pid : PlayerId) :
    KeepsStock s (advanceTurnOffPlayer s pid) := by
  refine .after fun start _ => .after fun next _ => ?_
  cases next <;> rfl

theorem afterElimination_stock (s : GameState) (pid : PlayerId) :
    KeepsStock s (afterElimination s pid) := by
  have hcheck := checkWinCondition_stock s
  simp only [afterElimination, sat_ite]
  refine ⟨fun _ => hcheck, fun _ => ?_⟩
  exact (advanceTurnOffPlayer_stock _ _).imp fun _ h => h.trans hcheck

/-- A surrender keeps the stock exactly when no space of the player has
houses beside a hotel. -/
theorem resolveSurrender_stock {p : PlayerState} (hp : getPlayerByIdFromState s pid = .ok p) :
    Ensures (resolveSurrender s pid) fun s' => s'.stock = s.stock ↔
      (p.isBankrupt = false → ∀ q ∈ p.ownedPositions, Proper s.spaces q) := by
  simp only [resolveSurrender, hp, ok_bind, sat_ite]
  refine ⟨fun hout => by simp [hout], fun hin => .after fun idx _ => ?_⟩
  refine clearSpaces_stock.seq fun r hr => .after fun players _ => ?_
  obtain ⟨hhotels, -, hhouses⟩ := hr
  have hkept : stockOf r.1 r.2.1 r.2.2 = s.stock ↔
      (p.isBankrupt = false → ∀ q ∈ p.ownedPositions, Proper s.spaces q) := by
    have hact : p.isBankrupt = false := by simpa using hin
    rw [hact, Stock.ext_iff]
    simp only [forall_const]
    exact ⟨fun h => hhouses.mp h.1, fun h => ⟨hhouses.mpr h, hhotels⟩⟩
  have hcleared : ∀ m : GameState, m.stock = stockOf r.1 r.2.1 r.2.2 → (m.stock = s.stock ↔
      (p.isBankrupt = false → ∀ q ∈ p.ownedPositions, Proper s.spaces q)) :=
    fun m hm => hm ▸ hkept
  simp only [sat_ite, sat_pure]
  refine ⟨fun _ => hcleared _ (checkWinCondition_stock _), fun _ => ⟨fun _ => ?_, fun _ => ?_⟩⟩
  · exact (advanceTurnOffPlayer_stock _ _).imp fun _ h =>
      hcleared _ (h.trans (checkWinCondition_stock _))
  · exact hcleared _ (checkWinCondition_stock _)

theorem transferToCreditor_stock {mode : GameMode} {creditorId : PlayerId} {positions : List Nat}
    {spaces : List SpaceOwnership} {creditor : PlayerState} :
    Ensures (transferToCreditor mode creditorId positions spaces creditor) fun r =>
      ∀ bankHouses bankHotels, stockOf r.1 bankHouses bankHotels =
        stockOf spaces bankHouses bankHotels := by
  induction positions generalizing spaces creditor with
  | nil => exact fun _ _ => rfl
  | cons pos rest ih =>
      refine .after fun ownership hat => (replaceSpace_owner hat _).seq fun spaces' hspaces => ?_
      simp only [sat_ite]
      refine ⟨fun _ => .after fun _ _ => ?_, fun _ => ?_⟩
      · exact ih.imp fun r hr bankHouses bankHotels => (hr _ _).trans (hspaces _ _)
      · exact ih.imp fun r hr bankHouses bankHotels => (hr _ _).trans (hspaces _ _)

/-- A settlement keeps the stock, unless buildings go to the bank. -/
theorem settleAssets_stock (p : PlayerState) (debt : BankruptcyState) :
    Ensures (settleAssets s p debt) fun settled =>
      stockOf settled.spaces s.bankHouses s.bankHotels = s.stock ↔
        (debt.creditorId = none → ∀ q ∈ p.ownedPositions, Unbuilt s.spaces q) := by
  unfold settleAssets
  cases debt.creditorId with
  | none =>
      refine (releaseSpaces_stock s.bankHouses s.bankHotels).seq fun spaces hspaces => ?_
      simp only [sat_pure, forall_const]
      exact hspaces.2.2
  | some creditorId =>
      refine .after fun creditor _ => transferToCreditor_stock.seq fun r hr => .after fun _ _ => ?_
      simp only [sat_pure, reduceCtorEq, false_implies, iff_true]
      exact hr _ _

/-- A declaration keeps the stock exactly when the player of a debt to the
bank has no buildings. -/
theorem handleDeclareBankruptcy_stock :
    Ensures (handleDeclareBankruptcy s pid) fun r => r.1.stock = s.stock ↔
      ∀ p debt, pid = debt.debtorId → s.bankruptcy = some debt → debt.creditorId = none →
        getPlayerByIdFromState s debt.debtorId = .ok p →
          ∀ q ∈ p.ownedPositions, Unbuilt s.spaces q := by
  unfold handleDeclareBankruptcy
  cases hdebt : s.bankruptcy with
  | none => trivial
  | some debt =>
      refine .guard fun hpid => ?_
      obtain rfl : debt.debtorId = pid := not_not.mp hpid
      refine Sat.seq (Q := _) ?_ fun m hm => hm
      simp only [resolveBankruptcy, hdebt, ne_eq, not_true_eq_false, if_false]
      refine .after fun p hp => .after fun idx _ => ?_
      refine (settleAssets_stock p debt).seq fun settled hsettled => .after fun players _ => ?_
      refine (afterElimination_stock _ _).imp fun m hm => ?_
      show m.stock = s.stock ↔ _
      rw [hm]
      refine hsettled.trans ⟨fun h p' debt' _ hdebt' hbank hp' => ?_, fun h hbank => ?_⟩
      · obtain rfl := Option.some.inj hdebt'
        obtain rfl := Except.ok.inj (hp.symm.trans hp')
        exact h hbank
      · exact h p debt rfl rfl hbank hp

/-- The player a strike was given to is found where they were. -/
theorem assignPlayer_found {players players' : List PlayerState} {p p' : PlayerState}
    (hp : getPlayerById players pid = .ok p) (hassign : assignPlayer players pid p' = .ok players')
    (hid : p'.id = p.id) : getPlayerById players' pid = .ok p' := by
  have hfound : players.find? (fun p => decide (p.id = pid)) = some p := by
    cases h : players.find? (fun p => decide (p.id = pid)) with
    | none => simp [getPlayerById, h, orRaise] at hp
    | some q => simpa [getPlayerById, h, orRaise] using hp
  have hpid : p.id = pid := by simpa using List.find?_some hfound
  cases hindex : players.findIdx? (fun p => decide (p.id = pid)) with
  | none => simp [assignPlayer, nextPlayerIdx, pyNextIdx, hindex, orRaise] at hassign
  | some i =>
      obtain rfl : players.set i p' = players' := by
        simpa [assignPlayer, nextPlayerIdx, pyNextIdx, hindex, orRaise] using hassign
      rw [getPlayerById, find?_key_set hindex (hid.trans hpid)]
      rfl

theorem handleTurnTimeout_stock (env : Env) :
    Ensures (handleTurnTimeout s env.clock.nowMs) fun r => r.1.stock = s.stock ↔
      ∀ p, LeavesBySurrender s env p .turnTimeout → ∀ q ∈ p.ownedPositions, Proper s.spaces q := by
  unfold handleTurnTimeout
  simp only [sat_ite, sat_pure]
  refine ⟨fun hidle => ?_,
    fun hdue => .after fun player hplayer => .after fun players hassign => ?_⟩
  · refine iff_of_true trivial fun p hp => ?_
    simp [hp.1] at hidle
  · have hexpired : isTurnExpired s env.clock.nowMs = true := by simpa using hdue
    have hstruck : getPlayerByIdFromState { s with players } s.turn.currentPlayerId =
        .ok { player with afkStrikes := player.afkStrikes + 1 } :=
      assignPlayer_found hplayer hassign rfl
    simp only [sat_ite]
    constructor
    · intro hmax
      refine (resolveSurrender_stock hstruck).seq fun m hm => ?_
      refine hm.trans ⟨?_, fun h hact => h player ⟨hexpired, hplayer, hmax, hact⟩⟩
      rintro h p ⟨-, hp, -, hact⟩
      obtain rfl := Except.ok.inj (hplayer.symm.trans hp)
      exact h hact
    · intro hfew
      refine (advanceTurnOffPlayer_stock _ _).seq fun m hm => ?_
      refine iff_of_true hm fun p hp => ?_
      obtain ⟨-, hp, hmax, -⟩ := hp
      obtain rfl := Except.ok.inj (hplayer.symm.trans hp)
      exact absurd hmax hfew

theorem handleSurrender_stock (env : Env) :
    Ensures (handleSurrender s pid) fun r => r.1.stock = s.stock ↔
      ∀ p, LeavesBySurrender s env p (.surrender pid) →
        ∀ q ∈ p.ownedPositions, Proper s.spaces q := by
  refine .after fun player hplayer => .guard fun hact => ?_
  refine (resolveSurrender_stock hplayer).seq fun m hm => ?_
  refine hm.trans ⟨?_, fun h _ => h player hplayer⟩
  rintro h p hp
  obtain rfl := Except.ok.inj (hplayer.symm.trans hp)
  exact h (by simpa using hact)

end Elimination

/-! ## the law -/

section Law

variable {s s' : GameState} {call : Call}

/-- The end of a call changes no building. -/
theorem finishCommand_stock (s : GameState) (command : GameCommand) (env : Env) (m : GameState)
    (events : List GameEvent) : KeepsStock m (finishCommand s command env m events) := by
  have hactions : ∀ a : GameState, KeepsStock a (withActions a) := fun _ => .after fun _ _ => rfl
  have hreset : (resetActor m command).stock = m.stock := by
    unfold resetActor
    split <;> rfl
  have hcard : (clearActiveCard s (resetActor m command) command).stock = m.stock := by
    unfold clearActiveCard
    split <;> exact hreset
  unfold finishCommand
  simp only [sat_ite]
  refine ⟨fun _ => (hactions _).imp fun _ h => h.trans hreset, fun _ => ?_⟩
  refine (trySettleDebt_stock _).seq fun n hn => (hactions _).imp fun _ h => ?_
  exact h.trans ((checkWinCondition_stock n).trans (hn.trans hcard))

theorem dispatch_stock (s : GameState) (command : GameCommand) (env : Env) :
    Ensures (dispatch s command env) fun r =>
      r.1.1.stock = s.stock ↔ ReturnsStock s ⟨command, env⟩ := by
  have hkept : ∀ {x : Py (Handled × Rng)}, (∀ p, ¬ LeavesBySurrender s env p command) →
      (∀ pid pos, command ≠ .sellHouse pid pos) → (∀ pid, command ≠ .declareBankruptcy pid) →
      Ensures x (fun r => r.1.1.stock = s.stock) →
      Ensures x fun r => r.1.1.stock = s.stock ↔ ReturnsStock s ⟨command, env⟩ := by
    intro x hstays hsells hdeclares hx
    refine hx.imp fun r hr => iff_of_true hr ⟨?_, ?_, ?_⟩
    · exact fun pid pos h => absurd h (hsells pid pos)
    · exact fun p hp => absurd hp (hstays p)
    · exact fun p debt h => absurd h (hdeclares _)
  have hkeep : ∀ {x : Py Handled}, (∀ p, ¬ LeavesBySurrender s env p command) →
      (∀ pid pos, command ≠ .sellHouse pid pos) → (∀ pid, command ≠ .declareBankruptcy pid) →
      Ensures x (fun r => r.1.stock = s.stock) →
      Ensures (x.map (·, env.rng)) fun r => r.1.1.stock = s.stock ↔ ReturnsStock s ⟨command, env⟩ :=
    fun hstays hsells hdeclares hx => hkept hstays hsells hdeclares (sat_map.mpr hx)
  cases command with
  | rollDice pid =>
      exact hkept (fun _ => id) (by simp) (by simp) (handleRollDice_stock _ _ _ _ _)
  | buyProperty pid pos =>
      exact hkeep (fun _ => id) (by simp) (by simp) (handleBuyProperty_stock _ _ _)
  | passBuy pid =>
      refine hkeep (fun _ => id) (by simp) (by simp) ?_
      exact .after fun _ _ => .after fun _ _ => .after fun _ _ => .after fun _ _ => rfl
  | endTurn pid =>
      refine hkeep (fun _ => id) (by simp) (by simp) ?_
      refine .after fun _ _ => .after fun _ _ => .after fun _ _ => .after fun _ _ => ?_
      exact .after fun _ _ => .after fun _ _ => .after fun _ _ => rfl
  | payJailFine pid =>
      exact hkeep (fun _ => id) (by simp) (by simp) (handlePayJailFine_stock _ _ _)
  | useJailCard pid =>
      exact hkeep (fun _ => id) (by simp) (by simp) (handleUseJailCard_stock _ _)
  | buildHouse pid pos =>
      refine hkeep (fun _ => id) (by simp) (by simp) (.after fun _ _ => ?_)
      exact (buildHouse_stock s pid pos).seq fun _ h => h
  | mortgage pid pos =>
      refine hkeep (fun _ => id) (by simp) (by simp) (.after fun _ _ => ?_)
      exact (mortgageProperty_stock s pid pos).seq fun _ h => h
  | unmortgage pid pos =>
      refine hkeep (fun _ => id) (by simp) (by simp) (.after fun _ _ => ?_)
      exact (unmortgageProperty_stock s pid pos).seq fun _ h => h
  | sellHouse pid pos =>
      refine sat_map.mpr (.after fun _ _ => (sellHouse_stock s pid pos).seq fun m hm => ?_)
      refine hm.trans ⟨fun h => ⟨?_, fun _ => False.elim, by simp⟩, fun h => h.sold pid pos rfl⟩
      rintro _ _ ⟨⟩
      exact h
  | proposeTrade pid target offer request =>
      exact hkeep (fun _ => id) (by simp) (by simp)
        ((proposeTrade_stock s pid target offer request _ _).seq fun _ h => h)
  | respondTrade pid tradeId response counter =>
      exact hkeep (fun _ => id) (by simp) (by simp)
        ((respondTrade_stock s pid tradeId response counter env.clock.now).seq fun _ h => h)
  | placeBid pid amount =>
      exact hkeep (fun _ => id) (by simp) (by simp) ((placeBid_stock s pid amount).seq fun _ h => h)
  | declareBankruptcy pid =>
      refine sat_map.mpr (handleDeclareBankruptcy_stock.imp fun r hr => hr.trans ?_)
      refine ⟨fun h => ⟨by simp, fun _ => False.elim, fun p debt hcommand => ?_⟩,
        fun h p debt hpid => h.bankrupted p debt (hpid ▸ rfl)⟩
      exact h p debt (GameCommand.declareBankruptcy.inj hcommand)
  | surrender pid =>
      refine sat_map.mpr ((handleSurrender_stock env).imp fun r hr => hr.trans ?_)
      exact ⟨fun h => ⟨by simp, h, by simp⟩, fun h => h.surrendered⟩
  | turnTimeout =>
      refine sat_map.mpr ((handleTurnTimeout_stock env).imp fun r hr => hr.trans ?_)
      exact ⟨fun h => ⟨by simp, h, by simp⟩, fun h => h.surrendered⟩
  | advanceAuction =>
      refine hkeep (fun _ => id) (by simp) (by simp) ?_
      simp only [sat_ite]
      exact ⟨fun _ => rfl, fun _ => (resolveAuction_stock s).seq fun _ h => h⟩
  | expireTrade =>
      refine hkeep (fun _ => id) (by simp) (by simp) ?_
      cases s.trade with
      | none => rfl
      | some trade =>
          simp only [sat_ite]
          exact ⟨fun _ => rfl, fun _ => expireTrade_stock s⟩

/-- An accepted call keeps the numbers of houses and of hotels exactly when
it clears no building without returning it. -/
theorem stock_kept_iff (h : Accepted s call s') : s'.stock = s.stock ↔ ReturnsStock s call := by
  obtain ⟨events, rng, happly⟩ := h
  have hcall : Ensures (apply s call.command call.env) fun r =>
      r.1.1.stock = s.stock ↔ ReturnsStock s call := by
    refine .after fun _ _ => (dispatch_stock s call.command call.env).seq fun r hr => ?_
    refine (finishCommand_stock _ _ _ _ _).seq fun m hm => ?_
    show m.stock = s.stock ↔ _
    rw [hm]
    exact hr
  exact hcall.of_ok happly

/-- Player `1` buys both brown streets of the duel board, builds a house,
gives most of the cash away and owes a tax that is more than the rest. -/
def houseAndTax : List Call :=
  [callAt 0 [0] (.rollDice 1),
    callAt 0 [] (.buyProperty 1 2),
    callAt 0 [] (.endTurn 1),
    callAt 0 [5] (.rollDice 2),
    callAt 0 [] (.endTurn 2),
    callAt 0 [1] (.rollDice 1),
    callAt 0 [] (.buyProperty 1 4),
    callAt 0 [] (.buildHouse 1 2),
    callAt 0 [] (.proposeTrade 1 2 { money := 750 } {}),
    callAt 0 [] (.respondTrade 2 7 .accept none),
    callAt 0 [] (.endTurn 1),
    callAt 0 [5] (.rollDice 2),
    callAt 0 [] (.endTurn 2),
    callAt 0 [0] (.rollDice 1),
    callAt 0 [] (.declareBankruptcy 1)]

/-- The house is taken from the bank. -/
theorem stock_kept_building :
    ∃ h s s', Play h s ∧ Accepted s (callAt 0 [] (.buildHouse 1 2)) s' ∧ s'.stock = s.stock := by
  obtain ⟨h, s, hplay, -, hcheck⟩ := play_of_reaches duel houseAndTax
    (fun h _ => h.any fun t => decide (t.label = callAt 0 [] (.buildHouse 1 2)))
    (by decide) (by decide +kernel)
  obtain ⟨t, ht, hlabel⟩ := List.any_eq_true.mp hcheck
  obtain ⟨earlier, hbefore⟩ := hplay.reached_of_mem ht
  have haccepted : Accepted t.before (callAt 0 [] (.buildHouse 1 2)) t.after :=
    of_decide_eq_true hlabel ▸ hplay.step_of_mem ht
  refine ⟨_, _, _, hbefore, haccepted, (stock_kept_iff haccepted).mpr ⟨?_, ?_, ?_⟩⟩
  · simp [callAt]
  · simp [callAt, LeavesBySurrender]
  · simp [callAt]

/-- The house is gone after the bankruptcy: it is neither on the board nor in
the bank. -/
theorem bankruptcy_to_bank_loses_house :
    ∃ h s s', Play h s ∧
      (∀ p ∈ s.players, ∀ o ∈ s.spaces, o.ownerId = some p.id ↔ o.position ∈ p.ownedPositions) ∧
      Accepted s (callAt 0 [] (.declareBankruptcy 1)) s' ∧
      s.stock = ⟨32, 12⟩ ∧ s'.stock = ⟨31, 12⟩ := by
  obtain ⟨h, s, hplay, -, hcheck⟩ := play_of_reaches duel houseAndTax
    (fun h _ => h.any fun t => decide (t.label = callAt 0 [] (.declareBankruptcy 1) ∧
      (∀ p ∈ t.before.players, ∀ o ∈ t.before.spaces,
        o.ownerId = some p.id ↔ o.position ∈ p.ownedPositions) ∧
      t.before.stock = ⟨32, 12⟩ ∧ t.after.stock = ⟨31, 12⟩))
    (by decide) (by decide +kernel)
  obtain ⟨t, ht, hfacts⟩ := List.any_eq_true.mp hcheck
  obtain ⟨hlabel, hagree, hbefore, hafter⟩ := of_decide_eq_true hfacts
  obtain ⟨earlier, hplay'⟩ := hplay.reached_of_mem ht
  exact ⟨_, _, _, hplay', hagree, hlabel ▸ hplay.step_of_mem ht, hbefore, hafter⟩

end Law

end Monopoly
