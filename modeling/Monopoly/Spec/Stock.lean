import Mathlib.Algebra.BigOperators.Group.List.Basic
import Mathlib.Algebra.GroupWithZero.Nat
import Monopoly.Spec.Roster

/-!
# Monopoly.Spec.Stock

The houses and hotels of a game, on the board and in the bank, and the
operations that leave them as they are.  Nothing is assumed of the state
here: the lookups find the first record of a position or of a player.

A building never appears or disappears by itself: it is on a space or in the
bank.  So the sum of the two (`stockOf`) is what a roll, a purchase, an
auction or a trade leaves alone, even though each of them may change owners
and mortgages of spaces.  The sum speaks of a list of records, so the lemmas
about the list come first: what replacing one record does to a sum and to a
count.  The operations that build and sell are in `Laws.BuildingStock`.
-/

namespace Monopoly

/-- The houses and hotels of a game. -/
@[ext]
structure Stock where
  houses : Int
  hotels : Int
  deriving DecidableEq

/-- What stands on the spaces and what the bank has, together. -/
def stockOf (spaces : List SpaceOwnership) (bankHouses bankHotels : Int) : Stock where
  houses := (spaces.map (·.houses)).sum + bankHouses
  hotels := spaces.countP (·.hasHotel) + bankHotels

/-- The buildings of a state. -/
def GameState.stock (s : GameState) : Stock := stockOf s.spaces s.bankHouses s.bankHotels

/-! ## replacing a space -/

section Spaces

variable {spaces : List SpaceOwnership} {pos : Nat} {o o' : SpaceOwnership}

/-- Replacing an entry changes the sum by the difference of the two; -/
theorem sum_map_set {α : Type} {f : α → Nat} {xs : List α} {i : Nat} {a : α}
    (h : xs[i]? = some a) (b : α) : ((xs.set i b).map f).sum + f a = (xs.map f).sum + f b := by
  induction xs generalizing i with
  | nil => simp at h
  | cons x rest ih =>
      cases i with
      | zero =>
          obtain rfl : x = a := by simpa using h
          simp only [List.set_cons_zero, List.map_cons, List.sum_cons]
          omega
      | succ i =>
          have hrest := ih (i := i) (by simpa using h)
          simp only [List.set_cons_succ, List.map_cons, List.sum_cons]
          omega

/-- and a count by whether they are counted. -/
theorem countP_set_add {α : Type} {p : α → Bool} {xs : List α} {i : Nat} {a : α}
    (h : xs[i]? = some a) (b : α) :
    (xs.set i b).countP p + (p a).toNat = xs.countP p + (p b).toNat := by
  induction xs generalizing i with
  | nil => simp at h
  | cons x rest ih =>
      cases i with
      | zero =>
          obtain rfl : x = a := by simpa using h
          cases hx : p x <;> cases hb : p b <;> simp [hx, hb]
      | succ i =>
          have hrest := ih (i := i) (by simpa using h)
          cases hx : p x <;> simp [hx] <;> omega

/-- An index that is found is that of a record of the position. -/
theorem spaceIndex_found {i : Nat} (h : spaceIndex spaces pos = .ok i) :
    ∃ o, spaces[i]? = some o ∧ o.position = pos := by
  cases hfind : spaces.findIdx? (fun o => decide (o.position = pos)) with
  | none => simp [spaceIndex, hfind, orRaise] at h
  | some j =>
      obtain rfl : j = i := by simpa [spaceIndex, hfind, orRaise] using h
      exact findIdx?_key_get hfind

/-- A record that is found is the one at that index. -/
theorem spaceAt_found (h : spaceAt spaces pos = .ok o) :
    ∃ i, spaceIndex spaces pos = .ok i ∧ spaces[i]? = some o ∧ o.position = pos := by
  cases hindex : spaceIndex spaces pos with
  | error e => simp [spaceAt, hindex] at h
  | ok i =>
      obtain ⟨a, ha, hpos⟩ := spaceIndex_found hindex
      obtain rfl : a = o := by simpa [spaceAt, hindex, pyGet, ha, orRaise] using h
      exact ⟨i, rfl, ha, hpos⟩

/-- Where a position is found, the record there is replaced, and only it. -/
theorem replaceSpace_at (hat : spaceAt spaces pos = .ok o) (hpos : o'.position = pos) :
    ∃ i, replaceSpace spaces pos o' = .ok (spaces.set i o') ∧ spaces[i]? = some o ∧
      ∀ q, spaceAt (spaces.set i o') q = if q = pos then .ok o' else spaceAt spaces q := by
  obtain ⟨i, hi, ha, hap⟩ := spaceAt_found hat
  have hlt : i < spaces.length := (List.getElem?_eq_some_iff.mp ha).1
  refine ⟨i, by simp [replaceSpace, hi], ha, fun q => ?_⟩
  have hsame : spaceIndex (spaces.set i o') q = spaceIndex spaces q := by
    rw [spaceIndex, findIdx?_key_set ha (hpos.trans hap.symm), spaceIndex]
  by_cases hq : q = pos
  · subst hq
    simp [spaceAt, hsame, hi, pyGet, hlt, orRaise]
  · simp only [spaceAt, hsame, if_neg hq]
    cases hj : spaceIndex spaces q with
    | error e => rfl
    | ok j =>
        have hne : i ≠ j := by
          rintro rfl
          obtain ⟨b, hb, hbq⟩ := spaceIndex_found hj
          obtain rfl := Option.some.inj (ha.symm.trans hb)
          exact hq (hbq.symm.trans hap)
        simp [pyGet, List.getElem?_set, hne]

/-- The buildings of the space that is replaced are put in place of the old
ones. -/
theorem replaceSpace_stock (hat : spaceAt spaces pos = .ok o) (hpos : o'.position = pos)
    (bankHouses bankHotels : Int) : ∃ spaces', replaceSpace spaces pos o' = .ok spaces' ∧
      (stockOf spaces' bankHouses bankHotels).houses + o.houses =
        (stockOf spaces bankHouses bankHotels).houses + o'.houses ∧
      (stockOf spaces' bankHouses bankHotels).hotels + o.hasHotel.toNat =
        (stockOf spaces bankHouses bankHotels).hotels + o'.hasHotel.toNat ∧
      ∀ q, spaceAt spaces' q = if q = pos then .ok o' else spaceAt spaces q := by
  obtain ⟨i, hreplace, hi, hothers⟩ := replaceSpace_at hat hpos
  have hhouses : ((spaces.set i o').map (·.houses)).sum + o.houses =
      (spaces.map (·.houses)).sum + o'.houses := sum_map_set hi o'
  have hhotels : (spaces.set i o').countP (·.hasHotel) + o.hasHotel.toNat =
      spaces.countP (·.hasHotel) + o'.hasHotel.toNat := countP_set_add hi o'
  refine ⟨_, hreplace, ?_, ?_, hothers⟩
  · simp only [stockOf]
    omega
  · simp only [stockOf]
    omega

/-- A record is replaced that has the same buildings. -/
theorem replaceSpace_same (hat : spaceAt spaces pos = .ok o) (hpos : o'.position = o.position)
    (hhouses : o'.houses = o.houses) (hhotel : o'.hasHotel = o.hasHotel) :
    Ensures (replaceSpace spaces pos o') fun spaces' =>
      ∀ bankHouses bankHotels, stockOf spaces' bankHouses bankHotels =
        stockOf spaces bankHouses bankHotels := by
  obtain ⟨-, -, -, hap⟩ := spaceAt_found hat
  refine ensures_iff.mpr fun spaces' hreplace bankHouses bankHotels => ?_
  obtain ⟨_, hspaces, hh, ht, -⟩ :=
    replaceSpace_stock hat (hpos.trans hap) bankHouses bankHotels
  obtain rfl := Except.ok.inj (hreplace.symm.trans hspaces)
  rw [hhouses] at hh
  rw [hhotel] at ht
  exact Stock.ext (by omega) (by omega)

/-- A space changes hands with what stands on it. -/
theorem replaceSpace_owner (hat : spaceAt spaces pos = .ok o) (owner : Option PlayerId) :
    Ensures (replaceSpace spaces pos { o with ownerId := owner }) fun spaces' =>
      ∀ bankHouses bankHotels, stockOf spaces' bankHouses bankHotels =
        stockOf spaces bankHouses bankHotels :=
  replaceSpace_same hat rfl rfl rfl

/-- A mortgage does not touch what stands on a space. -/
theorem replaceSpace_mortgage (hat : spaceAt spaces pos = .ok o) (isMortgaged : Bool) :
    Ensures (replaceSpace spaces pos { o with isMortgaged }) fun spaces' =>
      ∀ bankHouses bankHotels, stockOf spaces' bankHouses bankHotels =
        stockOf spaces bankHouses bankHotels :=
  replaceSpace_same hat rfl rfl rfl

end Spaces

/-! ## charges and rolls -/

/-- Whatever state is returned has the houses and hotels of `s`. -/
abbrev KeepsStock (s : GameState) (x : Py GameState) : Prop :=
  Ensures x fun s' => s'.stock = s.stock

section Keeps

variable {s : GameState} {p : PlayerState} {pid : PlayerId}

/-- A charge writes the players, the debt and the phase. -/
inductive Billed (s : GameState) : GameState → Prop
  | mk (players : List PlayerState) (bankruptcy : Option BankruptcyState) (phase : TurnPhase) :
      Billed s { s with players, bankruptcy, turn := { s.turn with phase } }

/-- A payment writes players and nothing else. -/
theorem transferFunds_billed (s : GameState) (pid : PlayerId) (creditor : Option PlayerId)
    (amount : Int) : Ensures (transferFunds s pid creditor amount) fun s' =>
      ∃ players, s' = { s with players } := by
  refine .after fun payer _ => .after fun paid _ => .after fun players _ => ?_
  cases creditor with
  | none => exact ⟨players, rfl⟩
  | some c => exact .after fun _ _ => .after fun _ _ => .after fun players' _ => ⟨players', rfl⟩

/-- A charge is paid, opens a debt, or is dropped. -/
theorem attemptPayment_billed (s : GameState) (pid : PlayerId) (amount : Int)
    (creditor : Option PlayerId) : Ensures (attemptPayment s pid amount creditor) (Billed s) := by
  unfold attemptPayment
  simp only [sat_ite]
  refine ⟨fun _ => .mk _ _ _, fun _ => .after fun payer _ => ?_⟩
  simp only [sat_ite]
  refine ⟨fun _ => (transferFunds_billed s pid creditor amount).imp ?_,
    fun _ => ⟨fun _ => .mk _ _ _, fun _ => .mk _ _ _⟩⟩
  rintro _ ⟨players, rfl⟩
  exact .mk players _ _

/-- A debt is settled, or stays. -/
theorem trySettleDebt_billed (s : GameState) : Ensures (trySettleDebt s) (Billed s) := by
  unfold trySettleDebt
  cases s.bankruptcy with
  | none => exact .mk _ _ _
  | some debt =>
      refine .after fun debtor _ => ?_
      split
      · refine (transferFunds_billed s debtor.id debt.creditorId debt.amountOwed).seq ?_
        rintro _ ⟨players, rfl⟩
        exact .mk players _ _
      · exact .mk _ _ _

/-- None of this is about buildings. -/
theorem Billed.stock {s s' : GameState} (h : Billed s s') : s'.stock = s.stock := by
  cases h
  rfl

/-- So the end of a call leaves the buildings alone, -/
theorem trySettleDebt_stock (s : GameState) : KeepsStock s (trySettleDebt s) :=
  (trySettleDebt_billed s).imp fun _ h => h.stock

/-- and so does writing back a player. -/
theorem storePlayer_stock (s : GameState) (p : PlayerState) : KeepsStock s (storePlayer s p) :=
  .after fun _ _ => .after fun _ _ => rfl

/-- The buildings belong to the ground of a state. -/
theorem stock_of_ground {s s' : GameState} (h : s'.ground = s.ground) : s'.stock = s.stock :=
  congrArg (fun x : Ground => stockOf x.spaces x.bankHouses x.bankHotels) h

/-- A roll keeps the ground, and so the buildings. -/
theorem handleRollDice_stock (s : GameState) (pid : PlayerId) (rng : Rng)
    (goSalary jailFine : Int) :
    Ensures (handleRollDice s pid rng goSalary jailFine) fun r => r.1.1.stock = s.stock :=
  (handleRollDice_ground s pid rng goSalary jailFine).imp fun _ h => stock_of_ground h

/-! ## purchases, auctions and trades -/

/-- The bail goes from a player to the bank. -/
theorem handlePayJailFine_stock (s : GameState) (pid : PlayerId) (jailFine : Int) :
    Ensures (handlePayJailFine s pid jailFine) fun r => r.1.stock = s.stock := by
  refine .after fun _ _ => .after fun player _ => .after fun _ _ => .after fun _ _ => ?_
  exact (storePlayer_stock s _).seq fun _ h => h

/-- A jail card goes back to its deck. -/
theorem handleUseJailCard_stock (s : GameState) (pid : PlayerId) :
    Ensures (handleUseJailCard s pid) fun r => r.1.stock = s.stock := by
  refine .after fun _ _ => .after fun player _ => .after fun _ _ => .after fun _ _ => ?_
  exact (storePlayer_stock _ _).seq fun _ h => h

/-- A space is sold as it is. -/
theorem handleBuyProperty_stock (s : GameState) (pid : PlayerId) (pos : Nat) :
    Ensures (handleBuyProperty s pid pos) fun r => r.1.stock = s.stock := by
  refine .after fun _ _ => .after fun _ _ => .after fun _ _ => .after fun _ _ => ?_
  refine .after fun ownership hat => .after fun _ _ => .after fun player _ => ?_
  refine .after fun boardSpace _ => .after fun price _ => .after fun _ _ => ?_
  refine (replaceSpace_owner hat _).seq fun spaces hspaces => ?_
  exact .after fun _ _ => .after fun _ _ => hspaces _ _

/-- So is one that is auctioned. -/
theorem resolveAuction_stock (s : GameState) : KeepsStock s (resolveAuction s) := by
  unfold resolveAuction
  cases s.auction with
  | none => rfl
  | some auction =>
      have haward : Ensures (awardProperty s auction) fun r =>
          ∀ bankHouses bankHotels, stockOf r.2 bankHouses bankHotels =
            stockOf s.spaces bankHouses bankHotels := by
        unfold awardProperty
        cases auction.highestBidderId with
        | none => exact fun _ _ => rfl
        | some bidder =>
            refine .after fun player _ => .after fun ownership hat => ?_
            refine (replaceSpace_owner hat _).seq fun spaces hspaces => ?_
            exact .after fun _ _ => .after fun _ _ => hspaces
      exact haward.seq fun r hr => .after fun _ _ => hr _ _

/-- Spaces are conveyed as they are, -/
theorem transferPositions_stock (receiver : PlayerId)
    {positions giverOwned receiverOwned : List Nat} {spaces : List SpaceOwnership} :
    Ensures (transferPositions receiver positions giverOwned receiverOwned spaces) fun r =>
      ∀ bankHouses bankHotels, stockOf r.2.2 bankHouses bankHotels =
        stockOf spaces bankHouses bankHotels := by
  induction positions generalizing giverOwned receiverOwned spaces with
  | nil => exact fun _ _ => rfl
  | cons pos rest ih =>
      refine .after fun ownership hat => ?_
      refine (replaceSpace_owner hat _).seq fun spaces' hspaces => ?_
      exact ih.imp fun r hr bankHouses bankHotels => (hr _ _).trans (hspaces _ _)

/-- in both directions of a trade. -/
theorem executeTrade_stock (s : GameState) (trade : TradeState) :
    KeepsStock s (executeTrade s trade) := by
  have hoffer : ∀ giver receiver spaces offer receiverId,
      Ensures (transferOffer giver receiver spaces offer receiverId) fun r =>
        ∀ bankHouses bankHotels, stockOf r.2.2 bankHouses bankHotels =
          stockOf spaces bankHouses bankHotels :=
    fun _ _ _ _ receiverId => (transferPositions_stock receiverId).seq fun _ h => h
  refine .after fun _ _ => .after fun _ _ => .after fun _ _ => .after fun _ _ => ?_
  refine .after fun _ _ => .after fun _ _ => ?_
  refine (hoffer _ _ _ _ _).seq fun offered h₁ => (hoffer _ _ _ _ _).seq fun requested h₂ => ?_
  exact .after fun _ _ => (h₂ _ _).trans (h₁ _ _)

/-- An answer carries the trade out, or moves nothing. -/
theorem respondTrade_stock (s : GameState) (pid : PlayerId) (tradeId : Nat)
    (response : TradeResponse) (counterOffer : Option TradeOffer) (now : Int) :
    KeepsStock s (respondTrade s pid tradeId response counterOffer now) := by
  unfold respondTrade
  cases s.trade with
  | none => trivial
  | some trade =>
      refine .after fun _ _ => ?_
      cases response with
      | reject => rfl
      | accept => exact .after fun _ _ => executeTrade_stock s trade
      | counter =>
          cases counterOffer with
          | none => trivial
          | some counter => exact .after fun _ _ => .after fun _ _ => rfl

/-- An offer is put on the table. -/
theorem proposeTrade_stock (s : GameState) (pid target : PlayerId) (offer request : TradeOffer)
    (now : Int) (tradeId : Nat) :
    KeepsStock s (proposeTrade s pid target offer request now tradeId) := by
  refine .after fun _ _ => .after fun _ _ => .after fun _ _ => .after fun _ _ => ?_
  exact .after fun _ _ => .after fun _ _ => rfl

/-- A bid is added to the auction. -/
theorem placeBid_stock (s : GameState) (pid : PlayerId) (amount : Int) :
    KeepsStock s (placeBid s pid amount) := by
  unfold placeBid
  cases s.auction with
  | none => trivial
  | some auction =>
      exact .after fun _ _ => .after fun _ _ => .after fun _ _ => .after fun _ _ => rfl

/-- An offer is taken off the table. -/
theorem expireTrade_stock (s : GameState) : (expireTrade s).stock = s.stock := by
  unfold expireTrade
  cases s.trade <;> rfl

end Keeps

end Monopoly
