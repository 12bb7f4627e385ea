import Monopoly.Spec.Table
import Monopoly.Rules.Bankruptcy

/-!
# Monopoly.Spec.Payments

The part of a game that every rule relies on (`Sound`), and what the two
payment rules do on a sound table: a charge is paid in full, or opens a
debt, or changes nothing.
-/

namespace Monopoly

/-! ## the table every rule relies on -/

/-- The table can be evaluated: player ids are distinct, every board
position has its ownership record, players stand on the board and list only
purchasable spaces, an owner is seated and lists the space, and the decks
hold only cards that exist. -/
structure Sound (s : GameState) : Prop where
  ids : (s.seats.map (·.id)).Nodup
  layout : Layout s.gameMode s.spaces
  standing : ∀ p ∈ s.seats, OnBoard s.gameMode p.position
  deeds : ∀ p ∈ s.seats, ∀ q ∈ p.ownedPositions, Purchasable s.gameMode q
  titles : ∀ o ∈ s.spaces, ∀ pid, o.ownerId = some pid →
    ∃ p ∈ s.seats, p.id = pid ∧ o.position ∈ p.ownedPositions
  decks : ∀ kind, ∀ id ∈ s.deck kind, DeckCard s.gameMode kind id

/-- The part of it that lookups and net worths need. -/
structure Laid (s : GameState) : Prop where
  ids : (s.seats.map (·.id)).Nodup
  layout : Layout s.gameMode s.spaces
  owned : ∀ p ∈ s.players, ∀ q ∈ p.ownedPositions, OnBoard s.gameMode q

/-- The seat of a player, without the display fields and the net worth. -/
def GameState.seat? (s : GameState) (pid : PlayerId) : Option PlayerState :=
  s.seats.find? fun p => decide (p.id = pid)

/-- The cash of a player. -/
def GameState.cash (s : GameState) (pid : PlayerId) : Int := (s.seat? pid).elim 0 (·.balance)

/-- The Get Out of Jail Free cards of a player. -/
def GameState.jailCards (s : GameState) (pid : PlayerId) : Int :=
  (s.seat? pid).elim 0 (·.getOutOfJailCards)

/-- The positions a player lists as owned. -/
def GameState.holdings (s : GameState) (pid : PlayerId) : List Nat :=
  (s.seat? pid).elim [] (·.ownedPositions)

/-- The id is a player's. -/
def Seated (s : GameState) (pid : PlayerId) : Prop := ∃ p ∈ s.seats, p.id = pid

section Lookup

variable {s : GameState} {p : PlayerState} {pid : PlayerId}

theorem mem_seats (hp : p ∈ s.players) : p.bare ∈ s.seats := mem_seatsOf hp

theorem exists_player (hp : p ∈ s.seats) : ∃ q ∈ s.players, q.bare = p := List.mem_map.mp hp

theorem nodup_seats (hids : (s.players.map (·.id)).Nodup) : (s.seats.map (·.id)).Nodup := by
  rw [GameState.seats, ids_seatsOf]
  exact hids

theorem Seated.player (h : Seated s pid) : ∃ p ∈ s.players, p.id = pid := by
  obtain ⟨p, hp, rfl⟩ := h
  obtain ⟨q, hq, rfl⟩ := exists_player hp
  exact ⟨q, hq, rfl⟩

theorem seated_of_mem (hp : p ∈ s.players) : Seated s p.id := ⟨p.bare, mem_seats hp, rfl⟩

theorem Sound.owned (h : Sound s) (hp : p ∈ s.players) :
    ∀ q ∈ p.ownedPositions, OnBoard s.gameMode q :=
  fun q hq => (h.deeds _ (mem_seats hp) q hq).onBoard

theorem Sound.laid (h : Sound s) : Laid s := ⟨h.ids, h.layout, fun _ hp => h.owned hp⟩

theorem Laid.playerIds (h : Laid s) : (s.players.map (·.id)).Nodup := by
  rw [← ids_seatsOf]; exact h.ids

theorem Sound.playerIds (h : Sound s) : (s.players.map (·.id)).Nodup := h.laid.playerIds

/-- Looking up a player of the game finds that very player, since ids are
distinct. -/
theorem Laid.getPlayer (h : Laid s) (hp : p ∈ s.players) :
    getPlayerByIdFromState s p.id = .ok p :=
  getPlayerById_eq h.playerIds hp

theorem Sound.getPlayer (h : Sound s) (hp : p ∈ s.players) :
    getPlayerByIdFromState s p.id = .ok p :=
  h.laid.getPlayer hp

/-- Looking up somebody who is not seated is a `KeyError`. -/
theorem getPlayer_off (h : ¬ Seated s pid) :
    getPlayerByIdFromState s pid = .error .keyError :=
  getPlayerById_off fun _ hp hid => h (hid ▸ seated_of_mem hp)

/-- The player a lookup returns. -/
theorem getPlayer_found (h : getPlayerByIdFromState s pid = .ok p) :
    p ∈ s.players ∧ p.id = pid := by
  cases hfind : s.players.find? (fun p => decide (p.id = pid)) with
  | none => simp [getPlayerByIdFromState, getPlayerById, hfind, orRaise] at h
  | some q =>
      obtain rfl : q = p := by
        simpa [getPlayerByIdFromState, getPlayerById, hfind, orRaise] using h
      exact ⟨List.mem_of_find?_eq_some hfind, by simpa using List.find?_some hfind⟩

theorem Laid.seat?_eq (h : Laid s) (hp : p ∈ s.seats) : s.seat? p.id = some p :=
  find?_key PlayerState.id h.ids hp

theorem Sound.seat?_eq (h : Sound s) (hp : p ∈ s.seats) : s.seat? p.id = some p :=
  h.laid.seat?_eq hp

/-- The cash of a seat is its balance. -/
theorem Sound.cash_seat (h : Sound s) (hp : p ∈ s.seats) : s.cash p.id = p.balance := by
  rw [GameState.cash, h.seat?_eq hp]; rfl

/-- The cash of a player is the balance of that player. -/
theorem Laid.cash_eq (h : Laid s) (hp : p ∈ s.players) : s.cash p.id = p.balance := by
  rw [GameState.cash, ← bare_id p, h.seat?_eq (mem_seats hp)]; rfl

theorem Sound.cash_eq (h : Sound s) (hp : p ∈ s.players) : s.cash p.id = p.balance :=
  h.laid.cash_eq hp

/-- The jail cards the queries count are those the player holds. -/
theorem Sound.jailCards_eq (h : Sound s) (hp : p ∈ s.players) :
    s.jailCards p.id = p.getOutOfJailCards := by
  rw [GameState.jailCards, ← bare_id p, h.seat?_eq (mem_seats hp)]; rfl

/-- The holdings the queries list are those of the seat. -/
theorem Sound.holdings_seat (h : Sound s) (hp : p ∈ s.seats) :
    s.holdings p.id = p.ownedPositions := by
  rw [GameState.holdings, h.seat?_eq hp]; rfl

/-- Whoever owns a space is seated and lists it. -/
theorem Sound.title (h : Sound s) {pos : Nat} (hpos : OnBoard s.gameMode pos)
    (howner : (ownershipAt s.spaces pos).ownerId = some pid) :
    ∃ p ∈ s.seats, p.id = pid ∧ pos ∈ p.ownedPositions := by
  obtain ⟨hmem, hp⟩ := ownershipAt_mem h.layout hpos
  have htitle := h.titles _ hmem pid howner
  rwa [hp] at htitle

/-- Whatever somebody owns can be bought: corners, taxes and card spaces have
no titles. -/
theorem Sound.title_purchasable (h : Sound s) {pos : Nat} (hpos : OnBoard s.gameMode pos)
    (howner : (ownershipAt s.spaces pos).ownerId = some pid) : Purchasable s.gameMode pos := by
  obtain ⟨p, hp, -, hmem⟩ := h.title hpos howner
  exact h.deeds p hp pos hmem

end Lookup

/-! ## transfers -/

/-- A player with `amount` less in cash. -/
def debit (amount : Int) (p : PlayerState) : PlayerState :=
  { p with balance := p.balance - amount }

/-- A player with `amount` more in cash. -/
def credit (amount : Int) (p : PlayerState) : PlayerState :=
  { p with balance := p.balance + amount }

@[simp] theorem debit_id (amount : Int) (p : PlayerState) : (debit amount p).id = p.id := rfl

@[simp] theorem credit_id (amount : Int) (p : PlayerState) : (credit amount p).id = p.id := rfl

theorem credit_zero (p : PlayerState) : credit 0 p = p := by
  simp [credit]

/-- A seat after `payer` has paid `creditor`, or the bank. -/
def transfer (payer : PlayerId) (creditor : Option PlayerId) (amount : Int) (p : PlayerState) :
    PlayerState :=
  { p with balance := p.balance - (if p.id = payer then amount else 0) +
      (if creditor = some p.id then amount else 0) }

/-- Debiting the payer and then crediting the creditor is one `transfer`, also
when the two are the same player. -/
theorem credit_debit_eq (payer creditor : PlayerId) (amount : Int) (p : PlayerState) :
    (if (if p.id = payer then debit amount p else p).id = creditor
      then credit amount (if p.id = payer then debit amount p else p)
      else (if p.id = payer then debit amount p else p)) =
      transfer payer (some creditor) amount p := by
  have hid : (if p.id = payer then debit amount p else p).id = p.id := by split <;> rfl
  have hc : (some creditor = some p.id) = (p.id = creditor) := by simp [eq_comm]
  simp only [hid, transfer, hc]
  split <;> split <;> simp [debit, credit]

/-- A debit of one seat as a transfer to the bank. -/
theorem editSeat_debit (payer : PlayerId) (amount : Int) (seats : List PlayerState) :
    editSeat payer (debit amount) seats = seats.map (transfer payer none amount) := by
  simp only [editSeat, editAt, List.map_inj_left]
  intro q _
  by_cases hq : q.id = payer <;> simp [hq, transfer, debit]

/-- The two edits of a payment between players as one map over the seats. -/
theorem editSeat_credit_debit (payer creditor : PlayerId) (amount : Int)
    (seats : List PlayerState) :
    editSeat creditor (credit amount) (editSeat payer (debit amount) seats) =
      seats.map (transfer payer (some creditor) amount) := by
  simp only [editSeat, editAt, List.map_map, List.map_inj_left, Function.comp]
  exact fun q _ => credit_debit_eq payer creditor amount q

theorem mem_editSeat {pid : PlayerId} {f : PlayerState → PlayerState} {seats : List PlayerState}
    {q : PlayerState} :
    q ∈ editSeat pid f seats ↔ ∃ p ∈ seats, (if p.id = pid then f p else p) = q :=
  mem_editAt

theorem ids_editSeat {pid : PlayerId} {f : PlayerState → PlayerState} {seats : List PlayerState}
    (hf : ∀ p, (f p).id = p.id) : (editSeat pid f seats).map (·.id) = seats.map (·.id) :=
  map_key_editAt fun x hx => by rw [hf, hx]

/-- Two edits of one seat compose. -/
theorem editSeat_editSeat (pid : PlayerId) {f g : PlayerState → PlayerState}
    {seats : List PlayerState} (hg : ∀ p, p.id = pid → (g p).id = pid) :
    editSeat pid f (editSeat pid g seats) = editSeat pid (fun p => f (g p)) seats := by
  simp only [editSeat, editAt, List.map_map]
  refine List.map_congr_left fun p _ => ?_
  by_cases hp : p.id = pid
  · simp [hp, hg]
  · simp [hp]

theorem ids_map {seats : List PlayerState} {f : PlayerState → PlayerState}
    (hid : ∀ p ∈ seats, (f p).id = p.id) : (seats.map f).map (·.id) = seats.map (·.id) := by
  rw [List.map_map]; exact List.map_congr_left hid

/-! A list of players whose seats are those of another after a change. -/

/-- A change of the seats that keeps ids keeps the list of ids. -/
theorem ids_of_seats {players players' : List PlayerState} {f : PlayerState → PlayerState}
    (h : seatsOf players' = (seatsOf players).map f) (hf : ∀ p, (f p).id = p.id) :
    players'.map (·.id) = players.map (·.id) := by
  rw [← ids_seatsOf players', h, ids_map fun p _ => hf p, ids_seatsOf]

/-- A player of the old list has a counterpart in the new one, with the changed
seat. -/
theorem exists_of_seats {players players' : List PlayerState} {f : PlayerState → PlayerState}
    (h : seatsOf players' = (seatsOf players).map f) {p : PlayerState} (hp : p ∈ players) :
    ∃ p' ∈ players', p'.bare = f p.bare := by
  have hp' : f p.bare ∈ seatsOf players' := by
    rw [h]
    exact List.mem_map_of_mem (mem_seatsOf hp)
  exact List.mem_map.mp hp'

/-- The counterpart of a player stands at the same index. -/
theorem getElem?_of_seats {players players' : List PlayerState} {f : PlayerState → PlayerState}
    (h : seatsOf players' = (seatsOf players).map f) {p : PlayerState} {i : Nat}
    (hp : players[i]? = some p) : ∃ p', players'[i]? = some p' ∧ p'.bare = f p.bare := by
  have hget : (seatsOf players')[i]? = some (f p.bare) := by
    rw [h, List.getElem?_map, seatsOf, List.getElem?_map, hp]
    rfl
  rw [seatsOf, List.getElem?_map] at hget
  exact Option.map_eq_some_iff.mp hget

/-- The seats are looked up through a change that keeps the ids. -/
theorem seat?_map {s s' : GameState} {f : PlayerState → PlayerState}
    (hseats : s'.seats = s.seats.map f) (hid : ∀ p, (f p).id = p.id) (pid : PlayerId) :
    s'.seat? pid = (s.seat? pid).map f := by
  rw [GameState.seat?, hseats, List.find?_map]
  simp only [Function.comp_def, hid]
  rfl

/-- A change of the seats that leaves the ids and the holdings alone, and
the players on the board, keeps the table sound. -/
theorem Sound.map_seats {s s' : GameState} (h : Sound s) (f : PlayerState → PlayerState)
    (hseats : s'.seats = s.seats.map f) (hmode : s'.gameMode = s.gameMode)
    (hspaces : s'.spaces = s.spaces)
    (hdecks : ∀ kind, ∀ id ∈ s'.deck kind, DeckCard s.gameMode kind id)
    (hid : ∀ p ∈ s.seats, (f p).id = p.id)
    (howned : ∀ p ∈ s.seats, (f p).ownedPositions = p.ownedPositions)
    (hpos : ∀ p ∈ s.seats, OnBoard s.gameMode (f p).position) : Sound s' where
  ids := by rw [hseats, ids_map hid]; exact h.ids
  layout := by rw [hmode, hspaces]; exact h.layout
  standing := by
    rw [hseats, hmode]; simpa using hpos
  deeds := by
    rw [hseats, hmode]
    simp only [List.mem_map, forall_exists_index, and_imp, forall_apply_eq_imp_iff₂]
    intro p hp q hq
    exact h.deeds p hp q (howned p hp ▸ hq)
  titles := by
    rw [hseats, hspaces]
    intro o ho pid hpid
    obtain ⟨p, hp, rfl, hmem⟩ := h.titles o ho pid hpid
    exact ⟨f p, List.mem_map_of_mem hp, hid p hp, by rw [howned p hp]; exact hmem⟩
  decks := by rw [hmode]; exact hdecks

/-- Storing a record in the seat of a player, with the same holdings and on
the board, keeps the table sound. -/
theorem Sound.store {s s' : GameState} (h : Sound s) {q v : PlayerState} (hq : q ∈ s.seats)
    (hseats : s'.seats = editSeat q.id (fun _ => v) s.seats) (hid : v.id = q.id)
    (howned : v.ownedPositions = q.ownedPositions) (hpos : OnBoard s.gameMode v.position)
    (hs' : s' = { s with players := s'.players }) : Sound s' := by
  refine h.map_seats (fun x => if x.id = q.id then v else x) hseats (by rw [hs']) (by rw [hs'])
    (by rw [hs']; exact h.decks) (fun x hx => ?_) (fun x hx => ?_) fun x hx => ?_
  · split
    · rename_i hx'; rw [hid, hx']
    · rfl
  · split
    · rename_i hx'; rw [eq_of_key_eq PlayerState.id h.ids hx hq hx', howned]
    · rfl
  · split
    · exact hpos
    · exact h.standing x hx

/-- Two tables that differ in the net worths at most. -/
def SameTable (a a' : GameState) : Prop :=
  a' = { a with players := a'.players } ∧ a'.seats = a.seats

/-- Soundness is a property of the table. -/
theorem SameTable.sound {a a' : GameState} (h : SameTable a a') (ha : Sound a) : Sound a' := by
  obtain ⟨heq, hseats⟩ := h
  have hmode : a'.gameMode = a.gameMode := by rw [heq]
  have hdeck : a'.deck = a.deck := by rw [heq]; rfl
  exact ha.map_seats id (by rw [hseats, List.map_id]) hmode (by rw [heq])
    (by rw [hdeck]; exact ha.decks) (fun _ _ => rfl) (fun _ _ => rfl) ha.standing

section Rules

variable {s : GameState} {pid : PlayerId} {amount : Int} {creditor : Option PlayerId}

variable (amount) in
/-- A transfer between seated players never raises. It changes the balances of
the two alone. -/
theorem transferFunds_sat (h : Sound s) (hpid : Seated s pid)
    (hc : ∀ c, creditor = some c → Seated s c) :
    Sat (fun _ => False) (transferFunds s pid creditor amount) fun s' =>
      ∃ ps, s' = { s with players := ps } ∧
        seatsOf ps = s.seats.map (transfer pid creditor amount) := by
  obtain ⟨p, hp, rfl⟩ := hpid.player
  have hget : pyNext (fun q => decide (q.id = p.id)) s.players = .ok p := by
    rw [pyNext, find?_key PlayerState.id h.playerIds hp]; rfl
  have hassign : assignPlayer s.players p.id (revalue s.spaces s.gameMode (debit amount p)) = _ :=
    assignPlayer_eq h.playerIds hp fun q => revalue s.spaces s.gameMode (debit amount q)
  have hval : updatePlayerNetWorth (debit amount p) s.spaces s.gameMode = _ :=
    updatePlayerNetWorth_eq h.layout (h.owned (p := p) hp)
  have hseats : seatsOf (editSeat p.id (fun q => revalue s.spaces s.gameMode (debit amount q))
      s.players) = editSeat p.id (debit amount) s.seats := seatsOf_editSeat fun _ => rfl
  unfold transferFunds
  simp only [hget, ok_bind]
  show Sat _ (updatePlayerNetWorth (debit amount p) s.spaces s.gameMode >>= _) _
  simp only [hval, ok_bind, hassign]
  cases creditor with
  | none =>
      exact ⟨_, rfl, hseats.trans (editSeat_debit p.id amount s.seats)⟩
  | some c =>
      obtain ⟨c, hcmem, rfl⟩ := (hc c rfl).player
      set ps := editSeat p.id (fun q => revalue s.spaces s.gameMode (debit amount q)) s.players
        with hps
      have hids : (ps.map (·.id)).Nodup := by
        rw [hps, ids_editSeat (f := fun q => revalue _ _ (debit amount q)) fun _ => rfl]
        exact h.playerIds
      obtain ⟨c', hc', hcid, hcown⟩ : ∃ c' ∈ ps, c'.id = c.id ∧
          c'.ownedPositions = c.ownedPositions := by
        refine ⟨_, mem_editSeat.mpr ⟨c, hcmem, rfl⟩, ?_⟩
        split <;> exact ⟨rfl, rfl⟩
      have hget' : pyNext (fun q => decide (q.id = c.id)) ps = .ok c' := by
        rw [← hcid, pyNext, find?_key PlayerState.id hids hc']; rfl
      have hval' : updatePlayerNetWorth (credit amount c') s.spaces s.gameMode = _ :=
        updatePlayerNetWorth_eq h.layout (by
          intro q hq
          exact h.owned hcmem q (hcown ▸ hq))
      have hassign' : assignPlayer ps c'.id (revalue s.spaces s.gameMode (credit amount c')) = _ :=
        assignPlayer_eq hids hc' fun q => revalue s.spaces s.gameMode (credit amount q)
      simp only [hget', ok_bind]
      show Sat _ (updatePlayerNetWorth (credit amount c') s.spaces s.gameMode >>= _) _
      simp only [hval', ok_bind, ← hcid, hassign', sat_pure]
      refine ⟨_, rfl, ?_⟩
      rw [seatsOf_editSeat (g := credit amount) fun _ => rfl, hseats, hcid]
      exact editSeat_credit_debit p.id c.id amount s.seats

/-- What charging `pid` can do. -/
inductive Charged (pid : PlayerId) (amount : Int) (creditor : Option PlayerId) (s : GameState) :
    GameState → Prop
  | nothing {ps : List PlayerState} : amount ≤ 0 → seatsOf ps = s.seats →
      Charged pid amount creditor s { s with players := ps }
  | paid {ps : List PlayerState} : 0 < amount → amount ≤ s.cash pid →
      seatsOf ps = s.seats.map (transfer pid creditor amount) →
      Charged pid amount creditor s { s with players := ps }
  /-- Another debt is pending already: the charge is dropped. -/
  | dropped {ps : List PlayerState} : 0 < amount → s.cash pid < amount → s.bankruptcy ≠ none →
      seatsOf ps = s.seats → Charged pid amount creditor s { s with players := ps }
  | indebted {ps : List PlayerState} : 0 < amount → s.cash pid < amount → s.bankruptcy = none →
      seatsOf ps = s.seats →
      Charged pid amount creditor s { s with
        players := ps
        bankruptcy := some { debtorId := pid, creditorId := creditor, amountOwed := amount }
        turn := { s.turn with phase := .bankruptResolution } }

/-- A charge leaves the table sound. -/
theorem Charged.sound {c : GameState} (h : Sound s) (hc : Charged pid amount creditor s c) :
    Sound c := by
  have hsame {c : GameState} (hseats : c.seats = s.seats) (hmode : c.gameMode = s.gameMode)
      (hspaces : c.spaces = s.spaces) (hdeck : c.deck = s.deck) : Sound c :=
    h.map_seats id (by rw [hseats, List.map_id]) hmode hspaces (by rw [hdeck]; exact h.decks)
      (fun _ _ => rfl) (fun _ _ => rfl) h.standing
  cases hc with
  | nothing _ hps => exact hsame hps rfl rfl rfl
  | paid _ _ hps =>
      exact h.map_seats (transfer pid creditor amount) hps rfl rfl h.decks (fun _ _ => rfl)
        (fun _ _ => rfl) h.standing
  | dropped _ _ _ hps => exact hsame hps rfl rfl rfl
  | indebted _ _ _ hps => exact hsame hps rfl rfl rfl

/-- A charge touches the turn only to open a debt. -/
theorem Charged.turn_eq {c : GameState} (hc : Charged pid amount creditor s c)
    (hb : c.bankruptcy = none) : c.turn = s.turn := by
  cases hc with
  | nothing _ _ | paid _ _ _ | dropped _ _ _ _ => rfl
  | indebted _ _ _ _ => simp at hb

/-- A charge is judged on the table alone: display fields and dice do not enter
it. -/
theorem Charged.of_sameTable {a a' c : GameState} (h : SameTable a a')
    (hc : Charged pid amount creditor a' c) : Charged pid amount creditor a c := by
  obtain ⟨heq, hseats⟩ := h
  have hcash : a'.cash pid = a.cash pid := by rw [GameState.cash, GameState.seat?, hseats]; rfl
  generalize a'.players = ps at heq
  subst heq
  cases hc with
  | nothing hle hps => exact .nothing hle (hps.trans hseats)
  | paid hpos hle hps => exact .paid hpos (hcash ▸ hle) (hseats ▸ hps)
  | dropped hpos hlt hb hps => exact .dropped hpos (hcash ▸ hlt) hb (hps.trans hseats)
  | indebted hpos hlt hb hps => exact .indebted hpos (hcash ▸ hlt) hb (hps.trans hseats)

/-- `attempt_payment` never raises on a sound table, and does one of the things
`Charged` lists. -/
theorem attemptPayment_sat (h : Sound s) (hpid : Seated s pid)
    (hc : ∀ c, creditor = some c → Seated s c) :
    Sat (fun _ => False) (attemptPayment s pid amount creditor)
      (Charged pid amount creditor s) := by
  have hpay := transferFunds_sat amount h hpid hc
  obtain ⟨p, hp, rfl⟩ := hpid.player
  have hcash := h.cash_eq hp
  simp only [attemptPayment, h.getPlayer hp, ok_bind, sat_ite, sat_pure]
  refine ⟨fun hle => .nothing hle rfl,
    fun hpos => ⟨fun hge => ?_, fun hlt => ⟨fun hb => ?_, fun hb => ?_⟩⟩⟩
  · refine hpay.imp ?_
    rintro s' ⟨ps, rfl, hps⟩
    exact .paid (by omega) (by omega) hps
  · exact .dropped (by omega) (by omega) (Option.isSome_iff_ne_none.mp hb) rfl
  · exact .indebted (by omega) (by omega) (by simpa using hb) rfl

/-- No debt is pending that its debtor could pay. -/
def Owing (s : GameState) : Prop :=
  ∀ debt, s.bankruptcy = some debt → s.cash debt.debtorId < debt.amountOwed

/-- What settling the pending debt can do. -/
inductive Settled (s : GameState) : GameState → Prop
  | free : s.bankruptcy = none → Settled s s
  | owing {debt : BankruptcyState} : s.bankruptcy = some debt →
      s.cash debt.debtorId < debt.amountOwed → Settled s s
  | paid {debt : BankruptcyState} {ps : List PlayerState} : s.bankruptcy = some debt →
      debt.amountOwed ≤ s.cash debt.debtorId →
      seatsOf ps = s.seats.map (transfer debt.debtorId debt.creditorId debt.amountOwed) →
      Settled s { s with
        players := ps
        bankruptcy := none
        turn := { s.turn with phase := .postRoll } }

/-- `try_settle_debt` never raises when the parties of the debt are seated, and
either settles it or leaves the state as it is. -/
theorem trySettleDebt_sat (h : Sound s)
    (hdebt : ∀ debt, s.bankruptcy = some debt → Seated s debt.debtorId ∧
      ∀ c, debt.creditorId = some c → Seated s c) :
    Sat (fun _ => False) (trySettleDebt s) (Settled s) := by
  unfold trySettleDebt
  cases hb : s.bankruptcy with
  | none => exact .free hb
  | some debt =>
      obtain ⟨hd, hc⟩ := hdebt debt hb
      have hpay := transferFunds_sat debt.amountOwed h hd hc
      obtain ⟨d, hmem, hid⟩ := hd.player
      have hcash := h.cash_eq hmem
      have hget := h.getPlayer hmem
      rw [hid] at hcash hget
      simp only [hget, ok_bind, sat_ite, sat_bind, sat_pure]
      refine ⟨fun hge => ?_, fun hlt => .owing hb (by omega)⟩
      rw [hid]
      refine hpay.imp ?_
      rintro s' ⟨ps, rfl, hps⟩
      exact .paid hb (by omega) hps

end Rules

end Monopoly
