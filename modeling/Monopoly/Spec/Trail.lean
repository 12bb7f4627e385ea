import Monopoly.Lib.Path
import Monopoly.Spec.Accounts

/-!
# Monopoly.Spec.Trail

Where the events of a roll lead.  The events of a landing are a path of the
player over the board, to the space where the player is afterwards; the
state is written apart from the events, so the two are followed together.
Nothing but distinct ids is assumed of the table.
-/

namespace Monopoly

/-! ## following the events -/

/-- Where a player is, and whether they were sent to jail on the way. -/
structure Spot where
  position : Nat
  jailed : Bool
  deriving DecidableEq

/-- What an event says about the whereabouts of `r`. -/
inductive EventStep (mode : GameMode) (r : PlayerId) : Spot → GameEvent → Spot → Prop
  | moved {name : String} {token : TokenColor} {fromPosition toPosition diceTotal : Nat}
      {reason : MoveReason} :
      EventStep mode r ⟨fromPosition, false⟩
        (.playerMoved r name token fromPosition toPosition diceTotal reason) ⟨toPosition, false⟩
  | jailed {pos : Nat} {name : String} {reason : JailReason} :
      EventStep mode r ⟨pos, false⟩ (.sentToJail r name reason)
        ⟨(getGameConfig mode).jailPosition, true⟩
  | drew {x : Spot} {name : String} {card : CardDef} :
      getCard card.id = .ok card → EventStep mode r x (.cardDrawn r name card.id card.kind) x
  | passedGo {x : Spot} {name : String} {amount : Int} :
      EventStep mode r x (.passedGo r name amount) x
  | rolledDoubles {x : Spot} {name : String} {streak : Nat} :
      EventStep mode r x (.rolledDoubles r name streak) x
  | taxed {x : Spot} {name : String} {position : Nat} {amount : Int} :
      EventStep mode r x (.taxPaid r name position amount) x
  | rented {x : Spot} {name ownerName property : String} {owner : PlayerId} {position : Nat}
      {amount : Int} :
      EventStep mode r x (.rentPaid r name owner ownerName position property amount) x

/-- The way of `r` by the events. -/
abbrev Trail (mode : GameMode) (r : PlayerId) : Spot → List GameEvent → Spot → Prop :=
  Path (EventStep mode r)

/-- The event of a player sent to jail. -/
def GameEvent.isSentToJail : GameEvent → Bool
  | .sentToJail .. => true
  | _ => false

section Trails

variable {mode : GameMode} {r : PlayerId} {x y : Spot} {events : List GameEvent}

/-- Nobody comes out of jail on the way, and jail is where it leads. -/
theorem Trail.of_jailed (h : Trail mode r x events y) (hx : x.jailed = true) :
    y = x ∧ ∀ e ∈ events, e.isSentToJail = false := by
  induction h with
  | nil => exact ⟨rfl, by simp⟩
  | cons hstep _ ih =>
      cases hstep with
      | moved | jailed => cases hx
      | drew _ | passedGo | rolledDoubles | taxed | rented =>
          obtain ⟨hy, hevents⟩ := ih hx
          exact ⟨hy, List.forall_mem_cons.mpr ⟨rfl, hevents⟩⟩

/-- A player is sent to jail at most once, and then is there. -/
theorem Trail.jailed_count {pos : Nat} (h : Trail mode r ⟨pos, false⟩ events y) :
    events.countP GameEvent.isSentToJail = (if y.jailed then 1 else 0) ∧
      (y.jailed = true → y.position = (getGameConfig mode).jailPosition) := by
  induction events generalizing pos with
  | nil =>
      obtain rfl := Path.nil_iff.mp h
      exact ⟨rfl, fun hj => nomatch hj⟩
  | cons e events ih =>
      obtain ⟨x, hstep, hrest⟩ := Path.cons_iff.mp h
      cases hstep with
      | moved => exact ih hrest
      | drew _ | passedGo | rolledDoubles | taxed | rented => exact ih hrest
      | jailed =>
          obtain ⟨rfl, hnone⟩ := Trail.of_jailed hrest rfl
          have hzero : events.countP GameEvent.isSentToJail = 0 :=
            List.countP_eq_zero.mpr fun e he => by simp [hnone e he]
          exact ⟨by rw [List.countP_cons, hzero]; rfl, fun _ => rfl⟩

end Trails

/-! ## the pieces on the board -/

/-- A player as the board shows them: without the money and the holdings. -/
def PlayerState.piece (p : PlayerState) : PlayerState :=
  { p.bare with balance := 0, ownedPositions := [], getOutOfJailCards := 0 }

/-- Who stands where, and who is in jail. -/
def piecesOf (players : List PlayerState) : List PlayerState := players.map PlayerState.piece

/-- The pieces on the board of a state. -/
def GameState.pieces (s : GameState) : List PlayerState := piecesOf s.players

/-- The table has the player's piece where the record has it. -/
structure OnTable (s : GameState) (p : PlayerState) : Prop where
  ids : (s.players.map (·.id)).Nodup
  piece : p.piece ∈ s.pieces

/-- The piece of `v` was put down as in `v`; the others, and the turn, are as
they were. -/
structure Put (v : PlayerState) (s s' : GameState) : Prop where
  pieces : s'.pieces = editSeat v.id (fun _ => v.piece) s.pieces
  turn : s'.turn = s.turn
  bankruptcy : s'.bankruptcy = s.bankruptcy
  gameMode : s'.gameMode = s.gameMode

section Pieces

variable {s s₁ s' : GameState} {p q v : PlayerState} {players : List PlayerState}
  {spaces : List SpaceOwnership} {mode : GameMode}

@[simp] theorem piece_id (p : PlayerState) : p.piece.id = p.id := rfl

@[simp] theorem piece_position (p : PlayerState) : p.piece.position = p.position := rfl

theorem piece_eq_of_bare (h : q.bare = p.bare) : q.piece = p.piece := by
  show q.bare.piece = p.bare.piece
  rw [h]

theorem id_eq_of_piece (h : q.piece = p.piece) : q.id = p.id := by
  rw [← piece_id q, h, piece_id]

theorem piecesOf_seatsOf (players : List PlayerState) :
    piecesOf (seatsOf players) = piecesOf players := by
  simp only [piecesOf, seatsOf, List.map_map]
  rfl

theorem piecesOf_congr {players' : List PlayerState} (h : seatsOf players' = seatsOf players) :
    piecesOf players' = piecesOf players := by
  rw [← piecesOf_seatsOf, h, piecesOf_seatsOf]

theorem ids_pieces (s : GameState) : s.pieces.map (·.id) = s.players.map (·.id) := by
  simp [GameState.pieces, piecesOf]

/-- A player of the list is on the table, ids being distinct. -/
theorem onTable_of_mem (hids : (s.players.map (·.id)).Nodup) (hp : p ∈ s.players) : OnTable s p :=
  ⟨hids, List.mem_map_of_mem hp⟩

theorem OnTable.nodup (h : OnTable s p) : (s.pieces.map (·.id)).Nodup := by
  rw [ids_pieces]
  exact h.ids

theorem OnTable.congr (h : OnTable s p) (hpieces : s'.pieces = s.pieces) : OnTable s' p := by
  refine ⟨?_, hpieces ▸ h.piece⟩
  rw [← ids_pieces, hpieces]
  exact h.nodup

/-- The piece that is found under the id is the player's. -/
theorem OnTable.found (h : OnTable s p) (hq : getPlayerByIdFromState s p.id = .ok q) :
    q.piece = p.piece := by
  obtain ⟨hmem, hid⟩ := getPlayer_found hq
  exact eq_of_key_eq PlayerState.id h.nodup (List.mem_map_of_mem hmem) h.piece hid

/-- A piece is put down in place of the player's own. -/
theorem ids_put {pieces : List PlayerState} {r : PlayerId} (hid : v.id = r) :
    (editSeat r (fun _ => v) pieces).map (·.id) = pieces.map (·.id) := by
  simp only [editSeat, editAt, List.map_map]
  refine List.map_congr_left fun q _ => ?_
  by_cases hq : q.id = r <;> simp [hq, hid]

theorem Put.of_pieces (h : OnTable s p) (hpieces : s'.pieces = s.pieces) (hturn : s'.turn = s.turn)
    (hdebt : s'.bankruptcy = s.bankruptcy) (hmode : s'.gameMode = s.gameMode) : Put p s s' := by
  refine ⟨hpieces.trans ?_, hturn, hdebt, hmode⟩
  have hsame : editSeat p.id (fun _ => p.piece) s.pieces = editSeat p.id id s.pieces :=
    editAt_congr PlayerState.id h.nodup h.piece rfl
  rw [hsame]
  simp [editSeat, editAt]

/-- Whoever is put down is on the table afterwards. -/
theorem Put.onTable (h : Put v s s') (hp : OnTable s p) (hid : v.id = p.id) : OnTable s' v := by
  refine ⟨?_, ?_⟩
  · rw [← ids_pieces, h.pieces, ids_put (piece_id v)]
    exact hp.nodup
  · rw [h.pieces]
    exact mem_editSeat.mpr ⟨p.piece, hp.piece, if_pos hid.symm⟩

/-- Of two moves of one piece the second stays. -/
theorem Put.trans (h : Put p s s₁) (h' : Put v s₁ s') (hid : v.id = p.id) : Put v s s' where
  pieces := by
    rw [h'.pieces, h.pieces, hid]
    exact editSeat_editSeat p.id (g := fun _ => p.piece) fun _ _ => rfl
  turn := h'.turn.trans h.turn
  bankruptcy := h'.bankruptcy.trans h.bankruptcy
  gameMode := h'.gameMode.trans h.gameMode

/-! Money moves no piece. -/

theorem refreshAllNetWorth_pieces (players : List PlayerState) (spaces : List SpaceOwnership)
    (mode : GameMode) :
    Ensures (refreshAllNetWorth players spaces mode) fun ps => piecesOf ps = piecesOf players :=
  (refreshAllNetWorth_bare players spaces mode).imp fun _ h => piecesOf_congr h

theorem updatePlayerNetWorth_piece (p : PlayerState) (spaces : List SpaceOwnership)
    (mode : GameMode) :
    Ensures (updatePlayerNetWorth p spaces mode) fun q => q.piece = p.piece :=
  (updatePlayerNetWorth_bare p spaces mode).imp fun _ h => piece_eq_of_bare h

theorem piecesOf_transfer {r : PlayerId} {amount : Int} {creditor : Option PlayerId}
    (hps : seatsOf players = s.seats.map (transfer r creditor amount)) :
    piecesOf players = s.pieces := by
  rw [← piecesOf_seatsOf players, hps, GameState.pieces, ← piecesOf_seatsOf s.players]
  simp only [piecesOf, GameState.seats, List.map_map]
  rfl

/-- A charge, paid or owed, moves no piece. -/
theorem Charged.pieces {r : PlayerId} {amount : Int} {creditor : Option PlayerId}
    (h : Charged r amount creditor s s') : s'.pieces = s.pieces := by
  cases h with
  | nothing _ hps | dropped _ _ _ hps | indebted _ _ _ hps => exact piecesOf_congr hps
  | paid _ _ hps => exact piecesOf_transfer hps

theorem takeFromOthers_pieces (pid : PlayerId) (amount : Int) (players : List PlayerState) :
    Ensures (takeFromOthers pid amount spaces mode players) fun x =>
      piecesOf x.1 = piecesOf players := by
  induction players with
  | nil => rfl
  | cons other rest ih =>
      unfold takeFromOthers
      simp only [sat_ite]
      refine ⟨fun _ => ih.seq fun x hx => congrArg (other.piece :: ·) hx, fun _ => ?_⟩
      refine (updatePlayerNetWorth_piece _ _ _).seq fun paid hpaid => ih.seq fun x hx => ?_
      exact congrArg₂ List.cons hpaid hx

theorem giveToOthers_pieces (pid : PlayerId) (amount : Int) (players : List PlayerState) :
    Ensures (giveToOthers pid amount spaces mode players) fun ps =>
      piecesOf ps = piecesOf players := by
  induction players with
  | nil => rfl
  | cons other rest ih =>
      unfold giveToOthers
      simp only [sat_ite]
      refine ⟨fun _ => ih.seq fun ps hps => congrArg (other.piece :: ·) hps, fun _ => ?_⟩
      refine (updatePlayerNetWorth_piece _ _ _).seq fun paid hpaid => ih.seq fun ps hps => ?_
      exact congrArg₂ List.cons hpaid hps

/-! Writing a record puts its piece down. -/

theorem putPlayer_puts (h : OnTable s p) (hid : v.id = p.id) :
    Ensures (putPlayer s.players v) fun ps =>
      piecesOf ps = editSeat v.id (fun _ => v.piece) s.pieces := by
  have hput := putPlayer_view (g := fun _ => v.piece) piece_id h.ids h.piece hid rfl
  rwa [hid]

theorem assignPlayer_puts (h : OnTable s p) (hid : v.id = p.id) :
    Ensures (assignPlayer s.players v.id v) fun ps =>
      piecesOf ps = editSeat v.id (fun _ => v.piece) s.pieces :=
  assignPlayer_view (g := fun _ => v.piece) piece_id h.ids h.piece hid.symm rfl

/-- `_set_player` puts down the piece of the record it writes, and moves no
other. -/
theorem setPlayer_puts (h : OnTable s p) (hid : v.id = p.id) :
    Ensures (setPlayer s v) (Put v s) := by
  refine (updatePlayerNetWorth_piece v _ _).seq fun w hw => ?_
  have hwid := id_eq_of_piece hw
  refine (putPlayer_puts h (hwid.trans hid)).seq fun ps hps => ?_
  refine (refreshAllNetWorth_pieces ps _ _).seq fun ps' hps' => ⟨?_, rfl, rfl, rfl⟩
  rw [← hw, ← hwid]
  exact hps'.trans hps

/-- So does storing a record. -/
theorem storePlayer_puts (h : OnTable s p) (hid : v.id = p.id) :
    Ensures (storePlayer s v) (Put v s) := by
  refine (updatePlayerNetWorth_piece v _ _).seq fun w hw => ?_
  have hwid := id_eq_of_piece hw
  rw [← hwid]
  refine (assignPlayer_puts h (hwid.trans hid)).seq fun ps hps => ⟨?_, rfl, rfl, rfl⟩
  rw [← hw, ← hwid]
  exact hps

theorem finalize_pieces (s : GameState) (players : List PlayerState) (turn : TurnState) :
    Ensures (finalize s players turn) fun s' => s'.pieces = piecesOf players ∧ s'.turn = turn ∧
      s'.bankruptcy = s.bankruptcy ∧ s'.gameMode = s.gameMode :=
  (refreshAllNetWorth_pieces players _ _).seq fun _ h => ⟨h, rfl, rfl, rfl⟩

theorem finalize_keeps_pieces (h : OnTable s p) : Ensures (finalize s s.players s.turn) (Put p s) :=
  (finalize_pieces s s.players s.turn).imp fun _ h' => .of_pieces h h'.1 h'.2.1 h'.2.2.1 h'.2.2.2

/-- A payment, accepted or not, moves no piece. -/
theorem attemptPayment_pieces (hids : (s.players.map (·.id)).Nodup) (pid : PlayerId) (amount : Int)
    (creditor : Option PlayerId) :
    Ensures (attemptPayment s pid amount creditor) fun s' =>
      s'.pieces = s.pieces ∧ s'.gameMode = s.gameMode :=
  (attemptPayment_charges hids).imp fun _ h => ⟨h.pieces, by cases h <;> rfl⟩

theorem drawCard_keeps_pieces (h : OnTable s p) (kind : CardKind) (rng : Rng) :
    Ensures (drawCard s kind rng) fun x => Put p s x.1 ∧ getCard x.2.1.id = .ok x.2.1 := by
  refine .after fun drawn _ => ?_
  obtain ⟨deck, rng'⟩ := drawn
  cases deck with
  | nil => trivial
  | cons cardId rest =>
      refine .after fun card hcard => ⟨?_, getCard_id hcard⟩
      cases kind <;> exact .of_pieces h rfl rfl rfl rfl

end Pieces

/-! ## landings -/

/-- The record of a player whom the events have brought to `x`. -/
def putOn (x : Spot) (p : PlayerState) : PlayerState :=
  { p with
    position := x.position
    jailStatus := if x.jailed then some { turnsRemaining := jailTurnsInitial } else p.jailStatus }

/-- A landing that ends in jail offers nothing and charges nothing. -/
structure OverInJail (s s' : GameState) : Prop where
  pending : s'.turn.pendingBuyPosition = none ∨
    s'.turn.pendingBuyPosition = s.turn.pendingBuyPosition
  bankruptcy : s'.bankruptcy = s.bankruptcy

/-- The landing of `p` brings them to `x`, by its events and on the board. -/
structure Arrives (s : GameState) (p : PlayerState) (L : Landing) (x : Spot) : Prop where
  trail : Trail s.gameMode p.id ⟨p.position, false⟩ L.events x
  jailed : L.sentToJail = x.jailed
  pieces : L.state.pieces = editSeat p.id (fun _ => (putOn x p).piece) s.pieces
  gameMode : L.state.gameMode = s.gameMode
  arrested : x.jailed = true → OverInJail s L.state

/-- Landings arrive. -/
def Lander.Leads (land : Lander) : Prop :=
  ∀ s p depth rentMultiplier rng, OnTable s p →
    Ensures (land s p depth rentMultiplier rng) fun L => ∃ x, Arrives s p L x

section Landings

variable {s s₁ s' : GameState} {p q v : PlayerState} {L : Landing} {x : Spot} {goSalary : Int}
  {land : Lander} {card : CardDef}

/-- A landing that leaves the player on the space. -/
theorem arrives_still {events : List GameEvent} {rng : Rng} (h : OnTable s p)
    (hpieces : s'.pieces = s.pieces) (hmode : s'.gameMode = s.gameMode)
    (hevents : ∀ e ∈ events, EventStep s.gameMode p.id ⟨p.position, false⟩ e ⟨p.position, false⟩) :
    Arrives s p ⟨s', events, false, rng⟩ ⟨p.position, false⟩ where
  trail := .stay hevents
  jailed := rfl
  pieces := by
    have hput : Put p s { s with players := s'.players } := .of_pieces h hpieces rfl rfl rfl
    exact hput.pieces
  gameMode := hmode
  arrested := fun hj => nomatch hj

/-- What follows a move of the piece. -/
theorem Arrives.after (h : Put v s s₁) (hv : ∀ x, (putOn x v).piece = (putOn x p).piece)
    (hid : v.id = p.id) (hq : q.piece = v.piece) {events : List GameEvent}
    (hevents : Trail s.gameMode p.id ⟨p.position, false⟩ events ⟨v.position, false⟩)
    (hL : Arrives s₁ q L x) : Arrives s p { L with events := events ++ L.events } x := by
  have hqid : q.id = p.id := (id_eq_of_piece hq).trans hid
  have hqpos : q.position = v.position := by rw [← piece_position q, hq, piece_position]
  refine ⟨?_, hL.jailed, ?_, hL.gameMode.trans h.gameMode, fun hj => ?_⟩
  · have hrest := hL.trail
    rw [hqpos, hqid, h.gameMode] at hrest
    exact hevents.append hrest
  · have hput : (putOn x q).piece = (putOn x p).piece := by
      rw [← hv]
      show putOn x q.piece = putOn x v.piece
      rw [hq]
    rw [hL.pieces, hput, h.pieces, hqid, hid]
    exact editSeat_editSeat p.id (g := fun _ => v.piece) fun _ _ => hid
  · obtain ⟨hpending, hdebt⟩ := hL.arrested hj
    rw [h.turn] at hpending
    exact ⟨hpending, hdebt.trans h.bankruptcy⟩

/-- The salary leaves the piece where it is. -/
theorem collectGoBonus_keeps (h : OnTable s p) (goSalary : Int) (due : Bool) :
    Ensures (collectGoBonus s p goSalary due) fun r => Put p s r.1 ∧ r.2.1.piece = p.piece ∧
      ∀ e ∈ r.2.2, ∀ mode x, EventStep mode p.id x e x := by
  cases due with
  | false => exact ⟨.of_pieces h rfl rfl rfl rfl, rfl, by simp⟩
  | true =>
      have hsalary : Ensures (applyGoSalary s p goSalary) fun r =>
          Put p s r.1 ∧ r.2 = .passedGo p.id p.displayName goSalary := by
        refine (updatePlayerNetWorth_piece _ _ _).seq fun w hw => ?_
        have hwp : w.piece = p.piece := hw
        have hwid := id_eq_of_piece hwp
        refine (putPlayer_puts h hwid).seq fun ps hps => ⟨⟨?_, rfl, rfl, rfl⟩, rfl⟩
        rw [← hwp, ← hwid]
        exact hps
      refine hsalary.seq fun r hr => .after fun q hq => ?_
      obtain ⟨hput, hevent⟩ := hr
      refine ⟨hput, (hput.onTable h rfl).found hq, fun e he mode x => ?_⟩
      rw [List.mem_singleton.mp he, hevent]
      exact .passedGo

/-- Walking on from a card and landing there is a path, when the landing after
it is. -/
theorem advanceAndLand_leads (hland : land.Leads) (h : OnTable s p) (goSalary : Int) (steps : Nat)
    (bonus : Bool) (depth rentMultiplier : Nat) (rng : Rng) :
    Ensures (advanceAndLand land goSalary s p steps bonus depth rentMultiplier rng) fun L =>
      ∃ x, Arrives s p L x := by
  refine .after fun advanced _ => ?_
  obtain ⟨newPos, passedGo⟩ := advanced
  set moved : PlayerState := { p with position := newPos }
  refine (setPlayer_puts (v := moved) h rfl).seq fun s₁ h₁ => ?_
  have hmoved : OnTable s₁ moved := h₁.onTable h rfl
  refine (collectGoBonus_keeps hmoved goSalary (passedGo && bonus)).seq fun collected hc => ?_
  obtain ⟨hput, hpiece, hgo⟩ := hc
  have htable : OnTable collected.1 collected.2.1 :=
    ⟨(hput.onTable hmoved rfl).ids, hpiece ▸ (hput.onTable hmoved rfl).piece⟩
  refine (hland _ _ depth rentMultiplier rng htable).seq fun L hL => ?_
  obtain ⟨x, hL⟩ := hL
  have hwalk : Trail s.gameMode p.id ⟨p.position, false⟩ (cardMoveEvent p newPos :: collected.2.2)
      ⟨newPos, false⟩ := .cons .moved (.stay fun e he => hgo e he _ _)
  exact ⟨x, .after (p := p) (h₁.trans hput rfl) (fun _ => rfl) rfl hpiece hwalk hL⟩

/-- Whatever a card does, its events lead to where the player is afterwards. -/
theorem applyCardEffect_leads (hland : land.Leads) (h : OnTable s p) (goSalary : Int)
    (card : CardDef) (depth : Nat) (rng : Rng) :
    Ensures (applyCardEffect land goSalary s p card depth rng) fun L => ∃ x, Arrives s p L x := by
  have hstill : ∀ s' : GameState, s'.pieces = s.pieces → s'.gameMode = s.gameMode →
      ∃ x, Arrives s p ⟨s', [], false, rng⟩ x :=
    fun s' hpieces hmode => ⟨_, arrives_still h hpieces hmode (by simp)⟩
  have hset : ∀ v : PlayerState, v.piece = p.piece → Ensures (setPlayer s v) fun s' =>
      ∃ x, Arrives s p ⟨s', [], false, rng⟩ x := by
    intro v hv
    refine (setPlayer_puts h (id_eq_of_piece hv)).imp fun s' h' => hstill s' ?_ h'.gameMode
    rw [h'.pieces, hv, id_eq_of_piece hv]
    exact (Put.of_pieces h rfl rfl rfl rfl).pieces.symm
  have hpay : ∀ amount, Ensures (attemptPayment s p.id amount none) fun s' =>
      ∃ x, Arrives s p ⟨s', [], false, rng⟩ x := fun amount =>
    (attemptPayment_pieces h.ids _ _ _).imp fun s' h' => hstill s' h'.1 h'.2
  unfold applyCardEffect
  cases card.effect with
  | advanceTo position bonus =>
      exact .after fun steps _ => advanceAndLand_leads hland h _ _ _ _ _ _
  | advanceToNearest target payDouble =>
      refine .after fun pos _ => .after fun steps _ => ?_
      exact advanceAndLand_leads hland h _ _ _ _ _ _
  | goToJail =>
      refine (setPlayer_puts (v := sendToJail p s.gameMode) h rfl).seq fun s' h' => ?_
      exact ⟨⟨_, true⟩, .one .jailed, rfl, h'.pieces, h'.gameMode,
        fun _ => ⟨.inr (congrArg _ h'.turn), h'.bankruptcy⟩⟩
  | goBack n =>
      refine .after fun index _ => .after fun back _ => .after fun pos _ => ?_
      refine (setPlayer_puts (v := { p with position := pos }) h rfl).seq fun s₁ h₁ => ?_
      have hmove : Trail s.gameMode p.id ⟨p.position, false⟩ [cardMoveEvent p pos] ⟨pos, false⟩ :=
        .one .moved
      split
      · exact ⟨⟨pos, false⟩, hmove, rfl, h₁.pieces, h₁.gameMode, fun hj => nomatch hj⟩
      · refine (hland _ _ _ _ _ (h₁.onTable h rfl)).seq fun L hL => ?_
        obtain ⟨x, hL⟩ := hL
        exact ⟨x, .after (p := p) h₁ (fun _ => rfl) rfl rfl hmove hL⟩
  | collect amount => exact sat_bind.mpr (hset _ rfl)
  | pay amount => exact sat_bind.mpr (hpay amount)
  | collectFromEachPlayer amount =>
      refine (takeFromOthers_pieces _ _ _).seq fun taken htaken => .after fun q hq => ?_
      have htable : OnTable { s with players := taken.1 } p := h.congr htaken
      refine (updatePlayerNetWorth_piece _ _ _).seq fun w hw => ?_
      have hqp : q.piece = p.piece := htable.found hq
      have hwp : w.piece = p.piece := Eq.trans hw hqp
      have hwid := id_eq_of_piece hwp
      refine (putPlayer_puts htable hwid).seq fun ps hps => hstill _ ?_ rfl
      rw [hwp, hwid] at hps
      exact hps.trans ((Put.of_pieces htable rfl rfl rfl rfl).pieces.symm.trans htaken)
  | payEachPlayer amount =>
      refine (updatePlayerNetWorth_piece _ _ _).seq fun w hw => ?_
      have hwp : w.piece = p.piece := hw
      have hwid := id_eq_of_piece hwp
      refine (putPlayer_puts h hwid).seq fun ps hps => ?_
      refine (giveToOthers_pieces _ _ _).seq fun ps' hps' => ?_
      refine (refreshAllNetWorth_pieces _ _ _).seq fun ps'' hps'' => hstill _ ?_ rfl
      rw [hwp, hwid] at hps
      exact hps''.trans (hps'.trans (hps.trans (Put.of_pieces h rfl rfl rfl rfl).pieces.symm))
  | getOutOfJailFree => exact sat_bind.mpr (hset _ rfl)
  | repairs perHouse perHotel => exact .after fun cost _ => sat_bind.mpr (hpay cost)

theorem drawAndApply_leads (hland : land.Leads) (h : OnTable s p) (goSalary : Int)
    (kind : CardKind) (depth : Nat) (rng : Rng) :
    Ensures (drawAndApply land goSalary s p kind depth rng) fun r => ∃ x, Arrives s p r.1 x := by
  refine (drawCard_keeps_pieces h kind rng).seq fun drawn hdrawn => .after fun q hq => ?_
  obtain ⟨hput, hcard⟩ := hdrawn
  have htable := hput.onTable h rfl
  have hqp := htable.found hq
  have hqtable : OnTable drawn.1 q := ⟨htable.ids, hqp ▸ htable.piece⟩
  refine (applyCardEffect_leads hland hqtable goSalary drawn.2.1 depth drawn.2.2).seq
    fun L hL => ?_
  obtain ⟨x, hL⟩ := hL
  exact ⟨x, .after (p := p) hput (fun _ => rfl) rfl hqp (.one (.drew hcard)) hL⟩

/-- What the landing displays and does to the phase moves nobody. -/
theorem Arrives.shown (h : Arrives s p L x) {turn : TurnState} {activeCard : Option ActiveCard}
    (hpending : turn.pendingBuyPosition = L.state.turn.pendingBuyPosition) :
    Arrives s p { L with state := { L.state with activeCard, turn } } x := by
  refine ⟨h.trail, h.jailed, h.pieces, h.gameMode, fun hj => ?_⟩
  obtain ⟨hpend, hdebt⟩ := h.arrested hj
  exact ⟨hpending ▸ hpend, hdebt⟩

theorem landOnCard_leads (hland : land.Leads) (h : OnTable s p) (goSalary : Int) (kind : CardKind)
    (depth : Nat) (rng : Rng) :
    Ensures (landOnCard land goSalary s p kind depth rng) fun L => ∃ x, Arrives s p L x := by
  refine (finalize_keeps_pieces h).seq fun s₁ h₁ => .after fun q hq => ?_
  have htable := h₁.onTable h rfl
  have hqp := htable.found hq
  have hqtable : OnTable s₁ q := ⟨htable.ids, hqp ▸ htable.piece⟩
  refine (drawAndApply_leads hland hqtable goSalary kind depth rng).seq fun r hr => ?_
  obtain ⟨x, hr⟩ := hr
  have hquiet : Trail s.gameMode p.id ⟨p.position, false⟩ [] ⟨p.position, false⟩ := .nil
  have hL : Arrives s p r.1 x := .after (p := p) h₁ (fun _ => rfl) rfl hqp hquiet hr
  simp only [sat_ite]
  exact ⟨fun _ => ⟨x, hL.shown rfl⟩, fun _ => ⟨x, hL.shown rfl⟩⟩

theorem landOnGoToJail_leads (h : OnTable s p) (rng : Rng) :
    Ensures (landOnGoToJail s p rng) fun L => ∃ x, Arrives s p L x := by
  refine (updatePlayerNetWorth_piece _ _ _).seq fun w hw => ?_
  have hwid : w.id = p.id := id_eq_of_piece (p := sendToJail p s.gameMode) hw
  refine (putPlayer_puts h hwid).seq fun ps hps => (finalize_pieces s ps _).seq fun s' h' => ?_
  obtain ⟨hpieces, hturn, hdebt, hmode⟩ := h'
  refine ⟨⟨_, true⟩, .one .jailed, rfl, ?_, hmode, fun _ => ⟨.inl (congrArg _ hturn), hdebt⟩⟩
  rw [hw, hwid] at hps
  exact hpieces.trans hps

theorem landOnTax_leads (h : OnTable s p) (taxAmount : Nat) (rng : Rng) :
    Ensures (landOnTax s p taxAmount rng) fun L => ∃ x, Arrives s p L x := by
  refine (finalize_keeps_pieces h).seq fun s₁ h₁ => ?_
  refine (attemptPayment_pieces (h₁.onTable h rfl).ids _ _ _).seq fun s₂ h₂ => ?_
  have hput : s₁.pieces = s.pieces :=
    h₁.pieces.trans (Put.of_pieces h rfl rfl rfl rfl).pieces.symm
  have hmode : s₂.gameMode = s.gameMode := h₂.2.trans h₁.gameMode
  simp only [sat_ite]
  refine ⟨fun _ => ⟨_, arrives_still h (h₂.1.trans hput) hmode (by simp)⟩, fun _ => ?_⟩
  refine (finalize_pieces s₂ _ _).seq fun s₃ h₃ => ?_
  exact ⟨_, arrives_still h (h₃.1.trans (h₂.1.trans hput)) (h₃.2.2.2.trans hmode)
    (List.forall_mem_singleton.mpr .taxed)⟩

/-- The landings without a card lead to where the player stands. -/
theorem landOnSpace_leads (h : OnTable s p) (diceRoll : DiceRoll) (boardSpace : BoardSpace)
    (rentMultiplier : Nat) (rng : Rng) :
    Ensures (landOnSpace s p diceRoll boardSpace rentMultiplier rng) fun L =>
      ∃ x, Arrives s p L x := by
  refine landOnSpace_ensures (fun ownerId => ?_) fun purchasable ownership => ?_
  · refine .after fun owner _ => .after fun rent _ => ?_
    refine (finalize_keeps_pieces h).seq fun s₁ h₁ => ?_
    refine (attemptPayment_pieces (h₁.onTable h rfl).ids _ _ _).seq fun s₂ h₂ => ?_
    have hpieces : s₂.pieces = s.pieces :=
      h₂.1.trans (h₁.pieces.trans (Put.of_pieces h rfl rfl rfl rfl).pieces.symm)
    have hmode : s₂.gameMode = s.gameMode := h₂.2.trans h₁.gameMode
    simp only [sat_ite]
    exact ⟨fun _ => ⟨_, arrives_still h hpieces hmode (by simp)⟩, fun _ =>
      ⟨_, arrives_still h hpieces hmode (List.forall_mem_singleton.mpr .rented)⟩⟩
  · refine (finalize_pieces s s.players _).seq fun s' h' => ?_
    exact ⟨_, arrives_still h h'.1 h'.2.2.2 (by simp)⟩

/-- By induction on the depth of cards: every landing leads to where the player
is afterwards. -/
theorem resolveLanding_leads (diceRoll : DiceRoll) (goSalary : Int) (fuel : Nat) :
    Lander.Leads (resolveLanding diceRoll goSalary fuel) :=
  resolveLanding_ensures (fun _ _ rng h => landOnGoToJail_leads h rng)
    (fun _ _ amount rng h => landOnTax_leads h amount rng)
    (fun _ hland _ _ kind depth rng h => landOnCard_leads hland h goSalary kind depth rng)
    (fun _ _ boardSpace rentMultiplier rng h =>
      landOnSpace_leads h diceRoll boardSpace rentMultiplier rng) fuel

end Landings

/-! ## rolls -/

/-- The roll of `p` brings them to `x`, by its events and on the board. -/
structure Roams (s : GameState) (p : PlayerState) (r : Handled) (x : Spot) : Prop where
  trail : Trail s.gameMode p.id ⟨p.position, false⟩ r.2 x
  piece : ∃ v : PlayerState, v.id = p.id ∧ v.position = x.position ∧
    (x.jailed = true → v.jailStatus = some { turnsRemaining := jailTurnsInitial }) ∧
    r.1.pieces = editSeat p.id (fun _ => v) s.pieces
  gameMode : r.1.gameMode = s.gameMode
  arrested : x.jailed = true → OverInJail s r.1 ∧ r.1.turn.phase = .postRoll ∧
    r.1.turn.doublesStreak = 0

section Rolls

variable {s s₁ : GameState} {p q v : PlayerState} {r : Handled} {x : Spot} {goSalary jailFine : Int}

/-- What follows once the piece was put down where it is. -/
theorem Roams.after (h : Put v s s₁) (hid : v.id = p.id) (hpos : v.position = p.position)
    (hr : Roams s₁ v r x) : Roams s p r x := by
  obtain ⟨w, hwid, hwpos, hwjail, hw⟩ := hr.piece
  have htrail := hr.trail
  rw [hid, hpos, h.gameMode] at htrail
  refine ⟨htrail, ⟨w, hwid.trans hid, hwpos, hwjail, ?_⟩, hr.gameMode.trans h.gameMode,
    fun hj => ?_⟩
  · rw [hw, h.pieces, hid]
    exact editSeat_editSeat p.id (g := fun _ => v.piece) fun _ _ => hid
  · obtain ⟨⟨hpending, hdebt⟩, hturn⟩ := hr.arrested hj
    rw [h.turn] at hpending
    exact ⟨⟨hpending, hdebt.trans h.bankruptcy⟩, hturn⟩

/-- The walk starts from the record `p` of the player whose seat is `q`. -/
theorem walk_leads (h : OnTable s q) (hid : p.id = q.id) (steps : Nat) (goSalary : Int) :
    Ensures (walk s p steps goSalary) fun r => OnTable r.1 r.2.1 ∧ ∃ pos,
      r.2.1.piece = ({ p with position := pos } : PlayerState).piece ∧
      Put { p with position := pos } s r.1 ∧
      Trail s.gameMode p.id ⟨p.position, false⟩ r.2.2 ⟨pos, false⟩ := by
  refine .after fun advanced _ => ?_
  obtain ⟨newPos, passedGo⟩ := advanced
  set moved : PlayerState := { p with position := newPos }
  refine (assignPlayer_puts (v := moved) h hid).seq fun ps hps => ?_
  have hput : Put moved s { s with players := ps } := ⟨hps, rfl, rfl, rfl⟩
  have hmoved := hput.onTable h hid
  refine (collectGoBonus_keeps hmoved goSalary passedGo).seq fun collected hc => ?_
  obtain ⟨hgo, hpiece, hevents⟩ := hc
  have htable := hgo.onTable hmoved rfl
  exact ⟨⟨htable.ids, hpiece ▸ htable.piece⟩, newPos, hpiece, hput.trans hgo rfl,
    .cons .moved (.stay fun e he => hevents e he _ _)⟩

/-- The events of a move lead from the old position to the new one. -/
theorem executeMove_roams (h : OnTable s q) (hid : p.id = q.id) (roll : DiceRoll)
    (extraRoll : Bool) (rng : Rng) (goSalary : Int) :
    Ensures (executeMove s p roll extraRoll rng goSalary) fun r => ∃ x, Roams s p r.1 x := by
  refine (walk_leads h hid _ goSalary).seq fun walked hwalked => ?_
  obtain ⟨working, moved, walkEvents⟩ := walked
  obtain ⟨htable, pos, hpiece, hput, hwalk⟩ := hwalked
  refine (resolveLanding_leads roll goSalary landingFuel working moved 0 1 rng htable).seq
    fun L hL => ?_
  obtain ⟨x, hL⟩ := hL
  have hmid : moved.id = p.id := id_eq_of_piece (p := { p with position := pos }) hpiece
  have hmpos : moved.position = pos := by rw [← piece_position, hpiece, piece_position]
  refine ⟨x, ?_, ⟨(putOn x moved).piece, hmid, rfl, fun hj => ?_, ?_⟩, ?_, fun hj => ?_⟩
  · refine Path.append (Path.append hwalk (.stay ?_)) ?_
    · intro e he
      split at he
      · rw [List.mem_singleton.mp he]
        exact .rolledDoubles
      · cases he
    · have hrest := hL.trail
      rw [hmid, hmpos, hput.gameMode] at hrest
      exact hrest
  · show (putOn x moved).jailStatus = _
    rw [putOn, if_pos hj]
  · show L.state.pieces = _
    rw [hL.pieces, hput.pieces, hmid]
    exact editSeat_editSeat p.id (g := fun _ => ({ p with position := pos } : PlayerState).piece)
      fun _ _ => rfl
  · exact hL.gameMode.trans hput.gameMode
  · obtain ⟨hpending, hdebt⟩ := hL.arrested hj
    have hjailed : L.sentToJail = true := hL.jailed.trans hj
    rw [hput.turn] at hpending
    simp only [turnAfterMove, hjailed, true_or, if_true]
    exact ⟨⟨hpending, hdebt.trans hput.bankruptcy⟩, trivial, trivial⟩

/-- A roll that ends where the player stands. -/
theorem roams_stay (hput : Put v s s₁) {turn : TurnState} (hid : v.id = p.id)
    (hpos : v.position = p.position) : Roams s p ({ s₁ with turn }, []) ⟨p.position, false⟩ := by
  refine ⟨.nil, ⟨v.piece, hid, hpos, (fun hj => nomatch hj), ?_⟩, hput.gameMode,
    (fun hj => nomatch hj)⟩
  rw [← hid]
  exact hput.pieces

theorem rollFree_roams (h : OnTable s p) (roll : DiceRoll) (rng : Rng) (goSalary : Int) :
    Ensures (rollFree s p roll rng goSalary) fun r => ∃ x, Roams s p r.1 x := by
  simp only [rollFree, sat_ite]
  refine ⟨fun _ => ?_, fun _ => executeMove_roams h rfl _ _ _ _⟩
  refine (storePlayer_puts (v := sendToJail p s.gameMode) h rfl).seq fun s₁ h₁ => ?_
  exact ⟨⟨_, true⟩, .one .jailed, ⟨(sendToJail p s.gameMode).piece, rfl, rfl, fun _ => rfl,
    h₁.pieces⟩, h₁.gameMode, fun _ => ⟨⟨.inl rfl, h₁.bankruptcy⟩, rfl, rfl⟩⟩

theorem rollInJail_roams (h : OnTable s p) (jail : JailStatus) (roll : DiceRoll) (rng : Rng)
    (goSalary jailFine : Int) :
    Ensures (rollInJail s p jail roll rng goSalary jailFine) fun r => ∃ x, Roams s p r.1 x := by
  simp only [rollInJail, sat_ite]
  refine ⟨fun _ => ?_, fun _ => ⟨fun _ => ?_, fun _ => ?_⟩⟩
  · refine (executeMove_roams (p := { p with jailStatus := none }) h rfl _ _ _ _).imp fun r hr => ?_
    obtain ⟨x, hr⟩ := hr
    exact ⟨x, hr.trail, hr.piece, hr.gameMode, hr.arrested⟩
  · refine (storePlayer_puts h ?_).seq fun s₁ h₁ => ⟨_, roams_stay h₁ ?_ ?_⟩
    · rfl
    · rfl
    · rfl
  · set freed : PlayerState := { p with jailStatus := none, balance := p.balance - jailFine }
    refine (storePlayer_puts (v := freed) h rfl).seq fun s₁ h₁ => ?_
    refine (executeMove_roams (h₁.onTable h rfl) rfl _ _ _ _).imp fun r hr => ?_
    obtain ⟨x, hr⟩ := hr
    exact ⟨x, .after (p := p) h₁ rfl rfl hr⟩

/-- The events of a roll lead from where the player stood to where the player
is, whatever the route. -/
theorem handleRollDice_roams (hids : (s.players.map (·.id)).Nodup) (pid : PlayerId) (rng : Rng)
    (goSalary jailFine : Int) :
    Ensures (handleRollDice s pid rng goSalary jailFine) fun r =>
      ∃ p ∈ s.players, p.id = pid ∧ ∃ x, Roams s p r.1 x := by
  refine .after fun _ _ => .after fun p hp => .after fun _ _ => ?_
  obtain ⟨hmem, hid⟩ := getPlayer_found hp
  have h := onTable_of_mem hids hmem
  cases p.jailStatus with
  | none => exact (rollFree_roams h _ _ _).imp fun r hr => ⟨p, hmem, hid, hr⟩
  | some jail => exact (rollInJail_roams h jail _ _ _ _).imp fun r hr => ⟨p, hmem, hid, hr⟩

end Rolls

end Monopoly
