import Monopoly.Spec.Resolve

/-!
# Monopoly.Spec.Follow

The recursion of `resolve_landing`: by induction on how deep landings may
nest, a landing ends in the touchdown at the end of the cards it follows.
-/

namespace Monopoly

section Effects

variable {s : GameState} {p : PlayerState} {card : CardDef} {land : Lander} {goSalary : Int}
  {depth : Nat} {rng : Rng} {leg : Leg}

/-! ## one card -/

variable (leg) in
/-- A card that moves nobody is carried out where the player stands. -/
theorem applyCardEffect_inPlace (hs : Sound s) (hp : p.bare ∈ s.seats)
    (hcard : cardMove s.gameMode p.position card.effect = none) :
    Sat (fun _ => False) (applyCardEffect land goSalary s p card depth rng) fun L =>
      ∀ activeCard, Lands p.id s leg (some card) (shown L activeCard) := by
  have hseat := seated_of_bare hp
  unfold applyCardEffect
  cases he : card.effect with
  | advanceTo position bonus => simp [he, cardMove] at hcard
  | advanceToNearest target payDouble => simp [he, cardMove] at hcard
  | goBack spaces => simp [he, cardMove] at hcard
  | goToJail =>
      obtain ⟨ps, hset, hps⟩ := setPlayer_eq (v := sendToJail p s.gameMode)
        (g := (sendToJail · s.gameMode)) hs hp rfl rfl rfl fun _ => rfl
      simp only [hset, ok_bind, sat_pure]
      exact fun ac => ⟨_, some ac, .jailCard he hps, rfl⟩
  | collect amount =>
      obtain ⟨ps, hset, hps⟩ := setPlayer_eq (v := credit amount p) (g := credit amount)
        hs hp rfl rfl rfl fun _ => rfl
      show Sat _ (setPlayer s (credit amount p) >>= _) _
      simp only [hset, ok_bind, sat_pure]
      exact fun ac => ⟨_, some ac, .collected he hps, rfl⟩
  | pay amount =>
      simp only [sat_bind, sat_pure]
      refine (attemptPayment_sat hs hseat (by simp)).imp fun c hc ac => ?_
      exact ⟨c, some ac, .charged (by rw [he]; rfl) hc, rfl⟩
  | collectFromEachPlayer amount =>
      obtain ⟨ps, ps', receiver, htake, hget, hput, hps'⟩ := collectFromEach_sat hs hp amount
      simp only [htake, hget, ok_bind]
      show Sat _ (updatePlayerNetWorth (credit _ receiver) s.spaces s.gameMode >>= fun v =>
        putPlayer ps v >>= _) _
      rw [← bind_assoc, hput]
      exact fun ac => ⟨_, some ac, .collectedFromEach he rfl hps', rfl⟩
  | payEachPlayer amount =>
      have hval : updatePlayerNetWorth (debit (amount * otherActive s.players p.id) p) s.spaces
          s.gameMode = .ok _ :=
        updatePlayerNetWorth_eq hs.layout fun q hq => (hs.deeds p.bare hp q hq).onBoard
      obtain ⟨ps, hput, hps⟩ := putPlayer_seats
        (v := revalue s.spaces s.gameMode (debit (amount * otherActive s.players p.id) p))
        (g := debit (amount * otherActive s.players p.id)) hs.playerIds hp rfl rfl
      have howned : ∀ q ∈ ps, ∀ pos ∈ q.ownedPositions, OnBoard s.gameMode pos :=
        fun q hq pos hpos => (hs.deeds_editSeat (g := debit _) (fun _ => rfl) q.bare
          (hps ▸ mem_seatsOf hq) pos hpos).onBoard
      obtain ⟨ps', hgive, hps'⟩ := giveToOthers_eq hs p.id amount howned
      have hseats : seatsOf ps' = s.seats.map
          (payEach p.id amount (amount * otherActive s.seats p.id)) := by
        rw [hps', hps, payEach_seats, GameState.seats, otherActive_seats]
      obtain ⟨ps'', href, hps''⟩ := refreshAllNetWorth_seats _ hs.layout hseats (by
        intro q hq pos hpos
        obtain ⟨q, hmem, rfl⟩ := List.mem_map.mp hq
        refine hs.deeds q hmem pos ?_
        simp only [payEach, debit, credit] at hpos
        split at hpos
        · exact hpos
        · split at hpos <;> exact hpos)
      show Sat _ (updatePlayerNetWorth (debit _ p) s.spaces s.gameMode >>= _) _
      simp only [hval, hput, hgive, href, ok_bind, sat_pure]
      exact fun ac => ⟨_, some ac, .paidEach he hps'', rfl⟩
  | getOutOfJailFree =>
      obtain ⟨ps, hset, hps⟩ := setPlayer_eq
        (v := { p with getOutOfJailCards := p.getOutOfJailCards + 1 })
        (g := fun p => { p with getOutOfJailCards := p.getOutOfJailCards + 1 })
        hs hp rfl rfl rfl fun _ => rfl
      simp only [hset, ok_bind, sat_pure]
      exact fun ac => ⟨_, some ac, .keptJailCard he hps, rfl⟩
  | repairs perHouse perHotel =>
      obtain ⟨cost, hcost⟩ := repairsCost_ok hs perHouse perHotel p.ownedPositions
        fun q hq => (hs.deeds p.bare hp q hq).onBoard
      have hhold : s.holdings p.id = p.ownedPositions := hs.holdings_seat (p := p.bare) hp
      simp only [hcost, ok_bind, sat_bind, sat_pure]
      refine (attemptPayment_sat hs hseat (by simp)).imp fun c hc ac => ?_
      exact ⟨c, some ac, .charged (by rw [he, cardCharge, hhold, hcost]; rfl) hc, rfl⟩

/-- What the landing a card recurses into is assumed to do: the induction
hypothesis, for landings from spaces with at most `n` cards ahead. -/
def LandsOn (diceTotal : Nat) (goSalary : Int) (fuel : Nat) (land : Lander) : Prop :=
  ∀ (s : GameState) (p : PlayerState) (depth multiplier : Nat) (rng : Rng),
    Sound s → p.bare ∈ s.seats → cardsAhead s.gameMode p.position < fuel →
    depth + cardsAhead s.gameMode p.position ≤ 2 →
    Sat (fun _ => False) (land s p depth multiplier rng) fun L =>
      Lands p.id (arrive s p.id (follow goSalary fuel (legOf s p diceTotal multiplier rng)).1)
        (follow goSalary fuel (legOf s p diceTotal multiplier rng)).1
        (follow goSalary fuel (legOf s p diceTotal multiplier rng)).2 L

/-- The leg after a card move. -/
def moveLeg (goSalary : Int) (leg : Leg) (move : CardMove) : Leg :=
  { leg with
    position := move.dest
    cash := if move.salaryDue then leg.cash + goSalary else leg.cash
    multiplier := move.multiplier }

/-- Arriving forgets where the player came from. -/
theorem arrive_same (s s' : GameState) {pid : PlayerId} {g : PlayerState → PlayerState}
    (hs' : s' = { s with
      players := s'.players, chanceDeck := s'.chanceDeck, chestDeck := s'.chestDeck })
    (hseats : s'.seats = editSeat pid g s.seats) (hid : ∀ p, (g p).id = p.id)
    (hg : ∀ p, atLeg leg (g p) = atLeg leg p) :
    SameTable (arrive s pid leg) (arrive s' pid leg) := by
  constructor
  · rw [hs']; rfl
  · have hat (ps : List PlayerState) :
        seatsOf (editSeat pid (atLeg leg) ps) = editSeat pid (atLeg leg) (seatsOf ps) :=
      seatsOf_editSeat fun _ => rfl
    show seatsOf (editSeat pid (atLeg leg) s'.players) =
      seatsOf (editSeat pid (atLeg leg) s.players)
    rw [hat, hat, show seatsOf s'.players = _ from hseats,
      editSeat_editSeat _ fun q hq => (hid q).trans hq, funext hg]
    rfl

/-- The player is put down on another space. -/
theorem setPlayer_moved (hs : Sound s) (hp : p.bare ∈ s.seats) {dest : Nat}
    (hdest : OnBoard s.gameMode dest) :
    ∃ ps, setPlayer s { p with position := dest } = .ok { s with players := ps } ∧
      seatsOf ps = editSeat p.id (fun q => { q with position := dest }) s.seats ∧
      Sound { s with players := ps } ∧
      ({ p with position := dest } : PlayerState).bare ∈ seatsOf ps := by
  obtain ⟨ps, hset, hps⟩ := setPlayer_eq (v := { p with position := dest })
    (g := fun q => { q with position := dest }) hs hp rfl rfl rfl fun _ => rfl
  refine ⟨ps, hset, hps, ?_, ?_⟩
  · refine hs.map_seats (fun q => if q.id = p.id then { q with position := dest } else q) hps rfl
      rfl hs.decks (fun q _ => by split <;> rfl) (fun q _ => by split <;> rfl) fun q hq => ?_
    split
    · exact hdest
    · exact hs.standing q hq
  · rw [hps]
    exact mem_editSeat.mpr ⟨_, hp, if_pos rfl⟩

/-- The table and the record from which a card that moves `p` lands. -/
structure CardMoved (goSalary : Int) (s : GameState) (p : PlayerState) (move : CardMove)
    (s' : GameState) (p' : PlayerState) : Prop where
  sound : Sound s'
  seated : p'.bare ∈ s'.seats
  id : p'.id = p.id
  gameMode : s'.gameMode = s.gameMode
  leg : ∀ diceTotal rng, legOf s' p' diceTotal move.multiplier rng =
    moveLeg goSalary (legOf s p diceTotal 1 rng) move
  same : ∀ leg, SameTable (arrive s p.id leg) (arrive s' p.id leg)

theorem CardMoved.position {move : CardMove} {s' : GameState} {p' : PlayerState}
    (h : CardMoved goSalary s p move s' p') : p'.position = move.dest :=
  congrArg Leg.position (h.leg 0 ⟨[]⟩)

/-- The advance effects: move, collect the salary where it is due, land. -/
theorem advanceAndLand_calls {steps dest : Nat} {passes : Bool} (goSalary : Int) (bonus : Bool)
    (multiplier : Nat) (hs : Sound s) (hp : p.bare ∈ s.seats)
    (hadv : advancePosition p.position steps s.gameMode = .ok (dest, passes))
    (hdest : OnBoard s.gameMode dest) :
    ∃ s' p' events, CardMoved goSalary s p ⟨dest, passes && bonus, 0, multiplier⟩ s' p' ∧
      ∀ (land : Lander) depth rng,
        advanceAndLand land goSalary s p steps bonus depth multiplier rng =
          land s' p' depth multiplier rng >>= fun L =>
            .ok { L with events := events ++ L.events } := by
  set due := passes && bonus
  let moved : PlayerState := { p with position := dest }
  obtain ⟨ps, (hset : setPlayer s moved = _), hps, hs1, hmem⟩ :=
    setPlayer_moved hs hp hdest
  obtain ⟨ps', p', events, hgo, hps', hbare, hmem'⟩ :=
    collectGoBonus_eq (s := { s with players := ps }) (p := moved) hs1 hmem goSalary due
  set salary := if due then goSalary else 0 with hsalary
  have hs2 : Sound { s with players := ps' } :=
    hs1.map_seats (fun q => if q.id = p.id then credit salary q else q) hps' rfl rfl hs.decks
      (fun q _ => by split <;> rfl) (fun q _ => by split <;> rfl) fun q hq => by
        split <;> exact hs1.standing q hq
  have hid : p'.id = p.id := id_eq_of_bare (q := p') (p := credit salary moved) hbare
  have hpos : p'.position = dest := by rw [← bare_position, hbare]; rfl
  have hcash : p'.balance = p.balance + salary := by rw [← bare_balance, hbare]; rfl
  have hleg : ∀ diceTotal rng, legOf { s with players := ps' } p' diceTotal multiplier rng =
      moveLeg goSalary (legOf s p diceTotal 1 rng) ⟨dest, due, 0, multiplier⟩ := by
    intro diceTotal rng
    have hif : p.balance + salary = if due then p.balance + goSalary else p.balance := by
      rw [hsalary]; cases due <;> simp
    simp only [legOf, moveLeg, hpos, hcash, hif]
    rfl
  have hseats : seatsOf ps' =
      editSeat p.id (fun q => credit salary { q with position := dest }) s.seats := by
    rw [show seatsOf ps' = editSeat p.id (credit salary) (seatsOf ps) from hps', hps]
    exact editSeat_editSeat _ fun _ hq => hq
  refine ⟨{ s with players := ps' }, p', cardMoveEvent p dest :: events, ⟨hs2, hmem', hid, rfl,
    hleg, fun leg => ?_⟩, fun land depth rng => ?_⟩
  · exact arrive_same s { s with players := ps' } rfl hseats (fun _ => rfl) fun _ => rfl
  · show (advancePosition p.position steps s.gameMode >>= _) = _
    simp only [hadv, ok_bind]
    show (setPlayer s moved >>= _) = _
    simp only [hset, ok_bind]
    show (collectGoBonus { s with players := ps } moved goSalary due >>= _) = _
    simp only [hgo, ok_bind]
    rfl

/-- A card that moves the player lands once, one level deeper for a go-back. -/
theorem applyCardEffect_calls (goSalary : Int) {move : CardMove} (hs : Sound s)
    (hp : p.bare ∈ s.seats) (hmove : cardMove s.gameMode p.position card.effect = some move)
    (hdest : OnBoard s.gameMode move.dest) :
    ∃ s' p' events deeper, CardMoved goSalary s p move s' p' ∧ deeper ≤ 1 ∧
      ∀ (land : Lander) depth rng, depth < cardLandingRecursionLimit →
        applyCardEffect land goSalary s p card depth rng =
          land s' p' (depth + deeper) move.multiplier rng >>= fun L =>
            .ok { L with events := events ++ L.events } := by
  have hboard : OnBoard s.gameMode p.position := hs.standing p.bare hp
  unfold applyCardEffect
  cases he : card.effect with
  | advanceTo dest bonus =>
      rw [he] at hmove
      obtain rfl := Option.some.inj hmove
      simp only at hdest
      obtain ⟨steps, hsteps, hadv⟩ := walk_stepsTo hboard hdest
      obtain ⟨s', p', events, hmoved, hcalls⟩ :=
        advanceAndLand_calls goSalary bonus 1 hs hp hadv hdest
      refine ⟨s', p', events, 0, hmoved, by omega, fun land depth rng _ => ?_⟩
      simp only [hsteps, ok_bind]
      exact hcalls land depth rng
  | advanceToNearest target payDouble =>
      rw [he] at hmove
      obtain rfl := Option.some.inj hmove
      obtain ⟨dest, hnear⟩ := nearestPosition_ok hboard target
      simp only [hnear, Except.toOption, Option.getD_some] at hdest ⊢
      obtain ⟨steps, hsteps, hadv⟩ := walk_stepsTo hboard hdest
      obtain ⟨s', p', events, hmoved, hcalls⟩ := advanceAndLand_calls goSalary true
        (if payDouble then 2 else 1) hs hp hadv hdest
      simp only [Bool.and_true] at hmoved
      refine ⟨s', p', events, 0, hmoved, by omega, fun land depth rng _ => ?_⟩
      cases target with
      | railroad | utility =>
          simp only [nearestTargets] at hnear
          simp only [hnear, hsteps, ok_bind]
          exact hcalls land depth rng
  | goBack spaces =>
      rw [he] at hmove
      obtain rfl := Option.some.inj hmove
      set dest := (((p.position : Int) - 1 - spaces) % (boardSize s.gameMode : Int)).toNat + 1
        with hdestEq
      let moved : PlayerState := { p with position := dest }
      obtain ⟨ps, (hset : setPlayer s moved = _), hps, hs1, hmem⟩ :=
        setPlayer_moved hs hp hdest
      have hidx : (((p.position - 1 : Nat) : Int) - spaces) = (p.position : Int) - 1 - spaces := by
        have := hboard.1; omega
      have hlt : (((p.position : Int) - 1 - spaces) % (boardSize s.gameMode : Int)).toNat <
          boardSize s.gameMode := by
        have hpos := boardSize_pos s.gameMode
        have := Int.emod_lt_of_pos ((p.position : Int) - 1 - spaces) (Int.natCast_pos.mpr hpos)
        omega
      refine ⟨{ s with players := ps }, moved, [cardMoveEvent p dest], 1, ⟨hs1, hmem, rfl, rfl,
        fun _ _ => rfl, fun leg => ?_⟩, le_rfl, fun land depth rng hdepth => ?_⟩
      · exact arrive_same s { s with players := ps } rfl hps (fun _ => rfl) fun _ => rfl
      · simp only [pyIndex_boardPositions hboard, length_boardPositions, ok_bind, pyMod_board,
          hidx, pyGet_boardPositions hlt]
        show (setPlayer s moved >>= _) = _
        simp only [hset, ok_bind, if_neg (Nat.not_le.mpr hdepth)]
        rfl
  | goToJail => simp [he, cardMove] at hmove
  | collect amount => simp [he, cardMove] at hmove
  | pay amount => simp [he, cardMove] at hmove
  | collectFromEachPlayer amount => simp [he, cardMove] at hmove
  | payEachPlayer amount => simp [he, cardMove] at hmove
  | getOutOfJailFree => simp [he, cardMove] at hmove
  | repairs perHouse perHotel => simp [he, cardMove] at hmove

/-- A card that moves the player, and what follows from it. -/
theorem applyCardEffect_move {fuel diceTotal : Nat} {move : CardMove}
    (hland : LandsOn diceTotal goSalary fuel land) (hs : Sound s) (hp : p.bare ∈ s.seats)
    (hmove : cardMove s.gameMode p.position card.effect = some move)
    (hdest : OnBoard s.gameMode move.dest) (hfuel : cardsAhead s.gameMode move.dest < fuel)
    (hdepth : depth + 1 + cardsAhead s.gameMode move.dest ≤ 2) :
    Sat (fun _ => False) (applyCardEffect land goSalary s p card depth rng) fun L =>
      let rest := follow goSalary fuel (moveLeg goSalary (legOf s p diceTotal 1 rng) move)
      Lands p.id (arrive s p.id rest.1) rest.1 rest.2 L := by
  obtain ⟨s', p', events, deeper, hmoved, hdeeper, hcalls⟩ :=
    applyCardEffect_calls goSalary hs hp hmove hdest
  rw [hcalls land depth rng (by simp only [cardLandingRecursionLimit]; omega), sat_bind]
  have hpos := hmoved.position
  have hrec := hland s' p' (depth + deeper) move.multiplier rng hmoved.sound hmoved.seated
    (by rw [hmoved.gameMode, hpos]; exact hfuel) (by rw [hmoved.gameMode, hpos]; omega)
  rw [hmoved.leg, hmoved.id] at hrec
  refine hrec.imp fun L hL => ?_
  obtain ⟨s'', ac, ht, heq⟩ := hL.of_sameTable (hmoved.same _)
  exact ⟨s'', ac, ht, heq⟩

end Effects

/-! ## the recursion -/

theorem cardKind_of_goToJail {mode : GameMode} {pos : Nat} (h : OnBoard mode pos)
    (hcorner : (squareAt mode pos).corner = some .gotojail) :
    (squareAt mode pos).type.cardKind = none := by
  have hall : ∀ mode pos, OnBoard mode pos → (squareAt mode pos).corner = some .gotojail →
      (squareAt mode pos).type.cardKind = none :=
    fun _ _ hb => forall_onBoard (P := fun mode pos =>
      (squareAt mode pos).corner = some .gotojail → (squareAt mode pos).type.cardKind = none)
      (by decide) (by decide) hb
  exact hall mode pos h hcorner

theorem cardKind_of_tax {space : BoardSpace} {amount : Nat} (h : space.tax = some amount) :
    space.type.cardKind = none := by
  unfold BoardSpace.tax at h
  split at h
  · rename_i htype
    rw [htype]
    rfl
  · simp at h

/-- Arriving where the player already stands changes the decks alone. -/
theorem arrive_stay {s s' : GameState} {p : PlayerState} {leg : Leg} (hs : Sound s)
    (hp : p.bare ∈ s.seats) (hpos : leg.position = p.position) (hcash : leg.cash = p.balance)
    (hs' : s' = { s with
      players := s'.players
      chanceDeck := leg.decks .chance
      chestDeck := leg.decks .communityChest })
    (hseats : s'.seats = s.seats) : SameTable (arrive s p.id leg) s' := by
  constructor
  · rw [hs']; rfl
  · have hstay : editSeat p.id (atLeg leg) s.seats = editSeat p.id id s.seats :=
      editAt_congr PlayerState.id hs.ids hp (by simp [atLeg, hpos, hcash]; rfl)
    rw [hseats]
    show s.seats = seatsOf (editSeat p.id (atLeg leg) s.players)
    rw [seatsOf_editSeat (g := atLeg leg) fun _ => rfl]
    show s.seats = editSeat p.id (atLeg leg) s.seats
    rw [hstay]
    simp [editSeat, editAt]

/-- The table and the record on which the card that `p` draws takes effect. -/
structure Drawn (s : GameState) (p : PlayerState) (kind : CardKind) (rng : Rng) (s₂ : GameState)
    (q : PlayerState) (deck : List CardId) (card : CardDef) (rng' : Rng) : Prop where
  sound : Sound s₂
  form : s₂ = { s with
    players := s₂.players
    chanceDeck := s₂.chanceDeck
    chestDeck := s₂.chestDeck }
  seats : s₂.seats = s.seats
  decks : s₂.deck = Function.update s.deck kind deck
  record : q.bare = p.bare
  draw : drawFrom s.gameMode kind (s.deck kind) rng = some (deck, card, rng')
  leads : ∀ move ∈ cardMove s.gameMode p.position card.effect, OnBoard s.gameMode move.dest ∧
    cardsAhead s.gameMode move.dest < cardsAhead s.gameMode p.position

/-- The landing after the effect of the card, as the space returns it. -/
def announced (q : PlayerState) (card : CardDef) (L : Landing) : Landing :=
  shown { L with events := .cardDrawn q.id q.displayName card.id card.kind :: L.events }
    { id := card.id, kind := card.kind, effect := card.effect, drawerId := q.id }

/-- A card space: draw, then the effect of the card. -/
theorem landOnCard_draws {s : GameState} {p : PlayerState} {kind : CardKind} (goSalary : Int)
    (rng : Rng) (hs : Sound s) (hp : p.bare ∈ s.seats)
    (hkind : (squareAt s.gameMode p.position).type.cardKind = some kind) :
    ∃ s₂ q deck card rng', Drawn s p kind rng s₂ q deck card rng' ∧
      ∀ (land : Lander) depth, landOnCard land goSalary s p kind depth rng =
        applyCardEffect land goSalary s₂ q card depth rng' >>= fun L =>
          .ok (announced q card L) := by
  have hboard : OnBoard s.gameMode p.position := hs.standing p.bare hp
  obtain ⟨ps, hfin, hsame⟩ := finalize_same hs
  have hs1 := hsame.sound hs
  have hpps : p.bare ∈ seatsOf ps := by rw [show seatsOf ps = s.seats from hsame.2]; exact hp
  obtain ⟨q, hq, hqp⟩ := List.mem_map.mp hpps
  have hqid : q.id = p.id := id_eq_of_bare hqp
  obtain ⟨deck, card, rng', hfrom, hdeck, hlead⟩ :=
    drawFrom_spec rng hboard hkind (hs.decks kind)
  have hdraw := drawCard_eq (s := { s with players := ps }) (fullDeck_ne_nil hboard hkind) hfrom
  set s2 := GameState.setDeck { s with players := ps } kind deck with hs2eq
  have hs2form := setDeck_eq { s with players := ps } kind deck
  rw [← hs2eq] at hs2form
  have hs2deck : s2.deck = Function.update s.deck kind deck := deck_setDeck _ _ _
  have hs2 : Sound s2 :=
    hs1.map_seats id (by rw [hs2form, List.map_id]; rfl) (by rw [hs2form]) (by rw [hs2form])
      (by rw [hs2deck]; exact deckCard_update hs.decks hdeck)
      (fun _ _ => rfl) (fun _ _ => rfl) hs1.standing
  have hs2seats : s2.seats = s.seats := by rw [hs2form]; exact hsame.2
  have hq2mem : q ∈ s2.players := by rw [hs2form]; exact hq
  have hget1 : getPlayerByIdFromState { s with players := ps } p.id = .ok q :=
    hqid ▸ hs1.getPlayer hq
  have hget2 : getPlayerByIdFromState s2 q.id = .ok q := hs2.getPlayer hq2mem
  refine ⟨s2, q, deck, card, rng', ⟨hs2, by rw [hs2form], hs2seats, hs2deck, hqp, hfrom, hlead⟩,
    fun land depth => ?_⟩
  simp only [landOnCard, hfin, hget1, drawAndApply, hdraw, hget2, ok_bind]
  cases applyCardEffect land goSalary s2 q card depth rng' with
  | error e => rfl
  | ok L =>
      simp only [ok_bind, announced, shown, pure_bind]
      split <;> rfl

/-- The event of the draw is no part of where the landing ends. -/
theorem lands_announced {r : PlayerId} {a : GameState} {leg : Leg} {stop : Option CardDef}
    {L : Landing} {q : PlayerState} {card : CardDef}
    (h : Lands r a leg stop (shown L ⟨card.id, card.kind, card.effect, q.id⟩)) :
    Lands r a leg stop (announced q card L) := by
  unfold shown at h
  unfold announced shown
  split at h
  · rename_i hjail
    rw [if_pos hjail]
    exact h
  · rename_i hjail
    rw [if_neg hjail]
    exact h

/-- A card space: draw, then carry the card out or follow it. -/
theorem landOnCard_sat {s : GameState} {p : PlayerState} {kind : CardKind} {land : Lander}
    {goSalary : Int} {depth fuel diceTotal multiplier : Nat} {rng : Rng}
    (hland : LandsOn diceTotal goSalary fuel land)
    (hs : Sound s) (hp : p.bare ∈ s.seats)
    (hkind : (squareAt s.gameMode p.position).type.cardKind = some kind)
    (hfuel : cardsAhead s.gameMode p.position ≤ fuel)
    (hdepth : depth + cardsAhead s.gameMode p.position ≤ 2) :
    Sat (fun _ => False) (landOnCard land goSalary s p kind depth rng) fun L =>
      let rest := follow goSalary (fuel + 1) (legOf s p diceTotal multiplier rng)
      Lands p.id (arrive s p.id rest.1) rest.1 rest.2 L := by
  obtain ⟨s₂, q, deck, card, rng', hdrawn, hdraws⟩ := landOnCard_draws goSalary rng hs hp hkind
  rw [hdraws, sat_bind]
  have hqid : q.id = p.id := id_eq_of_bare hdrawn.record
  have hqpos : q.position = p.position := by rw [← bare_position, hdrawn.record]; rfl
  have hqcash : q.balance = p.balance := by rw [← bare_balance, hdrawn.record]; rfl
  have hq : q.bare ∈ s₂.seats := by rw [hdrawn.seats, hdrawn.record]; exact hp
  have hmode : s₂.gameMode = s.gameMode := by rw [hdrawn.form]
  cases hmove : cardMove s.gameMode p.position card.effect with
  | none =>
      have hrest : follow goSalary (fuel + 1) (legOf s p diceTotal multiplier rng) =
          ({ legOf s p diceTotal multiplier rng with
            decks := Function.update s.deck kind deck, rng := rng' }, some card) := by
        simp only [follow, legOf, hkind, hdrawn.draw, hmove]
      refine (applyCardEffect_inPlace
        (follow goSalary (fuel + 1) (legOf s p diceTotal multiplier rng)).1 hdrawn.sound hq
        (by rw [hmode, hqpos]; exact hmove)).imp fun L hL => ?_
      rw [hqid] at hL
      rw [hrest] at hL ⊢
      refine lands_announced ((hL _).of_sameTable (arrive_stay hs hp rfl rfl ?_ hdrawn.seats))
      rw [← hdrawn.decks]
      exact hdrawn.form
  | some move =>
      obtain ⟨hdest, hlt⟩ := hdrawn.leads move hmove
      have hleg : moveLeg goSalary (legOf s₂ q diceTotal 1 rng') move =
          { legOf s p diceTotal multiplier rng with
          decks := Function.update s.deck kind deck
          rng := rng'
          position := move.dest
          cash := if move.salaryDue then p.balance + goSalary else p.balance
          multiplier := move.multiplier } := by
        simp only [moveLeg, legOf, hdrawn.decks, hmode, hqcash]
      have hrest : follow goSalary (fuel + 1) (legOf s p diceTotal multiplier rng) =
          follow goSalary fuel (moveLeg goSalary (legOf s₂ q diceTotal 1 rng') move) := by
        rw [hleg]
        simp only [follow, legOf, hkind, hdrawn.draw, hmove]
      refine (applyCardEffect_move hland hdrawn.sound hq (by rw [hmode, hqpos]; exact hmove)
        (by rw [hmode]; exact hdest) (by rw [hmode]; omega) (by rw [hmode]; omega)).imp
        fun L hL => ?_
      rw [hqid, ← hrest] at hL
      refine lands_announced ((hL.of_sameTable (arrive_same s _ (g := id) ?_ ?_ (fun _ => rfl)
        fun _ => rfl)).shown _)
      · rw [hdrawn.form]
      · rw [hdrawn.seats]; simp [editSeat, editAt]

theorem resolveLanding_landsOn (roll : DiceRoll) (goSalary : Int) (fuel : Nat) :
    LandsOn (roll.die1 + roll.die2) goSalary fuel (resolveLanding roll goSalary fuel) := by
  induction fuel with
  | zero => intro s p depth multiplier rng _ _ hfuel; omega
  | succ fuel ih =>
      intro s p depth multiplier rng hs hp hfuel hdepth
      have hboard : OnBoard s.gameMode p.position := hs.standing p.bare hp
      unfold resolveLanding
      simp only [getBoardSpace_eq hboard, ok_bind]
      cases hkind : (squareAt s.gameMode p.position).type.cardKind with
      | some kind =>
          have hcorner : (squareAt s.gameMode p.position).corner ≠ some .gotojail := by
            intro hc; rw [cardKind_of_goToJail hboard hc] at hkind; simp at hkind
          have htax : (squareAt s.gameMode p.position).tax = none := by
            cases ht : (squareAt s.gameMode p.position).tax with
            | none => rfl
            | some amount => rw [cardKind_of_tax ht] at hkind; simp at hkind
          rw [if_neg hcorner]
          simp only [htax]
          exact landOnCard_sat ih hs hp hkind (by omega) hdepth
      | none =>
          set leg := legOf s p (roll.die1 + roll.die2) multiplier rng with hleg
          have hrest : follow goSalary (fuel + 1) leg = (leg, none) := by
            simp only [hleg, follow, legOf, hkind]
          have hsame : SameTable (arrive s p.id leg) s := arrive_stay hs hp rfl rfl rfl rfl
          rw [hrest]
          refine Sat.imp (P := Lands p.id s leg none) ?_ fun L hL => hL.of_sameTable hsame
          split
          · rename_i hcorner
            exact landOnGoToJail_sat hs hp hcorner
          · rename_i hcorner
            cases htax : (squareAt s.gameMode p.position).tax with
            | some amount =>
                refine landOnTax_sat hs hp ?_
                simp only [restCharge, hleg, legOf, if_neg hcorner, htax]
            | none => exact landOnSpace_sat hs hp hcorner htax

/-- How a landing ends: at most two cards are drawn on the way, so the bound
on the recursion is never met. -/
theorem resolveLanding_sat {s : GameState} {p : PlayerState} (roll : DiceRoll) (goSalary : Int)
    (rng : Rng) (hs : Sound s) (hp : p.bare ∈ s.seats) :
    Sat (fun _ => False) (resolveLanding roll goSalary landingFuel s p 0 1 rng) fun L =>
      let rest := follow goSalary landingFuel (legOf s p (roll.die1 + roll.die2) 1 rng)
      Lands p.id (arrive s p.id rest.1) rest.1 rest.2 L := by
  have hle : cardsAhead s.gameMode p.position ≤ 2 := by
    unfold cardsAhead
    split <;> omega
  exact resolveLanding_landsOn roll goSalary landingFuel s p 0 1 rng hs hp
    (by simp only [landingFuel]; omega) (by omega)

end Monopoly
