import Monopoly.Lib.Register
import Monopoly.Spec.Replay

/-!
# Monopoly.Laws.Ownership

The two records of ownership, the owner of a space and the positions a
player lists, agree in every state of a game, as long as no auction hands a
space to its highest bidder that somebody else has come to own meanwhile.
-/

namespace Monopoly

/-- Both records of a table, as a register. -/
def GameState.register (s : GameState) : Register PlayerId Nat where
  owner pos := (ownershipAt s.spaces pos).ownerId
  lists pid := {q | ∃ p ∈ s.seats, p.id = pid ∧ q ∈ p.ownedPositions}

def GameState.memberIds (s : GameState) : Set PlayerId := {pid | Seated s pid}

/-- The records agree, and no list repeats a position. -/
structure Books (s : GameState) : Prop where
  agrees : s.register.Agrees s.memberIds
  nodup : ∀ p ∈ s.seats, p.ownedPositions.Nodup

section Register

variable {s m : GameState} {p : PlayerState} {pid : PlayerId} {pos : Nat}
  {f : PlayerState → PlayerState} {g : SpaceOwnership → SpaceOwnership}

theorem mem_lists (h : (s.seats.map (·.id)).Nodup) (hp : p ∈ s.seats) :
    pos ∈ s.register.lists p.id ↔ pos ∈ p.ownedPositions := by
  constructor
  · rintro ⟨q, hq, hid, hmem⟩
    rwa [eq_of_key_eq PlayerState.id h hp hq hid.symm]
  · exact fun hmem => ⟨p, hp, rfl, hmem⟩

/-- What the record says, seat by seat and space by space. -/
theorem books_iff (h : (s.seats.map (·.id)).Nodup) : s.register.Agrees s.memberIds ↔
    ∀ p ∈ s.seats, ∀ q, q ∈ p.ownedPositions ↔ (ownershipAt s.spaces q).ownerId = some p.id := by
  constructor
  · intro ha p hp q
    rw [← mem_lists h hp]
    exact ha p.id ⟨p, hp, rfl⟩ q
  · rintro ha _ ⟨p, hp, rfl⟩ q
    rw [mem_lists h hp]
    exact ha p hp q

/-- Who owns a position after the spaces were edited one by one. -/
theorem owner_map (h : Layout s.gameMode s.spaces) (hspaces : m.spaces = s.spaces.map g)
    (hg : ∀ o, (g o).position = o.position) :
    m.register.owner pos =
      if OnBoard s.gameMode pos then (g (ownershipAt s.spaces pos)).ownerId else none := by
  have hlayout : Layout s.gameMode m.spaces := hspaces ▸ h.map hg
  by_cases hpos : OnBoard s.gameMode pos
  · rw [if_pos hpos, ← ownershipAt_map h hpos hg, ← hspaces]
    rfl
  · rw [if_neg hpos]
    show (ownershipAt m.spaces pos).ownerId = none
    rw [ownershipAt_off hlayout hpos]

theorem owner_off (h : Layout s.gameMode s.spaces) (hpos : ¬ OnBoard s.gameMode pos) :
    s.register.owner pos = none := by
  show (ownershipAt s.spaces pos).ownerId = none
  rw [ownershipAt_off h hpos]

theorem memberIds_map (hseats : m.seats = s.seats.map f) (hid : ∀ p, (f p).id = p.id) :
    m.memberIds = s.memberIds := by
  ext pid
  show Seated m pid ↔ Seated s pid
  rw [seated_iff, seated_iff, hseats, ids_map fun p _ => hid p]

/-- Seats and spaces edited without touching either record. -/
theorem books_keep (hs : Sound s) (hf : KeepsEstate f) (hseats : m.seats = s.seats.map f)
    (hspaces : m.spaces = s.spaces.map g) (hg : ∀ o, (g o).position = o.position)
    (howner : ∀ o, (g o).ownerId = o.ownerId) : Books m ↔ Books s := by
  have hregister : m.register = s.register := by
    ext pos x
    · rw [owner_map hs.layout hspaces hg, howner]
      split
      · rfl
      · rename_i hoff; rw [owner_off hs.layout hoff]
    · show (∃ q ∈ m.seats, _) ↔ ∃ p ∈ s.seats, _
      simp [hseats, hf.id, hf.owned]
  have hnodup : (∀ q ∈ m.seats, q.ownedPositions.Nodup) ↔
      ∀ p ∈ s.seats, p.ownedPositions.Nodup := by
    simp [hseats, hf.owned]
  have hmembers := memberIds_map hseats hf.id
  constructor
  · exact fun hb => ⟨by rw [← hregister, ← hmembers]; exact hb.agrees, hnodup.mp hb.nodup⟩
  · exact fun hb => ⟨by rw [hregister, hmembers]; exact hb.agrees, hnodup.mpr hb.nodup⟩

theorem Books.keep (hs : Sound s) (hb : Books s) (hf : KeepsEstate f)
    (hseats : m.seats = s.seats.map f) (hspaces : m.spaces = s.spaces) : Books m :=
  (books_keep hs (g := id) hf hseats (by rw [hspaces, List.map_id]) (fun _ => rfl)
    fun _ => rfl).mpr hb

theorem Books.same (hs : Sound s) (hb : Books s) (hseats : m.seats = s.seats)
    (hspaces : m.spaces = s.spaces) : Books m :=
  hb.keep hs .refl (hseats.trans (List.map_id' _).symm) hspaces

/-- The position `pos` is entered for the player `r`, who is charged for it. -/
theorem register_grant (hs : Sound s) {r : PlayerId} (hr : Seated s r)
    (hseats : m.seats = editSeat r f s.seats)
    (hspaces : m.spaces = editSpace pos (grant r) s.spaces) (hid : ∀ p, (f p).id = p.id)
    (howned : ∀ p q, q ∈ (f p).ownedPositions ↔ q ∈ p.ownedPositions ∨ q = pos)
    (hpos : OnBoard s.gameMode pos) : m.register = s.register.enter {pos} r := by
  refine Register.ext (funext fun q => ?_) (funext fun k => Set.ext fun x => ?_)
  · rw [owner_map (s := s) hs.layout hspaces fun o => by split <;> rfl]
    by_cases hq : OnBoard s.gameMode q
    · have hat : (ownershipAt s.spaces q).position = q := (ownershipAt_mem hs.layout hq).2
      simp only [if_pos hq, hat]
      by_cases hqp : q = pos
      · simp [Register.enter, hqp, grant]
      · simp [Register.enter, hqp, GameState.register]
    · have hqp : q ≠ pos := fun h => hq (h ▸ hpos)
      simp [Register.enter, hq, hqp, owner_off hs.layout hq]
  · show (∃ y ∈ m.seats, y.id = k ∧ x ∈ y.ownedPositions) ↔
      (∃ y ∈ s.seats, y.id = k ∧ x ∈ y.ownedPositions) ∨ k = r ∧ x = pos
    rw [hseats]
    constructor
    · rintro ⟨y, hy, rfl, hx⟩
      obtain ⟨z, hz, rfl⟩ := mem_editSeat.mp hy
      split at hx
      · rename_i hzr
        rw [if_pos hzr, hid]
        rcases (howned z x).mp hx with hx | hx
        · exact .inl ⟨z, hz, rfl, hx⟩
        · exact .inr ⟨hzr, hx⟩
      · rename_i hzr
        rw [if_neg hzr]
        exact .inl ⟨z, hz, rfl, hx⟩
    · rintro (⟨y, hy, rfl, hx⟩ | ⟨rfl, rfl⟩)
      · refine ⟨_, mem_editSeat.mpr ⟨y, hy, rfl⟩, ?_, ?_⟩
        · split <;> simp [hid]
        · split
          · exact (howned y x).mpr (.inl hx)
          · exact hx
      · obtain ⟨y, hy, rfl⟩ := hr
        refine ⟨_, mem_editSeat.mpr ⟨y, hy, rfl⟩, ?_, ?_⟩
        · simp [hid]
        · simp [howned]

/-- A trade the parties can afford conveys the two lists of positions. -/
theorem Books.swap (hs : Sound s) (hb : Books s) {trade : TradeState}
    (hformed : TradeFormed s trade) (hexec : Executed s trade m) : Books m := by
  have hagree := (books_iff hs.ids).mp hb.agrees
  cases hexec with
  | @mk ps hoffer hrequest hps =>
      set m : GameState := { s with
        players := ps, spaces := s.spaces.map (swapSpace trade), trade := none
        turn := { s.turn with phase := .postRoll } } with hm
      have hseats : m.seats = s.seats.map (swapSeat trade) := hps
      have hids : (m.seats.map (·.id)).Nodup := by
        rw [hseats, ids_map fun p _ => swapSeat_id trade p]; exact hs.ids
      have hmembers := memberIds_map hseats (swapSeat_id trade)
      have hconveyed := (hb.agrees.convey {q | q ∈ trade.proposerOffer.positions}
        (some trade.targetId)).convey {q | q ∈ trade.targetRequest.positions}
        (some trade.proposerId)
      constructor
      · rw [hmembers]
        refine hconveyed.of_eq (funext fun q => ?_) ?_
        · rw [owner_map (s := s) hs.layout rfl (swapSpace_position trade), ownerId_swapSpace]
          by_cases hq : OnBoard s.gameMode q
          · rw [if_pos hq, (ownershipAt_mem hs.layout hq).2]
            by_cases hreq : q ∈ trade.targetRequest.positions
            · simp [Register.convey, hreq]
            · by_cases hoff : q ∈ trade.proposerOffer.positions <;>
                simp [Register.convey, GameState.register, hreq, hoff]
          · have hreq : q ∉ trade.targetRequest.positions := fun h => hq (hformed.request q h)
            have hoff : q ∉ trade.proposerOffer.positions := fun h => hq (hformed.offer q h)
            simp [Register.convey, hq, hreq, hoff, owner_off hs.layout hq]
        · rintro _ ⟨p, hp, rfl⟩
          ext q
          have hmem : swapSeat trade p ∈ m.seats := hseats ▸ List.mem_map_of_mem hp
          rw [← swapSeat_id trade p, mem_lists hids hmem, mem_swapSeat, swapSeat_id]
          have hlist : q ∈ s.register.lists p.id ↔ q ∈ p.ownedPositions := mem_lists hs.ids hp
          have hp' := hagree p hp q
          by_cases hreq : q ∈ trade.targetRequest.positions
          · have howner := (hrequest.titles q hreq).2.1
            by_cases hpp : p.id = trade.proposerId
            · simp [Register.convey, hreq, hpp]
            · by_cases hpt : p.id = trade.targetId
              · simp [Register.convey, hreq, hpt, hformed.distinct, hformed.distinct.symm]
              · have hnot : q ∉ p.ownedPositions := by
                  rw [hp', howner]
                  exact fun h => hpt (Option.some.inj h).symm
                simp [Register.convey, hreq, hpp, hpt, hnot, Ne.symm hpp]
          · by_cases hoff : q ∈ trade.proposerOffer.positions
            · have howner := (hoffer.titles q hoff).2.1
              by_cases hpp : p.id = trade.proposerId
              · simp [Register.convey, hreq, hoff, hpp, hformed.distinct.symm]
              · by_cases hpt : p.id = trade.targetId
                · simp [Register.convey, hreq, hoff, hpt, hformed.distinct.symm]
                · have hnot : q ∉ p.ownedPositions := by
                    rw [hp', howner]
                    exact fun h => hpp (Option.some.inj h).symm
                  simp [Register.convey, hreq, hoff, hpp, hpt, hnot, Ne.symm hpt]
            · simp [Register.convey, hreq, hoff, hlist]
      · rw [hseats]
        intro q hq
        obtain ⟨p, hp, rfl⟩ := List.mem_map.mp hq
        unfold swapSeat
        split
        · exact nodup_pySortedSet _
        · split
          · exact nodup_pySortedSet _
          · exact hb.nodup p hp

/-- An elimination bequeaths what the eliminated player lists. -/
theorem Books.bequeath (hs : Sound s) (hb : Books s) {d : PlayerState} {heir : Option PlayerId}
    (hd : d ∈ s.seats) (hne : heir ≠ some d.id) (hr : Removal d heir f g s m) : Books m := by
  have hids : (m.seats.map (·.id)).Nodup := by
    rw [hr.seats, ids_map fun p _ => hr.id p]; exact hs.ids
  have hdmem : d.id ∈ s.memberIds := ⟨d, hd, rfl⟩
  constructor
  · rw [memberIds_map hr.seats hr.id]
    refine (hb.agrees.bequeath hdmem hne).of_eq (funext fun q => ?_) ?_
    · have hlist : q ∈ s.register.lists d.id ↔ q ∈ d.ownedPositions := mem_lists hs.ids hd
      have hpos : ∀ o, (onListed d.ownedPositions g o).position = o.position := fun o => by
        unfold onListed; split <;> simp [hr.position]
      rw [owner_map hs.layout hr.spaces hpos]
      by_cases hq : OnBoard s.gameMode q
      · have hat : (ownershipAt s.spaces q).position = q := (ownershipAt_mem hs.layout hq).2
        have howner : s.register.owner q = (ownershipAt s.spaces q).ownerId := rfl
        by_cases hmem : q ∈ d.ownedPositions
        · simp [Register.bequeath, onListed, hq, hat, hlist, hmem, hr.owner]
        · simp [Register.bequeath, onListed, hq, hat, hlist, hmem, howner]
      · have hmem : q ∉ d.ownedPositions := fun h => hq (hs.deeds d hd q h).onBoard
        simp [Register.bequeath, hq, hlist, hmem, owner_off hs.layout hq]
    · rintro _ ⟨p, hp, rfl⟩
      ext q
      have hmem : f p ∈ m.seats := hr.seats ▸ List.mem_map_of_mem hp
      rw [← hr.id p, mem_lists hids hmem, hr.owned, hr.id]
      simp [Register.bequeath, mem_lists hs.ids hp, mem_lists hs.ids hd]
  · rw [hr.seats]
    intro q hq
    obtain ⟨p, hp, rfl⟩ := List.mem_map.mp hq
    exact hr.nodup p (hb.nodup p hp)

end Register

/-! ## the calls -/

/-- No auction is resolved in favour of a bidder when its property has come
to belong to another player. -/
def AuctionClear (s : GameState) (call : Call) : Prop :=
  call.command = .advanceAuction → isAuctionExpired s call.env.clock.nowMs = true →
    ∀ auction bidder owner, s.auction = some auction → auction.highestBidderId = some bidder →
      (ownershipAt s.spaces auction.propertyPosition).ownerId = some owner → owner = bidder

section Calls

variable {s m : GameState} {env : Env} {command : GameCommand}

theorem Books.purchase (hs : Sound s) (hb : Books s) {p : PlayerState} {position price : Nat}
    (hp : p ∈ s.seats) (hpos : OnBoard s.gameMode position)
    (hfree : (ownershipAt s.spaces position).ownerId = none)
    (hseats : m.seats = editSeat p.id (purchase position price) s.seats)
    (hspaces : m.spaces = editSpace position (grant p.id) s.spaces) : Books m := by
  have hregister := register_grant hs ⟨p, hp, rfl⟩ hseats hspaces (fun _ => rfl)
    (fun p q => by simp [Monopoly.purchase]) hpos
  constructor
  · rw [hregister, memberIds_map hseats fun q => by split <;> rfl]
    refine (hb.agrees.enter_iff _ ⟨p, hp, rfl⟩).mpr fun q hq k _ howner => ?_
    rw [Set.mem_singleton_iff.mp hq] at howner
    exact absurd (hfree.symm.trans howner) (by simp)
  · rw [hseats]
    intro x hx
    obtain ⟨q, hq, rfl⟩ := mem_editSeat.mp hx
    split
    · have hnot : position ∉ q.ownedPositions := fun h => by
        have howner := ((books_iff hs.ids).mp hb.agrees q hq position).mp h
        rw [hfree] at howner
        simp at howner
      simp only [Monopoly.purchase, nodup_pySorted]
      exact List.nodup_append.mpr ⟨hb.nodup q hq, List.nodup_singleton _,
        fun a ha b hb' => fun hab => hnot (by rw [← List.mem_singleton.mp hb', ← hab]; exact ha)⟩
    · exact hb.nodup q hq

/-- An auction keeps the records in agreement exactly when its property is
free, or the bidder's own. -/
theorem Books.resolve_iff (hs : Sound s) (hb : Books s) {auction : AuctionState}
    (hformed : AuctionFormed s auction) (hr : Resolved s auction m) :
    Books m ↔ ∀ bidder owner, auction.highestBidderId = some bidder →
      (ownershipAt s.spaces auction.propertyPosition).ownerId = some owner → owner = bidder := by
  cases hr with
  | unsold hnone hps => exact iff_of_true (hb.same hs hps rfl) (by simp [hnone])
  | @sold bidder ps hbidder hps =>
      have hseat := hformed.bidder bidder hbidder
      have hregister := register_grant (m := { s with
          players := ps, spaces := editSpace auction.propertyPosition (grant bidder) s.spaces })
        hs hseat hps rfl (fun _ => rfl) (fun p q => by simp [award]) hformed.property.onBoard
      have hmembers : GameState.memberIds { s with players := ps } = s.memberIds :=
        memberIds_map (f := fun q => if q.id = bidder then award _ _ q else q) hps
          fun q => by split <;> rfl
      have henter := hb.agrees.enter_iff {auction.propertyPosition} hseat
      constructor
      · intro hafter bidder' owner hbidder' howner
        obtain rfl : bidder = bidder' := Option.some.inj (hbidder.symm.trans hbidder')
        have hagrees := hafter.agrees
        obtain ⟨p, hp, hid, -⟩ := hs.title hformed.property.onBoard howner
        refine henter.mp ?_ _ rfl owner ⟨p, hp, hid⟩ howner
        rw [← hregister, ← hmembers]
        exact hagrees
      · intro hclear
        constructor
        · have hafter := henter.mpr fun q hq k _ howner => by
            rw [Set.mem_singleton_iff.mp hq] at howner
            exact hclear bidder k hbidder howner
          rw [← hregister, ← hmembers] at hafter
          exact hafter
        · show ∀ x ∈ seatsOf ps, x.ownedPositions.Nodup
          rw [hps]
          intro x hx
          obtain ⟨q, hq, rfl⟩ := mem_editSeat.mp hx
          split
          · exact nodup_pySortedSet _
          · exact hb.nodup q hq

theorem Books.after {e : GameState} (hb : Books e) (ha : AfterElimination e m) : Books m := by
  rw [ha.frame]
  exact ⟨hb.agrees, hb.nodup⟩

theorem Dispatched.books_iff (hw : WellFormed s) (hb : Books s)
    (hd : Dispatched s env command m) : Books m ↔ AuctionClear s ⟨command, env⟩ := by
  have hs := hw.toSound
  have hother (hne : command ≠ .advanceAuction) (hm : Books m) :
      Books m ↔ AuctionClear s ⟨command, env⟩ := iff_of_true hm fun h => absurd h hne
  cases hd with
  | auctioned hexpired ha hr =>
      rw [hb.resolve_iff hs (hw.auctions _ ha) hr]
      exact ⟨fun h _ _ a b o ha' hbid => h b o (by rwa [Option.some.inj (ha.symm.trans ha')])
        |> fun h' howner => h' (by rwa [Option.some.inj (ha.symm.trans ha')]),
        fun h b o hbid howner => h rfl hexpired _ b o ha hbid howner⟩
  | auctionIdle hidle => exact iff_of_true hb fun _ h => by simp [hidle] at h
  | rolled _ hp _ hr =>
      have hframe := hr.rollFrame hs
      obtain ⟨f, hseats, hf, -⟩ := hframe.seats
      exact hother (by simp) (hb.keep hs hf hseats (by rw [hframe.frame]))
  | bought _ hpending hfree _ hp _ hps =>
      exact hother (by simp) (hb.purchase hs hp (hw.pending _ hpending).onBoard hfree hps rfl)
  | passed _ _ => exact hother (by simp) (hb.same hs rfl rfl)
  | ended _ _ _ _ _ => exact hother (by simp) (hb.same hs rfl rfl)
  | bailed _ _ _ _ hps =>
      exact hother (by simp) (hb.keep hs ((KeepsEstate.bail _).edit _) hps rfl)
  | cardSpent _ _ _ _ hps =>
      exact hother (by simp) (hb.keep hs (KeepsEstate.spendJailCard.edit _) hps rfl)
  | reworked hcommand _ hr =>
      refine hother (by rintro rfl; simp [GameCommand.rework] at hcommand) ?_
      cases hr with
      | mk _ hps hpos howner _ =>
          exact Iff.mpr (books_keep hs ((KeepsEstate.credit _).edit _) hps rfl
            (fun o => by split <;> simp [hpos]) fun o => by split <;> simp [howner]) hb
  | proposed _ hprop => cases hprop; exact hother (by simp) (hb.same hs rfl rfl)
  | responded hresp =>
      refine hother (by simp) ?_
      cases hresp with
      | rejected _ _ => exact hb.same hs rfl rfl
      | countered _ _ _ _ => exact hb.same hs rfl rfl
      | accepted htrade _ _ hexec => exact hb.swap hs (hw.trades _ htrade) hexec
  | bid hbid => cases hbid; exact hother (by simp) (hb.same hs rfl rfl)
  | bankrupted hdebt hdebtor hd hl ha =>
      have hne : ∀ c, _ = some c → c ≠ _ := fun c hc => ((hw.debts _ hdebt).creditor c hc).2
      obtain ⟨f, g, hr⟩ := hl.removal (hw.debts _ hdebt).owed fun hc => hne _ hc hdebtor.symm
      exact hother (by simp) ((hb.bequeath hs hd (fun hc => hne _ hc hdebtor.symm) hr).after ha)
  | surrendered hp _ hsurr ha =>
      obtain ⟨f, g, hr⟩ := hsurr.removal
      exact hother (by simp) ((hb.bequeath hs hp (by simp) hr).after ha)
  | tradeIdle _ => exact hother (by simp) hb
  | tradeLapsed _ _ => exact hother (by simp) (hb.same hs rfl rfl)
  | timerIdle _ => exact hother (by simp) hb
  | timerSkipped _ _ _ _ hps ht =>
      refine hother (by simp) ?_
      cases ht with
      | passed _ _ => exact hb.same hs hps rfl
      | nobody _ => exact hb.same hs hps rfl
  | timerSpent _ _ _ _ _ hps => exact hother (by simp) (hb.same hs hps rfl)
  | timerForced _ hp _ _ _ hsurr ha =>
      obtain ⟨f, g, hr⟩ := hsurr.removal
      exact hother (by simp) ((hb.bequeath hs (mem_seats hp) (by simp) hr).after ha)

/-- A call keeps the records in agreement exactly when it is clear. -/
theorem Stepped.books_iff {s' : GameState} (hw : WellFormed s) (hb : Books s)
    (hstep : Stepped s env command s') : Books s' ↔ AuctionClear s ⟨command, env⟩ := by
  have htidied {a b : GameState} (ha : Sound a) (ht : Tidied a b) : Books b ↔ Books a :=
    books_keep ha (g := id) .refl (ht.seats_eq.trans (List.map_id' _).symm)
      (by cases ht; exact (List.map_id _).symm) (fun _ => rfl) fun _ => rfl
  cases hstep with
  | replied _ hd ht => exact (htidied (hd.wellFormed hw).toSound ht).trans (hd.books_iff hw hb)
  | @played m n _ _ hd hsettled ht =>
      have hm := hd.wellFormed hw
      refine (htidied (hsettled.wellFormed hm).toSound ht).trans
        (Iff.trans ?_ (hd.books_iff hw hb))
      cases hsettled with
      | free _ | owing _ _ => rfl
      | paid _ _ hps =>
          exact books_keep hm.toSound (g := id) (.transfer _ _ _) hps (List.map_id _).symm
            (fun _ => rfl) fun _ => rfl

end Calls

/-! ## games -/

/-- The owner records and the lists of positions agree: a player lists a
position exactly when the space names them, lists it once, and lists
purchasable spaces only. -/
structure OwnershipAgrees (s : GameState) : Prop where
  titles : ∀ p ∈ s.players, ∀ q,
    q ∈ p.ownedPositions ↔ (ownershipAt s.spaces q).ownerId = some p.id
  nodup : ∀ p ∈ s.players, p.ownedPositions.Nodup
  purchasable : ∀ p ∈ s.players, ∀ q ∈ p.ownedPositions, isPurchasable q s.gameMode = .ok true

theorem ownershipAgrees_iff {s : GameState} (hs : Sound s) : OwnershipAgrees s ↔ Books s := by
  have hpurchasable : ∀ p ∈ s.players, ∀ q ∈ p.ownedPositions,
      isPurchasable q s.gameMode = .ok true := by
    intro p hp q hq
    have hdeed := hs.deeds p.bare (mem_seats hp) q hq
    rw [isPurchasable_eq hdeed.onBoard]
    simpa using hdeed
  have hseats {P : PlayerState → Prop} (hP : ∀ p, P p ↔ P p.bare) :
      (∀ p ∈ s.players, P p) ↔ ∀ p ∈ s.seats, P p := by
    simp only [GameState.seats, seatsOf, List.forall_mem_map]
    exact forall₂_congr fun p _ => hP p
  have htitles := (hseats (P := fun p => ∀ q, q ∈ p.ownedPositions ↔
    (ownershipAt s.spaces q).ownerId = some p.id) fun _ => Iff.rfl).trans (books_iff hs.ids).symm
  have hnodup := hseats (P := fun p => p.ownedPositions.Nodup) fun _ => Iff.rfl
  exact ⟨fun h => ⟨htitles.mp h.titles, hnodup.mp h.nodup⟩,
    fun h => ⟨htitles.mpr h.agrees, hnodup.mpr h.nodup, hpurchasable⟩⟩

theorem Opens.books {args : NewGame} {s : GameState} (h : Opens args s) : Books s := by
  have hfresh := h.fresh
  refine ⟨(books_iff hfresh.ids).mpr fun p hp q => ?_, fun p hp => ?_⟩
  · have hnone : (ownershipAt s.spaces q).ownerId = none := by
      by_cases hq : OnBoard s.gameMode q
      · exact hfresh.unowned _ (ownershipAt_mem hfresh.layout hq).1
      · rw [ownershipAt_off hfresh.layout hq]
    simp [(hfresh.seats p hp).2.2.1, hnone]
  · simp [(hfresh.seats p hp).2.2.1]

/-- **Ownership.** The records agree in every state of a game exactly when
every call of the game is clear. -/
theorem ownership_agrees_iff {h : List (Taken GameState Call)} {s : GameState} (hplay : Play h s) :
    (OwnershipAgrees s ∧ ∀ t ∈ h, OwnershipAgrees t.before) ↔
      ∀ t ∈ h, AuctionClear t.before t.label := by
  refine Run.invariant_iff (A := AuctionClear) ?_ ?_ hplay
  · rintro s ⟨args, hopens⟩
    exact (ownershipAgrees_iff hopens.fresh.wellFormed.toSound).mpr hopens.books
  · intro h s call s' hplay hagrees haccepted
    obtain ⟨hw, hl⟩ := Play.formed hplay
    obtain ⟨-, hstep⟩ := haccepted.stepped hw hl
    rw [ownershipAgrees_iff (hstep.wellFormed hw).toSound]
    exact hstep.books_iff hw ((ownershipAgrees_iff hw.toSound).mp hagrees)

theorem ownership_agrees_after_purchase :
    ∃ h s, Play h s ∧ h.reverse.map (·.label) = firstPurchase ∧ OwnershipAgrees s := by
  obtain ⟨h, s, hplay, hlabels, -⟩ := play_of_reaches (duo 1500) firstPurchase
    (fun _ _ => true) (by decide) (by decide +kernel)
  refine ⟨h, s, hplay, hlabels, ((ownership_agrees_iff hplay).mpr fun t ht => ?_).1⟩
  have hcalls : ∀ call ∈ firstPurchase, call.command ≠ .advanceAuction := by decide
  exact fun hadvance => absurd hadvance (hcalls _ (label_mem_of_reverse hlabels ht))

/-- An offer of nothing. -/
def nothing : TradeOffer := {}

/-- Player `1` lands on position `4` and passes, bids on it, has a trade
turned down while the auction is pending, and ends the turn.  Player `2`
rolls to position `4` and buys it before the auction timer fires. -/
def staleAuction : List Call :=
  [callAt 0 [0, 1] (.rollDice 1),
    callAt 0 [] (.passBuy 1),
    callAt 0 [] (.placeBid 1 10),
    callAt 0 [] (.proposeTrade 1 2 nothing nothing),
    callAt 0 [] (.respondTrade 2 7 .reject none),
    callAt 0 [] (.endTurn 1),
    callAt 0 [0, 1] (.rollDice 2),
    callAt 0 [] (.buyProperty 2 4),
    callAt 40000 [] .advanceAuction]

/-- Both players list position `4` at the end, and only one owns it. -/
theorem stale_auction_breaks_ownership :
    (staleAuction.map (·.env.clock.nowMs)).Pairwise (· ≤ ·) ∧ ∃ h s, Play h s ∧
      h.reverse.map (·.label) = staleAuction ∧ ¬ OwnershipAgrees s := by
  refine ⟨by decide, ?_⟩
  obtain ⟨h, s, hplay, hlabels, hcheck⟩ := play_of_reaches (duo 1500) staleAuction
    (fun _ s => s.players.any fun p =>
      decide (4 ∈ p.ownedPositions ∧ (ownershipAt s.spaces 4).ownerId ≠ some p.id))
    (by decide) (by decide +kernel)
  refine ⟨h, s, hplay, hlabels, fun hagrees => ?_⟩
  obtain ⟨p, hp, hlisted⟩ := List.any_eq_true.mp hcheck
  have hboth := of_decide_eq_true hlisted
  exact hboth.2 ((hagrees.titles p hp 4).mp hboth.1)

end Monopoly
