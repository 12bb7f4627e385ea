import Monopoly.Laws.AdvertisedActions

/-!
# Monopoly.Laws.Jail

Whoever is in jail sits on its position, is in the game and has one to three
turns left there.  There are three ways in (the space, the card and the third
doubles in a row), all through `sendToJail`, and four ways out (doubles, the
third failed roll, the fine and the card) besides elimination; everything
else leaves the jail status alone.

* `Celled` is what a jailed seat looks like, and `JailKept` says so of every
  seat of a table;
* `Dispatched.jailKept` goes through the handlers;
* `Play.jailKept` is the invariant of a whole game.
-/

namespace Monopoly

/-- A seat in jail is on the jail's position, not eliminated, and there for one
to three turns. -/
def Celled (mode : GameMode) (p : PlayerState) : Prop :=
  ∀ jail, p.jailStatus = some jail → p.position = (getGameConfig mode).jailPosition ∧
    p.isBankrupt = false ∧ 1 ≤ jail.turnsRemaining ∧ jail.turnsRemaining ≤ jailTurnsInitial

/-- Everybody who is in jail is there properly. -/
def JailKept (s : GameState) : Prop := ∀ p ∈ s.seats, Celled s.gameMode p

section Seats

variable {s m : GameState} {mode : GameMode} {r : PlayerId} {f : PlayerState → PlayerState}

/-- Whoever is not in jail need not be anywhere. -/
theorem Celled.of_free {p : PlayerState} (hfree : p.jailStatus = none) : Celled mode p := by
  intro jail hjail
  rw [hfree] at hjail
  cases hjail

/-- The one way in puts the player on the position of the jail, with three
turns. -/
theorem celled_sendToJail {p : PlayerState} (hactive : p.isBankrupt = false) :
    Celled mode (sendToJail p mode) := by
  intro jail hjail
  obtain rfl := Option.some.inj hjail
  exact ⟨rfl, hactive, by decide, le_rfl⟩

/-- The jail is a matter of the seats. -/
theorem JailKept.of_seats_eq (h : JailKept s) (hseats : m.seats = s.seats)
    (hmode : m.gameMode = s.gameMode) : JailKept m := by
  intro p hp
  rw [hmode]
  exact h p (hseats ▸ hp)

/-- An edit of all seats that keeps the jailed as they should be. -/
theorem JailKept.of_map (h : JailKept s) (hseats : m.seats = s.seats.map f)
    (hmode : m.gameMode = s.gameMode)
    (hf : ∀ p ∈ s.seats, Celled s.gameMode p → Celled s.gameMode (f p)) : JailKept m := by
  intro q hq
  rw [hseats] at hq
  obtain ⟨p, hp, rfl⟩ := List.mem_map.mp hq
  rw [hmode]
  exact hf p hp (h p hp)

/-- The same for the edit of one seat. -/
theorem JailKept.of_edit (h : JailKept s) (hseats : m.seats = editSeat r f s.seats)
    (hmode : m.gameMode = s.gameMode)
    (hf : ∀ p ∈ s.seats, p.id = r → Celled s.gameMode p → Celled s.gameMode (f p)) :
    JailKept m := by
  refine h.of_map hseats hmode fun p hp hcelled => ?_
  by_cases hid : p.id = r
  · rw [if_pos hid]
    exact hf p hp hid hcelled
  · rw [if_neg hid]
    exact hcelled

end Seats

/-! ## one call -/

section Steps

variable {s m a e : GameState} {r : PlayerId} {env : Env} {command : GameCommand}

/-- A charge moves money, whoever pays and wherever they are. -/
theorem Charged.jailKept {amount : Int} {creditor : Option PlayerId} (h : JailKept a)
    (hc : Charged r amount creditor a m) : JailKept m := by
  cases hc with
  | nothing _ hps | dropped _ _ _ hps | indebted _ _ _ hps => exact h.of_seats_eq hps rfl
  | paid _ _ hps => exact h.of_map hps rfl fun _ _ hp => hp

/-- Coming to rest moves money, or sends the player to jail. -/
theorem Touchdown.jailKept {leg : Leg} {stop : Option CardDef} {jailed : Bool} (h : JailKept a)
    (hactive : ∀ p ∈ a.seats, p.id = r → p.isBankrupt = false)
    (ht : Touchdown r a leg stop m jailed) : JailKept m := by
  cases ht with
  | jailSpace _ hps | jailCard _ hps =>
      exact h.of_edit hps rfl fun p hp hid _ => celled_sendToJail (hactive p hp hid)
  | @taxed amount c ps _ hc _ hps => exact (hc.jailKept h).of_seats_eq hps rfl
  | taxOwed _ hc _ | rented _ hc _ | rentOwed _ hc _ =>
      exact (hc.jailKept h).of_seats_eq rfl rfl
  | charged _ hc => exact hc.jailKept h
  | rested _ _ hps => exact h.of_seats_eq hps rfl
  | collected _ hps | keptJailCard _ hps => exact h.of_edit hps rfl fun _ _ _ hp => hp
  | collectedFromEach _ _ hps =>
      refine h.of_map hps rfl fun p _ hp => ?_
      unfold collectEach
      split <;> exact hp
  | paidEach _ hps =>
      refine h.of_map hps rfl fun p _ hp => ?_
      unfold payEach
      split
      · exact hp
      · split <;> exact hp

/-- A roll leads into jail, leaves one turn less in it, or out of it; the
player who moves on is free. -/
theorem Rolled.jailKept {p : PlayerState} {rng : Rng} {goSalary jailFine : Int} (h : JailKept s)
    (hids : (s.seats.map (·.id)).Nodup) (hp : p ∈ s.seats) (hactive : p.isBankrupt = false)
    (hr : Rolled s p rng goSalary jailFine m) : JailKept m := by
  have hroller : ∀ q ∈ s.seats, q.id = p.id → q = p := fun q hq hid =>
    eq_of_key_eq PlayerState.id hids hq hp hid
  cases hr with
  | jailed _ _ _ hps =>
      refine h.of_edit hps rfl fun q hq hid _ => ?_
      rw [hroller q hq hid]
      exact celled_sendToJail hactive
  | @stayed jail ps hjail _ hleft hps =>
      refine h.of_edit hps rfl fun q hq hid hcelled => ?_
      rw [hroller q hq hid] at hcelled ⊢
      obtain ⟨hposition, hin, -, hmost⟩ := hcelled jail hjail
      intro jail' hjail'
      obtain rfl := Option.some.inj hjail'
      exact ⟨hposition, hin, hleft, (Nat.sub_le _ _).trans hmost⟩
  | @moved leg stop s₁ sentToJail _ newStreak _ _ ht _ =>
      have hrest : JailKept (comeToRest s p.id leg) :=
        h.of_edit (seats_comeToRest s p.id leg) rfl fun _ _ _ _ => .of_free rfl
      have hkept : JailKept s₁ := by
        refine ht.jailKept hrest fun q hq hid => ?_
        rw [seats_comeToRest] at hq
        obtain ⟨q', hq', rfl⟩ := mem_editSeat.mp hq
        by_cases hq'id : q'.id = p.id
        · rw [if_pos hq'id, hroller q' hq' hq'id]
          exact hactive
        · rw [if_neg hq'id] at hid
          exact absurd hid hq'id
      exact hkept.of_seats_eq rfl rfl

/-- Who goes out is taken out of jail. -/
theorem Eliminated.jailKept {d : PlayerState} (h : JailKept s)
    (he : Eliminated s d command e) : JailKept e := by
  cases he with
  | bankrupted _ _ hl =>
      cases hl with
      | toCreditor _ hps =>
          refine h.of_map hps rfl fun p _ hp => ?_
          split
          · exact .of_free rfl
          · split <;> exact hp
      | toBank _ hps =>
          refine h.of_map hps rfl fun p _ hp => ?_
          split
          · exact .of_free rfl
          · exact hp
  | surrendered _ hsurr | forced _ hsurr =>
      cases hsurr with
      | mk hps =>
          refine h.of_map hps rfl fun p _ hp => ?_
          split
          · exact .of_free rfl
          · exact hp

/-- Who comes next sits where they sat. -/
theorem AfterElimination.jailKept (h : JailKept e) (ha : AfterElimination e m) : JailKept m := by
  have hseats : m.seats = e.seats := by rw [ha.frame]; rfl
  exact h.of_seats_eq hseats (by rw [ha.frame])

/-- One case for each handler.  Only rolls, bail, jail cards and eliminations
touch the jail. -/
theorem Dispatched.jailKept (hw : WellFormed s) (hl : Live s) (hin : s.status = .inProgress)
    (hmay : MayAct s command) (h : JailKept s) (hd : Dispatched s env command m) :
    JailKept m := by
  cases hd with
  | @rolled p _ _ hp _ hr =>
      obtain ⟨⟨x, hx, hxid, hxactive⟩, -⟩ := hl hin
      obtain rfl : x = p := eq_of_key_eq PlayerState.id hw.ids hx hp (hxid.trans (hmay _ rfl rfl))
      exact hr.jailKept h hw.ids hp hxactive
  | bought _ _ _ _ _ _ hps => exact h.of_edit hps rfl fun _ _ _ hp => hp
  | passed _ _ | ended _ _ _ _ _ _ | auctionIdle _ | tradeIdle _ | tradeLapsed _ _ | timerIdle _ =>
      exact h.of_seats_eq rfl rfl
  | bailed _ _ _ _ hps | cardSpent _ _ _ _ hps =>
      exact h.of_edit hps rfl fun _ _ _ _ => .of_free rfl
  | reworked _ _ hr =>
      cases hr with
      | mk _ hps _ _ _ => exact h.of_edit hps rfl fun _ _ _ hp => hp
  | proposed _ hprop =>
      cases hprop
      exact h.of_seats_eq rfl rfl
  | responded hresp =>
      cases hresp with
      | rejected _ _ | countered _ _ _ _ => exact h.of_seats_eq rfl rfl
      | accepted _ _ _ hexec =>
          cases hexec with
          | mk _ _ hps =>
              refine h.of_map hps rfl fun p _ hp => ?_
              unfold swapSeat
              split
              · exact hp
              · split <;> exact hp
  | bid hbid =>
      cases hbid
      exact h.of_seats_eq rfl rfl
  | bankrupted hdebt hdebtor _ hliq ha =>
      exact ha.jailKept (Eliminated.jailKept h (.bankrupted hdebt hdebtor hliq))
  | surrendered _ hactive hsurr ha =>
      exact ha.jailKept (Eliminated.jailKept h (.surrendered hactive hsurr))
  | auctioned _ _ hr =>
      cases hr with
      | unsold _ hps => exact h.of_seats_eq hps rfl
      | sold _ hps => exact h.of_edit hps rfl fun _ _ _ hp => hp
  | timerSkipped _ _ _ _ hps ht _ =>
      cases ht with
      | passed _ _ | nobody _ => exact h.of_seats_eq hps rfl
  | timerSpent _ _ _ _ _ hps => exact h.of_seats_eq hps rfl
  | @timerForced p _ _ _ _ _ _ hactive hsurr ha =>
      exact ha.jailKept (Eliminated.jailKept (d := p.bare) h (.forced hactive hsurr))

/-- The refresh of the display fields does not. -/
theorem Tidied.jailKept (h : JailKept s) (ht : Tidied s m) : JailKept m :=
  h.of_seats_eq ht.seats_eq ht.gameMode

/-- Nor does a debt that is settled. -/
theorem Settled.jailKept (h : JailKept s) (hs : Settled s m) : JailKept m := by
  cases hs with
  | free _ | owing _ _ => exact h
  | paid _ _ hps => exact h.of_map hps rfl fun _ _ hp => hp

end Steps

/-! ## every state of a game -/

section Games

variable {h : List (Taken GameState Call)} {s : GameState}

/-- So it holds in every state of a game that is on. -/
theorem Play.jailKept (hplay : Play h s) : s.status = .inProgress → JailKept s := by
  refine Play.invariant (I := fun s => s.status = .inProgress → JailKept s)
    (fun args s hopens _ p hp => ?_) (fun s call s' hw hl hI hmay hstepped hin => ?_) hplay
  · exact .of_free (hopens.fresh.seats p hp).2.2.2.2.1
  · have hbefore := hstepped.inProgress hw hmay hin
    have hkept := hI hbefore
    cases hstepped with
    | replied _ hd ht => exact ht.jailKept (hd.jailKept hw hl hbefore hmay hkept)
    | played _ hd hsettled ht =>
        exact ht.jailKept (hsettled.jailKept (hd.jailKept hw hl hbefore hmay hkept))

end Games

end Monopoly
