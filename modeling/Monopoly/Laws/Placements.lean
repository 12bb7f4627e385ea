import Monopoly.Lib.Stamps
import Monopoly.Service.Rating
import Monopoly.Spec.Replay

/-!
# Monopoly.Laws.Placements

The ranking of a finished game follows the eliminations.  A player who is
eliminated is stamped with the turn number, and while the game goes on the
turn is handed on at once, so that no two stamps are the same.
-/

namespace Monopoly

/-! ## elimination records -/

/-- What the ranking reads of a player. -/
structure Record where
  id : PlayerId
  userId : UserId
  isBankrupt : Bool
  eliminatedAt : Option Nat

def PlayerState.record (p : PlayerState) : Record :=
  ⟨p.id, p.userId, p.isBankrupt, p.eliminatedAt⟩

def GameState.records (s : GameState) : List Record := s.players.map PlayerState.record

/-- The record of `pid` after the elimination of `pid`. -/
def Record.strike (pid : PlayerId) (turnNumber : Nat) (r : Record) : Record :=
  if r.id = pid then { r with isBankrupt := true, eliminatedAt := some turnNumber } else r

/-- The turn number at which a player was eliminated. -/
def GameState.eliminatedAt (s : GameState) (pid : PlayerId) : Option Nat :=
  (s.records.find? fun r => decide (r.id = pid)).bind (·.eliminatedAt)

/-- A change of a seat that the ranking does not see. -/
def KeepsRecord (f : PlayerState → PlayerState) : Prop := ∀ p, (f p).record = p.record

section Records

variable {s m e a : GameState} {r pid : PlayerId} {f : PlayerState → PlayerState}

theorem records_eq (s : GameState) : s.records = s.seats.map PlayerState.record := by
  rw [GameState.seats, seatsOf, List.map_map]
  rfl

theorem records_of_seats_eq (h : m.seats = s.seats) : m.records = s.records := by
  rw [records_eq, records_eq, h]

theorem records_of_map (h : m.seats = s.seats.map f) (hf : KeepsRecord f) :
    m.records = s.records := by
  rw [records_eq, records_eq, h, List.map_map]
  exact List.map_congr_left fun p _ => hf p

theorem records_of_edit (h : m.seats = editSeat r f s.seats) (hf : KeepsRecord f) :
    m.records = s.records :=
  records_of_map h fun p => by split <;> [exact hf p; rfl]

theorem Charged.records {amount : Int} {creditor : Option PlayerId}
    (hc : Charged r amount creditor a m) : m.records = a.records := by
  cases hc with
  | nothing _ hps | dropped _ _ _ hps | indebted _ _ _ hps => exact records_of_seats_eq hps
  | paid _ _ hps => exact records_of_map hps fun _ => rfl

theorem Touchdown.records {leg : Leg} {stop : Option CardDef} {jailed : Bool}
    (ht : Touchdown r a leg stop m jailed) : m.records = a.records := by
  cases ht with
  | jailSpace _ hps | jailCard _ hps => exact records_of_edit hps fun _ => rfl
  | taxed _ hc _ hps =>
      rw [← hc.records]
      exact records_of_seats_eq hps
  | taxOwed _ hc _ | rented _ hc _ | rentOwed _ hc _ => exact hc.records
  | charged _ hc => exact hc.records
  | rested _ _ hps => exact records_of_seats_eq hps
  | collected _ hps | keptJailCard _ hps => exact records_of_edit hps fun _ => rfl
  | collectedFromEach _ _ hps =>
      refine records_of_map hps fun p => ?_
      unfold collectEach
      split <;> rfl
  | paidEach _ hps =>
      refine records_of_map hps fun p => ?_
      unfold payEach
      split <;> [rfl; split <;> rfl]

theorem Rolled.records {p : PlayerState} {rng : Rng} {goSalary jailFine : Int}
    (hr : Rolled s p rng goSalary jailFine m) : m.records = s.records := by
  cases hr with
  | jailed _ _ _ hps | stayed _ _ _ hps => exact records_of_edit hps fun _ => rfl
  | @moved leg stop s₁ _ _ _ _ _ ht _ =>
      have hrest : (comeToRest s p.id leg).records = s.records :=
        records_of_edit (seats_comeToRest s p.id leg) fun _ => rfl
      exact (Touchdown.records ht).trans hrest

variable {env : Env} {command : GameCommand}

/-- A handler that eliminates nobody leaves the records alone, and does not
turn the turns back. -/
theorem Dispatched.records (hw : WellFormed s) (hd : Dispatched s env command m)
    (hnot : ¬ Eliminating s env command) :
    m.records = s.records ∧ s.turn.turnNumber ≤ m.turn.turnNumber := by
  cases hd with
  | rolled _ _ _ hr =>
      constructor
      · exact hr.records
      · rw [(hr.rollFrame hw.toSound).frame]
  | bought _ _ _ _ _ _ hps => exact ⟨records_of_edit hps fun _ => rfl, Nat.le_refl _⟩
  | bailed _ _ _ _ hps | cardSpent _ _ _ _ hps =>
      exact ⟨records_of_edit hps fun _ => rfl, Nat.le_refl _⟩
  | ended _ _ _ _ _ => exact ⟨rfl, Nat.le_succ _⟩
  | reworked _ _ hr =>
      cases hr with
      | mk _ hps _ _ _ => exact ⟨records_of_edit hps fun _ => rfl, Nat.le_refl _⟩
  | proposed _ hprop => cases hprop; exact ⟨rfl, Nat.le_refl _⟩
  | responded hresp =>
      cases hresp with
      | rejected _ _ | countered _ _ _ _ => exact ⟨rfl, Nat.le_refl _⟩
      | @accepted trade _ _ _ _ _ hexec =>
          cases hexec with
          | mk _ _ hps =>
              refine ⟨records_of_map hps fun p => ?_, Nat.le_refl _⟩
              unfold swapSeat
              split <;> (try split) <;> rfl
  | bid hbid => cases hbid; exact ⟨rfl, Nat.le_refl _⟩
  | bankrupted _ _ _ _ _ | surrendered _ _ _ _ => exact absurd trivial hnot
  | timerForced hdue hp hid hmax hact _ _ => exact absurd ⟨hdue, _, hp, hid, hmax, hact⟩ hnot
  | auctioned _ _ hr =>
      cases hr with
      | unsold _ hps => exact ⟨records_of_seats_eq hps, Nat.le_refl _⟩
      | sold _ hps => exact ⟨records_of_edit hps fun _ => rfl, Nat.le_refl _⟩
  | timerSkipped _ _ _ _ hps ht =>
      cases ht with
      | passed _ _ => exact ⟨records_of_seats_eq hps, Nat.le_succ _⟩
      | nobody _ => exact ⟨records_of_seats_eq hps, Nat.le_refl _⟩
  | timerSpent _ _ _ _ _ hps => exact ⟨records_of_seats_eq hps, Nat.le_refl _⟩
  | passed _ _ | auctionIdle _ | tradeIdle _ | tradeLapsed _ _ | timerIdle _ =>
      exact ⟨rfl, Nat.le_refl _⟩

theorem records_struck {d : PlayerState} {n : Nat} (h : m.seats = s.seats.map f)
    (hd : ∀ p, p.id = d.id → (f p).record = ⟨p.id, p.userId, true, some n⟩)
    (hothers : ∀ p, p.id ≠ d.id → (f p).record = p.record) :
    m.records = s.records.map (Record.strike d.id n) := by
  rw [records_eq, records_eq, h, List.map_map, List.map_map]
  apply List.map_congr_left
  intro p _
  by_cases hp : p.id = d.id
  · exact (hd p hp).trans (if_pos hp).symm
  · exact (hothers p hp).trans (if_neg hp).symm

/-- An elimination stamps the record of the eliminated player, and no
other. -/
theorem Eliminated.records {d : PlayerState} (he : Eliminated s d command e) :
    e.records = s.records.map (Record.strike d.id s.turn.turnNumber) := by
  cases he with
  | bankrupted _ _ hl =>
      cases hl with
      | toCreditor _ hps =>
          refine records_struck hps (fun p hp => ?_) fun p hp => ?_
          · rw [if_pos hp]; rfl
          · rw [if_neg hp]; split <;> rfl
      | toBank _ hps =>
          refine records_struck hps (fun p hp => ?_) fun p hp => ?_
          · rw [if_pos hp]; rfl
          · rw [if_neg hp]
  | surrendered _ hsurr | forced _ hsurr =>
      cases hsurr with
      | mk hps =>
          refine records_struck hps (fun p hp => ?_) fun p hp => ?_
          · rw [if_pos hp]; rfl
          · rw [if_neg hp]; rfl

/-- The game is over, and the one player left has won it. -/
def Won (s : GameState) : Prop :=
  s.status = .finished ∧
    ∃ w, s.records.filter (fun r => ¬ r.isBankrupt) = [w] ∧ s.winnerId = some w.id

/-- What an accepted call does to the records of a game that is on. -/
inductive Struck (s m : GameState) : Prop
  | nobody : m.records = s.records → s.turn.turnNumber ≤ m.turn.turnNumber →
      m.status = .inProgress → Struck s m
  | struck {d : PlayerState} : d ∈ s.seats → d.isBankrupt = false →
      m.records = s.records.map (Record.strike d.id s.turn.turnNumber) →
      m.status = .inProgress ∧ s.turn.turnNumber < m.turn.turnNumber ∨ Won m → Struck s m

theorem Dispatched.struck (hw : WellFormed s) (hl : Live s) (hin : s.status = .inProgress)
    (hmay : MayAct s command) (hd : Dispatched s env command m) : Struck s m := by
  have hlm := hd.live hw hl hmay
  rcases hd.roster hw hmay with ⟨hnot, _, _, _, hstatus, _⟩ | ⟨-, d, e, hdm, hcurrent, he, ha⟩
  · obtain ⟨hrecords, hle⟩ := hd.records hw hnot
    exact .nobody hrecords hle (hstatus.trans hin)
  · obtain ⟨x, hx, hxid, hxact⟩ := (hl hin).1
    obtain rfl : x = d := eq_of_key_eq PlayerState.id hw.ids hx hdm (hxid.trans hcurrent.symm)
    obtain ⟨heir, f, g, -, hr⟩ := he.removal hw
    have hseats : m.records = e.records := records_of_seats_eq (by rw [ha.frame]; rfl)
    have hturn : e.turn = s.turn := by rw [hr.frame]
    have hestatus : e.status = .inProgress := by rw [hr.frame]; exact hin
    -- while the game goes on the turn is handed on
    have hon : m.status = .inProgress → s.turn.turnNumber < m.turn.turnNumber := by
      intro hgo
      obtain ⟨-, next, round, rfl⟩ := ha.handedOn hlm hgo
      show s.turn.turnNumber < e.turn.turnNumber + 1
      rw [hturn]
      omega
    refine .struck hx hxact (hseats.trans he.records) ?_
    cases ha with
    | passed _ _ ht =>
        have hgo : m.status = .inProgress := by cases ht <;> exact hestatus
        exact .inl ⟨hgo, hon hgo⟩
    | ended hc hfin =>
        cases hc with
        | unchanged _ => exact .inl ⟨hestatus, hon hestatus⟩
        | @won w _ hone =>
            refine .inr ⟨rfl, w.record, ?_, rfl⟩
            rw [records_eq, List.filter_map]
            exact congrArg (List.map PlayerState.record) hone

theorem Struck.congr {c : GameState} (h : Struck s m) (hrecords : c.records = m.records)
    (hturn : c.turn.turnNumber = m.turn.turnNumber) (hstatus : c.status = m.status)
    (hwinner : c.winnerId = m.winnerId) : Struck s c := by
  cases h with
  | nobody hkept hle hin =>
      exact .nobody (hrecords.trans hkept) (hturn ▸ hle) (hstatus.trans hin)
  | struck hd hact hstruck hend =>
      refine .struck hd hact (hrecords.trans hstruck) ?_
      unfold Won
      rw [hstatus, hturn, hrecords, hwinner]
      exact hend

theorem Stepped.struck (hw : WellFormed s) (hl : Live s) (hin : s.status = .inProgress)
    (hmay : MayAct s command) (h : Stepped s env command m) : Struck s m := by
  have htidied : ∀ {a b : GameState}, Struck s a → Tidied a b → Struck s b := by
    intro a b ha ht
    have hrecords := records_of_seats_eq ht.seats_eq
    cases ht
    exact ha.congr hrecords rfl rfl rfl
  cases h with
  | replied _ hd ht => exact htidied (hd.struck hw hl hin hmay) ht
  | played _ hd hsettled ht =>
      refine htidied ?_ ht
      have hstruck := hd.struck hw hl hin hmay
      cases hsettled with
      | free _ | owing _ _ => exact hstruck
      | paid _ _ hps => exact hstruck.congr (records_of_map hps fun _ => rfl) rfl rfl rfl

end Records

/-! ## the run of a game -/

/-- The records of a game of the members of `args`, up to its end. -/
structure Chronicled (args : NewGame) (s : GameState) : Prop where
  coherent : ∀ r ∈ s.records, r.isBankrupt = r.eliminatedAt.isSome
  users : (s.records.map (·.userId)).Perm (args.members.map (·.userId))
  ids : (s.records.map (·.id)).Nodup
  status : s.status = .inProgress ∨ Won s

section Games

variable {args : NewGame} {s m : GameState} {h : List (Taken GameState Call)}

@[simp] theorem strike_id (pid : PlayerId) (n : Nat) (r : Record) : (r.strike pid n).id = r.id := by
  unfold Record.strike
  split <;> rfl

@[simp] theorem strike_userId (pid : PlayerId) (n : Nat) (r : Record) :
    (r.strike pid n).userId = r.userId := by
  unfold Record.strike
  split <;> rfl

theorem Struck.chronicled (h : Struck s m) (hc : Chronicled args s) : Chronicled args m := by
  cases h with
  | nobody hrecords _ hin =>
      constructor
      · rw [hrecords]
        exact hc.coherent
      · rw [hrecords]
        exact hc.users
      · rw [hrecords]
        exact hc.ids
      · exact .inl hin
  | @struck d _ _ hstruck hend =>
      constructor
      · intro r hr
        rw [hstruck] at hr
        obtain ⟨q, hq, rfl⟩ := List.mem_map.mp hr
        unfold Record.strike
        split
        · rfl
        · exact hc.coherent q hq
      · rw [hstruck, List.map_map]
        simpa [Function.comp_def] using hc.users
      · rw [hstruck, List.map_map]
        simpa [Function.comp_def] using hc.ids
      · exact hend.imp_left And.left

/-- Nobody has been eliminated from a new game. -/
theorem Opens.records_blank (hopens : Opens args s) {r : Record} (hr : r ∈ s.records) :
    r.isBankrupt = false ∧ r.eliminatedAt = none := by
  obtain ⟨-, uuid4, -, rng, hnew⟩ := hopens
  obtain ⟨p, hp, rfl⟩ := List.mem_map.mp hr
  rw [newGame_players hnew] at hp
  obtain ⟨i, hi, rfl⟩ := List.mem_mapIdx.mp hp
  exact ⟨rfl, rfl⟩

theorem Opens.chronicled (hopens : Opens args s) : Chronicled args s := by
  have hfresh := hopens.fresh
  have hblank : ∀ r ∈ s.records, r.isBankrupt = false ∧ r.eliminatedAt = none :=
    fun _ hr => hopens.records_blank hr
  obtain ⟨-, uuid4, -, rng, hnew⟩ := hopens
  constructor
  · intro r hr
    rw [(hblank r hr).1, (hblank r hr).2]
    rfl
  · have husers : s.records.map (·.userId) =
        (args.rng.shuffle args.members).1.map (·.userId) := by
      rw [GameState.records, newGame_players hnew]
      apply List.ext_getElem <;> simp [PlayerState.record, newPlayer]
    rw [husers]
    exact (shuffle_perm args.rng args.members).map _
  · rw [records_eq, List.map_map]
    exact hfresh.ids
  · exact .inl hfresh.status

/-- A call accepted before the game is over. -/
def PlayedOn (s : GameState) (call : Call) (s' : GameState) : Prop :=
  Accepted s call s' ∧ s.status ≠ .finished

theorem PlayedOn.struck (hrun : Run (Opens args) PlayedOn h s) (hc : Chronicled args s)
    {call : Call} (hstep : PlayedOn s call m) : Struck s m := by
  obtain ⟨haccepted, hon⟩ := hstep
  have hplay : Play h s :=
    (Run.restrict_iff.mp hrun).1.weaken fun _ hopens => ⟨args, hopens⟩
  obtain ⟨hw, hl⟩ := hplay.formed
  obtain ⟨hmay, hstepped⟩ := haccepted.stepped hw hl
  have hin : s.status = .inProgress := hc.status.resolve_right fun hwon => hon hwon.1
  exact hstepped.struck hw hl hin hmay

theorem chronicled_of_run (hrun : Run (Opens args) PlayedOn h s) : Chronicled args s := by
  induction hrun with
  | start hopens => exact hopens.chronicled
  | next hr hl ih => exact (PlayedOn.struck hr ih hl).chronicled ih

/-! ## the stamps of a run -/

variable {p : PlayerState} {d : PlayerId} {n : Nat}

theorem Chronicled.eliminatedAt (hc : Chronicled args s) (hp : p ∈ s.players) :
    s.eliminatedAt p.id = p.eliminatedAt := by
  have hr : p.record ∈ s.records := List.mem_map_of_mem hp
  have hfind := find?_key Record.id hc.ids hr
  unfold GameState.eliminatedAt
  rw [show p.id = p.record.id from rfl, hfind]
  rfl

theorem Chronicled.isBankrupt (hc : Chronicled args s) (hp : p ∈ s.players) :
    p.isBankrupt = (s.eliminatedAt p.id).isSome := by
  rw [hc.eliminatedAt hp]
  exact hc.coherent _ (List.mem_map_of_mem hp)

theorem Chronicled.userIds (hc : Chronicled args s) :
    (s.players.map (·.userId)).Perm (args.members.map (·.userId)) := by
  have hperm := hc.users
  rw [GameState.records, List.map_map] at hperm
  exact hperm

/-- The elimination of `d` stamps `d`, and nobody else. -/
theorem eliminatedAt_struck (hstruck : m.records = s.records.map (Record.strike d n))
    (pid : PlayerId) :
    m.eliminatedAt pid = s.eliminatedAt pid ∨ pid = d ∧ m.eliminatedAt pid = some n := by
  unfold GameState.eliminatedAt
  rw [hstruck, List.find?_map]
  simp only [Function.comp_def, strike_id]
  cases hf : s.records.find? (fun r => decide (r.id = pid)) with
  | none => exact .inl rfl
  | some r =>
      have hid : r.id = pid := by simpa using List.find?_some hf
      by_cases hd : r.id = d
      · right
        constructor
        · exact hid.symm.trans hd
        · simp [Record.strike, hd]
      · left
        simp [Record.strike, hd]

/-- Until the game is over the players are stamped with the turn number. -/
theorem Struck.stamping (hc : Chronicled args s) (h : Struck s m) :
    Stamping (fun s => s.status ≠ .finished) (·.turn.turnNumber) GameState.eliminatedAt s m := by
  cases h with
  | nobody hrecords hle _ =>
      have hsame : ∀ k, m.eliminatedAt k = s.eliminatedAt k := by
        intro k
        unfold GameState.eliminatedAt
        rw [hrecords]
      constructor
      · intro k n hn
        exact (hsame k).trans hn
      · intro k n hnone hn
        rw [hsame, hnone] at hn
        cases hn
      · intro _
        exact hle
      · intro k _ hnone hsome
        exact absurd ((hsame k).trans hnone) hsome
  | @struck d hd hact hstruck hend =>
      -- nobody is eliminated twice
      have hblank : s.eliminatedAt d.id = none := by
        obtain ⟨p, hp, rfl⟩ := exists_player hd
        have hnone : (s.eliminatedAt p.id).isSome = false := (hc.isBankrupt hp).symm.trans hact
        simpa using hnone
      have hlt : m.status ≠ .finished → s.turn.turnNumber < m.turn.turnNumber := by
        intro hgo
        rcases hend with ⟨-, hlt⟩ | hwon
        · exact hlt
        · exact absurd hwon.1 hgo
      constructor
      · intro k n hn
        rcases eliminatedAt_struck hstruck k with hsame | ⟨rfl, -⟩
        · exact hsame.trans hn
        · rw [hblank] at hn
          cases hn
      · intro k n hnone hn
        rcases eliminatedAt_struck hstruck k with hsame | ⟨-, hnow⟩
        · rw [hsame, hnone] at hn
          cases hn
        · exact Option.some.inj (hn.symm.trans hnow)
      · intro hgo
        exact (hlt hgo).le
      · intro _ hgo _ _
        exact hlt hgo

/-- The call eliminates the player: by a bankruptcy, a surrender or the turn
timer. -/
def Eliminates (t : Taken GameState Call) (pid : PlayerId) : Prop :=
  (∃ p ∈ t.before.players, p.id = pid ∧ p.isBankrupt = false) ∧
    ∃ p ∈ t.after.players, p.id = pid ∧ p.isBankrupt = true

instance (t : Taken GameState Call) (pid : PlayerId) : Decidable (Eliminates t pid) :=
  inferInstanceAs (Decidable (_ ∧ _))

/-- `x` was eliminated before `y`. -/
def EliminatedBefore (h : List (Taken GameState Call)) (x y : PlayerId) : Prop :=
  ∃ earlier later, List.Sublist [later, earlier] h ∧ Eliminates earlier x ∧ Eliminates later y

theorem Eliminates.stamps {t : Taken GameState Call} {pid : PlayerId}
    (hbefore : Chronicled args t.before) (hafter : Chronicled args t.after)
    (he : Eliminates t pid) : Stamps GameState.eliminatedAt t pid := by
  obtain ⟨⟨p, hp, hpid, hact⟩, q, hq, hqid, hout⟩ := he
  constructor
  · have hnone := (hbefore.isBankrupt hp).symm.trans hact
    rw [hpid] at hnone
    simpa using hnone
  · have hsome := (hafter.isBankrupt hq).symm.trans hout
    rw [hqid] at hsome
    exact Option.isSome_iff_ne_none.mp hsome

/-- The players eliminated in a run carry stamps in the order of their
eliminations. -/
theorem eliminated_in_order (hrun : Run (Opens args) PlayedOn h s) {x y : PlayerId}
    (hxy : EliminatedBefore h x y) :
    ∃ i j, s.eliminatedAt x = some i ∧ s.eliminatedAt y = some j ∧ i < j := by
  obtain ⟨earlier, later, hsub, hx, hy⟩ := hxy
  have hstamps : ∀ {t pid}, t ∈ h → Eliminates t pid → Stamps GameState.eliminatedAt t pid := by
    intro t pid ht he
    obtain ⟨h', hreached⟩ := hrun.reached_of_mem ht
    have hafter := hreached.next (hrun.step_of_mem ht)
    exact he.stamps (chronicled_of_run hreached) (chronicled_of_run hafter)
  have hblank : ∀ s, Opens args s → ∀ k, s.eliminatedAt k = none := by
    intro s hopens k
    unfold GameState.eliminatedAt
    cases hf : s.records.find? (fun r => decide (r.id = k)) with
    | none => rfl
    | some r => exact (hopens.records_blank (List.mem_of_find?_eq_some hf)).2
  have hstamping : ∀ h s call m, Run (Opens args) PlayedOn h s → s.status ≠ .finished →
      PlayedOn s call m →
      Stamping (fun s => s.status ≠ .finished) (·.turn.turnNumber) GameState.eliminatedAt s m := by
    intro h s call m hr _ hl
    have hc := chronicled_of_run hr
    exact (PlayedOn.struck hr hc hl).stamping hc
  exact stamps_in_order hblank hstamping hrun (Run.restrict_iff.mp hrun).2 hsub
    (hstamps (hsub.subset (by simp)) hx) (hstamps (hsub.subset (by simp)) hy)

/-! ## the ranking -/

theorem ordered_perm (players : List PlayerState) :
    (survivors players ++ pySortedDesc eliminationKey (players.filter (·.isBankrupt))).Perm
      players := by
  have hsplit := List.filter_append_perm (·.isBankrupt) players
  have hsorted := pySortedDesc_perm eliminationKey (players.filter (·.isBankrupt))
  have hsurvivors : survivors players = players.filter (fun p => !p.isBankrupt) := by
    simp [survivors]
  rw [hsurvivors]
  exact (hsorted.append_left _).trans (List.perm_append_comm.trans hsplit)

/-- Of two bankrupt players the one that was eliminated earlier is ranked
below the other. -/
theorem placements_lt {players : List PlayerState} (husers : (players.map (·.userId)).Nodup)
    {x y : PlayerState} (hx : x ∈ players) (hy : y ∈ players) (hxout : x.isBankrupt = true)
    (hyout : y.isBankrupt = true) (hlt : eliminationKey x < eliminationKey y) {i j : Nat}
    (hi : (x.userId, i) ∈ placements players) (hj : (y.userId, j) ∈ placements players) :
    j < i := by
  -- a bankrupt player stands behind the survivors, where the key sorts
  have hindex : ∀ {p : PlayerState} {k : Nat}, p ∈ players → p.isBankrupt = true →
      (p.userId, k) ∈ placements players → ∃ l, k = (survivors players).length + l + 1 ∧
        (pySortedDesc eliminationKey (players.filter (·.isBankrupt)))[l]? = some p := by
    intro p k hp hout hk
    obtain ⟨l, q, hq, huser, rfl⟩ := mem_ranked.mp hk
    have hqp : q ∈ players := (ordered_perm players).mem_iff.mp (List.mem_of_getElem? hq)
    obtain rfl := eq_of_key_eq PlayerState.userId husers hqp hp huser
    rcases Nat.lt_or_ge l (survivors players).length with hl | hl
    · rw [List.getElem?_append_left hl] at hq
      have hactive := (mem_survivors.mp (List.mem_of_getElem? hq)).2
      rw [hout] at hactive
      cases hactive
    · rw [List.getElem?_append_right hl] at hq
      exact ⟨l - (survivors players).length, by omega, hq⟩
  obtain ⟨k, rfl, hk⟩ := hindex hx hxout hi
  obtain ⟨l, rfl, hl⟩ := hindex hy hyout hj
  have := index_lt_of_key_lt hk hl hlt
  omega

theorem Chronicled.ranked_before (hc : Chronicled args s)
    (husers : (args.members.map (·.userId)).Nodup) {x y : PlayerState} (hx : x ∈ s.players)
    (hy : y ∈ s.players) {m n : Nat} (hm : s.eliminatedAt x.id = some m)
    (hn : s.eliminatedAt y.id = some n) (hlt : m < n) {i j : Nat}
    (hi : (x.userId, i) ∈ placements s.players) (hj : (y.userId, j) ∈ placements s.players) :
    j < i := by
  have hnodup : (s.players.map (·.userId)).Nodup := hc.userIds.nodup_iff.mpr husers
  have hkey : ∀ {p k}, p ∈ s.players → s.eliminatedAt p.id = some k →
      p.isBankrupt = true ∧ eliminationKey p = k := by
    intro p k hp hk
    have hstamp := (hc.eliminatedAt hp).symm.trans hk
    constructor
    · rw [hc.isBankrupt hp, hk]
      rfl
    · rw [eliminationKey, hstamp]
  obtain ⟨hxout, hxkey⟩ := hkey hx hm
  obtain ⟨hyout, hykey⟩ := hkey hy hn
  have hkeys : eliminationKey x < eliminationKey y := by
    rw [hxkey, hykey]
    exact_mod_cast hlt
  exact placements_lt hnodup hx hy hxout hyout hkeys hi hj

/-- The last player of a game that is over is ranked first. -/
theorem Won.ranked_first (hwon : Won s) :
    ∃ w ∈ s.players, s.winnerId = some w.id ∧ (w.userId, 1) ∈ placements s.players := by
  obtain ⟨-, r, hone, hwinner⟩ := hwon
  rw [GameState.records, List.filter_map] at hone
  obtain ⟨w, hsurvivors, rfl⟩ := List.map_eq_singleton_iff.mp hone
  replace hsurvivors : survivors s.players = [w] := hsurvivors
  have hw : w ∈ survivors s.players := by simp [hsurvivors]
  have hfirst : (survivors s.players ++ pySortedDesc eliminationKey
      (s.players.filter (·.isBankrupt)))[0]? = some w := by
    simp [hsurvivors]
  exact ⟨w, (mem_survivors.mp hw).1, hwinner, mem_ranked.mpr ⟨0, w, hfirst, rfl, rfl⟩⟩

/-- The ranking of a game that has just ended lists every member once, on the
places from one on, the winner on the first, and the players in the reverse
order of their eliminations. -/
theorem placements_follow_eliminations (husers : (args.members.map (·.userId)).Nodup)
    (hrun : Run (Opens args) Accepted h s) (hon : ∀ t ∈ h, t.before.status ≠ .finished)
    (hfin : s.status = .finished) :
    ((placements s.players).map Prod.fst).Perm (args.members.map (·.userId)) ∧
      (placements s.players).map Prod.snd = List.range' 1 args.members.length ∧
      (∃ w ∈ s.players, s.winnerId = some w.id ∧ (w.userId, 1) ∈ placements s.players) ∧
      ∀ x ∈ s.players, ∀ y ∈ s.players, EliminatedBefore h x.id y.id → ∀ i j,
        (x.userId, i) ∈ placements s.players → (y.userId, j) ∈ placements s.players → j < i := by
  have hplayed : Run (Opens args) PlayedOn h s := Run.restrict_iff.mpr ⟨hrun, hon⟩
  have hc := chronicled_of_run hplayed
  refine ⟨?_, ?_, ?_, fun x hx y hy hxy i j hi hj => ?_⟩
  · unfold placements
    rw [ranked_fst]
    exact ((ordered_perm s.players).map _).trans hc.userIds
  · unfold placements
    rw [ranked_snd, (ordered_perm s.players).length_eq]
    simpa using congrArg (List.range' 1) hc.userIds.length_eq
  · have hwon : Won s := hc.status.resolve_left (by simp [hfin])
    exact hwon.ranked_first
  · obtain ⟨m, n, hm, hn, hlt⟩ := eliminated_in_order hplayed hxy
    exact hc.ranked_before husers hx hy hm hn hlt hi hj

/-- Two of three players surrender in turn. -/
theorem placements_after_surrenders :
    ∃ h s, Run (Opens (trio 1500)) Accepted h s ∧ s.status = .finished ∧
      EliminatedBefore h 1 2 ∧ ((placements s.players).map Prod.fst).Perm [1, 2, 3] ∧
      ∀ x ∈ s.players, ∀ y ∈ s.players, x.id = 1 → y.id = 2 → ∀ i j,
        (x.userId, i) ∈ placements s.players → (y.userId, j) ∈ placements s.players → j < i := by
  obtain ⟨h, s, hrun, -, hcheck⟩ := run_of_reaches (Opens (trio 1500)) (trio 1500)
    [callAt 0 [] (.surrender 1), callAt 0 [] (.surrender 2)]
    (fun h s => decide (s.status = .finished ∧ (∀ t ∈ h, t.before.status ≠ .finished) ∧
      ∃ later ∈ h.head?, ∃ earlier ∈ h.tail, Eliminates earlier 1 ∧ Eliminates later 2))
    (fun _ hopens => hopens) (by decide) (by decide +kernel)
  obtain ⟨hfin, hon, later, hlater, earlier, hearlier, h1, h2⟩ := of_decide_eq_true hcheck
  have hbefore : EliminatedBefore h 1 2 := by
    have hsub : List.Sublist [later, earlier] h := by
      rw [List.eq_cons_of_mem_head? hlater]
      exact (List.singleton_sublist.mpr hearlier).cons_cons later
    exact ⟨earlier, later, hsub, h1, h2⟩
  obtain ⟨husers, -, -, horder⟩ := placements_follow_eliminations (by decide) hrun hon hfin
  refine ⟨h, s, hrun, hfin, hbefore, husers, fun x hx y hy hx1 hy2 i j => ?_⟩
  exact horder x hx y hy (by rw [hx1, hy2]; exact hbefore) i j

end Games

end Monopoly
