import Monopoly.Engine.Setup
import Monopoly.Lib.Runs
import Monopoly.Spec.Step

/-!
# Monopoly.Spec.Play

Games: a new game and any sequence of accepted calls.  Every state of a
game is well formed and has a live turn.
-/

namespace Monopoly

/-- The arguments of one `apply` call besides the state. -/
structure Call where
  command : GameCommand
  env : Env
  deriving DecidableEq, Repr

/-- The state is a new game of at least two members, with distinct player
ids. -/
def Opens (args : NewGame) (s : GameState) : Prop :=
  2 ≤ args.members.length ∧ ∃ uuid4 : Nat → PlayerId, Function.Injective uuid4 ∧
    ∃ rng, newGame uuid4 args = .ok (s, rng)

/-- The call is accepted and returns `s'`. -/
def Accepted (s : GameState) (call : Call) (s' : GameState) : Prop :=
  ∃ events rng, apply s call.command call.env = .ok ((s', events), rng)

/-- What a call that returns has gone through: the check of who may act, the
handler and the common end. -/
theorem apply_parts {s s' : GameState} {command : GameCommand} {env : Env}
    {events : List GameEvent} {rng : Rng}
    (happly : apply s command env = .ok ((s', events), rng)) :
    assertMayAct s command = .ok () ∧ ∃ m, dispatch s command env = .ok ((m, events), rng) ∧
      finishCommand s command env m events = .ok s' := by
  unfold apply at happly
  cases hmay : assertMayAct s command with
  | error e => simp [hmay] at happly
  | ok u =>
      rw [hmay, ok_bind] at happly
      refine ⟨rfl, ?_⟩
      cases hdispatch : dispatch s command env with
      | error e => simp [hdispatch] at happly
      | ok r =>
          obtain ⟨⟨m, events'⟩, rng'⟩ := r
          rw [hdispatch, ok_bind] at happly
          cases hfinish : finishCommand s command env m events' with
          | error e => simp [hfinish] at happly
          | ok n =>
              simp only [hfinish, ok_bind] at happly
              cases happly
              exact ⟨m, rfl, hfinish⟩

theorem Accepted.handled {s s' : GameState} {call : Call} (h : Accepted s call s') :
    assertMayAct s call.command = .ok () ∧ ∃ m events rng,
      dispatch s call.command call.env = .ok ((m, events), rng) ∧
        finishCommand s call.command call.env m events = .ok s' := by
  obtain ⟨events, rng, happly⟩ := h
  obtain ⟨hmay, m, hdispatch, hfinish⟩ := apply_parts happly
  exact ⟨hmay, m, events, rng, hdispatch, hfinish⟩

/-- `Play h s`: the accepted calls `h`, the latest first, lead from a new
game to `s`. -/
abbrev Play (h : List (Taken GameState Call)) (s : GameState) : Prop :=
  Run (fun s => ∃ args, Opens args s) Accepted h s

/-- A table before its first call. -/
structure Fresh (balance : Int) (s : GameState) : Prop where
  ids : (s.seats.map (·.id)).Nodup
  two : 2 ≤ s.seats.length
  seats : ∀ p ∈ s.seats, p.position = (getGameConfig s.gameMode).startPosition ∧
    p.balance = balance ∧ p.ownedPositions = [] ∧ p.getOutOfJailCards = 0 ∧
    p.jailStatus = none ∧ p.isBankrupt = false
  current : Seated s s.turn.currentPlayerId
  turn : s.turn.phase = .preRoll ∧ s.turn.doublesStreak = 0 ∧ s.turn.pendingBuyPosition = none
  status : s.status = .inProgress
  winner : s.winnerId = none
  layout : Layout s.gameMode s.spaces
  unowned : ∀ o ∈ s.spaces, o.ownerId = none
  decks : ∀ kind, (s.deck kind).Perm (fullDeck kind s.gameMode)
  auction : s.auction = none
  trade : s.trade = none
  bankruptcy : s.bankruptcy = none

section NewGame

variable {uuid4 : Nat → PlayerId} {args : NewGame} {s : GameState} {rng : Rng}

/-- The seats of a new game. -/
theorem newGame_players (h : newGame uuid4 args = .ok (s, rng)) :
    s.players = (args.rng.shuffle args.members).1.mapIdx (newPlayer uuid4
      (getGameConfig args.gameMode)
      (playerStartingBalance (getGameConfig args.gameMode) args.startingBalance)) := by
  refine Sat.of_ok (E := fun _ => True) (Q := fun r => r.1.players = _) ?_ h
  exact .after fun _ _ => rfl

theorem newGame_fresh (hinj : Function.Injective uuid4) (htwo : 2 ≤ args.members.length)
    (h : newGame uuid4 args = .ok (s, rng)) :
    Fresh (playerStartingBalance (getGameConfig args.gameMode) args.startingBalance) s := by
  set balance := playerStartingBalance (getGameConfig args.gameMode) args.startingBalance
    with hbalance
  have hmembers := shuffle_perm args.rng args.members
  have hchance := shuffle_perm (args.rng.shuffle args.members).2 (fullDeck .chance args.gameMode)
  have hchest := shuffle_perm ((args.rng.shuffle args.members).2.shuffle
    (fullDeck .chance args.gameMode)).2 (fullDeck .communityChest args.gameMode)
  set players := (args.rng.shuffle args.members).1.mapIdx
    (newPlayer uuid4 (getGameConfig args.gameMode) balance) with hplayers
  have hlen : players.length = args.members.length := by
    rw [hplayers, List.length_mapIdx, hmembers.length_eq]
  have hfirst : 0 < players.length := by omega
  have hget : pyGet players 0 = .ok players[0] := pyGet_natCast (i := 0) hfirst
  simp only [newGame, ← hbalance, ← hplayers, hget, ok_bind] at h
  obtain ⟨rfl, -⟩ := Prod.mk.inj (Except.ok.inj h)
  have hids : (players.map (·.id)).Nodup := by
    refine List.pairwise_iff_getElem.mpr fun i j hi hj hij heq => ?_
    simp only [hplayers, List.getElem_map, List.getElem_mapIdx] at heq
    exact absurd (hinj heq) (by omega)
  have hseat : ∀ p ∈ players, ∃ i member,
      p = newPlayer uuid4 (getGameConfig args.gameMode) balance i member := by
    intro p hp
    obtain ⟨i, hi, rfl⟩ := List.mem_mapIdx.mp hp
    exact ⟨i, _, rfl⟩
  refine ⟨nodup_seats hids,
    by simp [GameState.seats, seatsOf]; omega, ?_, ?_, ⟨rfl, rfl, rfl⟩, rfl, rfl, ?_, ?_, ?_,
    rfl, rfl, rfl⟩
  · intro p hp
    obtain ⟨q, hq, rfl⟩ := exists_player hp
    obtain ⟨i, member, rfl⟩ := hseat q hq
    exact ⟨rfl, rfl, rfl, rfl, rfl, rfl⟩
  · exact seated_of_mem (List.getElem_mem hfirst)
  · exact List.map_map
  · intro o ho
    obtain ⟨space, -, rfl⟩ := List.mem_map.mp ho
    rfl
  · intro kind
    cases kind with
    | chance => exact hchance
    | communityChest => exact hchest

theorem Fresh.wellFormed {balance : Int} (h : Fresh balance s) : WellFormed s where
  ids := h.ids
  layout := h.layout
  standing p hp := by rw [(h.seats p hp).1]; exact onBoard_startPosition _
  deeds p hp q hq := by simp [(h.seats p hp).2.2.1] at hq
  titles o ho pid hpid := by simp [h.unowned o ho] at hpid
  decks kind id hid := List.mem_cons_of_mem _ ((h.decks kind).subset hid)
  current := h.current
  pending q hq := by simp [h.turn.2.2] at hq
  auctions a ha := by simp [h.auction] at ha
  trades t ht := by simp [h.trade] at ht
  debts d hd := by simp [h.bankruptcy] at hd

theorem Fresh.live {balance : Int} (h : Fresh balance s) : Live s := by
  intro _
  obtain ⟨p, hp, hid⟩ := h.current
  refine ⟨⟨p, hp, hid, (h.seats p hp).2.2.2.2.2⟩, ?_⟩
  have hall : survivors s.seats = s.seats :=
    List.filter_eq_self.mpr fun p hp => by simp [(h.seats p hp).2.2.2.2.2]
  rw [hall]
  exact h.two

theorem Opens.fresh (h : Opens args s) :
    Fresh (playerStartingBalance (getGameConfig args.gameMode) args.startingBalance) s := by
  obtain ⟨htwo, uuid4, hinj, rng, hnew⟩ := h
  exact newGame_fresh hinj htwo hnew

end NewGame

/-! ## every state of a game -/

section Games

variable {h : List (Taken GameState Call)} {s s' : GameState} {call : Call}

theorem Accepted.stepped (hw : WellFormed s) (hl : Live s) (ha : Accepted s call s') :
    MayAct s call.command ∧ Stepped s call.env call.command s' := by
  obtain ⟨events, rng, happly⟩ := ha
  exact (apply_sat hw hl _ _).of_ok happly

theorem Play.formed (hplay : Play h s) : WellFormed s ∧ Live s := by
  refine Run.invariant (I := fun s => WellFormed s ∧ Live s) ?_ ?_ hplay
  · rintro s ⟨args, hopens⟩
    exact ⟨hopens.fresh.wellFormed, hopens.fresh.live⟩
  · rintro s call s' ⟨hw, hl⟩ ha
    obtain ⟨hmay, hstep⟩ := ha.stepped hw hl
    exact ⟨hstep.wellFormed hw, hstep.live hw hl hmay⟩

/-- A property of new games that the accepted calls allowed by `A` preserve
holds after every game of such calls. -/
theorem Play.invariant_of {I : GameState → Prop} {A : GameState → Call → Prop}
    (hinit : ∀ (args : NewGame) (s : GameState), Opens args s → I s)
    (hstep : ∀ (s : GameState) (call : Call) (s' : GameState), WellFormed s → Live s → I s →
      A s call → MayAct s call.command → Stepped s call.env call.command s' → I s')
    (hplay : Play h s) (hok : ∀ t ∈ h, A t.before t.label) : I s := by
  refine Run.invariant_of ?_ (fun h s call s' hplay hI hallowed ha => ?_) hplay hok
  · rintro s ⟨args, hopens⟩
    exact hinit args s hopens
  obtain ⟨hw, hl⟩ := Play.formed hplay
  obtain ⟨hmay, hstepped⟩ := ha.stepped hw hl
  exact hstep s call s' hw hl hI hallowed hmay hstepped

/-- The same for a property that every accepted call preserves. -/
theorem Play.invariant {I : GameState → Prop}
    (hinit : ∀ (args : NewGame) (s : GameState), Opens args s → I s)
    (hstep : ∀ (s : GameState) (call : Call) (s' : GameState), WellFormed s → Live s → I s →
      MayAct s call.command → Stepped s call.env call.command s' → I s')
    (hplay : Play h s) : I s :=
  Play.invariant_of (A := fun _ _ => True) hinit
    (fun s call s' hw hl hI _ => hstep s call s' hw hl hI) hplay fun _ _ => trivial

end Games

end Monopoly
