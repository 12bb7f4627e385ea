import Monopoly.Laws.CardGate
import Monopoly.Spec.Rounds
import Monopoly.Spec.Trail

/-!
# Monopoly.Laws.TimelinePath

The animation timeline of a roll replays the real move.  It is made of the
events, and the events of a roll are a path over the board: what the replay
shows starts where the roller was and ends where the roller is.
-/

namespace Monopoly

/-- The player, start and end of a move instruction. -/
def AnimationInstruction.move? : AnimationInstruction → Option (PlayerId × Nat × Nat)
  | .move pid fromPosition toPosition _ _ => some (pid, fromPosition, toPosition)
  | _ => none

def AnimationInstruction.isShowCard : AnimationInstruction → Bool
  | .showCard _ => true
  | _ => false

def AnimationInstruction.isWait : AnimationInstruction → Bool
  | .waitForPlayer _ => true
  | _ => false

/-- The moves of a timeline, in order. -/
def movesOf (timeline : List AnimationInstruction) : List (PlayerId × Nat × Nat) :=
  timeline.filterMap AnimationInstruction.move?

/-- A move of `r` starts where `r` is. -/
inductive MoveStep (r : PlayerId) : Nat → PlayerId × Nat × Nat → Nat → Prop
  | mk {a b : Nat} : MoveStep r a (r, a, b) b

/-- The moves lead `r` from one position to the other, each from where the
one before has ended. -/
abbrev Walks (r : PlayerId) (a : Nat) (timeline : List AnimationInstruction) (b : Nat) : Prop :=
  Path (MoveStep r) a (movesOf timeline) b

/-- What some of the events of a roll add to its timeline. -/
def replayOf (s' : GameState) (events es : List GameEvent) : List AnimationInstruction :=
  es.flatMap (eventInstructions s' (jailedPlayers events))

/-- The replay of the roll of `r`, who was at `a` and is at `b`. -/
structure Replays (r : PlayerId) (a b : Nat) (s' : GameState) (events : List GameEvent) :
    Prop where
  path : (∀ e ∈ events, e.isSentToJail = false) →
    Walks r a (buildTimeline (.rollDice r) s' events) b
  jailed : (∃ e ∈ events, e.isSentToJail = true) →
    movesOf (buildTimeline (.rollDice r) s' events) = []
  card : ∀ before drawer name cardId kind after,
    events = before ++ .cardDrawn drawer name cardId kind :: after →
    ∃ card, getCard cardId = .ok card ∧ buildTimeline (.rollDice r) s' events =
      (rollInstructions (.rollDice r) s' ++ replayOf s' events before) ++
        [.showCard ⟨cardId, kind, card.effect, drawer⟩,
          .waitForPlayer ⟨s'.turn.turnNumber, cardId⟩] ++ replayOf s' events after
  stop : (∀ e ∈ events, e.isSentToJail = false) →
    ∀ before drawer name cardId kind after,
      events = before ++ .cardDrawn drawer name cardId kind :: after →
      ∃ mid, Walks r a (rollInstructions (.rollDice r) s' ++ replayOf s' events before) mid ∧
        Walks r mid (replayOf s' events after) b
  once :
    (buildTimeline (.rollDice r) s' events).countP (·.isShowCard) =
      events.countP (·.isCardDrawn) ∧
    (buildTimeline (.rollDice r) s' events).countP (·.isWait) = events.countP (·.isCardDrawn)

/-! ## one event -/

section Events

variable {mode : GameMode} {r : PlayerId} {x y : Spot} {e : GameEvent} {events es : List GameEvent}
  {s' : GameState} {jailed : List PlayerId}

theorem movesOf_append (t t' : List AnimationInstruction) :
    movesOf (t ++ t') = movesOf t ++ movesOf t' := List.filterMap_append

theorem movesOf_flatMap (f : GameEvent → List AnimationInstruction) (es : List GameEvent) :
    movesOf (es.flatMap f) = es.flatMap fun e => movesOf (f e) := by
  induction es with
  | nil => rfl
  | cons e es ih => rw [List.flatMap_cons, movesOf_append, ih, List.flatMap_cons]

theorem movesOf_rollInstructions (command : GameCommand) (s' : GameState) :
    movesOf (rollInstructions command s') = [] := by
  unfold rollInstructions
  split <;> rfl

/-- A card that was drawn is shown, and waited for. -/
theorem eventInstructions_cardDrawn {card : CardDef} (hcard : getCard card.id = .ok card)
    (s' : GameState) (jailed : List PlayerId) (drawer : PlayerId) (name : String) :
    eventInstructions s' jailed (.cardDrawn drawer name card.id card.kind) =
      [.showCard ⟨card.id, card.kind, card.effect, drawer⟩,
        .waitForPlayer ⟨s'.turn.turnNumber, card.id⟩] := by
  cases hfind : allCards.find? fun c => decide (c.id = card.id) with
  | none => simp [getCard, hfind, orRaise] at hcard
  | some found =>
      obtain rfl : found = card := by simpa [getCard, hfind, orRaise] using hcard
      simp only [eventInstructions, hfind]

theorem EventStep.drawn {cardId : CardId} {kind : CardKind} {drawer : PlayerId} {name : String}
    (h : EventStep mode r x (.cardDrawn drawer name cardId kind) y) (s' : GameState)
    (jailed : List PlayerId) :
    ∃ card, getCard cardId = .ok card ∧
      eventInstructions s' jailed (.cardDrawn drawer name cardId kind) =
        [.showCard ⟨cardId, kind, card.effect, drawer⟩,
          .waitForPlayer ⟨s'.turn.turnNumber, cardId⟩] := by
  cases h with
  | @drew _ _ card hcard =>
      exact ⟨card, hcard, eventInstructions_cardDrawn hcard s' jailed _ name⟩

/-- A replay that suppresses nobody shows the step. -/
theorem EventStep.walks (h : EventStep mode r x e y) (hfree : e.isSentToJail = false) :
    Walks r x.position (eventInstructions s' [] e) y.position := by
  cases h with
  | moved => exact .one .mk
  | jailed => cases hfree
  | drew hcard =>
      rw [eventInstructions_cardDrawn hcard]
      exact .nil
  | passedGo | rolledDoubles | taxed | rented => exact .nil

theorem EventStep.suppressed (h : EventStep mode r x e y) (hr : r ∈ jailed) :
    movesOf (eventInstructions s' jailed e) = [] := by
  cases h with
  | moved => simp [eventInstructions, hr, movesOf]
  | drew hcard =>
      rw [eventInstructions_cardDrawn hcard]
      rfl
  | jailed | passedGo | rolledDoubles | taxed | rented => rfl

/-- An instruction that only draws add, once each. -/
theorem EventStep.counted {f : AnimationInstruction → Bool} (h : EventStep mode r x e y)
    (hmove : ∀ pid a b speed reason, f (.move pid a b speed reason) = false)
    (honce : ∀ card id, [AnimationInstruction.showCard card, .waitForPlayer id].countP f = 1) :
    (eventInstructions s' jailed e).countP f = if e.isCardDrawn then 1 else 0 := by
  cases h with
  | moved =>
      simp only [eventInstructions]
      split
      · rfl
      · simp [hmove, GameEvent.isCardDrawn]
  | drew hcard =>
      rw [eventInstructions_cardDrawn hcard, honce]
      rfl
  | jailed | passedGo | rolledDoubles | taxed | rented => rfl

end Events

/-! ## the events of a roll -/

section Timelines

variable {mode : GameMode} {r : PlayerId} {a : Nat} {x y : Spot} {events es : List GameEvent}
  {s' : GameState}

theorem jailedPlayers_eq_nil (h : ∀ e ∈ events, e.isSentToJail = false) :
    jailedPlayers events = [] := by
  refine List.filterMap_eq_nil_iff.mpr fun e he => ?_
  have hfree := h e he
  cases e <;> first | rfl | cases hfree

theorem Trail.walks (h : Trail mode r x es y) (hfree : ∀ e ∈ es, e.isSentToJail = false)
    (hevents : ∀ e ∈ events, e.isSentToJail = false) :
    Walks r x.position (replayOf s' events es) y.position := by
  rw [Walks, replayOf, jailedPlayers_eq_nil hevents, movesOf_flatMap]
  exact Path.flatMap (f := Spot.position) (fun _ e _ he hstep => hstep.walks (hfree e he)) h

theorem Trail.counted {f : AnimationInstruction → Bool} (h : Trail mode r x es y)
    (hmove : ∀ pid a b speed reason, f (.move pid a b speed reason) = false)
    (honce : ∀ card id, [AnimationInstruction.showCard card, .waitForPlayer id].countP f = 1) :
    (replayOf s' events es).countP f = es.countP (·.isCardDrawn) := by
  unfold replayOf
  induction h with
  | nil => rfl
  | cons hstep _ ih =>
      rw [List.flatMap_cons, List.countP_append, ih, hstep.counted hmove honce, List.countP_cons,
        Nat.add_comm]

/-- A path of the events is what the replay shows. -/
theorem Trail.replays (h : Trail mode r ⟨a, false⟩ events y) :
    Replays r a y.position s' events where
  path := by
    intro hfree
    show Path _ _ (movesOf (rollInstructions _ _ ++ replayOf s' events events)) _
    rw [movesOf_append, movesOf_rollInstructions, List.nil_append]
    exact h.walks hfree hfree
  jailed := by
    rintro ⟨e, he, hsent⟩
    have hr : r ∈ jailedPlayers events := by
      obtain ⟨b, c, hstep⟩ := Path.step_of_mem h he
      refine List.mem_filterMap.mpr ⟨e, he, ?_⟩
      cases hstep with
      | jailed => rfl
      | moved | drew _ | passedGo | rolledDoubles | taxed | rented => cases hsent
    show movesOf (rollInstructions _ _ ++ replayOf s' events events) = []
    rw [movesOf_append, movesOf_rollInstructions, List.nil_append, replayOf, movesOf_flatMap,
      List.flatMap_eq_nil_iff]
    intro e he
    obtain ⟨b, c, hstep⟩ := Path.step_of_mem h he
    exact hstep.suppressed hr
  card := by
    rintro before drawer name cardId kind after rfl
    obtain ⟨m, -, hrest⟩ := Path.append_iff.mp h
    obtain ⟨m', hstep, -⟩ := Path.cons_iff.mp hrest
    obtain ⟨card, hcard, hshown⟩ := hstep.drawn s'
      (jailedPlayers (before ++ .cardDrawn drawer name cardId kind :: after))
    refine ⟨card, hcard, ?_⟩
    simp only [buildTimeline, replayOf, List.flatMap_append, List.flatMap_cons, hshown,
      List.append_assoc]
  stop := by
    rintro hfree before drawer name cardId kind after rfl
    obtain ⟨m, hbefore, hrest⟩ := Path.append_iff.mp h
    obtain ⟨m', hstep, hafter⟩ := Path.cons_iff.mp hrest
    obtain ⟨hfirst, -, hlast⟩ := (List.forall_mem_append.trans
      (and_congr_right fun _ => List.forall_mem_cons)).mp hfree
    obtain rfl : m = m' := by cases hstep; rfl
    refine ⟨m.position, ?_, Trail.walks hafter hlast hfree⟩
    rw [Walks, movesOf_append, movesOf_rollInstructions, List.nil_append]
    exact Trail.walks hbefore hfirst hfree
  once := by
    have hroll : ∀ f : AnimationInstruction → Bool,
        (∀ pid a b d, f (.rollDice pid a b d) = false) →
        (rollInstructions (.rollDice r) s').countP f = 0 := by
      intro f hf
      unfold rollInstructions
      split <;> simp [hf]
    constructor
    · show (rollInstructions _ _ ++ replayOf s' events events).countP _ = _
      rw [List.countP_append, hroll _ (fun _ _ _ _ => rfl), Nat.zero_add]
      exact h.counted (fun _ _ _ _ _ => rfl) fun _ _ => rfl
    · show (rollInstructions _ _ ++ replayOf s' events events).countP _ = _
      rw [List.countP_append, hroll _ (fun _ _ _ _ => rfl), Nat.zero_add]
      exact h.counted (fun _ _ _ _ _ => rfl) fun _ _ => rfl

end Timelines

/-! ## the law -/

section Law

variable {s s' m : GameState} {p : PlayerState} {pid : PlayerId} {env : Env}
  {events : List GameEvent} {rng : Rng} {x : Spot}

theorem Tidied.pieces (h : Tidied m s') : s'.pieces = m.pieces := piecesOf_congr h.seats_eq

/-- The end of a call moves no piece. -/
theorem finishCommand_pieces (hids : (m.players.map (·.id)).Nodup) (s : GameState)
    (command : GameCommand) (env : Env) (events : List GameEvent) :
    Ensures (finishCommand s command env m events) fun s' => s'.pieces = m.pieces := by
  by_cases hreply : command.isReply = true
  · exact (finishCommand_reply hreply events).imp fun _ h => h.pieces
  · refine (finishCommand_stages hreply events).imp ?_
    rintro s' ⟨a, b, ha, hsettle, hs'⟩
    have hids' : (a.players.map (·.id)).Nodup := by
      rw [← ids_pieces, ha.pieces, ids_pieces]
      exact hids
    have hsettled : Ensures (trySettleDebt a) fun b => b.pieces = a.pieces := by
      unfold trySettleDebt
      cases a.bankruptcy with
      | none => rfl
      | some debt =>
          refine .after fun debtor _ => ?_
          simp only [sat_ite]
          refine ⟨fun _ => (transferFunds_transfers hids').seq fun c hc => ?_, fun _ => rfl⟩
          obtain ⟨ps, rfl, hps⟩ := hc
          exact piecesOf_transfer hps
    have hwin : (checkWinCondition b).pieces = b.pieces := by
      unfold checkWinCondition
      split <;> rfl
    rw [hs'.pieces, hwin, hsettled.of_ok hsettle, ha.pieces]

/-- The timeline of a roll replays the move of the roller, from where they
were to where they are. -/
theorem timeline_replays (hids : (s.players.map (·.id)).Nodup)
    (happly : apply s (.rollDice pid) env = .ok ((s', events), rng)) :
    ∃ p ∈ s.players, ∃ p' ∈ s'.players, p.id = pid ∧ p'.id = pid ∧
      Replays pid p.position p'.position s' events := by
  obtain ⟨-, m, hdispatch, hfinish⟩ := apply_parts happly
  obtain ⟨p, hp, rfl, x, hroams⟩ := (handleRollDice_roams hids pid _ _ _).of_ok hdispatch
  obtain ⟨v, hvid, hpos, -, hpieces⟩ := hroams.piece
  replace hpieces : m.pieces = editSeat p.id (fun _ => v) s.pieces := hpieces
  have hids' : (m.players.map (·.id)).Nodup := by
    rw [← ids_pieces, hpieces, ids_put hvid, ids_pieces]
    exact hids
  have hmem : v ∈ s'.pieces := by
    rw [(finishCommand_pieces hids' s _ env events).of_ok hfinish, hpieces]
    exact mem_editSeat.mpr ⟨p.piece, List.mem_map_of_mem hp, if_pos rfl⟩
  obtain ⟨p', hp', rfl⟩ := List.mem_map.mp hmem
  refine ⟨p, hp, p', hp', rfl, hvid, ?_⟩
  rw [show p'.position = x.position from hpos]
  exact Trail.replays hroams.trail

/-- Player `1` walks to a Chance, and its card leads them on. -/
theorem timeline_replays_advance : ∃ s s' events rng,
    apply s (.rollDice 1) (callAt 0 [2, 3] (.rollDice 1)).env = .ok ((s', events), rng) ∧
    movesOf (buildTimeline (.rollDice 1) s' events) = [(1, 1, 8), (1, 8, 25)] ∧
    ∃ p ∈ s.players, ∃ p' ∈ s'.players, p.id = 1 ∧ p'.id = 1 ∧
      Replays 1 p.position p'.position s' events := by
  obtain ⟨s, s', events, rng, hcheck, happly⟩ := exists_call (duo 1500) id
    (callAt 0 [2, 3] (.rollDice 1)) (fun s s' events => decide (
      (s.players.map PlayerState.id).Nodup ∧
      movesOf (buildTimeline (.rollDice 1) s' events) = [(1, 1, 8), (1, 8, 25)]))
    (by decide +kernel)
  obtain ⟨hids, hmoves⟩ := of_decide_eq_true hcheck
  exact ⟨s, s', events, rng, happly, hmoves, timeline_replays hids happly⟩

end Law

end Monopoly
