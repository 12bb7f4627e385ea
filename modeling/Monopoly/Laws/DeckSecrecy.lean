import Monopoly.Service.World
import Monopoly.Spec.Replay
import Monopoly.Spec.Secrecy

/-!
# Monopoly.Laws.DeckSecrecy

The order of the decks is secret.  Should the decks be shuffled behind
everybody's back in the middle of a game, the game goes on as before until
another card is drawn: no frame, no refusal and no replay tells the one table
from the other.
-/

namespace Monopoly

/-- A table and its copy. -/
abbrev Tables := GameState × GameState

/-- The state with these decks instead. -/
def GameState.withDecks (s : GameState) (chance chest : List CardId) : GameState :=
  s.hiding chance chest s.turn.actionsAvailable

/-- A state of a game, and a copy of it with the decks shuffled. -/
def Reshuffled (tables : Tables) : Prop :=
  (∃ before, Play before tables.1) ∧ ∃ chance chest, chance.Perm tables.1.chanceDeck ∧
    chest.Perm tables.1.chestDeck ∧ tables.2 = tables.1.withDecks chance chest

/-- Both tables accept the call, and draw the same cards. -/
def Lockstep (tables : Tables) (call : Call) (tables' : Tables) : Prop :=
  ∃ events events' rng rng',
    apply tables.1 call.command call.env = .ok ((tables'.1, events), rng) ∧
    apply tables.2 call.command call.env = .ok ((tables'.2, events'), rng') ∧
    cardsDrawn events = cardsDrawn events'

/-- Nothing that leaves the server tells the states apart. -/
structure Indistinct (s s' : GameState) : Prop where
  /-- Every user is shown the same. -/
  frames : ∀ version userId timeline seq,
    buildGameStateMessage s' version userId timeline seq =
      buildGameStateMessage s version userId timeline seq
  /-- The same calls are refused, for the same reasons. -/
  refusals : ∀ (call : Call) e,
    apply s call.command call.env = .error e ↔ apply s' call.command call.env = .error e
  /-- A call that draws the same cards has the same events and replay. -/
  replays : ∀ (call : Call) t t' events events' rng rng',
    apply s call.command call.env = .ok ((t, events), rng) →
    apply s' call.command call.env = .ok ((t', events'), rng') →
    cardsDrawn events = cardsDrawn events' →
    events' = events ∧ buildTimeline call.command t' events' = buildTimeline call.command t events

section Tables

variable {s s' : GameState} {h : List (Taken Tables Call)}

theorem Alike.frames (halike : Alike False s s') (version : Nat) (userId : UserId)
    (timeline : List AnimationInstruction) (seq : Option Nat) :
    buildGameStateMessage s' version userId timeline seq =
      buildGameStateMessage s version userId timeline seq := by
  cases halike with
  | hidden chance chest flags _ _ =>
      have hviewer : viewerOf (s.hiding chance chest flags) userId = viewerOf s userId := rfl
      have hactions : ∀ pid, computeActions (s.hiding chance chest flags) pid =
          computeActions s pid := fun _ => rfl
      have hcurrent : (s.hiding chance chest flags).turn.currentPlayerId =
          s.turn.currentPlayerId := rfl
      simp only [buildGameStateMessage, withActionsFor, hviewer, hactions, hcurrent]
      cases computeActions s ((viewerOf s userId).getD s.turn.currentPlayerId) <;> rfl

theorem Alike.timeline (halike : Alike False s s') (command : GameCommand)
    (events : List GameEvent) :
    buildTimeline command s' events = buildTimeline command s events := by
  cases halike
  rfl

/-- Two tables that are alike: both are sound, and differ in the order of
their decks at most. -/
structure Twins (tables : Tables) : Prop where
  alike : Alike False tables.1 tables.2
  formed : WellFormed tables.1 ∧ Live tables.1
  formed' : WellFormed tables.2 ∧ Live tables.2

theorem Reshuffled.twins {tables : Tables} (h : Reshuffled tables) : Twins tables := by
  obtain ⟨⟨before, hplay⟩, chance, chest, hchance, hchest, hcopy⟩ := h
  obtain ⟨hw, hl⟩ := Play.formed hplay
  refine ⟨?_, ⟨hw, hl⟩, ?_⟩
  · rw [hcopy]
    exact .hidden _ _ _ ⟨hchance.length_eq, nofun⟩ ⟨hchest.length_eq, nofun⟩
  · rw [hcopy]
    exact ⟨hw.hiding hchance hchest _, hl⟩

theorem Twins.step {tables tables' : Tables} {call : Call} (h : Twins tables)
    (hstep : Lockstep tables call tables') : Twins tables' := by
  obtain ⟨events, events', rng, rng', happly, happly', hcards⟩ := hstep
  have hsame := apply_both h.alike _ _ happly happly' (.inr hcards)
  have hnext : ∀ {s s' : GameState} {events rng}, WellFormed s ∧ Live s →
      apply s call.command call.env = .ok ((s', events), rng) → WellFormed s' ∧ Live s' := by
    intro s s' events rng hs happly
    have haccepted : Accepted s call s' := ⟨events, rng, happly⟩
    obtain ⟨hmay, hstepped⟩ := haccepted.stepped hs.1 hs.2
    exact ⟨hstepped.wellFormed hs.1, hstepped.live hs.1 hs.2 hmay⟩
  exact ⟨hsame.state, hnext h.formed happly, hnext h.formed' happly'⟩

/-- **Nobody knows the decks.** Let the decks be shuffled at any point of any
game: as long as the same cards are drawn with the same dice, what the server
sends and refuses is the same. -/
theorem decks_stay_secret (hrun : Run Reshuffled Lockstep h (s, s')) : Indistinct s s' := by
  obtain ⟨halike, ⟨hw, hl⟩, hw', hl'⟩ : Twins (s, s') :=
    hrun.invariant (fun _ => Reshuffled.twins) fun _ _ _ => Twins.step
  refine ⟨halike.frames, fun call e => halike.refusals hw hl hw' hl' call.command call.env e, ?_⟩
  intro call t t' events events' rng rng' happly happly' hcards
  obtain ⟨⟨hstate, hevents, -⟩, -⟩ := apply_both halike _ _ happly happly' (.inr hcards)
  have hsame : events' = events := hevents
  exact ⟨hsame, hsame ▸ hstate.timeline call.command events'⟩

/-- The Chance deck is turned over, but for its top card. -/
def turnedOver (s : GameState) : GameState :=
  s.withDecks (s.chanceDeck.take 1 ++ (s.chanceDeck.drop 1).reverse) s.chestDeck

theorem reshuffled_turnedOver {before : List (Taken GameState Call)} (hplay : Play before s) :
    Reshuffled (s, turnedOver s) := by
  have hperm := ((s.chanceDeck.drop 1).reverse_perm).append_left (s.chanceDeck.take 1)
  rw [List.take_append_drop] at hperm
  exact ⟨⟨before, hplay⟩, _, _, hperm, .refl _, rfl⟩

/-- The decks differ when the first roll draws the top card. -/
theorem decks_stay_secret_top_card :
    ∃ h s s', Run Reshuffled Lockstep h (s, s') ∧ h.length = 1 ∧ s.activeCard.isSome = true ∧
      s'.chanceDeck ≠ s.chanceDeck ∧ Indistinct s s' := by
  obtain ⟨history, s, hplay, -, hcheck⟩ := play_of_reaches (duo 1500) []
    (fun _ s => (apply s (.rollDice 1) (callAt 0 [2, 3] (.rollDice 1)).env).toOption.any
      fun r : Handled × Rng =>
        (apply (turnedOver s) (.rollDice 1) (callAt 0 [2, 3] (.rollDice 1)).env).toOption.any
          fun r' : Handled × Rng => decide (cardsDrawn r.1.2 = cardsDrawn r'.1.2 ∧
            r.1.1.activeCard.isSome = true ∧ r'.1.1.chanceDeck ≠ r.1.1.chanceDeck))
    (by decide) (by decide +kernel)
  obtain ⟨⟨⟨t, events⟩, rng⟩, happly, hagain⟩ := ok_of_any hcheck
  obtain ⟨⟨⟨t', events'⟩, rng'⟩, happly', hshown⟩ := ok_of_any hagain
  obtain ⟨hcards, hcard, hdecks⟩ := of_decide_eq_true hshown
  have hstep : Lockstep (s, turnedOver s) (callAt 0 [2, 3] (.rollDice 1)) (t, t') :=
    ⟨events, events', rng, rng', happly, happly', hcards⟩
  have hrun := (Run.start (reshuffled_turnedOver hplay)).next hstep
  exact ⟨_, t, t', hrun, rfl, hcard, hdecks, decks_stay_secret hrun⟩

end Tables

end Monopoly
