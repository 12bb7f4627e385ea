import Monopoly.Service.Flows
import Monopoly.Spec.Replay
import Monopoly.Spec.Roll
import Monopoly.Spec.Rounds

/-!
# Monopoly.Laws.CardGate

The card a roll draws is put on display, and the replay of the roll waits
for its player.  The end of the call takes down whatever is on display where
a card was displayed before, the new card too, and then nobody can go on.
-/

namespace Monopoly

def GameEvent.isCardDrawn : GameEvent → Bool
  | .cardDrawn .. => true
  | _ => false

/-- The events show that `r` has drawn the card. -/
structure DrawnBy (r : PlayerId) (events : List GameEvent) (card : ActiveCard) : Prop where
  drawer : card.drawerId = r
  event : ∃ name, .cardDrawn r name card.id card.kind ∈ events
  effect : getCard card.id = .ok ⟨card.id, card.kind, card.effect⟩

/-- A card that `r` has drawn is on display. -/
def Carded (r : PlayerId) (s' : GameState) (events : List GameEvent) : Prop :=
  ∃ card, s'.activeCard = some card ∧ DrawnBy r events card

/-- What is on display stays there, and no card is drawn. -/
def Uncarded (s s' : GameState) (events : List GameEvent) : Prop :=
  s'.activeCard = s.activeCard ∧ ∀ e ∈ events, e.isCardDrawn = false

/-- The space is one that draws a card. -/
def OnCardSpace (mode : GameMode) (pos : Nat) : Prop :=
  (squareAt mode pos).type.cardKind.isSome = true

/-- The roll of `p` leads to a space that draws a card. -/
def RollsToCard (s : GameState) (p : PlayerState) (rng : Rng) : Prop :=
  let roll := diceOf s.gameMode rng
  Moves s p roll.isDoubles ∧
    OnCardSpace s.gameMode (walkTo s.gameMode p.position (roll.die1 + roll.die2))

/-- A card is drawn and displayed where `draws` holds, and else nothing
changes. -/
structure Displays (draws : Prop) (r : PlayerId) (s s' : GameState) (events : List GameEvent) :
    Prop where
  drawn : draws → Carded r s' events
  still : ¬draws → Uncarded s s' events

/-- The replay of a roll can be resumed: what is on display is a card the
roller has just drawn, if there is one, and where the replay waits, the
current player may go on. -/
structure CardGate (r : PlayerId) (s' : GameState) (events : List GameEvent) : Prop where
  shown : s'.activeCard.isSome = true ↔ ∃ e ∈ events, e.isCardDrawn = true
  drawn : ∀ card, s'.activeCard = some card → DrawnBy r events card
  resumed : ∀ interactionId, .waitForPlayer interactionId ∈ buildTimeline (.rollDice r) s' events →
    ∀ stored, stored.state = s' → ∀ p ∈ s'.players, p.id = s'.turn.currentPlayerId →
      authorizeContinue (some stored) p.userId = true

/-! ## landings -/

section Landings

variable {s s' : GameState} {p : PlayerState} {events : List GameEvent}

theorem landOnCard_carded (land : Lander) (goSalary : Int) (s : GameState) (p : PlayerState)
    (kind : CardKind) (depth : Nat) (rng : Rng) :
    Ensures (landOnCard land goSalary s p kind depth rng) fun r =>
      Carded p.id r.state r.events := by
  refine .after fun s₁ _ => .after fun player hplayer => ?_
  obtain ⟨-, hid⟩ := getPlayer_found hplayer
  have hdrawn : Ensures (drawAndApply land goSalary s₁ player kind depth rng) fun r =>
      DrawnBy p.id r.1.events r.2 := by
    refine (drawCard_deposits s₁ kind rng p.id).seq fun drawn hcard => ?_
    refine .after fun player' _ => .after fun result _ => ?_
    rw [hid]
    exact ⟨rfl, ⟨_, List.mem_cons_self⟩, hcard.2⟩
  refine hdrawn.seq fun r hr => ?_
  simp only [sat_ite]
  exact ⟨fun _ => ⟨r.2, rfl, hr⟩, fun _ => ⟨r.2, rfl, hr⟩⟩

theorem Billed.activeCard (h : Billed s s') : s'.activeCard = s.activeCard := by
  cases h
  rfl

theorem finalize_uncarded (s : GameState) (players : List PlayerState) (turn : TurnState) :
    Ensures (finalize s players turn) fun s' => s'.activeCard = s.activeCard :=
  .after fun _ _ => rfl

theorem landOnGoToJail_uncarded (s : GameState) (p : PlayerState) (rng : Rng) :
    Ensures (landOnGoToJail s p rng) fun r => Uncarded s r.state r.events := by
  refine .after fun jailed _ => .after fun players _ => ?_
  exact (finalize_uncarded s _ _).seq fun s' h => ⟨h, by simp [GameEvent.isCardDrawn]⟩

theorem landOnTax_uncarded (s : GameState) (p : PlayerState) (taxAmount : Nat) (rng : Rng) :
    Ensures (landOnTax s p taxAmount rng) fun r => Uncarded s r.state r.events := by
  refine (finalize_uncarded s _ _).seq fun s₁ h₁ => ?_
  refine (attemptPayment_billed s₁ _ _ _).seq fun s₂ h₂ => ?_
  have hkept := h₂.activeCard.trans h₁
  simp only [sat_ite]
  refine ⟨fun _ => ⟨hkept, by simp⟩, fun _ => (finalize_uncarded s₂ _ _).seq fun s₃ h₃ => ?_⟩
  exact ⟨h₃.trans hkept, by simp [GameEvent.isCardDrawn]⟩

theorem landOnSpace_uncarded (s : GameState) (p : PlayerState) (diceRoll : DiceRoll)
    (boardSpace : BoardSpace) (rentMultiplier : Nat) (rng : Rng) :
    Ensures (landOnSpace s p diceRoll boardSpace rentMultiplier rng)
      fun r => Uncarded s r.state r.events := by
  refine landOnSpace_ensures (fun ownerId => ?_) fun _ _ =>
    (finalize_uncarded s _ _).seq fun _ h => ⟨h, by simp⟩
  refine .after fun owner _ => .after fun rent _ => ?_
  refine (finalize_uncarded s _ _).seq fun s₁ h₁ => ?_
  refine (attemptPayment_billed s₁ _ _ _).seq fun s₂ h₂ => ?_
  have hkept := h₂.activeCard.trans h₁
  simp only [sat_ite]
  exact ⟨fun _ => ⟨hkept, by simp⟩, fun _ => ⟨hkept, by simp [GameEvent.isCardDrawn]⟩⟩

theorem resolveLanding_displays (hboard : OnBoard s.gameMode p.position) (diceRoll : DiceRoll)
    (goSalary : Int) (fuel depth rentMultiplier : Nat) (rng : Rng) :
    Ensures (resolveLanding diceRoll goSalary (fuel + 1) s p depth rentMultiplier rng) fun r =>
      Displays (OnCardSpace s.gameMode p.position) p.id s r.state r.events := by
  rw [resolveLanding, getBoardSpace_eq hboard, ok_bind]
  set space := squareAt s.gameMode p.position with hspace
  have hstill : space.type.cardKind = none → ∀ r : Landing, Uncarded s r.state r.events →
      Displays (OnCardSpace s.gameMode p.position) p.id s r.state r.events :=
    fun hnone r hr => ⟨fun h => by simp [OnCardSpace, ← hspace, hnone] at h, fun _ => hr⟩
  simp only [sat_ite]
  refine ⟨fun hcorner => ?_, fun _ => ?_⟩
  · exact (landOnGoToJail_uncarded s p rng).imp (hstill (cardKind_of_goToJail hboard hcorner))
  · cases htax : space.tax with
    | some amount =>
        exact (landOnTax_uncarded s p amount rng).imp (hstill (cardKind_of_tax htax))
    | none =>
        cases hkind : space.type.cardKind with
        | none => exact (landOnSpace_uncarded s p _ _ _ rng).imp (hstill hkind)
        | some kind =>
            refine (landOnCard_carded _ goSalary s p kind depth rng).imp fun r hr => ?_
            exact ⟨fun _ => hr, fun h => absurd (by simp [OnCardSpace, ← hspace, hkind]) h⟩

end Landings

/-! ## rolls -/

section Rolls

variable {s s₁ : GameState} {p q : PlayerState} {goSalary jailFine : Int} {rng : Rng}

theorem collectGoBonus_uncarded (s : GameState) (p : PlayerState) (goSalary : Int) (due : Bool) :
    Ensures (collectGoBonus s p goSalary due) fun r => ∀ e ∈ r.2.2, e.isCardDrawn = false := by
  cases due with
  | false => simp [collectGoBonus]
  | true =>
      have hsalary : Ensures (applyGoSalary s p goSalary) fun r => r.2.isCardDrawn = false :=
        .after fun _ _ => .after fun _ _ => rfl
      exact hsalary.seq fun r hr => .after fun _ _ => by simpa using hr

theorem walk_uncarded (s : GameState) (p : PlayerState) (steps : Nat) (goSalary : Int) :
    Ensures (walk s p steps goSalary) fun r => ∀ e ∈ r.2.2, e.isCardDrawn = false := by
  refine .after fun advanced _ => .after fun players _ => ?_
  exact (collectGoBonus_uncarded _ _ _ _).seq fun r hr => List.forall_mem_cons.mpr ⟨rfl, hr⟩

/-- The move of a roll shows what its landing shows. -/
theorem executeMove_displays (hs : Sound s) (hq : q ∈ s.players) (hid : q.id = p.id)
    (howned : p.ownedPositions = q.ownedPositions) (hpos : p.position = q.position)
    (roll : DiceRoll) (extraRoll : Bool) (rng : Rng) (goSalary : Int) :
    Ensures (executeMove s p roll extraRoll rng goSalary) fun r =>
      Displays (OnCardSpace s.gameMode (walkTo s.gameMode p.position (roll.die1 + roll.die2)))
        p.id s r.1.1 r.1.2 := by
  obtain ⟨ps, m, walked, hwalk, -, hm, -⟩ := walk_eq hs hq hid howned hpos (roll.die1 + roll.die2)
  have hquiet := (walk_uncarded s p (roll.die1 + roll.die2) goSalary).of_ok hwalk
  have hmid : m.id = p.id := by rw [← bare_id, hm]; rfl
  have hmpos : m.position = walkTo s.gameMode p.position (roll.die1 + roll.die2) := by
    rw [← bare_position, hm]
  have hboard : OnBoard s.gameMode m.position := hmpos ▸ onBoard_walkTo _ _ _
  rw [executeMove, hwalk, ok_bind]
  refine (resolveLanding_displays (s := { s with players := ps }) hboard roll goSalary 299 0 1
    rng).seq fun landed hlanded => ?_
  rw [hmpos, hmid] at hlanded
  have hdoubles : ∀ e ∈ (if (roll.isDoubles && extraRoll) = true then
      [GameEvent.rolledDoubles p.id p.displayName
        (if roll.isDoubles = true then s.turn.doublesStreak + 1 else 0)] else []),
      e.isCardDrawn = false := by
    split <;> simp [GameEvent.isCardDrawn]
  refine ⟨fun hdraws => ?_, fun hstill => ?_⟩
  · obtain ⟨card, hcard, hdrawer, ⟨name, hmem⟩, heffect⟩ := hlanded.drawn hdraws
    exact ⟨card, hcard, hdrawer, ⟨name, List.mem_append_right _ hmem⟩, heffect⟩
  · obtain ⟨hcard, hevents⟩ := hlanded.still hstill
    refine ⟨hcard, fun e he => ?_⟩
    rcases List.mem_append.mp he with he | he
    · rcases List.mem_append.mp he with he | he
      · exact hquiet e he
      · exact hdoubles e he
    · exact hevents e he

theorem storePlayer_uncarded (s : GameState) (p : PlayerState) :
    Ensures (storePlayer s p) fun s' => s'.activeCard = s.activeCard :=
  .after fun _ _ => .after fun _ _ => rfl

/-- A roll that moves the player shows what the walk comes to. -/
theorem displays_of_moves {r : Handled × Rng} (hmoves : Moves s p (diceOf s.gameMode rng).isDoubles)
    (h : Displays (OnCardSpace s.gameMode (walkTo s.gameMode p.position
      ((diceOf s.gameMode rng).die1 + (diceOf s.gameMode rng).die2))) p.id s r.1.1 r.1.2) :
    Displays (RollsToCard s p rng) p.id s r.1.1 r.1.2 :=
  ⟨fun hdraws => h.drawn hdraws.2, fun hstill => h.still fun hcard => hstill ⟨hmoves, hcard⟩⟩

theorem displays_of_stays {r : Handled × Rng}
    (hstays : ¬Moves s p (diceOf s.gameMode rng).isDoubles) (h : Uncarded s r.1.1 r.1.2) :
    Displays (RollsToCard s p rng) p.id s r.1.1 r.1.2 :=
  ⟨fun hdraws => absurd hdraws.1 hstays, fun _ => h⟩

theorem rollFree_displays (hs : Sound s) (hp : p ∈ s.players) (hjail : p.jailStatus = none) :
    Ensures (rollFree s p (diceOf s.gameMode rng) (afterDice s.gameMode rng) goSalary) fun r =>
      Displays (RollsToCard s p rng) p.id s r.1.1 r.1.2 := by
  simp only [rollFree, sat_ite]
  refine ⟨fun hthird => ?_, fun hmove => ?_⟩
  · refine (storePlayer_uncarded s _).seq fun s₁ h₁ => ?_
    refine displays_of_stays ?_ ⟨h₁, by simp [GameEvent.isCardDrawn]⟩
    obtain ⟨hdoubles, hthree⟩ := hthird
    rw [if_pos hdoubles] at hthree
    simp only [Moves, hjail]
    exact not_not.mpr ⟨hdoubles, hthree⟩
  · refine (executeMove_displays hs hp rfl rfl rfl _ _ _ _).imp fun r hr =>
      displays_of_moves ?_ hr
    simp only [Moves, hjail]
    rintro ⟨hdoubles, hthree⟩
    exact hmove ⟨hdoubles, by rw [if_pos hdoubles]; exact hthree⟩

theorem rollInJail_displays (hs : Sound s) (hp : p ∈ s.players) {jail : JailStatus}
    (hjail : p.jailStatus = some jail) :
    Ensures (rollInJail s p jail (diceOf s.gameMode rng) (afterDice s.gameMode rng) goSalary
      jailFine) fun r => Displays (RollsToCard s p rng) p.id s r.1.1 r.1.2 := by
  simp only [rollInJail, sat_ite]
  refine ⟨fun hdoubles => ?_, fun hdoubles => ⟨fun hleft => ?_, fun hleft => ?_⟩⟩
  · refine (executeMove_displays (p := { p with jailStatus := none }) hs hp rfl rfl rfl _ _ _
      _).imp fun r hr => displays_of_moves ?_ hr
    simp only [Moves, hjail]
    exact .inl hdoubles
  · refine (storePlayer_uncarded s _).seq fun s₁ h₁ => displays_of_stays ?_ ⟨h₁, by simp⟩
    simp only [Moves, hjail]
    rintro (hdoubles' | hout)
    · exact hdoubles hdoubles'
    · omega
  · -- the walk starts from the table with the bail deducted
    set freed : PlayerState := { p with jailStatus := none, balance := p.balance - jailFine }
    obtain ⟨ps, x, hstore, -, hs₁, hx, hxb⟩ := storePlayer_freed (v := freed) hs hp rfl
    rw [hstore, ok_bind]
    refine (executeMove_displays (p := freed) hs₁ hx (id_eq_of_bare hxb) ?_ ?_ _ _ _ _).imp
      fun r hr => displays_of_moves ?_ ⟨hr.drawn, hr.still⟩
    · rw [← bare_ownedPositions x, hxb]
      rfl
    · rw [← bare_position x, hxb]
      rfl
    · simp only [Moves, hjail]
      omega

theorem handleRollDice_displays (hs : Sound s) (hp : p ∈ s.players) :
    Ensures (handleRollDice s p.id rng goSalary jailFine) fun r =>
      Displays (RollsToCard s p rng) p.id s r.1.1 r.1.2 := by
  refine .after fun _ _ => ?_
  rw [hs.getPlayer hp, ok_bind]
  refine .after fun _ _ => ?_
  cases hjail : p.jailStatus with
  | none => exact rollFree_displays hs hp hjail
  | some jail => exact rollInJail_displays hs hp hjail

end Rolls

/-! ## the law -/

section Law

variable {s s' m : GameState} {p : PlayerState} {pid : PlayerId} {env : Env}
  {events : List GameEvent} {rng : Rng} {h : List (Taken GameState Call)}

/-- The end of a roll takes the card down that was on display before, or
the one that is there now. -/
theorem finishCommand_activeCard (s : GameState) (pid : PlayerId) (env : Env) (m : GameState)
    (events : List GameEvent) :
    Ensures (finishCommand s (.rollDice pid) env m events) fun s' =>
      s'.activeCard = if s.activeCard.isSome then none else m.activeCard := by
  have hcleared : (clearActiveCard s (resetActor m (.rollDice pid)) (.rollDice pid)).activeCard =
      if s.activeCard.isSome then none else m.activeCard := by
    simp only [clearActiveCard, ne_eq, reduceCtorEq, not_false_eq_true, and_self, and_true]
    split <;> rfl
  have hwin : ∀ a : GameState, (checkWinCondition a).activeCard = a.activeCard := by
    intro a
    unfold checkWinCondition
    split <;> rfl
  refine (trySettleDebt_billed _).seq fun a ha => .after fun actions _ => ?_
  exact (hwin a).trans (ha.activeCard.trans hcleared)

/-- The replay waits only for a card that was drawn. -/
theorem drawn_of_waits {command : GameCommand} {interactionId : InteractionId}
    (h : .waitForPlayer interactionId ∈ buildTimeline command s' events) :
    ∃ e ∈ events, e.isCardDrawn = true := by
  rcases List.mem_append.mp h with h | h
  · unfold rollInstructions at h
    split at h <;> simp at h
  · obtain ⟨e, he, hwaits⟩ := List.mem_flatMap.mp h
    refine ⟨e, he, ?_⟩
    cases e with
    | cardDrawn _ _ _ _ => rfl
    | playerMoved _ _ _ _ _ _ _ =>
        simp only [eventInstructions] at hwaits
        split at hwaits <;> simp at hwaits
    | _ => simp [eventInstructions] at hwaits

/-- With distinct users a player is found under their own user. -/
theorem resolvePlayerId_eq (husers : (s.players.map (·.userId)).Nodup) (hp : p ∈ s.players) :
    resolvePlayerId s p.userId = .ok p.id := by
  rw [resolvePlayerId, find?_key (·.userId) husers hp]

/-- Games of members with distinct users. -/
theorem userIds_of_run (hrun : Run (fun s => ∃ args, Opens args s ∧
      (args.members.map (·.userId)).Nodup) Accepted h s) :
    (s.players.map (·.userId)).Nodup := by
  induction hrun with
  | start hs =>
      obtain ⟨args, ⟨-, uuid4, -, rng, hnew⟩, husers⟩ := hs
      have hmembers := shuffle_perm args.rng args.members
      have hsame : ∀ (f : Nat → GameMember → PlayerState), (∀ i x, (f i x).userId = x.userId) →
          ∀ xs : List GameMember, (xs.mapIdx f).map (·.userId) = xs.map (·.userId) := by
        intro f hf xs
        refine List.ext_getElem (by simp) fun i _ _ => ?_
        simp [hf]
      rw [newGame_players hnew, hsame _ fun _ _ => rfl]
      exact (hmembers.map _).nodup_iff.mpr husers
  | next hrun hcall ih =>
      have hplay := hrun.weaken fun s hs => hs.imp fun _ h => h.1
      rw [hcall.userIds (Play.formed hplay).1.playerIds]
      exact ih

theorem Carded.gate {r : PlayerId} (hc : Carded r s' events)
    (husers : (s'.players.map (·.userId)).Nodup) : CardGate r s' events := by
  obtain ⟨card, hcard, hdrawn⟩ := hc
  obtain ⟨name, hmem⟩ := hdrawn.event
  refine ⟨iff_of_true (by rw [hcard]; rfl) ⟨_, hmem, rfl⟩, fun card' hcard' => ?_, ?_⟩
  · obtain rfl : card = card' := Option.some.inj (hcard.symm.trans hcard')
    exact hdrawn
  · rintro - - stored rfl p hp hcurrent
    simp [authorizeContinue, hcard, resolvePlayerId_eq husers hp, hcurrent]

/-- Nothing on display, and nothing drawn. -/
theorem cardGate_of_none {r : PlayerId} (hnone : s'.activeCard = none)
    (hquiet : ∀ e ∈ events, e.isCardDrawn = false) : CardGate r s' events := by
  have hno : ¬∃ e ∈ events, e.isCardDrawn = true := by
    rintro ⟨e, he, hdrawn⟩
    exact Bool.noConfusion ((hquiet e he).symm.trans hdrawn)
  refine ⟨iff_of_false (by simp [hnone]) hno, fun card hcard => ?_, fun _ hwaits => ?_⟩
  · exact absurd (hnone.symm.trans hcard) (by simp)
  · exact absurd (drawn_of_waits hwaits) hno

/-- The replay of a roll can be resumed unless a card was on display before
it and the roll draws another. -/
theorem card_gate_iff (hrun : Run (fun s => ∃ args, Opens args s ∧
      (args.members.map (·.userId)).Nodup) Accepted h s) (hp : p ∈ s.players)
    (happly : apply s (.rollDice p.id) env = .ok ((s', events), rng)) :
    CardGate p.id s' events ↔ (s.activeCard = none ∨ ¬RollsToCard s p env.rng) := by
  have hplay := hrun.weaken fun s hs => hs.imp fun _ h => h.1
  have hw := (Play.formed hplay).1
  have haccepted : Accepted s ⟨.rollDice p.id, env⟩ s' := ⟨events, rng, happly⟩
  have husers := userIds_of_run (hrun.next haccepted)
  have hrolled : Ensures (apply s (.rollDice p.id) env) fun r =>
      ∃ m, Displays (RollsToCard s p env.rng) p.id s m r.1.2 ∧
        r.1.1.activeCard = if s.activeCard.isSome then none else m.activeCard := by
    refine .after fun _ _ => (handleRollDice_displays hw.toSound hp).seq fun r hr => ?_
    exact (finishCommand_activeCard s p.id env _ _).seq fun _ h => ⟨r.1.1, hr, h⟩
  obtain ⟨m, hdisplays, hcard⟩ := hrolled.of_ok happly
  dsimp only at hdisplays hcard
  by_cases hnone : s.activeCard = none
  · rw [hnone] at hcard
    refine iff_of_true ?_ (.inl hnone)
    by_cases hdraws : RollsToCard s p env.rng
    · obtain ⟨card, hshown, hdrawn⟩ := hdisplays.drawn hdraws
      exact Carded.gate ⟨card, hcard.trans hshown, hdrawn⟩ husers
    · obtain ⟨hkept, hquiet⟩ := hdisplays.still hdraws
      exact cardGate_of_none (hcard.trans (hkept.trans hnone)) hquiet
  · rw [if_pos (Option.isSome_iff_ne_none.mpr hnone)] at hcard
    rw [or_iff_right hnone]
    constructor
    · intro hgate hdraws
      obtain ⟨card, -, -, ⟨name, hmem⟩, -⟩ := hdisplays.drawn hdraws
      have hshown := hgate.shown.mpr ⟨_, hmem, rfl⟩
      rw [hcard] at hshown
      cases hshown
    · exact fun hstill => cardGate_of_none hcard (hdisplays.still hstill).2

/-- Player `1` rolls two ones, to a Community Chest. -/
def firstCard : Call := callAt 0 [0, 0] (.rollDice 1)

theorem card_gate_first : ∃ s s' events rng,
    apply s firstCard.command firstCard.env = .ok ((s', events), rng) ∧
    s'.activeCard.isSome = true ∧ CardGate 1 s' events := by
  obtain ⟨h, s, hrun, -, hcheck⟩ := run_of_reaches
    (fun s => ∃ args, Opens args s ∧ (args.members.map GameMember.userId).Nodup) (duo 1500) []
    (fun _ s => (apply s firstCard.command firstCard.env).toOption.any
      fun (r : Handled × Rng) => decide (r.1.1.activeCard.isSome = true ∧ s.activeCard = none ∧
        ∃ p ∈ s.players, p.id = 1))
    (fun s hopens => ⟨duo 1500, hopens, by decide⟩) (by decide) (by decide +kernel)
  obtain ⟨⟨⟨s', events⟩, rng⟩, happly, hfacts⟩ := ok_of_any hcheck
  obtain ⟨hshown, hnone, p, hp, hid⟩ := of_decide_eq_true hfacts
  refine ⟨s, s', events, rng, happly, hshown, ?_⟩
  have happly' : apply s (.rollDice p.id) firstCard.env = .ok ((s', events), rng) :=
    hid.symm ▸ happly
  exact hid ▸ (card_gate_iff hrun hp happly').mpr (.inl hnone)

/-- The doubles give player `1` another roll, to a Chance: the replay waits,
and nobody may go on. -/
theorem second_card_taken_down : ∃ h s s' events rng, Play h s ∧
    h.reverse.map (·.label) = [firstCard] ∧ s.status = .inProgress ∧
    apply s (.rollDice 1) (callAt 0 [0, 3] (.rollDice 1)).env = .ok ((s', events), rng) ∧
    s'.activeCard = none ∧ (∃ e ∈ events, e.isCardDrawn = true) ∧
    (∃ interactionId, .waitForPlayer interactionId ∈ buildTimeline (.rollDice 1) s' events) ∧
    s'.turn.currentPlayerId = 1 ∧ ∀ p ∈ s'.players, p.id = 1 →
      authorizeContinue (some ⟨1, rng, 1, s'⟩) p.userId = false := by
  obtain ⟨h, s, hplay, hlabels, hcheck⟩ := play_of_reaches (duo 1500) [firstCard]
    (fun _ s => (apply s (.rollDice 1) (callAt 0 [0, 3] (.rollDice 1)).env).toOption.any
      fun (r : Handled × Rng) => decide (s.status = .inProgress ∧ r.1.1.activeCard = none ∧
        (∃ e ∈ r.1.2, e.isCardDrawn = true) ∧
        .waitForPlayer ⟨r.1.1.turn.turnNumber, ⟨.chance, 2⟩⟩ ∈
          buildTimeline (.rollDice 1) r.1.1 r.1.2 ∧
        r.1.1.turn.currentPlayerId = 1 ∧ ∀ p ∈ r.1.1.players, p.id = 1 →
          authorizeContinue (some ⟨1, r.2, 1, r.1.1⟩) p.userId = false))
    (by decide) (by decide +kernel)
  obtain ⟨⟨⟨s', events⟩, rng⟩, happly, hfacts⟩ := ok_of_any hcheck
  obtain ⟨hin, hnone, hdrawn, hwaits, hcurrent, hrefused⟩ := of_decide_eq_true hfacts
  exact ⟨h, s, s', events, rng, hplay, hlabels, hin, happly, hnone, hdrawn, ⟨_, hwaits⟩,
    hcurrent, hrefused⟩

end Law

end Monopoly
