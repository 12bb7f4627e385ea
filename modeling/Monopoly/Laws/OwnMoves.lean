import Monopoly.Laws.OnePlay
import Monopoly.Laws.Solvency
import Monopoly.Service.Gateway

/-!
# Monopoly.Laws.OwnMoves

What a client can do to a game by sending texts.  Whatever the text, it acts
for the player of its own user only, gives no command of the timers, and
names no negative amount; and each text that was to change the game either
did so once or is answered by one error.
-/

namespace Monopoly

/-- The offer asks for nothing negative. -/
def TradeOffer.NonNegative (offer : TradeOffer) : Prop :=
  0 ≤ offer.money ∧ 0 ≤ offer.getOutOfJailCards

/-- What the payloads of the texts ensure of the commands. -/
def WellGiven : GameCommand → Prop
  | .buyProperty _ position | .buildHouse _ position | .sellHouse _ position
  | .mortgage _ position | .unmortgage _ position => 1 ≤ position
  | .proposeTrade _ _ offer request => offer.NonNegative ∧ request.NonNegative
  | .respondTrade _ _ _ counter => ∀ offer ∈ counter, offer.NonNegative
  | .placeBid _ amount => 0 < amount
  | .advanceAuction | .expireTrade | .turnTimeout => False
  | _ => True

namespace Gateway

section Payloads

variable {w : Wire} {payload : Payload}

theorem boundedInt_ok {ok : Int → Prop} [DecidablePred ok] {data : Json} {n : Int}
    (h : boundedInt w ok data = some n) : ok n :=
  of_decide_eq_true (Option.filter_eq_some_iff.mp h).2

/-- A position that passes its field is at least 1. -/
theorem positionField_pos {position : Nat} (h : positionField w payload = some position) :
    1 ≤ position := by
  obtain ⟨n, hn, rfl⟩ := Option.map_eq_some_iff.mp h
  obtain ⟨data, -, hdata⟩ := Option.bind_eq_some_iff.mp hn
  have hpos := boundedInt_ok hdata
  omega

/-- An offer that passes its payload has no negative money and no negative
cards. -/
theorem toOffer_nonNegative {data : Json} {offer : TradeOfferPayload}
    (h : TradeOfferPayload.validate w data = some offer) : (toOffer offer).NonNegative := by
  simp only [TradeOfferPayload.validate, Option.bind_eq_bind, Option.pure_def] at h
  obtain ⟨fields, -, h⟩ := Option.bind_eq_some_iff.mp h
  obtain ⟨money, hmoney, h⟩ := Option.bind_eq_some_iff.mp h
  obtain ⟨positions, -, h⟩ := Option.bind_eq_some_iff.mp h
  obtain ⟨cards, hcards, h⟩ := Option.bind_eq_some_iff.mp h
  obtain rfl := Option.some.inj h
  obtain ⟨field, -, hfield⟩ := Option.bind_eq_some_iff.mp hmoney
  refine ⟨boundedInt_ok hfield, ?_⟩
  show 0 ≤ cards
  unfold fieldOr at hcards
  split at hcards
  · exact (Option.some.inj hcards).le
  · exact boundedInt_ok hcards

theorem validated_ok {x : Option α} {a : α} (h : validated x = .ok a) : x = some a := by
  cases x with
  | none => cases h
  | some b => rw [Except.ok.inj h]

end Payloads

theorem ok_of_bind {x : Except HandlerError α} {f : α → Except HandlerError β} {b : β}
    (h : (x >>= f) = .ok b) : ∃ a, x = .ok a ∧ f a = .ok b := by
  cases x with
  | error e => cases h
  | ok a => exact ⟨a, rfl, h⟩

/-- What a handler makes of a payload it accepts is well given. -/
def Careful (handler : Handler) : Prop :=
  ∀ w payload command, handler w payload = .ok (.intent command) → WellGiven command

section Handlers

/-- A command without a payload has nothing to get wrong. -/
theorem plainHandler_careful {command : PlayerId → GameCommand}
    (h : ∀ pid, WellGiven (command pid)) : Careful (plainHandler command) := by
  intro w payload given hgiven
  obtain rfl := Reaction.intent.inj (Except.ok.inj hgiven)
  exact h _

/-- The handlers of a position pass on positions from 1 only. -/
theorem positionHandler_careful {command : PlayerId → Nat → GameCommand}
    (h : ∀ pid position, 1 ≤ position → WellGiven (command pid position)) :
    Careful (positionHandler command) := by
  intro w payload given hgiven
  obtain ⟨position, hposition, hreturn⟩ := ok_of_bind hgiven
  obtain rfl := Reaction.intent.inj (Except.ok.inj hreturn)
  exact h _ _ (positionField_pos (validated_ok hposition))

/-- A proposal passes both offers through their payloads. -/
theorem proposeTrade_careful : Careful handleGameProposeTrade := by
  intro w payload given hgiven
  obtain ⟨targetId, -, h⟩ := ok_of_bind hgiven
  obtain ⟨offer, hoffer, h⟩ := ok_of_bind h
  obtain ⟨request, hrequest, h⟩ := ok_of_bind h
  obtain rfl := Reaction.intent.inj (Except.ok.inj h)
  obtain ⟨data, -, hdata⟩ := Option.bind_eq_some_iff.mp (validated_ok hoffer)
  obtain ⟨data', -, hdata'⟩ := Option.bind_eq_some_iff.mp (validated_ok hrequest)
  exact ⟨toOffer_nonNegative hdata, toOffer_nonNegative hdata'⟩

/-- An answer passes its counter-offer through the payload, when there is one.
-/
theorem respondTrade_careful : Careful handleGameRespondTrade := by
  intro w payload given hgiven
  obtain ⟨tradeId, -, h⟩ := ok_of_bind hgiven
  obtain ⟨response, -, h⟩ := ok_of_bind h
  obtain ⟨counterOffer, hcounter, h⟩ := ok_of_bind h
  cases hresponse : tradeResponse response with
  | none => rw [hresponse] at h; cases h
  | some response =>
      rw [hresponse] at h
      obtain rfl := Reaction.intent.inj (Except.ok.inj h)
      intro o ho
      obtain ⟨offer, rfl, rfl⟩ := Option.map_eq_some_iff.mp ho
      have hfield := validated_ok hcounter
      unfold optionalField at hfield
      split at hfield
      · cases hfield
      · cases hfield
      · obtain ⟨offer', hdata, heq⟩ := Option.map_eq_some_iff.mp hfield
        obtain rfl := Option.some.inj heq
        exact toOffer_nonNegative hdata

/-- A bid is positive. -/
theorem placeBid_careful : Careful handleGamePlaceBid := by
  intro w payload given hgiven
  obtain ⟨amount, hamount, h⟩ := ok_of_bind hgiven
  obtain rfl := Reaction.intent.inj (Except.ok.inj h)
  obtain ⟨data, -, hdata⟩ := Option.bind_eq_some_iff.mp (validated_ok hamount)
  have hpos : 0 < amount := @boundedInt_ok w (0 < ·) _ data amount hdata
  exact hpos

/-- Every handler of the table passes on only what is well given. -/
theorem handlers_careful : ∀ entry ∈ handlers, Careful entry.2 := by
  have hquiet : ∀ {x : Except HandlerError String} {f : String → Reaction} {command},
      (∀ s, f s ≠ .intent command) → (x >>= fun s => .ok (f s)) ≠ .ok (.intent command) := by
    intro x f command hf h
    obtain ⟨s, -, hs⟩ := ok_of_bind h
    exact hf s (Except.ok.inj hs)
  simp only [handlers, List.forall_mem_cons, List.not_mem_nil, false_imp_iff, implies_true,
    and_true]
  refine ⟨?_, ?_, ?_, ?_, ?_, ?_, ?_, ?_, ?_, ?_, ?_, ?_, ?_, ?_, ?_, ?_, ?_, ?_, ?_⟩
  · exact fun w payload command h => absurd h (hquiet fun _ => by simp)
  · exact fun w payload command h => absurd h (hquiet fun _ => by simp)
  · exact fun w payload command h => by cases h
  · exact plainHandler_careful fun _ => trivial
  · exact positionHandler_careful fun _ _ h => h
  · exact plainHandler_careful fun _ => trivial
  · exact plainHandler_careful fun _ => trivial
  · exact plainHandler_careful fun _ => trivial
  · exact plainHandler_careful fun _ => trivial
  · exact positionHandler_careful fun _ _ h => h
  · exact positionHandler_careful fun _ _ h => h
  · exact positionHandler_careful fun _ _ h => h
  · exact positionHandler_careful fun _ _ h => h
  · exact proposeTrade_careful
  · exact respondTrade_careful
  · exact placeBid_careful
  · exact plainHandler_careful fun _ => trivial
  · exact plainHandler_careful fun _ => trivial
  · exact fun w payload command h => absurd h (hquiet fun _ => by simp)

end Handlers

/-- Whatever the text, a command it is turned into is well given. -/
theorem dispatch_wellGiven {w : Wire} {raw : String} {command : GameCommand}
    (h : dispatch w raw = .intent command) : WellGiven command := by
  unfold dispatch at h
  split at h
  · cases h
  · cases h
  · split at h
    · cases h
    · unfold dispatchEnvelope at h
      split at h
      · cases h
      · split at h
        · cases h
        · rename_i handler hhandler
          split at h
          · cases h
          · cases h
          · rename_i reaction hreaction
            subst h
            obtain ⟨before, after, hentry, -⟩ := List.lookup_eq_some_iff.mp hhandler
            have hcareful := handlers_careful
            rw [hentry] at hcareful
            exact hcareful _ (List.mem_append_right _ List.mem_cons_self) _ _ _ hreaction

end Gateway

/-- No space has a position below 1, so it makes no difference that an offer's
negative positions go as 0: the engine raises the same error for both. -/
theorem spaceAt_below {s : GameState} (hs : Sound s) {q : Int} (hq : q < 1) :
    spaceAt s.spaces q.toNat = .error .keyError :=
  spaceAt_off hs.layout fun hon => by have := hon.1; omega

/-! ## runs -/

section Law

variable {settings : Settings} {requests : FlowId → Request} {first : GameDocument}
  {h : List (Taken Server (Event FlowId Op Op.Ans))} {p : Server} {wire : Gateway.Wire}
  {before : List (Taken GameState Call)} {init : GameState → Prop}

/-- Every intent the server serves is what the gateway made of some text. -/
def FromTexts (wire : Gateway.Wire) (requests : FlowId → Request) : Prop :=
  ∀ i process userId command, requests i = .intent process userId command →
    ∃ raw, Gateway.dispatch wire raw = .intent command

/-- The call is that of a timer which was due, or a well given one by the
player of a user who sent a text. -/
def OwnMove (requests : FlowId → Request) (s : GameState) (call : Call) : Prop :=
  (call.command.player = none ∧ dueCommand s call.env.clock = some call.command) ∨
    ∃ i process userId given pid, requests i = .intent process userId given ∧
      viewerOf s userId = some pid ∧ call.command = given.withPlayerId pid ∧
      call.command.player = some pid ∧ WellGiven call.command

theorem WellGiven.player {command : GameCommand} (h : WellGiven command) :
    ∃ pid, command.player = some pid := by
  cases command <;> first | exact ⟨_, rfl⟩ | exact h.elim

/-- Putting the player of the user into a command keeps it well given, and
makes it act for that player. -/
theorem WellGiven.withPlayerId {command : GameCommand} (h : WellGiven command) (pid : PlayerId) :
    WellGiven (command.withPlayerId pid) ∧ (command.withPlayerId pid).player = some pid := by
  cases command <;> first | exact ⟨h, rfl⟩ | exact h.elim

/-- The commands of the timers act for nobody. -/
theorem dueCommand_player {s : GameState} {clock : Clock} {command : GameCommand}
    (h : dueCommand s clock = some command) : command.player = none := by
  unfold dueCommand at h
  split at h
  · cases h; rfl
  · split at h
    · cases h; rfl
    · split at h
      · cases h; rfl
      · cases h

/-- The player resolved for a user is that of the user. -/
theorem resolvePlayerId_ok {s : GameState} {userId : UserId} {pid : PlayerId}
    (h : resolvePlayerId s userId = .ok pid) : viewerOf s userId = some pid := by
  unfold resolvePlayerId at h
  unfold viewerOf
  split at h
  · rename_i q hq
    rw [hq, Option.map_some, Except.ok.inj h]
  · cases h

/-- What is asked for in a text is an own move. -/
theorem Issues.ownMove {i : FlowId} {s : GameState} {call : Call} (hfrom : FromTexts wire requests)
    (h : Issues (requests i) s call.env.clock call.command) : OwnMove requests s call := by
  cases hrequest : requests i with
  | tick =>
      rw [hrequest] at h
      exact .inl ⟨dueCommand_player h, h⟩
  | intent process userId given =>
      rw [hrequest] at h
      obtain ⟨raw, hraw⟩ := hfrom i process userId given hrequest
      have hgiven := Gateway.dispatch_wellGiven hraw
      obtain ⟨someone, hplayer⟩ := hgiven.player
      have hresolve : resolveCommand s userId given = .ok call.command := h
      rw [resolveCommand, hplayer] at hresolve
      cases hpid : resolvePlayerId s userId with
      | error e => rw [hpid] at hresolve; cases hresolve
      | ok pid =>
          rw [hpid] at hresolve
          have hcommand : given.withPlayerId pid = call.command := Except.ok.inj hresolve
          obtain ⟨hwell, hown⟩ := hgiven.withPlayerId pid
          rw [hcommand] at hwell hown
          exact .inr ⟨i, process, userId, given, pid, hrequest, resolvePlayerId_ok hpid,
            hcommand.symm, hown, hwell⟩
  | _ => rw [hrequest] at h; exact h.elim

theorem OwnMove.nonNegative {s : GameState} {call : Call} (h : OwnMove requests s call)
    (hsalary : 0 ≤ call.env.goSalary) (hfine : 0 ≤ call.env.jailFine) : NonNegative call where
  salary := hsalary
  fine := hfine
  offers pid target offer request hcommand := by
    obtain ⟨hnone, -⟩ | ⟨-, -, -, -, -, -, -, -, -, hwell⟩ := h
    · rw [hcommand] at hnone; cases hnone
    · rw [hcommand] at hwell
      exact ⟨hwell.1.1, hwell.2.1⟩
  counters pid tradeId response offer hcommand := by
    obtain ⟨hnone, -⟩ | ⟨-, -, -, -, -, -, -, -, -, hwell⟩ := h
    · rw [hcommand] at hnone; cases hnone
    · rw [hcommand] at hwell
      exact (hwell offer rfl).1

/-- **Own moves only.** Whatever texts the clients of a session send, each
call in the game that is stored is that of a timer which was due, or acts for
the very player whose user sent it, with no amount below 0: no text acts for
another player, or as a timer. -/
theorem own_moves_only (hfrom : FromTexts wire requests)
    (hserved : Served settings requests first h p) (hplay : Run init Accepted before first.state)
    (hsalary : 0 ≤ settings.goSalary) (hfine : 0 ≤ settings.jailFine) :
    ∃ doc calls stateOf, Recorded settings requests init first before p.world doc calls stateOf ∧
      ∀ t ∈ calls.take (doc.version - first.version),
        OwnMove requests t.before t.label ∧ NonNegative t.label := by
  obtain ⟨doc, calls, hrecorded⟩ := hserved.sane.toHistory.recorded hplay
  refine ⟨doc, calls, _, hrecorded, fun t ht => ?_⟩
  obtain ⟨hs, hf, i, hissues, -⟩ := hrecorded.asked t ht
  have hown := Issues.ownMove hfrom hissues
  exact ⟨hown, hown.nonNegative (hs ▸ hsalary) (hf ▸ hfine)⟩

/-- A client that sends the text of a roll, whatever it writes. -/
def rollingWire : Gateway.Wire where
  loads _ := .value (.obj [("v", .int 1), ("type", .str "game.roll_dice"), ("ts", .str "")])
  int data := match data with | .int n => some n | _ => none
  str data := match data with | .str s => some s | _ => none
  datetime _ := some ""
  fits _ _ := false
  idOf _ := 0

theorem dispatch_rollingWire (raw : String) :
    Gateway.dispatch rollingWire raw = .intent (.rollDice 0) := rfl

/-- The first of two users sends the text of a roll: one call, by her own
player. -/
theorem own_moves_only_roll :
    ∃ first h p doc calls stateOf, Served defaultSettings twoTabs first h p ∧
      Recorded defaultSettings twoTabs (Opens (duo 1500)) first [] p.world doc calls stateOf ∧
      calls.length = 1 ∧ ∀ t ∈ calls, OwnMove twoTabs t.before t.label ∧ NonNegative t.label := by
  obtain ⟨first, h, p, hopens, hversion, hserved, -, hcheck⟩ := served_of_schedules (duo 1500)
    [0, 1] twoTabs (turnsOf [0, 0, 0, 0, 0, 0, 0, 0]) anyStep
    (fun p => decide (p.world.current.map (·.version) = some 1)) (by decide) (by decide +kernel)
  have hlast := of_decide_eq_true hcheck
  have hfrom : FromTexts rollingWire twoTabs := by
    intro i process userId command hrequest
    refine ⟨"", ?_⟩
    rcases i with _ | _ | i <;> cases hrequest <;> exact dispatch_rollingWire _
  obtain ⟨doc, calls, stateOf, hrecorded, hown⟩ :=
    own_moves_only hfrom hserved (.start hopens) (by decide) (by decide)
  have hone : doc.version = 1 := by simpa [hrecorded.current] using hlast
  have hlength : calls.length = 1 := by rw [hrecorded.length, hone, hversion]; rfl
  refine ⟨first, h, p, doc, calls, stateOf, hserved, hrecorded, hlength, ?_⟩
  rw [hone, hversion, ← hlength, Nat.sub_zero, List.take_length] at hown
  exact hown

end Law

end Monopoly
