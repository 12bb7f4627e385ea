import Monopoly.Laws.RoomCapacity
import Monopoly.Service.Opening

/-!
# Monopoly.Laws.RoomStart

The start of a room, among any other requests.  Whoever turns the room to in
progress is alone in inserting its game, and meets no other game on the way.
-/

namespace Monopoly.Launch

/-! ## the database -/

/-- What holds of the database: rooms of the modes they were created in,
under codes of their own; and for each game the start of its room. -/
structure Kept (mode : SessionId → GameMode) (balance : Int) (w : World) : Prop where
  furniture : Lobby.Furniture mode w.rooms
  known : ∀ sid session, w.rooms.sessions sid = some session → sid ∈ w.inserted
  codes : ∀ sid session, w.rooms.sessions sid = some session → InviteCode session.inviteCode
  unique : ∀ sid sid' session session', w.rooms.sessions sid = some session →
    w.rooms.sessions sid' = some session' → session.inviteCode = session'.inviteCode → sid = sid'
  left : ∀ start ∈ w.started, ∀ session, w.rooms.sessions start.sessionId = some session →
    session.status ≠ .waiting
  once : (w.started.map (·.sessionId)).Nodup
  seated : ∀ start ∈ w.started,
    Lobby.Seated (mode start.sessionId) start.sessionId start.session
  opened : ∀ game ∈ w.games, ∃ start ∈ w.started, start.sessionId = game.sessionId ∧
    Opening balance start.session game.document
  one : (w.games.map (·.sessionId)).Nodup
  shown : ∀ sid state, (sid, .gameState state) ∈ w.published → ∃ game ∈ w.games,
    game.sessionId = sid ∧ state = withoutDecks game.document.state

/-- The request on the rooms, if it is one. -/
def lobbyOf : Request → Lobby.Request
  | .create .. => .finish 0
  | .lobby req => req

/-- What a flow may do: insert rooms that are furnished, start rooms that are
waiting, and insert the game of a room it has started. -/
def Allowed (mode : SessionId → GameMode) (balance : Int) (req : Request) (flow : FlowId)
    (w : World) : Op → Prop
  | .lobby op => Lobby.Proper mode (lobbyOf req) op ∧
      ∀ sid expected, op = .setStatus sid .inProgress expected → expected = some .waiting
  | .insertSession session => InviteCode session.inviteCode ∧
      Lobby.Furnished session.id session
  | .insertGame game =>
      (∃ start ∈ w.started, start.flow = flow ∧ start.sessionId = game.sessionId ∧
        Opening balance start.session game.document) ∧ ∀ g ∈ w.games, g.sessionId ≠ game.sessionId
  | .publish sid (.gameState state) =>
      ∃ game ∈ w.games, game.sessionId = sid ∧ state = withoutDecks game.document.state
  | _ => True

/-- What a flow may rely on: rooms that were started and games stay, and
nobody else starts a room or a game in its name. -/
structure Meanwhile (flow : FlowId) (w w' : World) : Prop where
  started : ∀ start ∈ w.started, start ∈ w'.started
  games : ∀ game ∈ w.games, game ∈ w'.games
  own : ∀ start ∈ w'.started, start.flow = flow → start ∈ w.started
  mine : ∀ start ∈ w.started, start.flow = flow → ∀ game ∈ w'.games,
    game.sessionId = start.sessionId → game ∈ w.games

/-- The ids of new documents are new. -/
structure NewIds (mode : SessionId → GameMode) (w : World) (e : Event FlowId Op Op.Ans) :
    Prop where
  room : ∀ session, e.op = .insertSession session → session.gameMode = mode session.id ∧
    ∀ start ∈ w.started, start.sessionId ≠ session.id
  game : ∀ game, e.op = .insertGame game → ∀ g ∈ w.games, g.document.id ≠ game.document.id

section Steps

variable {mode : SessionId → GameMode} {balance : Int} {i j : FlowId} {w w' : World}
  {req : Request}

theorem Meanwhile.of_same (hstarted : w'.started = w.started) (hgames : w'.games = w.games) :
    Meanwhile i w w' := by
  constructor <;> simp_all

theorem Meanwhile.trans {w'' : World} (h : Meanwhile i w w') (h' : Meanwhile i w' w'') :
    Meanwhile i w w'' where
  started start hs := h'.started start (h.started start hs)
  games game hg := h'.games game (h.games game hg)
  own start hs hi := h.own start (h'.own start hs hi) hi
  mine start hs hi game hg hsid :=
    h.mine start hs hi game (h'.mine start (h.started start hs) hi game hg hsid) hsid

/-- A room that is there was there, under the same code. -/
theorem code_of_touched {sid : SessionId} {op : Lobby.Op} {doc : Option Session}
    {session : Session} (h : Lobby.Touched sid op doc (some session)) :
    ∃ before, doc = some before ∧ session.inviteCode = before.inviteCode := by
  cases h with
  | kept => exact ⟨_, rfl, rfl⟩
  | added _ => exact ⟨_, rfl, rfl⟩
  | removed => exact ⟨_, rfl, rfl⟩
  | rehosted => exact ⟨_, rfl, rfl⟩
  | restatused _ => exact ⟨_, rfl, rfl⟩

/-- An operation on the rooms starts one that has the expected status, or
none. -/
theorem started_cases {op : Lobby.Op} {r : op.Ans} {rooms : Lobby.World}
    (hexec : Lobby.exec i w.rooms op r rooms) :
    w.startedBy i op r = w.started ∨ ∃ sid session expected,
      op = .setStatus sid .inProgress expected ∧ w.rooms.sessions sid = some session ∧
      Lobby.Session.expects session expected = true ∧
      rooms.sessions sid = some (session.withStatus .inProgress) ∧
      w.startedBy i op r = ⟨i, sid, session.withStatus .inProgress⟩ :: w.started := by
  cases op with
  | setStatus sid status expected =>
      cases status with
      | inProgress =>
          rcases Lobby.findOneAndUpdate_cases hexec with
            ⟨session, hsession, hexpects, rfl, rfl⟩ | ⟨rfl, -, -⟩
          · exact .inr ⟨sid, session, expected, rfl, hsession, hexpects, Lobby.store_self .., rfl⟩
          · exact .inl rfl
      | waiting => exact .inl rfl
      | finished => exact .inl rfl
  | _ => exact .inl rfl

/-- The rooms that were started are still not waiting. -/
theorem Kept.left_after (h : Kept mode balance w) {op : Lobby.Op} {r : op.Ans}
    {rooms : Lobby.World} (hproper : Lobby.Proper mode (lobbyOf req) op)
    (hexec : Lobby.exec i w.rooms op r rooms) {start : Start} (hstart : start ∈ w.started)
    {session : Session} (hsession : rooms.sessions start.sessionId = some session) :
    session.status ≠ .waiting := by
  let pool (rooms : Lobby.World) : Lobby.Rooms := ⟨rooms, fun _ => .done .returnedNone⟩
  have hbefore : Lobby.HasLeftWaiting start.sessionId (pool w.rooms) := h.left start hstart
  have hafter : Lobby.HasLeftWaiting start.sessionId (pool rooms) :=
    hbefore.touched hproper (Lobby.exec_touched hexec start.sessionId)
  exact hafter session hsession

theorem Kept.lobby (h : Kept mode balance w) {op : Lobby.Op} {r : op.Ans} {rooms : Lobby.World}
    (hallowed : Allowed mode balance req i w (.lobby op))
    (hexec : Lobby.exec i w.rooms op r rooms) :
    Kept mode balance { w with rooms, started := w.startedBy i op r } := by
  obtain ⟨hproper, hexpects⟩ := hallowed
  have hfurniture := h.furniture.exec hproper hexec
  have hcode : ∀ sid session, rooms.sessions sid = some session → ∃ before,
      w.rooms.sessions sid = some before ∧ session.inviteCode = before.inviteCode := by
    intro sid session hsession
    exact code_of_touched (hsession ▸ Lobby.exec_touched hexec sid)
  have hknown : ∀ sid session, rooms.sessions sid = some session → sid ∈ w.inserted := by
    intro sid session hsession
    obtain ⟨before, hbefore, -⟩ := hcode sid session hsession
    exact h.known sid before hbefore
  have hcodes : ∀ sid session, rooms.sessions sid = some session →
      InviteCode session.inviteCode := by
    intro sid session hsession
    obtain ⟨before, hbefore, hsame⟩ := hcode sid session hsession
    exact hsame ▸ h.codes sid before hbefore
  have hunique : ∀ sid sid' session session', rooms.sessions sid = some session →
      rooms.sessions sid' = some session' → session.inviteCode = session'.inviteCode →
      sid = sid' := by
    intro sid sid' session session' hs hs' heq
    obtain ⟨before, hbefore, hsame⟩ := hcode sid session hs
    obtain ⟨before', hbefore', hsame'⟩ := hcode sid' session' hs'
    exact h.unique sid sid' before before' hbefore hbefore' (hsame ▸ hsame' ▸ heq)
  have hleft : ∀ start ∈ w.started, ∀ session,
      rooms.sessions start.sessionId = some session → session.status ≠ .waiting :=
    fun start hstart session => h.left_after hproper hexec hstart
  rcases started_cases hexec with hstarted |
    ⟨sid, session, expected, hop, hsession, hexpected, hupdated, hstarted⟩
  · rw [hstarted]
    exact ⟨hfurniture, hknown, hcodes, hunique, hleft, h.once, h.seated, h.opened, h.one, h.shown⟩
  · rw [hstarted]
    have hwaiting : session.status = .waiting := by
      rw [hexpects sid expected hop] at hexpected
      simpa [Lobby.Session.expects] using hexpected
    refine ⟨hfurniture, hknown, hcodes, hunique, ?_, ?_, ?_, ?_, h.one, h.shown⟩
    · refine List.forall_mem_cons.mpr ⟨fun s hs => ?_, hleft⟩
      obtain rfl := Option.some.inj (hs.symm.trans hupdated)
      simp [Session.withStatus]
    · refine List.nodup_cons.mpr ⟨fun hmem => ?_, h.once⟩
      obtain ⟨start, hstart, hsid⟩ := List.mem_map.mp hmem
      exact h.left start hstart session (hsid ▸ hsession) hwaiting
    · exact List.forall_mem_cons.mpr ⟨hfurniture sid _ hupdated, h.seated⟩
    · intro game hgame
      obtain ⟨start, hstart, hopened⟩ := h.opened game hgame
      exact ⟨start, List.mem_cons_of_mem _ hstart, hopened⟩

theorem Kept.insertSession (h : Kept mode balance w) {session : Session}
    (hallowed : Allowed mode balance req i w (.insertSession session))
    (hmode : session.gameMode = mode session.id)
    (hnew : ∀ start ∈ w.started, start.sessionId ≠ session.id) (hfree : ¬w.TakenRoom session) :
    Kept mode balance (w.insertRoom session) := by
  have hstored : ∀ sid s, (w.rooms.store session.id (some session)).sessions sid = some s →
      (sid = session.id ∧ s = session) ∨ sid ≠ session.id ∧ w.rooms.sessions sid = some s := by
    intro sid s hs
    by_cases hsid : sid = session.id
    · subst hsid
      rw [Lobby.store_self] at hs
      exact .inl ⟨rfl, (Option.some.inj hs).symm⟩
    · rw [Lobby.store_of_ne _ _ hsid] at hs
      exact .inr ⟨hsid, hs⟩
  refine ⟨?_, ?_, ?_, ?_, ?_, h.once, h.seated, h.opened, h.one, h.shown⟩
  · intro sid s hs
    rcases hstored sid s hs with ⟨rfl, rfl⟩ | ⟨-, hs⟩
    · exact ⟨hallowed.2, hmode⟩
    · exact h.furniture sid s hs
  · intro sid s hs
    rcases hstored sid s hs with ⟨rfl, -⟩ | ⟨-, hs⟩
    · exact List.mem_cons_self
    · exact List.mem_cons_of_mem _ (h.known sid s hs)
  · intro sid s hs
    rcases hstored sid s hs with ⟨rfl, rfl⟩ | ⟨-, hs⟩
    · exact hallowed.1
    · exact h.codes sid s hs
  · intro sid sid' s s' hs hs' heq
    rcases hstored sid s hs with ⟨rfl, rfl⟩ | ⟨-, hold⟩
    · rcases hstored sid' s' hs' with ⟨rfl, rfl⟩ | ⟨-, hold'⟩
      · rfl
      · exact absurd ⟨sid', h.known sid' s' hold', s', hold', .inr heq.symm⟩ hfree
    · rcases hstored sid' s' hs' with ⟨rfl, rfl⟩ | ⟨-, hold'⟩
      · exact absurd ⟨sid, h.known sid s hold, s, hold, .inr heq⟩ hfree
      · exact h.unique sid sid' s s' hold hold' heq
  · intro start hstart s hs
    rcases hstored _ s hs with ⟨hsid, -⟩ | ⟨-, hs⟩
    · exact absurd hsid (hnew start hstart)
    · exact h.left start hstart s hs

theorem Kept.insertGame (h : Kept mode balance w) {game : Game}
    (hallowed : Allowed mode balance req i w (.insertGame game)) :
    Kept mode balance { w with games := game :: w.games } := by
  obtain ⟨⟨start, hstart, -, hsid, hopening⟩, hnone⟩ := hallowed
  refine ⟨h.furniture, h.known, h.codes, h.unique, h.left, h.once, h.seated, ?_, ?_, ?_⟩
  · exact List.forall_mem_cons.mpr ⟨⟨start, hstart, hsid, hopening⟩, h.opened⟩
  · refine List.nodup_cons.mpr ⟨fun hmem => ?_, h.one⟩
    obtain ⟨g, hg, heq⟩ := List.mem_map.mp hmem
    exact hnone g hg heq
  · intro sid state hshown
    obtain ⟨g, hg, hstate⟩ := h.shown sid state hshown
    exact ⟨g, List.mem_cons_of_mem _ hg, hstate⟩

theorem Kept.exec (h : Kept mode balance w) {op : Op} {r : op.Ans}
    (hallowed : Allowed mode balance req i w op)
    (hexec : Exec.under exec (NewIds mode) i w op r w') : Kept mode balance w' := by
  obtain ⟨hnew, hexec⟩ := hexec
  cases op with
  | lobby op =>
      obtain ⟨rooms, hrooms, rfl⟩ := hexec
      exact h.lobby hallowed hrooms
  | insertSession session =>
      obtain ⟨hmode, hstarts⟩ := hnew.room session rfl
      simp only [Launch.exec] at hexec
      split at hexec
      · exact hexec.2 ▸ h
      · rename_i hfree
        exact hexec.2 ▸ h.insertSession hallowed hmode hstarts hfree
  | insertGame game =>
      simp only [Launch.exec] at hexec
      split at hexec
      · exact hexec.2 ▸ h
      · exact hexec.2 ▸ h.insertGame hallowed
  | publish sid msg =>
      obtain rfl := hexec
      refine ⟨h.furniture, h.known, h.codes, h.unique, h.left, h.once, h.seated, h.opened, h.one,
        ?_⟩
      intro sid' state hmem
      rcases List.mem_cons.mp hmem with heq | hmem
      · obtain ⟨rfl, rfl⟩ := Prod.mk.inj heq
        exact hallowed
      · exact h.shown sid' state hmem
  | generateInviteCode => exact hexec.2 ▸ h
  | findGame sid => exact hexec.2 ▸ h
  | findUsers users => exact hexec.2 ▸ h
  | playerIds => exact hexec.2 ▸ h
  | uuid4 => exact hexec ▸ h
  | seed => exact hexec ▸ h
  | clock => exact hexec ▸ h

/-- What a flow does is no surprise to the others. -/
theorem Meanwhile.exec (h : Kept mode balance w) {op : Op} {r : op.Ans} (hother : j ≠ i)
    (hallowed : Allowed mode balance req i w op) (hexec : exec i w op r w') :
    Meanwhile j w w' := by
  cases op with
  | lobby op =>
      obtain ⟨rooms, hrooms, rfl⟩ := hexec
      rcases started_cases hrooms with hstarted | ⟨sid, session, expected, -, -, -, -, hstarted⟩
      · exact .of_same hstarted rfl
      · rw [hstarted]
        refine ⟨fun _ hs => List.mem_cons_of_mem _ hs, fun _ hg => hg, ?_, fun _ _ _ _ hg _ => hg⟩
        intro start hstart hflow
        rcases List.mem_cons.mp hstart with rfl | hstart
        · exact absurd hflow.symm hother
        · exact hstart
  | insertSession session =>
      simp only [Launch.exec] at hexec
      split at hexec
      · exact .of_same (by rw [hexec.2]) (by rw [hexec.2])
      · exact .of_same (by rw [hexec.2]; rfl) (by rw [hexec.2]; rfl)
  | insertGame game =>
      simp only [Launch.exec] at hexec
      split at hexec
      · exact .of_same (by rw [hexec.2]) (by rw [hexec.2])
      · obtain ⟨-, rfl⟩ := hexec
        refine ⟨fun _ hs => hs, fun _ hg => List.mem_cons_of_mem _ hg, fun _ hs _ => hs, ?_⟩
        intro start hstart hflow g hg hsid
        rcases List.mem_cons.mp hg with rfl | hg
        · -- the game is of another flow's room
          obtain ⟨⟨owner, howner, hi, hroom, -⟩, -⟩ := hallowed
          have hsame : start = owner :=
            eq_of_key_eq Start.sessionId h.once hstart howner (hsid.symm.trans hroom.symm)
          exact absurd (hflow.symm.trans (hsame ▸ hi)) hother
        · exact hg
  | publish sid msg =>
      exact .of_same (by rw [hexec]) (by rw [hexec])
  | generateInviteCode => exact .of_same (by rw [hexec.2]) (by rw [hexec.2])
  | findGame sid => exact .of_same (by rw [hexec.2]) (by rw [hexec.2])
  | findUsers users => exact .of_same (by rw [hexec.2]) (by rw [hexec.2])
  | playerIds => exact .of_same (by rw [hexec.2]) (by rw [hexec.2])
  | uuid4 => exact .of_same (by rw [hexec]) (by rw [hexec])
  | seed => exact .of_same (by rw [hexec]) (by rw [hexec])
  | clock => exact .of_same (by rw [hexec]) (by rw [hexec])

end Steps

/-- Every flow does what it may. -/
def launching (mode : SessionId → GameMode) (balance : Int) (requests : FlowId → Request) :
    Protocol (Exec.under exec (NewIds mode)) where
  inv := Kept mode balance
  guar i w op := Allowed mode balance (requests i) i w op
  rely := Meanwhile
  rely_refl _ _ := .of_same rfl rfl
  rely_trans _ _ _ _ h h' := h.trans h'
  keeps _ _ _ _ _ hinv hallowed hexec := hinv.exec hallowed hexec
  spares _ _ _ _ _ _ hother hinv hallowed hexec := .exec hinv hother hallowed hexec.2

/-! ## the flows -/

/-- The flow has started no room. -/
def NotYet (i : FlowId) (w : World) : Prop := ∀ start ∈ w.started, start.flow ≠ i

/-- The only room the flow has started is this one. -/
def Only (i : FlowId) (sid : SessionId) (session : Session) (w : World) : Prop :=
  ∀ start ∈ w.started, start.flow = i → start = ⟨i, sid, session⟩

/-- The flow has started this room, and there is no game yet. -/
structure Underway (i : FlowId) (sid : SessionId) (session : Session) (w : World) : Prop where
  mine : ⟨i, sid, session⟩ ∈ w.started
  only : Only i sid session w
  none : ∀ game ∈ w.games, game.sessionId ≠ sid

/-- The game of a start that got so far. -/
def Stored (sid : SessionId) (state : GameState) (w : World) : Prop :=
  ∃ game ∈ w.games, game.sessionId = sid ∧ game.document.state = state

/-- How the flow ends: it meets no game but its own; and the room it has
started has a game, if at least two have come. -/
structure Ends (i : FlowId) (o : Outcome) (w : World) : Prop where
  unmet : o ≠ .duplicateGame ∧ ∀ session, o ≠ .launched session true
  game : ∀ start ∈ w.started, start.flow = i → 2 ≤ start.session.members.length →
    o = .launched start.session false ∧ ∃ game ∈ w.games, game.sessionId = start.sessionId

section Flows

variable {mode : SessionId → GameMode} {balance : Int} {requests : FlowId → Request}
  {config : Config} {i : FlowId} {w w' : World} {sid : SessionId} {session : Session}
  {α : Type} {Q : α → World → Prop}

theorem NotYet.later (h : NotYet i w) (hrely : Meanwhile i w w') : NotYet i w' :=
  fun start hstart hi => h start (hrely.own start hstart hi) hi

theorem Only.later (h : Only i sid session w) (hrely : Meanwhile i w w') : Only i sid session w' :=
  fun start hstart hi => h start (hrely.own start hstart hi) hi

theorem Underway.later (h : Underway i sid session w) (hrely : Meanwhile i w w') :
    Underway i sid session w' :=
  ⟨hrely.started _ h.mine, h.only.later hrely, fun game hgame hsid =>
    h.none game (hrely.mine _ h.mine rfl game hgame hsid) hsid⟩

theorem Stored.later {state : GameState} (h : Stored sid state w) (hrely : Meanwhile i w w') :
    Stored sid state w' := by
  obtain ⟨game, hgame, hstored⟩ := h
  exact ⟨game, hrely.games game hgame, hstored⟩

/-- The flow goes on as allowed, and ends as `Q` says. -/
abbrev Goes (mode : SessionId → GameMode) (balance : Int) (requests : FlowId → Request)
    (i : FlowId) (Q : α → World → Prop) (c : Flow α) (w : World) : Prop :=
  (launching mode balance requests).Holds i Q c w

/-- What `start_game` has done for the room the flow has started. -/
def StartedAs (sid : SessionId) (session : Session) (w : World) : StartGame → Prop
  | .inserted state => Stored sid state w ∧ withActions state = .ok state
  | .raised _ => session.members.length < 2
  | .existing _ | .duplicateKey => False

theorem StartedAs.later {r : StartGame} (h : StartedAs sid session w r)
    (hrely : Meanwhile i w w') : StartedAs sid session w' r := by
  cases r with
  | existing state => exact h
  | duplicateKey => exact h
  | raised e => exact h
  | inserted state => exact ⟨h.1.later hrely, h.2⟩

/-- How the start of the room itself ends. -/
def RoomStarted (i : FlowId) (sid : SessionId) (o : Lobby.Outcome) (w : World) : Prop :=
  (∃ session, o = .returned session ∧ session.id = sid ∧ Underway i sid session w) ∨
    (∃ e, o = .raised e) ∧ NotYet i w

theorem NotYet.refused (hw : NotYet i w) (e : Lobby.SessionError) :
    Goes mode balance requests i (RoomStarted i sid) (.done (.raised e)) w :=
  fun _ _ hrely => .inr ⟨⟨e, rfl⟩, hw.later hrely⟩

end Flows

end Monopoly.Launch
