import Monopoly.Lib.VersionChain
import Monopoly.Service.Effects

/-!
# Monopoly.Service.Promises

What every flow of the server keeps to, whatever the others do: it stores
only what it computed from a document it has read, and what it publishes is
the document it stored, under a number it has drawn.
-/

namespace Monopoly

/-! ## links -/

/-- The command a request turns into, on the state it is computed from. -/
def Issues (request : Request) (state : GameState) (clock : Clock) (command : GameCommand) : Prop :=
  match request with
  | .intent _ userId given => resolveCommand state userId given = .ok command
  | .tick => dueCommand state clock = some command
  | _ => False

/-- `newState` and `rng` are what `apply` makes of the stored document, for
the command of the request. -/
def Computes (settings : Settings) (request : Request) (doc : GameDocument) (newState : GameState)
    (rng : Rng) : Prop :=
  ∃ clock tradeId command events, Issues request doc.state clock command ∧
    apply doc.state command (applyEnv settings doc.toDomain clock tradeId) =
      .ok ((newState, events), rng)

/-- The newer document was stored by a flow that computed it from the older
one. -/
def Link (settings : Settings) (requests : FlowId → Request) (older newer : Commit) : Prop :=
  ∃ flow, newer.writer = some flow ∧ newer.document.id = older.document.id ∧
    Computes settings (requests flow) older.document newer.document.state newer.document.rngState

/-- The documents a flow has stored. -/
def World.writtenBy (w : World) (flow : FlowId) : List Commit :=
  w.commits.filter fun c => decide (c.writer = some flow)

/-- The documents stored so far are one chain of links, from the first
document on. -/
structure History (settings : Settings) (requests : FlowId → Request) (first : GameDocument)
    (w : World) : Prop where
  chain : VersionChain (·.document.version) (Link settings requests) w.commits
  first : w.commits.getLast? = some ⟨first, none⟩

/-- The flow reports that its command was applied, as `game`. -/
def Outcome.Reports (game : StoredGame) : Outcome → Prop
  | .applied g _ | .ticked g | .brokeOff g _ => g = game
  | _ => False

/-- The flow reports that nothing was applied. -/
def Outcome.Fails : Outcome → Prop
  | .refused _ | .idle | .overtaken | .raised _ => True
  | _ => False

/-! ## numbers -/

/-- The message goes under a number that was drawn for it. -/
def Numbered (w : World) (msg : Envelope) : Prop :=
  ∃ n, msg.seq = n + 1 ∧ w.drawn[n]? = some msg.body.subject

/-- A game state on the channel is that of a stored document. -/
def Carried (w : World) (msg : Envelope) : Prop :=
  ∀ b, msg.body = .gameState b →
    ∃ c ∈ w.commits, c.document.version = b.version ∧ c.document.state = b.state

/-- What stays true of a world: documents are not taken back, and neither
are numbers. -/
structure Since (w w' : World) : Prop where
  commits : ∀ c ∈ w.commits, c ∈ w'.commits
  drawn : w.drawn <+: w'.drawn

theorem Since.refl (w : World) : Since w w := ⟨fun _ hc => hc, List.prefix_rfl⟩

theorem Since.trans {w w' w'' : World} (h : Since w w') (h' : Since w' w'') : Since w w'' :=
  ⟨fun c hc => h'.commits c (h.commits c hc), h.drawn.trans h'.drawn⟩

theorem Numbered.since {w w' : World} {msg : Envelope} (h : Numbered w msg) (hs : Since w w') :
    Numbered w' msg := by
  obtain ⟨n, hseq, hn⟩ := h
  obtain ⟨more, hmore⟩ := hs.drawn
  obtain ⟨hlt, -⟩ := List.getElem?_eq_some_iff.mp hn
  exact ⟨n, hseq, by rw [← hmore, List.getElem?_append_left hlt]; exact hn⟩

theorem Carried.since {w w' : World} {msg : Envelope} (h : Carried w msg) (hs : Since w w') :
    Carried w' msg := by
  intro b hb
  obtain ⟨c, hc, hversion⟩ := h b hb
  exact ⟨c, hs.commits c hc, hversion⟩

/-- The stored documents are one chain, and every message on the channel has
its number and its document. -/
structure Sane (settings : Settings) (requests : FlowId → Request) (first : GameDocument)
    (w : World) : Prop extends History settings requests first w where
  numbered : ∀ msg ∈ w.channel, Numbered w msg
  carried : ∀ msg ∈ w.channel, Carried w msg

/-! ## the protocol of the flows -/

section Protocol

variable {settings : Settings} {requests : FlowId → Request} {first : GameDocument} {i j : FlowId}
  {w w' : World} {op : Op} {r : op.Ans}

theorem exec_since (h : exec i w op r w') : Since w w' := by
  constructor
  · intro c hc
    rcases exec_commits h with h | ⟨doc, h⟩
    · exact h ▸ hc
    · exact h ▸ List.mem_cons_of_mem _ hc
  · rcases exec_drawn h with h | ⟨version, -, h⟩
    · exact h ▸ List.prefix_rfl
    · exact h ▸ List.prefix_append _ _

theorem writtenBy_of_eq (h : w'.commits = w.commits) : w'.writtenBy i = w.writtenBy i := by
  simp [World.writtenBy, h]

theorem exec_writtenBy_of_ne (hij : j ≠ i) (h : exec i w op r w') :
    w'.writtenBy j = w.writtenBy j := by
  rcases exec_commits h with h | ⟨doc, h⟩
  · exact writtenBy_of_eq h
  · simp [World.writtenBy, h, Ne.symm hij]

/-- A flow stores only what it computed from a document it has read, and
publishes only stored documents under numbers drawn for them. -/
def Promised (settings : Settings) (requests : FlowId → Request) (i : FlowId) (w : World) :
    Op → Prop
  | .updateWithVersion gameId state version rng =>
      ∃ c ∈ w.commits, c.document.id = gameId ∧ c.document.version = version ∧
        Computes settings (requests i) c.document state rng
  | .publish msg => Numbered w msg ∧ Carried w msg
  | _ => True

theorem History.step (h : History settings requests first w)
    (hop : Promised settings requests i w op) (hexec : exec i w op r w') :
    History settings requests first w' := by
  rcases op.free_or with hfree | ⟨gameId, state, version, rng, rfl⟩ | ⟨version, rfl⟩ | ⟨msg, rfl⟩
  · have hcommits := (exec_free hfree hexec).1
    exact ⟨hcommits ▸ h.chain, hcommits ▸ h.first⟩
  · rcases exec_update hexec with ⟨-, rfl⟩ | ⟨doc, hcurrent, hid, hversion, -, rfl⟩
    · exact h
    obtain ⟨c, hc, hcid, hcversion, hcomputes⟩ := hop
    obtain ⟨top, rest, htop⟩ : ∃ top rest, w.commits = top :: rest := by
      cases hcommits : w.commits with
      | nil => simp [hcommits] at hc
      | cons top rest => exact ⟨top, rest, rfl⟩
    have hdoc : top.document = doc := by simpa [World.current, htop] using hcurrent
    have hchain := h.chain
    rw [htop] at hchain hc
    -- the document that was read is the current one: it has its version
    have hread : c = top := hchain.eq_head hc (by rw [hdoc]; omega)
    subst hread hdoc
    constructor
    · rw [htop]
      exact .next hchain (by simp; omega) ⟨i, rfl, rfl, hcomputes⟩
    · rw [← h.first, htop, List.getLast?_cons_cons]
  · obtain ⟨-, rfl⟩ := hexec
    exact ⟨h.chain, h.first⟩
  · cases hexec
    exact ⟨h.chain, h.first⟩

theorem Sane.step (h : Sane settings requests first w) (hop : Promised settings requests i w op)
    (hexec : exec i w op r w') : Sane settings requests first w' := by
  have hsince := exec_since hexec
  have hmsg : ∀ msg ∈ w'.channel, Numbered w msg ∧ Carried w msg := by
    intro msg hmsg
    rcases exec_channel hexec with hchannel | ⟨new, rfl, hchannel⟩
    · rw [hchannel] at hmsg
      exact ⟨h.numbered msg hmsg, h.carried msg hmsg⟩
    · rw [hchannel] at hmsg
      rcases List.mem_append.mp hmsg with hmsg | hmsg
      · exact ⟨h.numbered msg hmsg, h.carried msg hmsg⟩
      · rw [List.mem_singleton.mp hmsg]
        exact hop
  exact { toHistory := h.toHistory.step hop hexec
          numbered := fun msg hm => (hmsg msg hm).1.since hsince
          carried := fun msg hm => (hmsg msg hm).2.since hsince }

/-- The flows' promises.  Meanwhile nobody else stores in a flow's name. -/
def serving (settings : Settings) (requests : FlowId → Request) (first : GameDocument) :
    Protocol exec where
  inv := Sane settings requests first
  guar := Promised settings requests
  rely i w w' := w'.writtenBy i = w.writtenBy i ∧ Since w w'
  rely_refl _ w := ⟨rfl, .refl w⟩
  rely_trans _ _ _ _ h h' := ⟨h'.1.trans h.1, h.2.trans h'.2⟩
  keeps _ _ _ _ _ h hop hexec := h.step hop hexec
  spares _ _ _ _ _ _ hij _ _ hexec := ⟨exec_writtenBy_of_ne hij hexec, exec_since hexec⟩

/-! ## each flow keeps its promises -/

/-- A free part of a flow leaves what the flow has stored. -/
theorem free_holds {c : Flow α} {written : List Commit} (hc : c.Uses Op.Free)
    (hw : w.writtenBy i = written) :
    (serving settings requests first).Holds i (fun _ w => w.writtenBy i = written) c w := by
  refine Protocol.Holds.of_uses ?_ ?_ ?_ hc hw
  · intro w w' hrely hA
    exact hrely.1.trans hA
  · intro w op _ hop _
    cases op with
    | updateWithVersion => exact hop.elim
    | publish => exact hop.elim
    | _ => trivial
  · intro w op r w' _ hop hA hexec
    exact (writtenBy_of_eq (exec_free hop hexec).1).trans hA

/-- What a flow has stored, by its outcome. -/
def Accounted (i : FlowId) (outcome : Outcome) (w : World) : Prop :=
  (∀ game, outcome.Reports game → ∃ c, w.writtenBy i = [c] ∧ c.document.toDomain = game) ∧
    (outcome.Fails → w.writtenBy i = [])

/-- The same for the result of `apply_intent`. -/
def Answered (i : FlowId) (result : Except Failure (StoredGame × List AnimationInstruction))
    (w : World) : Prop :=
  match result with
  | .ok (game, _) => ∃ c, w.writtenBy i = [c] ∧ c.document.toDomain = game
  | .error _ => w.writtenBy i = []

/-- A flow that has stored nothing and read `stored` may store what it
computes from it: the answer tells whether it did. -/
theorem update_holds {stored : StoredGame} {state : GameState} {rng : Rng} {c : Commit}
    {k : Option StoredGame → Flow α} {Q : α → World → Prop} (hnone : w.writtenBy i = [])
    (hc : c ∈ w.commits) (hstored : c.document.toDomain = stored)
    (hcomputes : Computes settings (requests i) c.document state rng)
    (hlost : ∀ w', w'.writtenBy i = [] →
      (serving settings requests first).Holds i Q (k none) w')
    (hwon : ∀ game c w', Sane settings requests first w' → w'.writtenBy i = [c] →
      c.document.toDomain = game →
      (serving settings requests first).Holds i Q (k (some game)) w') :
    (serving settings requests first).Holds i Q
      (.call (.updateWithVersion stored.gameId state stored.version rng) k) w := by
  subst hstored
  intro w' hinv hrely
  obtain ⟨hwritten, hsince⟩ := hrely
  have hpromised : Promised settings requests i w' (.updateWithVersion c.document.toDomain.gameId
      state c.document.toDomain.version rng) :=
    ⟨c, hsince.commits c hc, rfl, rfl, hcomputes⟩
  refine ⟨hpromised, fun r w'' hexec => ?_⟩
  have hinv'' := hinv.step hpromised hexec
  rcases exec_update hexec with ⟨rfl, rfl⟩ | ⟨doc, -, -, -, rfl, rfl⟩
  · exact hlost _ (hwritten.trans hnone)
  · refine hwon _ ⟨⟨doc.id, rng, c.document.version + 1, state⟩, some i⟩ _ hinv'' ?_ rfl
    have hbefore : (w'.commits.filter fun c => decide (c.writer = some i)) = [] :=
      hwritten.trans hnone
    simp [World.writtenBy, hbefore, GameDocument.toDomain]

/-- A flow that reads the game gets a document that was stored, or none. -/
theorem find_holds {k : Option StoredGame → Flow α} {Q : α → World → Prop}
    (hnone : w.writtenBy i = [])
    (hmissing : ∀ w', Sane settings requests first w' → w'.writtenBy i = [] →
      (serving settings requests first).Holds i Q (k none) w')
    (hfound : ∀ c w', Sane settings requests first w' → w'.writtenBy i = [] → c ∈ w'.commits →
      (serving settings requests first).Holds i Q (k (some c.document.toDomain)) w') :
    (serving settings requests first).Holds i Q (.call .findBySessionId k) w := by
  intro w' hinv hrely
  refine ⟨trivial, fun r w'' hexec => ?_⟩
  obtain ⟨rfl, rfl | ⟨c, hc, rfl⟩⟩ := hexec
  · exact hmissing _ hinv (hrely.1.trans hnone)
  · exact hfound c _ hinv (hrely.1.trans hnone) hc

/-- A free operation leaves what the flow has stored. -/
theorem call_holds (op : Op) {k : op.Ans → Flow α} {Q : α → World → Prop} {written : List Commit}
    (hop : op.Free) (hw : w.writtenBy i = written)
    (hnext : ∀ r w', w'.writtenBy i = written → Since w w' →
      (serving settings requests first).Holds i Q (k r) w') :
    (serving settings requests first).Holds i Q (.call op k) w := by
  intro w' _ hrely
  refine ⟨?_, fun r w'' hexec => ?_⟩
  · cases op with
    | updateWithVersion => exact hop.elim
    | publish => exact hop.elim
    | _ => trivial
  · have hcommits := (exec_free hop hexec).1
    exact hnext r w'' ((writtenBy_of_eq hcommits).trans (hrely.1.trans hw))
      (hrely.2.trans (exec_since hexec))

/-- A number is drawn for a body, and the body published under it. -/
theorem broadcast_holds {body : Body} {k : Unit → Flow α} {Q : α → World → Prop}
    {written : List Commit} (hw : w.writtenBy i = written)
    (hcarried : ∀ seq, Carried w { seq, body })
    (hnext : ∀ w', w'.writtenBy i = written →
      (serving settings requests first).Holds i Q (k ()) w') :
    (serving settings requests first).Holds i Q (broadcast body >>= k) w := by
  intro w₁ _ hrely₁
  refine ⟨trivial, fun seq w₂ hexec₂ => ?_⟩
  obtain ⟨rfl, rfl⟩ := hexec₂
  have hw₂ : w₁.writtenBy i = written := hrely₁.1.trans hw
  have hsince : Since w { w₁ with drawn := w₁.drawn ++ [body.subject] } :=
    ⟨hrely₁.2.commits, hrely₁.2.drawn.trans (List.prefix_append _ _)⟩
  have hnumbered : Numbered { w₁ with drawn := w₁.drawn ++ [body.subject] }
      { seq := w₁.drawn.length + 1, body } := ⟨w₁.drawn.length, rfl, by simp⟩
  intro w₃ _ hrely₃
  refine ⟨⟨hnumbered.since hrely₃.2, (hcarried _).since (hsince.trans hrely₃.2)⟩, ?_⟩
  intro _ w₄ hexec₄
  cases hexec₄
  exact hnext _ (hrely₃.1.trans hw₂)

theorem done_holds {a : α} {Q : α → World → Prop} {written : List Commit}
    (hw : w.writtenBy i = written) (hQ : ∀ w', w'.writtenBy i = written → Q a w') :
    (serving settings requests first).Holds i Q (.done a : Flow α) w :=
  fun w' _ hrely => hQ w' (hrely.1.trans hw)

theorem storeApplied_holds {stored : StoredGame} {command : GameCommand} {c : Commit}
    {applied : Py (Handled × Rng)} (hnone : w.writtenBy i = []) (hc : c ∈ w.commits)
    (hstored : c.document.toDomain = stored)
    (hcomputes : ∀ state events rng, applied = .ok ((state, events), rng) →
      Computes settings (requests i) c.document state rng) :
    (serving settings requests first).Holds i (Answered i)
      (storeApplied stored command applied) w := by
  cases applied with
  | error e => exact done_holds hnone fun _ hw => hw
  | ok result =>
      obtain ⟨⟨state, events⟩, rng⟩ := result
      refine update_holds hnone hc hstored (hcomputes state events rng rfl) ?_ ?_
      · intro w' hw'
        exact done_holds hw' fun _ hw => hw
      · intro game c w' _ hw' hgame
        exact done_holds hw' fun _ hw => ⟨c, hw, hgame⟩

theorem applyRead_holds {process : Process} {userId : UserId} {command : GameCommand} {c : Commit}
    (hrequest : requests i = .intent process userId command) (hnone : w.writtenBy i = [])
    (hc : c ∈ w.commits) :
    (serving settings requests first).Holds i (Answered i)
      (applyRead settings userId command (some c.document.toDomain)) w := by
  simp only [applyRead]
  cases hresolve : resolveCommand c.document.toDomain.state userId command with
  | error e => exact done_holds hnone fun _ hw => hw
  | ok resolved =>
      refine call_holds .now trivial hnone fun clock w₁ hw₁ hc₁ => ?_
      refine call_holds .uuid4 trivial hw₁ fun tradeId w₂ hw₂ hc₂ => ?_
      refine storeApplied_holds hw₂ (hc₂.commits c (hc₁.commits c hc)) rfl
        fun state events rng happly => ?_
      refine ⟨clock, tradeId, resolved, events, ?_, happly⟩
      rw [hrequest]
      exact hresolve

theorem applyIntent_holds {process : Process} {userId : UserId} {command : GameCommand}
    (hrequest : requests i = .intent process userId command) (hnone : w.writtenBy i = []) :
    (serving settings requests first).Holds i (Answered i)
      (applyIntent settings process userId command) w := by
  have hunlock : ∀ result w', Answered i result w' →
      (serving settings requests first).Holds i (Answered i)
        (ask (.unlock process) >>= fun _ => pure result) w' := by
    intro result w' hresult
    refine call_holds (.unlock process) trivial rfl fun _ w'' hw'' _ => ?_
    refine done_holds hw'' fun w₃ hw₃ => ?_
    cases result with
    | error e => exact hw₃.trans hresult
    | ok answer =>
        obtain ⟨c, hc, hgame⟩ := hresult
        exact ⟨c, hw₃.trans hc, hgame⟩
  refine call_holds (.lock process) trivial hnone fun _ w₁ hw₁ _ => ?_
  refine find_holds hw₁ ?_ ?_
  · intro w₂ _ hw₂
    exact hunlock _ w₂ hw₂
  · intro c w₂ hinv hw₂ hc
    exact (applyRead_holds hrequest hw₂ hc).bind hinv fun result w' _ => hunlock result w'

/-- What the rooms are told at the end of the game leaves what the flow has
stored. -/
theorem sessionUpdated_holds {written : List Commit} (hw : w.writtenBy i = written)
    (session : Session) :
    (serving settings requests first).Holds i (fun _ w => w.writtenBy i = written)
      (broadcastSessionUpdated session) w := by
  unfold broadcastSessionUpdated
  split
  · exact done_holds hw fun _ hw' => hw'
  · have hcarried : ∀ seq, Carried w { seq, body := .other } := fun _ b hb => by cases hb
    exact broadcast_holds hw hcarried fun w' hw' => done_holds hw' fun _ hw'' => hw''

theorem finishSession_holds {written : List Commit} (hw : w.writtenBy i = written) :
    (serving settings requests first).Holds i (fun _ w => w.writtenBy i = written)
      finishSession w := by
  refine call_holds .markFinished trivial hw fun (session : Option Session) w₁ hw₁ _ => ?_
  show (serving settings requests first).Holds i _ (rateMarked session) w₁
  cases session with
  | none => exact done_holds hw₁ fun _ hw' => hw'
  | some session =>
      simp only [rateMarked]
      split
      · refine call_holds .applyRatings trivial hw₁ fun (failed : Option PyError) w₂ hw₂ _ => ?_
        cases failed with
        | none => exact sessionUpdated_holds hw₂ session
        | some e => exact done_holds hw₂ fun _ hw' => hw'
      · exact sessionUpdated_holds hw₁ session

theorem finishTicked_holds {written : List Commit} (hw : w.writtenBy i = written) :
    (serving settings requests first).Holds i (fun _ w => w.writtenBy i = written)
      finishTicked w := by
  refine call_holds .applyRatings trivial hw fun (failed : Option PyError) w₁ hw₁ _ => ?_
  cases failed with
  | some e => exact done_holds hw₁ fun _ hw' => hw'
  | none =>
      refine call_holds .markFinished trivial hw₁ fun (session : Option Session) w₂ hw₂ _ => ?_
      cases session with
      | none => exact done_holds hw₂ fun _ hw' => hw'
      | some session => exact sessionUpdated_holds hw₂ session

/-- What a flow that stored `c` publishes and reports is that document,
whatever comes of the end of the game. -/
theorem publish_holds {game : StoredGame} {timeline : List AnimationInstruction} {c : Commit}
    {outcome : Outcome} {finish : Flow (Option PyError)} (hinv : Sane settings requests first w)
    (hw : w.writtenBy i = [c]) (hgame : c.document.toDomain = game)
    (hreports : ∀ g, outcome.Reports g → game = g) (hfails : ¬ outcome.Fails)
    (hfinish : ∀ w, w.writtenBy i = [c] →
      (serving settings requests first).Holds i (fun _ w => w.writtenBy i = [c]) finish w) :
    (serving settings requests first).Holds i (Accounted i)
      (publishGameState game timeline >>= fun _ => finishIfOver game outcome finish) w := by
  have hc : c ∈ w.commits := (List.mem_filter.mp (hw ▸ List.mem_singleton_self c)).1
  have hreported : ∀ failed w', w'.writtenBy i = [c] →
      Accounted i (outcome.unless game failed) w' := by
    intro failed w' hw'
    cases failed with
    | none => exact ⟨fun g hg => ⟨c, hw', hgame.trans (hreports g hg)⟩, fun hf => absurd hf hfails⟩
    | some e => exact ⟨fun g hg => ⟨c, hw', hgame.trans hg⟩, fun hf => hf.elim⟩
  have hcarried : ∀ seq, Carried w ⟨seq, .gameState ⟨game.state, timeline, game.version⟩⟩ := by
    intro seq b hb
    obtain rfl := Body.gameState.inj hb
    exact ⟨c, hc, by rw [← hgame]; rfl, by rw [← hgame]; rfl⟩
  have hpublished : (serving settings requests first).Holds i (fun _ w => w.writtenBy i = [c])
      (publishGameState game timeline) w :=
    broadcast_holds (k := .done) hw hcarried fun w₁ hw₁ => done_holds hw₁ fun _ hw' => hw'
  refine hpublished.bind hinv fun _ w₁ hinv₁ hw₁ => ?_
  unfold finishIfOver
  split
  · exact (hfinish w₁ hw₁).bind hinv₁ fun failed w₂ _ hw₂ => done_holds hw₂ (hreported failed)
  · exact done_holds hw₁ (hreported none)

theorem refused_holds {outcome : Outcome} (hnone : w.writtenBy i = [])
    (hreports : ∀ game, ¬ outcome.Reports game) :
    (serving settings requests first).Holds i (Accounted i) (.done outcome : Flow Outcome) w :=
  done_holds hnone fun _ hw => ⟨fun game hg => absurd hg (hreports game), fun _ => hw⟩

theorem applyAndPublish_holds {process : Process} {userId : UserId} {command : GameCommand}
    (hrequest : requests i = .intent process userId command) (hnone : w.writtenBy i = [])
    (hinv : Sane settings requests first w) :
    (serving settings requests first).Holds i (Accounted i)
      (applyAndPublish settings process userId command) w := by
  refine (applyIntent_holds hrequest hnone).bind hinv fun result w' hinv' hresult => ?_
  cases result with
  | error failure => exact refused_holds hresult fun _ hg => hg
  | ok answer =>
      obtain ⟨game, timeline⟩ := answer
      obtain ⟨c, hc, hgame⟩ := hresult
      exact publish_holds hinv' hc hgame (fun _ hg => hg) (fun hf => hf)
        fun _ => finishSession_holds

theorem tickCommand_holds {clock : Clock} {command : GameCommand} {c : Commit}
    (hrequest : requests i = .tick) (hdue : dueCommand c.document.state clock = some command)
    (hnone : w.writtenBy i = []) (hc : c ∈ w.commits) :
    (serving settings requests first).Holds i (Accounted i)
      (tickCommand settings c.document.toDomain clock command) w := by
  refine call_holds .uuid4 trivial hnone fun (tradeId : Nat) w' hw' hc' => ?_
  show (serving settings requests first).Holds i (Accounted i)
    (storeTick c.document.toDomain (apply c.document.toDomain.state command
      (applyEnv settings c.document.toDomain clock tradeId))) w'
  cases happly : apply c.document.toDomain.state command
      (applyEnv settings c.document.toDomain clock tradeId) with
  | error e => exact refused_holds hw' fun _ hg => hg
  | ok result =>
      obtain ⟨⟨state, events⟩, rng⟩ := result
      have hcomputes : Computes settings (requests i) c.document state rng :=
        ⟨clock, tradeId, command, events, by rw [hrequest]; exact hdue, happly⟩
      refine update_holds hw' (hc'.commits c hc) rfl hcomputes ?_ ?_
      · intro w'' hw''
        exact refused_holds hw'' fun _ hg => hg
      · intro game c' w'' hinv'' hw'' hgame
        exact publish_holds hinv'' hw'' hgame (fun _ hg => hg) (fun hf => hf)
          fun _ => finishTicked_holds

theorem tickOne_holds (hrequest : requests i = .tick) (hnone : w.writtenBy i = []) :
    (serving settings requests first).Holds i (Accounted i) (tickOne settings) w := by
  refine find_holds hnone (fun w₁ _ hw₁ => refused_holds hw₁ fun _ hg => hg) fun c w₁ _ hw₁ hc => ?_
  refine call_holds .now trivial hw₁ fun (clock : Clock) w₂ hw₂ hc₂ => ?_
  show (serving settings requests first).Holds i (Accounted i)
    (tickDue settings c.document.toDomain clock (dueCommand c.document.state clock)) w₂
  cases hdue : dueCommand c.document.state clock with
  | none => exact refused_holds hw₂ fun _ hg => hg
  | some command => exact tickCommand_holds hrequest hdue hw₂ (hc₂.commits c hc)

theorem greet_holds {conn : ConnectionId} {userId : UserId} (hnone : w.writtenBy i = []) :
    (serving settings requests first).Holds i (Accounted i) (greet conn userId) w := by
  refine call_holds .getSeq trivial hnone fun seqStart w₁ hw₁ _ => ?_
  refine call_holds (.enqueue conn (.welcome seqStart)) trivial hw₁ fun _ w₂ hw₂ _ => ?_
  refine find_holds hw₂ (fun w₃ _ hw₃ => refused_holds hw₃ fun _ hg => hg) fun c w₃ _ hw₃ _ => ?_
  show (serving settings requests first).Holds i (Accounted i)
    (enqueueSnapshot conn (snapshotMessage c.document.toDomain userId)) w₃
  cases snapshotMessage c.document.toDomain userId with
  | error e => exact refused_holds hw₃ fun _ hg => hg
  | ok frame =>
      refine call_holds (.enqueue conn (.gameState frame)) trivial hw₃ fun _ w₄ hw₄ _ => ?_
      exact refused_holds hw₄ fun _ hg => hg

theorem subscribe_free (node : NodeId) : (subscribe node).Uses Op.Free :=
  subscribe_uses trivial trivial fun _ => trivial

theorem wsEndpoint_holds {conn : ConnectionId} {node : NodeId} {userId : UserId}
    (hnone : w.writtenBy i = []) :
    (serving settings requests first).Holds i (Accounted i) (wsEndpoint conn node userId) w := by
  intro w₁ hinv hrely
  refine ⟨trivial, fun _ w₂ hexec => ?_⟩
  have hfree : (Op.register conn node userId).Free := trivial
  have hw₂ : w₂.writtenBy i = [] :=
    (writtenBy_of_eq (exec_free hfree hexec).1).trans (hrely.1.trans hnone)
  have hpromised : Promised settings requests i w₁ (.register conn node userId) := trivial
  have hinv₂ : Sane settings requests first w₂ := hinv.step hpromised hexec
  exact (free_holds (subscribe_free node) hw₂).bind hinv₂ fun _ w₃ _ hw₃ => greet_holds hw₃

theorem serve_holds (hnone : w.writtenBy i = []) (hinv : Sane settings requests first w) :
    (serving settings requests first).Holds i (Accounted i) (serve settings (requests i)) w := by
  cases hrequest : requests i with
  | intent process userId command => exact applyAndPublish_holds hrequest hnone hinv
  | tick => exact tickOne_holds hrequest hnone
  | message =>
      have hcarried : ∀ seq, Carried w { seq, body := .other } := fun _ b hb => by cases hb
      exact broadcast_holds hnone hcarried fun w₁ hw₁ => refused_holds hw₁ fun _ hg => hg
  | connect conn node userId => exact wsEndpoint_holds hnone
  | reader node =>
      refine call_holds (.getMessage node) trivial hnone fun _ w₁ hw₁ _ => ?_
      exact refused_holds hw₁ fun _ hg => hg
  | sender conn =>
      refine call_holds (.take conn) trivial hnone fun _ w₁ hw₁ _ => ?_
      exact refused_holds hw₁ fun _ hg => hg

end Protocol

/-! ## the whole server -/

section Server

variable {settings : Settings} {requests : FlowId → Request} {first : GameDocument} {w : World}
  {h : List (Taken Server (Event FlowId Op Op.Ans))} {p : Server}

theorem Opened.sane (hw : Opened first w) : Sane settings requests first w where
  chain := hw.commits ▸ .first _
  first := by rw [hw.commits]; rfl
  numbered msg hmsg := by simp [hw.channel] at hmsg
  carried msg hmsg := by simp [hw.channel] at hmsg

theorem Opened.holds (hw : Opened first w) (i : FlowId) :
    (serving settings requests first).Holds i (Accounted i) (serve settings (requests i)) w :=
  serve_holds (by simp [World.writtenBy, hw.commits]) hw.sane

theorem Served.sane (hserved : Served settings requests first h p) :
    Sane settings requests first p.world :=
  ((serving settings requests first).sound (fun _ hw => hw.sane) (fun i _ hw => hw.holds i)
    hserved).1

theorem Served.accounted (hserved : Served settings requests first h p) {i : FlowId}
    {outcome : Outcome} (hdone : p.flow i = .done outcome) : Accounted i outcome p.world :=
  (serving settings requests first).returned (fun _ hw => hw.sane) (fun i _ hw => hw.holds i)
    hserved hdone

end Server

end Monopoly
