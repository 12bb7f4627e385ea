import Monopoly.Laws.Snapshot

/-!
# Monopoly.Laws.SessionLock

What the session lock of a process is for: the intents that the process
serves for a session follow one another, from the read to the store.  A
version conflict comes from outside, from another process or from the
scheduler.
-/

namespace Monopoly

/-- Flow `i` serves an intent in the process. -/
def IntentIn (requests : FlowId → Request) (process : Process) (i : FlowId) : Prop :=
  ∃ userId command, requests i = .intent process userId command

/-- The document was not stored by an intent of the process. -/
def FromOutside (requests : FlowId → Request) (process : Process) (c : Commit) : Prop :=
  ∃ i, c.writer = some i ∧ ¬IntentIn requests process i

/-- An intent reads and stores with the lock of its process, and only its
holder returns a lock. -/
def Locking (requests : FlowId → Request) (i : FlowId) (w : World) : Op → Prop
  | .unlock process => w.locks process = some i
  | .findBySessionId => ∀ process, IntentIn requests process i → w.locks process = some i
  | .updateWithVersion .. => ∀ process, IntentIn requests process i → w.locks process = some i
  | _ => True

/-- What is stored while flow `i` holds the lock of a process comes from
outside the process. -/
structure Guarded (requests : FlowId → Request) (i : FlowId) (w w' : World) : Prop where
  grows : w.commits <:+ w'.commits
  held : ∀ process, w.locks process = some i → w'.locks process = some i ∧
    ∃ new, w'.commits = new ++ w.commits ∧ ∀ c ∈ new, FromOutside requests process c

section Locks

variable {requests : FlowId → Request} {i j : FlowId} {w w' w'' : World} {op : Op} {r : op.Ans}

theorem Guarded.refl (w : World) : Guarded requests i w w :=
  ⟨List.suffix_rfl, fun _ h => ⟨h, [], rfl, by simp⟩⟩

theorem Guarded.trans (h : Guarded requests i w w') (h' : Guarded requests i w' w'') :
    Guarded requests i w w'' := by
  refine ⟨h.grows.trans h'.grows, fun process hlock => ?_⟩
  obtain ⟨hlock', new, hnew, houtside⟩ := h.held process hlock
  obtain ⟨hlock'', more, hmore, houtside'⟩ := h'.held process hlock'
  refine ⟨hlock'', more ++ new, by rw [hmore, hnew, List.append_assoc], fun c hc => ?_⟩
  exact (List.mem_append.mp hc).elim (houtside' c) (houtside c)

/-- What a step may do to a lock: take it if it is free, or return it. -/
theorem exec_locks (h : exec i w op r w') (process : Process) :
    w'.locks process = w.locks process ∨ (op = .lock process ∧ w.locks process = none) ∨
      op = .unlock process := by
  cases op with
  | lock p =>
      obtain ⟨hfree, rfl⟩ := h
      by_cases hp : process = p
      · subst hp
        exact .inr (.inl ⟨rfl, hfree⟩)
      · exact .inl (Function.update_of_ne hp _ _)
  | unlock p =>
      cases h
      by_cases hp : process = p
      · subst hp
        exact .inr (.inr rfl)
      · exact .inl (Function.update_of_ne hp _ _)
  | updateWithVersion =>
      rcases exec_update h with ⟨-, rfl⟩ | ⟨doc, -, -, -, -, rfl⟩ <;> exact .inl rfl
  | findBySessionId => obtain ⟨rfl, -⟩ := h; exact .inl rfl
  | incr => obtain ⟨-, rfl⟩ := h; exact .inl rfl
  | getSeq => obtain ⟨-, rfl⟩ := h; exact .inl rfl
  | getSubscriptions => obtain ⟨-, rfl⟩ := h; exact .inl rfl
  | enqueue => obtain ⟨-, -, -, rfl⟩ := h; exact .inl rfl
  | getMessage => obtain ⟨-, -, -, -, rfl⟩ := h; exact .inl rfl
  | take => obtain ⟨-, -, -, rfl⟩ := h; exact .inl rfl
  | markFinished => obtain ⟨-, rfl⟩ := h; exact .inl rfl
  | _ => cases h; exact .inl rfl

/-- The holder of a lock keeps it while the others keep to the rules. -/
theorem exec_guarded (hij : j ≠ i) (hop : Locking requests i w op) (h : exec i w op r w') :
    Guarded requests j w w' := by
  have hcommits := exec_commits h
  constructor
  · rcases hcommits with hsame | ⟨doc, hnew⟩
    · exact hsame ▸ List.suffix_rfl
    · exact hnew ▸ List.suffix_cons _ _
  · intro process hlock
    refine ⟨?_, ?_⟩
    · rcases exec_locks h process with hsame | ⟨-, hfree⟩ | rfl
      · exact hsame.trans hlock
      · rw [hlock] at hfree
        cases hfree
      · exact absurd (Option.some.inj (hlock.symm.trans hop)) hij
    · rcases op.free_or with
        hfree | ⟨gameId, state, version, rng, rfl⟩ | ⟨version, rfl⟩ | ⟨msg, rfl⟩
      · exact ⟨[], (exec_free hfree h).1, by simp⟩
      · rcases hcommits with hsame | ⟨doc, hnew⟩
        · exact ⟨[], hsame, by simp⟩
        · refine ⟨[⟨doc, some i⟩], hnew, fun c hc => ?_⟩
          obtain rfl := List.mem_singleton.mp hc
          refine ⟨i, rfl, fun hintent => hij ?_⟩
          exact Option.some.inj (hlock.symm.trans (hop process hintent))
      · obtain ⟨-, rfl⟩ := h
        exact ⟨[], rfl, by simp⟩
      · cases h
        exact ⟨[], rfl, by simp⟩

/-- The protocol of the locks, where reads return the current document. -/
def locking (requests : FlowId → Request) : Protocol (Exec.under exec ReadsLatest) where
  inv _ := True
  guar := Locking requests
  rely := Guarded requests
  rely_refl _ w := .refl w
  rely_trans _ _ _ _ h h' := h.trans h'
  keeps _ _ _ _ _ _ _ _ := trivial
  spares _ _ _ _ _ _ hij _ hop hexec := exec_guarded hij hop hexec.2

end Locks

/-! ## the flows -/

section Flows

variable {settings : Settings} {requests : FlowId → Request} {process : Process}
  {userId : UserId} {command : GameCommand} {i : FlowId} {w : World} {base : List Commit}

/-- What is left of an intent once it has read the game. -/
def intentRest (settings : Settings) (process : Process) (userId : UserId) (command : GameCommand)
    (stored : Option StoredGame) : Flow Outcome := do
  let result ← (do
    let result ← applyRead settings userId command stored
    ask (.unlock process)
    return result)
  publishApplied result

/-- The operations that touch no lock. -/
def Op.Lockless : Op → Prop
  | .lock _ | .unlock _ => False
  | _ => True

/-- The operations that touch no lock and do not read the game. -/
def Op.Blind : Op → Prop
  | .lock _ | .unlock _ | .findBySessionId => False
  | _ => True

theorem broadcast_blind (body : Body) : (broadcast body).Uses Op.Blind :=
  ⟨trivial, fun _ => ⟨trivial, fun _ => trivial⟩⟩

theorem storeApplied_blind (stored : StoredGame) (command : GameCommand)
    (applied : Py (Handled × Rng)) : (storeApplied stored command applied).Uses Op.Blind := by
  cases applied with
  | error e => trivial
  | ok applied =>
      refine ⟨trivial, fun updated => ?_⟩
      cases updated with
      | none => trivial
      | some game => trivial

theorem applyRead_blind (settings : Settings) (userId : UserId) (command : GameCommand)
    (stored : Option StoredGame) : (applyRead settings userId command stored).Uses Op.Blind := by
  cases stored with
  | none => trivial
  | some stored =>
      simp only [applyRead]
      cases resolveCommand stored.state userId command with
      | error e => trivial
      | ok resolved => exact ⟨trivial, fun _ => ⟨trivial, fun _ => storeApplied_blind _ _ _⟩⟩

/-- The code goes on with `rest` when it has read the game. -/
def ReadsInto (rest : Option StoredGame → Flow Outcome) :
    (op : Op) → (op.Ans → Flow Outcome) → Prop
  | .findBySessionId, k => k = rest
  | _, _ => True

theorem readsInto_of_uses {rest : Option StoredGame → Flow Outcome} {c : Flow Outcome}
    (hc : c.Uses fun op => op ≠ .findBySessionId) : c.Every (ReadsInto rest) := by
  induction c with
  | done a => trivial
  | call op k ih =>
      refine ⟨?_, fun r => ih r (hc.2 r)⟩
      cases op with
      | findBySessionId => exact absurd rfl hc.1
      | _ => trivial

/-- An intent reads the game once, and goes on from there. -/
theorem applyAndPublish_reads : (applyAndPublish settings process userId command).Every
    (ReadsInto (intentRest settings process userId command)) := by
  refine ⟨trivial, fun _ => ⟨rfl, fun (stored : Option StoredGame) => readsInto_of_uses ?_⟩⟩
  show (intentRest settings process userId command stored).Uses _
  have hblind : ∀ {β : Type} {c : Flow β}, c.Uses Op.Blind → c.Uses fun op =>
      op ≠ .findBySessionId := fun hc => hc.mono fun op hop => by rintro rfl; exact hop
  have hunlock : ∀ result, (ask (.unlock process) >>= fun _ => pure result :
      Flow (Except Failure (StoredGame × List AnimationInstruction))).Uses
        fun op => op ≠ .findBySessionId := fun result => ⟨by simp, fun _ => trivial⟩
  refine ((hblind (applyRead_blind _ _ _ _)).bind hunlock).bind fun result => ?_
  cases result with
  | error failure => trivial
  | ok answer =>
      exact hblind ((broadcast_blind _).bind fun _ => finishIfOver_uses
        (finishSession_uses trivial trivial trivial fun _ => trivial) _ _)

/-- Flow `i` holds the lock, and what was stored since the documents were
`base` comes from outside. -/
def Holding (requests : FlowId → Request) (process : Process) (i : FlowId) (base : List Commit)
    (w : World) : Prop :=
  w.locks process = some i ∧
    ∃ new, w.commits = new ++ base ∧ ∀ c ∈ new, FromOutside requests process c

theorem Holding.later {w' : World} (h : Holding requests process i base w)
    (hrely : Guarded requests i w w') : Holding requests process i base w' := by
  obtain ⟨hlock, new, hnew, houtside⟩ := h
  obtain ⟨hlock', more, hmore, houtside'⟩ := hrely.held process hlock
  refine ⟨hlock', more ++ new, by rw [hmore, hnew, List.append_assoc], fun c hc => ?_⟩
  exact (List.mem_append.mp hc).elim (houtside' c) (houtside c)

/-- Something was stored from outside since the documents were `base`. -/
def Overtaken (requests : FlowId → Request) (process : Process) (base : List Commit)
    (w : World) : Prop :=
  ∃ new, w.commits = new ++ base ∧ ∃ c ∈ new, FromOutside requests process c

theorem Overtaken.grows {w' : World} (h : Overtaken requests process base w)
    (hgrows : w.commits <:+ w'.commits) : Overtaken requests process base w' := by
  obtain ⟨new, hnew, c, hc, houtside⟩ := h
  obtain ⟨more, hmore⟩ := hgrows
  exact ⟨more ++ new, by rw [← hmore, hnew, List.append_assoc], c,
    List.mem_append_right _ hc, houtside⟩

/-- An operation that changes nothing. -/
theorem idle_holds (op : Op) {k : op.Ans → Flow α} {Q : α → World → Prop}
    (hidle : ∀ w r w', exec i w op r w' → w' = w) (hop : ∀ w, Locking requests i w op)
    (hw : Holding requests process i base w)
    (hnext : ∀ r w', Holding requests process i base w' → (locking requests).Holds i Q (k r) w') :
    (locking requests).Holds i Q (.call op k) w := by
  intro w' _ hrely
  refine ⟨hop w', fun r w'' hexec => ?_⟩
  rw [hidle w' r w'' hexec.2]
  exact hnext r w' (hw.later hrely)

theorem lock_of_intent (hrequest : requests i = .intent process userId command)
    (hlock : w.locks process = some i) :
    ∀ p, IntentIn requests p i → w.locks p = some i := by
  rintro p ⟨user, given, hp⟩
  obtain ⟨rfl, -, -⟩ := Request.intent.inj (hrequest.symm.trans hp)
  exact hlock

/-- A store by the holder of the lock fails only if somebody outside stored
something since the game was read. -/
theorem store_holds {stored : StoredGame} {state : GameState} {rng : Rng}
    {k : Option StoredGame → Flow α} {Q : α → World → Prop}
    (hrequest : requests i = .intent process userId command)
    (hstored : base.head?.map (·.document.toDomain) = some stored)
    (hw : Holding requests process i base w)
    (hlost : ∀ w', w'.locks process = some i → Overtaken requests process base w' →
      (locking requests).Holds i Q (k none) w')
    (hwon : ∀ game w', w'.locks process = some i →
      (locking requests).Holds i Q (k (some game)) w') :
    (locking requests).Holds i Q
      (.call (.updateWithVersion stored.gameId state stored.version rng) k) w := by
  intro w' _ hrely
  obtain ⟨hlock, new, hnew, houtside⟩ := hw.later hrely
  refine ⟨lock_of_intent hrequest hlock, fun r w'' hexec => ?_⟩
  obtain ⟨-, hexec⟩ := hexec
  cases new with
  | cons c rest =>
      have hover : Overtaken requests process base w' :=
        ⟨c :: rest, hnew, c, List.mem_cons_self, houtside c List.mem_cons_self⟩
      rcases exec_update hexec with ⟨rfl, rfl⟩ | ⟨doc, -, -, -, rfl, rfl⟩
      · exact hlost _ hlock hover
      · exact hwon _ _ hlock
  | nil =>
      rw [List.nil_append] at hnew
      obtain ⟨top, htop, rfl⟩ := Option.map_eq_some_iff.mp hstored
      have hcurrent : w'.current = some top.document := by rw [World.current, hnew, htop]; rfl
      simp only [exec, World.updateWithVersion, hcurrent, GameDocument.toDomain, and_self, if_true,
        Prod.mk.injEq] at hexec
      obtain ⟨rfl, rfl⟩ := hexec
      exact hwon _ _ hlock

theorem resolveCommand_error {state : GameState} {e : Failure}
    (h : resolveCommand state userId command = .error e) : e = .notMember := by
  unfold resolveCommand at h
  split at h
  · cases h
  · unfold resolvePlayerId at h
    split at h
    · cases h
    · exact (Except.error.inj h).symm

/-- What `apply_intent` comes to: the lock is held still, and a conflict is
due to somebody outside. -/
def Contended (requests : FlowId → Request) (process : Process) (i : FlowId) (base : List Commit)
    (result : Except Failure (StoredGame × List AnimationInstruction)) (w : World) : Prop :=
  w.locks process = some i ∧
    (result = .error .versionConflict → Overtaken requests process base w)

theorem done_contended {result : Except Failure (StoredGame × List AnimationInstruction)}
    (hw : Contended requests process i base result w) :
    (locking requests).Holds i (Contended requests process i base) (.done result : Flow _) w :=
  fun _ _ hrely => ⟨(hrely.held process hw.1).1, fun h => (hw.2 h).grows hrely.grows⟩

theorem applyRead_contended (hrequest : requests i = .intent process userId command)
    (hw : Holding requests process i base w) :
    (locking requests).Holds i (Contended requests process i base)
      (applyRead settings userId command (base.head?.map (·.document.toDomain))) w := by
  cases hstored : base.head?.map (·.document.toDomain) with
  | none => exact done_contended ⟨hw.1, fun h => by cases h⟩
  | some stored =>
      simp only [applyRead]
      cases hresolve : resolveCommand stored.state userId command with
      | error e =>
          refine done_contended ⟨hw.1, fun h => ?_⟩
          rw [resolveCommand_error hresolve] at h
          cases h
      | ok resolved =>
          refine idle_holds .now (fun _ _ _ h => h) (fun _ => trivial) hw fun clock w₁ hw₁ => ?_
          refine idle_holds .uuid4 (fun _ _ _ h => h) (fun _ => trivial) hw₁
            fun (tradeId : Nat) w₂ hw₂ => ?_
          show (locking requests).Holds i _ (storeApplied stored resolved
            (apply stored.state resolved (applyEnv settings stored clock tradeId))) w₂
          cases apply stored.state resolved (applyEnv settings stored clock tradeId) with
          | error e => exact done_contended ⟨hw₂.1, fun h => by cases h⟩
          | ok applied =>
              refine store_holds hrequest hstored hw₂ (fun w' hlock hover => ?_)
                fun game w' hlock => ?_
              · exact done_contended ⟨hlock, fun _ => hover⟩
              · exact done_contended ⟨hlock, fun h => by cases h⟩

/-- The end of the game keeps to the rules of the locks. -/
theorem finishIfOver_holds {game : StoredGame} {outcome : Outcome}
    {finish : Flow (Option PyError)} {Q : Outcome → World → Prop}
    (hfinish : finish.Uses fun op => ∀ w, Locking requests i w op)
    (hQ : ∀ failed w, Q (outcome.unless game failed) w) :
    (locking requests).Holds i Q (finishIfOver game outcome finish) w := by
  unfold finishIfOver
  split
  · have hheld : (locking requests).Holds i (fun _ _ => True) finish w :=
      Protocol.Holds.of_uses (A := fun _ => True) (fun _ _ _ h => h)
        (fun w op _ hop _ => hop w) (fun _ _ _ _ _ _ h _ => h) hfinish trivial
    exact hheld.bind trivial fun failed _ _ _ w' _ _ => hQ failed w'
  · exact fun w' _ _ => hQ none w'

/-- From the read on, an intent is refused for a conflict only because of
somebody outside. -/
theorem intentRest_holds (hrequest : requests i = .intent process userId command)
    (hw : Holding requests process i base w) :
    (locking requests).Holds i
      (fun outcome w => outcome = .refused .versionConflict → Overtaken requests process base w)
      (intentRest settings process userId command (base.head?.map (·.document.toDomain))) w := by
  have hread : (locking requests).Holds i (Contended requests process i base)
      (applyRead settings userId command (base.head?.map (·.document.toDomain))) w :=
    applyRead_contended hrequest hw
  have hanswer : (locking requests).Holds i
      (fun result w => result = .error .versionConflict → Overtaken requests process base w)
      (applyRead settings userId command (base.head?.map (·.document.toDomain)) >>=
        fun result => ask (.unlock process) >>= fun _ => pure result) w := by
    refine hread.bind trivial fun result w₁ _ hresult w₂ _ hrely => ?_
    refine ⟨(hrely.held process hresult.1).1, fun _ w₃ hexec w₄ _ hrely' h => ?_⟩
    obtain ⟨-, rfl⟩ := hexec
    exact ((hresult.2 h).grows hrely.grows).grows hrely'.grows
  refine hanswer.bind trivial fun result w₁ _ hresult => ?_
  cases result with
  | error failure =>
      intro w₂ _ hrely h
      obtain rfl := Outcome.refused.inj h
      exact (hresult rfl).grows hrely.grows
  | ok answer =>
      refine fun w₂ _ _ => ⟨trivial, fun seq w₃ _ w₄ _ _ => ⟨trivial, fun _ w₅ _ => ?_⟩⟩
      refine finishIfOver_holds (finishSession_uses (fun _ => trivial) (fun _ => trivial)
        (fun _ => trivial) fun _ _ => trivial) fun failed w₆ h => ?_
      cases failed <;> cases h

/-- A read answers with the current document, and nothing was stored since. -/
theorem holding_of_read {found : Option StoredGame} {w' : World} (hlock : w.locks process = some i)
    (hexec : Exec.under exec ReadsLatest i w .findBySessionId found w') :
    found = w.commits.head?.map (·.document.toDomain) ∧
      Holding requests process i w.commits w' := by
  obtain ⟨hlatest, rfl, -⟩ := hexec
  refine ⟨?_, hlock, [], rfl, by simp⟩
  rw [hlatest found rfl, World.current, Option.map_map]
  rfl

theorem intent_locks (hrequest : requests i = .intent process userId command) :
    (locking requests).Holds i (fun _ _ => True)
      (applyAndPublish settings process userId command) w := by
  intro w₁ _ _
  refine ⟨trivial, fun _ w₂ hexec => ?_⟩
  obtain ⟨-, -, rfl⟩ := hexec
  intro w₃ _ hrely
  have hlock : w₃.locks process = some i := (hrely.held process (by simp)).1
  refine ⟨lock_of_intent hrequest hlock, fun (found : Option StoredGame) w₄ hread => ?_⟩
  obtain ⟨rfl, hholding⟩ := holding_of_read hlock hread
  exact (intentRest_holds hrequest hholding).mono fun _ _ _ => trivial

theorem tickOne_lockless (settings : Settings) : (tickOne settings).Uses Op.Lockless := by
  refine ⟨trivial, fun (stored : Option StoredGame) => ?_⟩
  cases stored with
  | none => trivial
  | some stored =>
      refine ⟨trivial, fun (clock : Clock) => ?_⟩
      show (tickDue settings stored clock (dueCommand stored.state clock)).Uses Op.Lockless
      cases dueCommand stored.state clock with
      | none => trivial
      | some command =>
          refine ⟨trivial, fun (tradeId : Nat) => ?_⟩
          show (storeTick stored (apply stored.state command
            (applyEnv settings stored clock tradeId))).Uses Op.Lockless
          cases apply stored.state command (applyEnv settings stored clock tradeId) with
          | error e => trivial
          | ok applied =>
              refine ⟨trivial, fun (updated : Option StoredGame) => ?_⟩
              cases updated with
              | none => trivial
              | some game =>
                  exact ⟨trivial, fun _ => ⟨trivial, fun _ => finishIfOver_uses
                    (finishTicked_uses trivial trivial trivial fun _ => trivial) _ _⟩⟩

theorem wsEndpoint_lockless (conn : ConnectionId) (node : NodeId) (userId : UserId) :
    (wsEndpoint conn node userId).Uses Op.Lockless := by
  have hsubscribe : (subscribe node).Uses Op.Lockless :=
    subscribe_uses trivial trivial fun _ => trivial
  exact ⟨trivial, fun _ => hsubscribe.bind fun _ =>
    greet_uses trivial (fun _ => trivial) trivial userId⟩

theorem serve_locks (w : World) :
    (locking requests).Holds i (fun _ _ => True) (serve settings (requests i)) w := by
  by_cases hintent : ∃ process, IntentIn requests process i
  · obtain ⟨process, userId, command, hrequest⟩ := hintent
    rw [hrequest]
    exact intent_locks hrequest
  · have hlockless : (serve settings (requests i)).Uses Op.Lockless := by
      cases hrequest : requests i with
      | intent process userId command => exact absurd ⟨process, userId, command, hrequest⟩ hintent
      | tick => exact tickOne_lockless settings
      | message => exact ⟨trivial, fun _ => ⟨trivial, fun _ => trivial⟩⟩
      | connect conn node userId => exact wsEndpoint_lockless conn node userId
      | reader node => exact ⟨trivial, fun _ => trivial⟩
      | sender conn => exact ⟨trivial, fun _ => trivial⟩
    refine .of_uses (A := fun _ => True) (fun _ _ _ h => h) (fun w op _ hop _ => ?_)
      (fun _ _ _ _ _ _ h _ => h) hlockless trivial
    cases op with
    | unlock process => exact hop.elim
    | updateWithVersion => exact fun process hprocess => absurd ⟨process, hprocess⟩ hintent
    | findBySessionId => exact fun process hprocess => absurd ⟨process, hprocess⟩ hintent
    | _ => trivial

end Flows

/-! ## the law -/

section Law

variable {settings : Settings} {requests : FlowId → Request} {first : GameDocument}
  {h : List (Taken Server (Event FlowId Op Op.Ans))} {p : Server} {process : Process}
  {userId : UserId} {command : GameCommand} {i : FlowId}

/-- **Conflicts come from outside.** Where reads return the current document,
an intent is refused for a version conflict only if, after it read the game,
another document was stored for another process or by the scheduler: the
intents of one process never overtake one another. -/
theorem conflicts_come_from_outside (hserved : Served settings requests first h p)
    (hreads : ∀ t ∈ h, ReadsLatest t.before.world t.label)
    (hrequest : requests i = .intent process userId command)
    (hdone : p.flow i = .done (.refused .versionConflict)) :
    ∃ t ∈ h, t.label.flow = i ∧ t.label.op = .findBySessionId ∧
      ∃ new, p.world.commits = new ++ t.before.world.commits ∧
        ∃ c ∈ new, FromOutside requests process c := by
  have hrun := Pool.Runs.under hserved hreads
  have hreading : (serve settings (requests i)).Must fun op => op = .findBySessionId := by
    rw [hrequest]
    exact .inr fun _ => .inl rfl
  obtain ⟨t, ht, hflow, hread⟩ := Pool.Runs.must hrun hreading hdone
  refine ⟨t, ht, hflow, hread, ?_⟩
  have hholds : ∀ i w, Opened first w → (locking requests).Holds i (fun _ _ => True)
      (serve settings (requests i)) w := fun i w _ => serve_locks w
  have hlock : t.before.world.locks process = some i := by
    have hguar := ((locking requests).guaranteed (fun _ _ => trivial) hholds hrun ht).2
    rw [hread, hflow] at hguar
    exact hguar process ⟨userId, command, hrequest⟩
  obtain ⟨before, ⟨j, op, found⟩, after⟩ := t
  obtain rfl : j = i := hflow
  obtain rfl : op = .findBySessionId := hread
  have hstep := hrun.step_of_mem ht
  obtain ⟨earlier, hbefore⟩ := hrun.reached_of_mem ht
  obtain ⟨k, hcode, hafter⟩ := hstep.call
  -- the code that is left is the rest of the intent
  have hrest : k = intentRest settings process userId command := by
    have hevery := Pool.Runs.every hbefore (i := j) (by
      rw [hrequest]
      exact applyAndPublish_reads)
    rw [hcode] at hevery
    exact hevery.1
  obtain ⟨hfound, hholding⟩ := holding_of_read hlock hstep.exec
  refine (locking requests).returned_after (fun _ _ => trivial) hholds hrun ht
    (Q := fun outcome w => outcome = .refused .versionConflict →
      Overtaken requests process before.world.commits w) ?_ hdone rfl
  rw [hafter, Function.update_self, hrest, hfound]
  exact intentRest_holds hrequest hholding

/-- Two tabs of a user roll through two processes: the second one finds that
the first one has stored its roll. -/
theorem conflicts_come_from_outside_two_tabs :
    ∃ first h p, Served defaultSettings twoTabs first h p ∧
      p.flow 1 = .done (.refused .versionConflict) ∧
      ∃ t ∈ h, t.label.flow = 1 ∧ ∃ new, p.world.commits = new ++ t.before.world.commits ∧
        ∃ c ∈ new, FromOutside twoTabs 1 c := by
  obtain ⟨first, h, p, -, -, hserved, hpassed, hcheck⟩ := served_of_schedules (duo 1500) [0, 1]
    twoTabs (turnsOf [0, 0, 1, 1, 0, 0, 0, 1, 1, 1, 1, 0, 0, 0])
    (fun w e => decide (ReadsLatest w e)) (fun p => returns (p.flow 1) Outcome.isConflict)
    (by decide) (by decide +kernel)
  obtain ⟨outcome, hdone, hconflict⟩ := of_returns hcheck
  have hrefused : p.flow 1 = .done (.refused .versionConflict) := by
    rw [hdone, Outcome.eq_of_isConflict hconflict]
  obtain ⟨t, ht, hflow, -, hoverlap⟩ := conflicts_come_from_outside hserved
    (fun t ht => of_decide_eq_true (hpassed t ht)) (i := 1) rfl hrefused
  exact ⟨first, h, p, hserved, hrefused, t, ht, hflow, hoverlap⟩

end Law

end Monopoly
