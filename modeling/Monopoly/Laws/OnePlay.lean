import Monopoly.Laws.Snapshot
import Monopoly.Service.Telling

/-!
# Monopoly.Laws.OnePlay

The server plays one game.  However its flows interleave, on any number of
processes and nodes, the documents it stores are the states of one game of
the engine, every call of which some flow was asked for; and whatever a
client is sent is a state of that game, seen from its own seat.
-/

namespace Monopoly

/-- Some flow was asked for the call, made it with the amounts of the settings
and stored what it led to. -/
def Asked (settings : Settings) (requests : FlowId → Request) (w : World)
    (t : Taken GameState Call) : Prop :=
  t.label.env.goSalary = settings.goSalary ∧ t.label.env.jailFine = settings.jailFine ∧
    ∃ i, Issues (requests i) t.before t.label.env.clock t.label.command ∧
      ∃ c ∈ w.writtenBy i, c.document.state = t.after

/-- The documents stored so far are the states of the game `calls`, which
goes on from `before` and opened with `init`: `stateOf` tells the state of
each version. -/
structure Recorded (settings : Settings) (requests : FlowId → Request)
    (init : GameState → Prop) (first : GameDocument) (before : List (Taken GameState Call))
    (w : World) (doc : GameDocument) (calls : List (Taken GameState Call))
    (stateOf : Nat → GameState) : Prop where
  current : w.current = some doc
  versions : first.version ≤ doc.version
  stored : ∀ c ∈ w.commits, stateOf c.document.version = c.document.state
  game : ∀ v, first.version ≤ v → v ≤ doc.version →
    Run init Accepted (calls.drop (doc.version - v)) (stateOf v)
  length : calls.length = before.length + (doc.version - first.version)
  goesOn : before <:+ calls
  asked : ∀ t ∈ calls.take (doc.version - first.version), Asked settings requests w t

section Law

variable {settings : Settings} {requests : FlowId → Request} {first : GameDocument}
  {h : List (Taken Server (Event FlowId Op Op.Ans))} {p : Server} {w : World}
  {before : List (Taken GameState Call)} {init : GameState → Prop}

/-- A link is a call of the game. -/
theorem Link.call {older newer : Commit} (h : Link settings requests older newer) :
    ∃ call, Accepted older.document.state call newer.document.state ∧
      call.env.goSalary = settings.goSalary ∧ call.env.jailFine = settings.jailFine ∧
      ∃ i, newer.writer = some i ∧
        Issues (requests i) older.document.state call.env.clock call.command := by
  obtain ⟨i, hwriter, -, clock, tradeId, command, events, hissues, happly⟩ := h
  exact ⟨⟨command, applyEnv settings older.document.toDomain clock tradeId⟩, ⟨events, _, happly⟩,
    rfl, rfl, i, hwriter, hissues⟩

/-- The chain of the documents, read as a game: one call for each link. -/
theorem calls_of_chain {commits : List Commit} {top : Commit}
    (hchain : VersionChain (·.document.version) (Link settings requests) commits)
    (htop : commits.head? = some top) (hfirst : commits.getLast? = some ⟨first, none⟩)
    (hplay : Run init Accepted before first.state) :
    ∃ calls, first.version ≤ top.document.version ∧
      calls.length = before.length + (top.document.version - first.version) ∧ before <:+ calls ∧
      (∀ c ∈ commits, Run init Accepted (calls.drop (top.document.version - c.document.version))
        c.document.state) ∧
      ∀ t ∈ calls.take (top.document.version - first.version),
        t.label.env.goSalary = settings.goSalary ∧ t.label.env.jailFine = settings.jailFine ∧
        ∃ i, Issues (requests i) t.before t.label.env.clock t.label.command ∧
          ∃ c ∈ commits, c.writer = some i ∧ c.document.state = t.after := by
  induction hchain generalizing top with
  | first a =>
      obtain rfl := Option.some.inj htop
      obtain rfl := Option.some.inj hfirst
      refine ⟨before, Nat.le_refl _, by simp, List.suffix_rfl, fun c hc => ?_, by simp⟩
      obtain rfl := List.mem_singleton.mp hc
      simpa using hplay
  | @next older newer rest hrest hversion hlink ih =>
      obtain rfl := Option.some.inj htop
      obtain ⟨calls, hle, hlength, hgoesOn, hgame, hasked⟩ := ih rfl (by
        rwa [List.getLast?_cons_cons] at hfirst)
      obtain ⟨call, hcall, hsalary, hfine, i, hwriter, hissues⟩ := hlink.call
      have hplayed : Run init Accepted calls older.document.state := by
        simpa using hgame older List.mem_cons_self
      refine ⟨⟨older.document.state, call, newer.document.state⟩ :: calls, by omega, ?_,
        hgoesOn.trans (List.suffix_cons _ _), fun c hc => ?_, fun t ht => ?_⟩
      · rw [List.length_cons]
        omega
      · rcases List.mem_cons.mp hc with rfl | hc
        · simpa using hplayed.next hcall
        · have hback := hrest.version_le hc
          rw [show newer.document.version - c.document.version =
            (older.document.version - c.document.version) + 1 by omega]
          exact hgame c hc
      · rw [show newer.document.version - first.version =
          (older.document.version - first.version) + 1 by omega, List.take_succ_cons] at ht
        rcases List.mem_cons.mp ht with rfl | ht
        · exact ⟨hsalary, hfine, i, hissues, newer, List.mem_cons_self, hwriter, rfl⟩
        · obtain ⟨hsalary', hfine', j, hj, c, hc, hcwriter⟩ := hasked t ht
          exact ⟨hsalary', hfine', j, hj, c, List.mem_cons_of_mem _ hc, hcwriter⟩

/-- The states by their versions. -/
def World.stateAt (w : World) (start : GameState) (v : Nat) : GameState :=
  ((w.commits.find? fun c => decide (c.document.version = v)).map (·.document.state)).getD start

theorem stateAt_version {c : Commit} {start : GameState}
    (hchain : VersionChain (·.document.version) (Link settings requests) w.commits)
    (hc : c ∈ w.commits) : w.stateAt start c.document.version = c.document.state := by
  have hfound : w.commits.find? (fun d => decide (d.document.version = c.document.version)) =
      some c := by
    cases hfind : w.commits.find? (fun d => decide (d.document.version = c.document.version)) with
    | none => simpa using List.find?_eq_none.mp hfind c hc
    | some d =>
        have hversion : d.document.version = c.document.version := by
          simpa using List.find?_some hfind
        rw [hchain.eq_of_version (List.mem_of_find?_eq_some hfind) hc hversion]
  rw [World.stateAt, hfound]
  rfl

/-- The history of the stored documents records a game. -/
theorem History.recorded (hhistory : History settings requests first w)
    (hplay : Run init Accepted before first.state) :
    ∃ doc calls,
      Recorded settings requests init first before w doc calls (w.stateAt first.state) := by
  obtain ⟨top, htop⟩ : ∃ top, w.commits.head? = some top := by
    cases hcommits : w.commits with
    | nil => simpa [hcommits] using hhistory.first
    | cons top rest => exact ⟨top, rfl⟩
  have hchain := hhistory.chain
  obtain ⟨calls, hle, hlength, hgoesOn, hgame, hasked⟩ :=
    calls_of_chain hchain htop hhistory.first hplay
  refine ⟨top.document, calls, by simp [World.current, htop], hle,
    fun c hc => stateAt_version hchain hc, fun v hv hv' => ?_, hlength, hgoesOn, fun t ht => ?_⟩
  · obtain ⟨c, hc, rfl⟩ := hchain.exists_version (n := v)
      (fun a ha => by rw [← Option.some.inj (hhistory.first.symm.trans ha)]; exact hv)
      fun a ha => by rw [← Option.some.inj (htop.symm.trans ha)]; exact hv'
    rw [stateAt_version hchain hc]
    exact hgame c hc
  · obtain ⟨hsalary, hfine, i, hissues, c, hc, hwriter, hafter⟩ := hasked t ht
    exact ⟨hsalary, hfine, i, hissues, c, List.mem_filter.mpr ⟨hc, by simp [hwriter]⟩, hafter⟩

end Law

end Monopoly
