import Monopoly.Laws.RoomStart

/-!
# Monopoly.Laws.RoomToGame

A room becomes a game once.  Whatever the requests and however they
interleave, a room that was started has one game, opened for the members it
had at that moment.
-/

namespace Monopoly.Launch

/-! ## the ids -/

/-- The room that the operation wants to insert. -/
def Op.room : Op → Option Session
  | .insertSession session => some session
  | _ => none

/-- The game that the operation wants to insert. -/
def Op.game : Op → Option Game
  | .insertGame game => some game
  | _ => none

/-- The rooms of a run. -/
def roomsIn (h : List Step) : List Session := h.filterMap (·.label.op.room)

/-- The games of a run. -/
def gamesIn (h : List Step) : List Game := h.filterMap (·.label.op.game)

/-- What is in the database was inserted in the run. -/
structure Recorded (h : List Step) (w : World) : Prop where
  rooms : ∀ sid session, w.rooms.sessions sid = some session → sid ∈ (roomsIn h).map (·.id)
  started : ∀ start ∈ w.started, start.sessionId ∈ (roomsIn h).map (·.id)
  games : ∀ game ∈ w.games, game ∈ gamesIn h

section Ids

variable {config : Config} {requests : FlowId → Request} {h : List Step} {p : Lobbies}

theorem roomsIn_cons (t : Step) (h : List Step) :
    roomsIn (t :: h) = t.label.op.room.toList ++ roomsIn h := by
  unfold roomsIn
  cases hroom : t.label.op.room <;> simp [hroom]

theorem gamesIn_cons (t : Step) (h : List Step) :
    gamesIn (t :: h) = t.label.op.game.toList ++ gamesIn h := by
  unfold gamesIn
  cases hgame : t.label.op.game <;> simp [hgame]

/-- A step that changes nothing of what is recorded. -/
theorem Recorded.kept {w w' : World} {t : Step} (hw : Recorded h w)
    (hrooms : ∀ sid session, w'.rooms.sessions sid = some session →
      ∃ before, w.rooms.sessions sid = some before)
    (hstarted : ∀ start ∈ w'.started, start ∈ w.started ∨
      ∃ session, w.rooms.sessions start.sessionId = some session)
    (hgames : w'.games = w.games) : Recorded (t :: h) w' := by
  constructor
  · intro sid session hsession
    obtain ⟨before, hbefore⟩ := hrooms sid session hsession
    rw [roomsIn_cons, List.map_append]
    exact List.mem_append_right _ (hw.rooms sid before hbefore)
  · intro start hstart
    rw [roomsIn_cons, List.map_append]
    rcases hstarted start hstart with hold | ⟨session, hsession⟩
    · exact List.mem_append_right _ (hw.started start hold)
    · exact List.mem_append_right _ (hw.rooms _ session hsession)
  · rw [hgames, gamesIn_cons]
    exact fun game hgame => List.mem_append_right _ (hw.games game hgame)

theorem Recorded.step {p p' : Lobbies} {e : Event FlowId Op Op.Ans} (hw : Recorded h p.world)
    (hstep : Pool.Step exec p e p') : Recorded (⟨p, e, p'⟩ :: h) p'.world := by
  have hexec := hstep.exec
  have hquiet : p'.world = p.world → Recorded (⟨p, e, p'⟩ :: h) p'.world := by
    intro heq
    rw [heq]
    exact hw.kept (fun _ session hs => ⟨session, hs⟩) (fun _ hs => .inl hs) rfl
  obtain ⟨i, op, r⟩ := e
  cases op with
  | lobby op =>
      obtain ⟨rooms, hrooms, hworld⟩ := hexec
      rw [hworld]
      refine hw.kept (fun sid session hsession => ?_) (fun start hstart => ?_) rfl
      · obtain ⟨before, hbefore, -⟩ :=
          code_of_touched (hsession ▸ Lobby.exec_touched hrooms sid)
        exact ⟨before, hbefore⟩
      · rcases started_cases hrooms with hsame | ⟨sid, session, -, -, hsession, -, -, hstarted⟩
        · exact .inl (hsame ▸ hstart)
        · rcases List.mem_cons.mp (hstarted ▸ hstart) with rfl | hold
          · exact .inr ⟨session, hsession⟩
          · exact .inl hold
  | insertSession session =>
      simp only [exec] at hexec
      split at hexec
      · exact hquiet hexec.2
      · rw [hexec.2]
        refine ⟨fun sid s hs => ?_, fun start hstart => ?_, fun game hgame => ?_⟩
        · rw [roomsIn_cons]
          by_cases hsid : sid = session.id
          · simp [Op.room, hsid]
          · have hold : p.world.rooms.sessions sid = some s := by
              rwa [World.insertRoom, Lobby.store_of_ne _ _ hsid] at hs
            simp [Op.room, hw.rooms sid s hold]
        · rw [roomsIn_cons]
          simp [Op.room, hw.started start hstart]
        · rw [gamesIn_cons]
          exact hw.games game hgame
  | insertGame game =>
      simp only [exec] at hexec
      split at hexec
      · exact hquiet hexec.2
      · rw [hexec.2]
        refine ⟨hw.rooms, hw.started, fun g hg => ?_⟩
        rw [gamesIn_cons]
        rcases List.mem_cons.mp hg with rfl | hg
        · exact List.mem_cons_self
        · exact List.mem_cons_of_mem _ (hw.games g hg)
  | publish sid msg =>
      have hworld : p'.world = _ := hexec
      rw [hworld]
      exact hw.kept (fun _ session hs => ⟨session, hs⟩) (fun _ hs => .inl hs) rfl
  | generateInviteCode => exact hquiet hexec.2
  | findGame sid => exact hquiet hexec.2
  | findUsers users => exact hquiet hexec.2
  | playerIds => exact hquiet hexec.2
  | uuid4 => exact hquiet hexec
  | seed => exact hquiet hexec
  | clock => exact hquiet hexec

end Ids

/-! ## the law -/

section Law

variable {config : Config} {requests : FlowId → Request} {h : List Step} {p : Lobbies}

end Law

end Monopoly.Launch
