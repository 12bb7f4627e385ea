import Monopoly.Service.Launch
import Monopoly.Spec.Play
import Monopoly.Spec.Secrecy

/-!
# Monopoly.Service.Opening

The document a game starts from: it is that of a new game for the members of
the room, with its flags set, and the engine goes on from it as it would from
the new game itself.
-/

namespace Monopoly.Launch

/-- These are the arguments of the game of a room that was started so. -/
structure Suits (balance : Int) (session : Session) (args : NewGame) : Prop where
  sessionCode : args.sessionCode = session.inviteCode
  gameMode : args.gameMode = session.gameMode
  startingBalance : args.startingBalance = balance
  members : (args.members.map fun m => (m.userId, m.displayName)) =
    session.members.map fun m => (m.userId, m.displayName)

/-- The document is that of a game opened for the room. -/
def Opening (balance : Int) (session : Session) (doc : GameDocument) : Prop :=
  doc.version = 0 ∧ ∃ uuid4 args, Function.Injective uuid4 ∧ args.gameId = doc.id ∧
    Suits balance session args ∧ openGame uuid4 args = .ok (doc.state, doc.rngState)

section Games

variable {balance : Int} {session : Session} {doc : GameDocument} {s t : GameState}

/-- Setting the flags changes nothing else. -/
theorem withActions_flagged (h : withActions s = .ok t) : ∃ flags, t = s.withFlags flags := by
  unfold withActions at h
  cases hactions : computeActions s s.turn.currentPlayerId with
  | error e => simp [hactions] at h
  | ok actions =>
      rw [hactions, ok_bind] at h
      exact ⟨actions, (Except.ok.inj h).symm⟩

/-- A game is made for as many players as the room has members. -/
theorem Suits.length {args : NewGame} (h : Suits balance session args) :
    args.members.length = session.members.length := by
  have hlen := congrArg List.length h.members
  simpa using hlen

/-- A game that opens is a new game with its flags set. -/
theorem openGame_ok {uuid4 : Nat → PlayerId} {args : NewGame} {rng : Rng}
    (h : openGame uuid4 args = .ok (t, rng)) :
    ∃ s, newGame uuid4 args = .ok (s, rng) ∧ withActions s = .ok t := by
  unfold openGame at h
  cases hnew : newGame uuid4 args with
  | error e => simp [hnew] at h
  | ok r =>
      obtain ⟨s, rng'⟩ := r
      simp only [hnew, ok_bind] at h
      cases hactions : withActions s with
      | error e => simp [hactions] at h
      | ok t' =>
          simp only [hactions, ok_bind] at h
          cases h
          exact ⟨s, rfl, hactions⟩

/-- The token colors are pairwise different. -/
theorem tokenColors_inj : ∀ i < tokenColors.length, ∀ j < tokenColors.length,
    tokenColors.getD i .blue = tokenColors.getD j .blue → i = j := by decide

/-- The players are the room's members, each with a token of their own. -/
structure SeatedAs (session : Session) (s : GameState) : Prop where
  users : (s.players.map (·.userId)).Perm (userIds session.members)
  tokens : session.members.length ≤ tokenColors.length → (s.players.map (·.token)).Nodup

/-- The players are seated as the members of the room stand. -/
theorem Opening.players (h : Opening balance session doc) : SeatedAs session doc.state := by
  obtain ⟨-, uuid4, args, -, -, hsuits, hopen⟩ := h
  obtain ⟨s, hnew, hactions⟩ := openGame_ok hopen
  obtain ⟨flags, hstate⟩ := withActions_flagged hactions
  have hplayers : doc.state.players = s.players := by rw [hstate]; rfl
  rw [newGame_players hnew] at hplayers
  have hperm := shuffle_perm args.rng args.members
  constructor
  · have hmembers := congrArg (List.map Prod.fst) hsuits.members
    simp only [List.map_map, Function.comp_def] at hmembers
    have husers : doc.state.players.map (·.userId) =
        (args.rng.shuffle args.members).1.map (·.userId) := by
      rw [hplayers]
      exact List.ext_getElem (by simp) fun i _ _ => by simp [newPlayer]
    rw [husers, userIds, ← hmembers]
    exact hperm.map _
  · intro hfew
    have hlen : doc.state.players.length = session.members.length := by
      rw [hplayers, List.length_mapIdx, hperm.length_eq, hsuits.length]
    refine List.pairwise_iff_getElem.mpr fun i j hi hj hij heq => ?_
    rw [List.length_map, hlen] at hi hj
    simp only [List.getElem_map, hplayers, List.getElem_mapIdx, newPlayer,
      Nat.mod_eq_of_lt (hi.trans_le hfew), Nat.mod_eq_of_lt (hj.trans_le hfew)] at heq
    exact absurd (tokenColors_inj i (hi.trans_le hfew) j (hj.trans_le hfew) heq) (by omega)

end Games

end Monopoly.Launch
