import Monopoly.Lib.Coroutine
import Monopoly.Service.Rating
import Monopoly.Service.Session

/-!
# Monopoly.Service.Finish

What happens when a game has finished: the two finish paths, of a player's
command (`gateway/handlers/game.py`) and of the scheduler
(`application/services/game_scheduler.py`), and the rating they share
(`application/services/rating_service.py`).
-/

namespace Monopoly.Finish

abbrev FlowId := Nat

/-- What the ratings change of a user's record. -/
structure UserRecord where
  rating : Int
  gamesPlayed : Int
  calibrationComplete : Bool
  deriving DecidableEq, Repr

/-- The arguments of `update_rating`. -/
structure RatingUpdate where
  userId : UserId
  rating : Int
  gamesPlayed : Int
  calibrationComplete : Bool
  deriving DecidableEq, Repr

/-- The game's session, its `rated` flag, and `db.users`. -/
structure World where
  session : Session
  rated : Bool
  users : UserId → Option UserRecord

inductive Op where
  /-- `mark_finished`. -/
  | markFinished
  | claimForRating
  | findByIds (userIds : List UserId)
  | updateRating (update : RatingUpdate)

abbrev Op.Ans : Op → Type
  | .markFinished => Option Session
  | .claimForRating => Bool
  | .findByIds _ => UserId → Option UserRecord
  | .updateRating _ => Unit

/-- `set_status` to `finished`, of a session that is in progress. -/
def World.markFinished (w : World) : Option Session × World :=
  if w.session.status = .inProgress then
    let session := w.session.withStatus .finished
    (some session, { w with session })
  else (none, w)

/-- The record of one user is set, if there is one. -/
def setRating (users : UserId → Option UserRecord) (update : RatingUpdate) :
    UserId → Option UserRecord :=
  Function.update users update.userId ((users update.userId).map fun _ =>
    { rating := update.rating, gamesPlayed := update.gamesPlayed
      calibrationComplete := update.calibrationComplete })

def exec (_ : FlowId) (w : World) : (op : Op) → op.Ans → World → Prop
  | .markFinished, updated, w' => (updated, w') = w.markFinished
  | .claimForRating, claimed, w' => claimed = !w.rated ∧ w' = { w with rated := true }
  | .findByIds userIds, users, w' =>
      (users = fun userId => if userId ∈ userIds then w.users userId else none) ∧ w' = w
  | .updateRating update, _, w' => w' = { w with users := setRating w.users update }

abbrev Flow := Co Op Op.Ans

/-- `await`, of one operation. -/
abbrev ask (op : Op) : Flow op.Ans := Co.await op

section Paths

variable (score : Int → Participant → List Participant → Int) (state : GameState)

/-- The players with a user record, as they were placed. -/
def participantsOf (ranking : List (UserId × Nat)) (users : UserId → Option UserRecord) :
    List Participant :=
  ranking.filterMap fun (userId, placement) => (users userId).map fun user =>
    { userId, rating := user.rating, gamesPlayed := user.gamesPlayed, placement }

def updateFor (result : RatingResult) : RatingUpdate where
  userId := result.userId
  rating := result.newRating
  gamesPlayed := result.gamesPlayed
  calibrationComplete := result.calibrationComplete

/-- The updates are awaited one after the other. -/
def updateRatings : List RatingUpdate → Flow Unit
  | [] => return ()
  | update :: rest => do
      ask (.updateRating update)
      updateRatings rest

/-- The updates of a finished game, for the users that were found. -/
def ratingUpdates (users : UserId → Option UserRecord) : List RatingUpdate :=
  (computeRatingChanges score (participantsOf (placements state.players) users)).map
    updateFor

/-- The game was claimed. -/
def rateClaimed : Flow Unit :=
  let ranking := placements state.players
  if ranking.length < 2 then return ()
  else do
    let users ← ask (.findByIds (ranking.map (·.1)))
    updateRatings (ratingUpdates score state users)

/-- Whether the game was claimed. -/
def rateIfClaimed : Bool → Flow Unit
  | true => rateClaimed score state
  | false => return ()

def applyForFinishedGame : Flow Unit :=
  if state.status ≠ .finished then return ()
  else do
    let claimed : Bool ← ask .claimForRating
    rateIfClaimed score state claimed

/-- The session that a player's command has finished, if it was in
progress. -/
def rateIfRanked : Option Session → Flow Unit
  | none => return ()
  | some session => if session.ranked then applyForFinishedGame score state else return ()

/-- `_finish_session`, after a player's command. -/
def finishFromHandler : Flow Unit := do
  let session ← ask .markFinished
  rateIfRanked score state session

/-- `GameScheduler._finish_session`. -/
def finishFromScheduler : Flow Unit := do
  applyForFinishedGame score state
  let _ ← ask .markFinished
  return ()

/-- Who has finished the game. -/
inductive Path where
  | handler
  | scheduler
  deriving DecidableEq

def finishSession : Path → Flow Unit
  | .handler => finishFromHandler score state
  | .scheduler => finishFromScheduler score state

end Paths

/-- The finish paths of one game. -/
abbrev Server := Pool FlowId World Op Op.Ans Unit

/-- One step of a finish path. -/
abbrev Step := Taken Server (Event FlowId Op Op.Ans)

/-- `Runs score state paths first h p`: any number of finish paths of the
game, begun in the world `first`, have come to `p`. -/
abbrev Runs (score : Int → Participant → List Participant → Int) (state : GameState)
    (paths : FlowId → Path) (first : World) :=
  Pool.Runs exec (· = first) (fun i => finishSession score state (paths i))

/-- The game was in progress until now, and was not rated. -/
structure Playing (w : World) : Prop where
  status : w.session.status = .inProgress
  rated : w.rated = false

/-- The update of a step, if it is one. -/
def updateOf (t : Step) : Option RatingUpdate :=
  match t.label.op with
  | .updateRating update => some update
  | _ => none

/-- The updates that were carried out, in their order. -/
def updates (h : List Step) : List RatingUpdate := (h.filterMap updateOf).reverse

/-! ## replays -/

def perform : Performer FlowId World Op Unit Op.Ans
  | _, _, w, .markFinished => some w.markFinished
  | _, _, w, .claimForRating => some (!w.rated, { w with rated := true })
  | _, _, w, .findByIds userIds =>
      some (fun userId => if userId ∈ userIds then w.users userId else none, w)
  | _, _, w, .updateRating update => some ((), { w with users := setRating w.users update })

theorem perform_exec (i : FlowId) (hint : Unit) (w : World) (op : Op) (r : op.Ans) (w' : World)
    (h : perform i hint w op = some (r, w')) : exec i w op r w' := by
  cases op with
  | markFinished => exact (Option.some.inj h).symm
  | claimForRating | findByIds =>
      obtain ⟨rfl, rfl⟩ := Prod.mk.inj (Option.some.inj h)
      exact ⟨rfl, rfl⟩
  | updateRating update =>
      obtain ⟨-, rfl⟩ := Prod.mk.inj (Option.some.inj h)
      rfl

/-- The world of the running session of the users `1` and `2`, who have not
played before. -/
def playing (ranked : Bool) : World where
  session := {
    id := 7
    inviteCode := "MPLY-AAAA"
    hostUserId := 1
    status := .inProgress
    visibility := .publicRoom
    ranked
    members := [
      { userId := 1, displayName := "Ada", role := .host, joinedAt := 0 },
      { userId := 2, displayName := "Ben", role := .player, joinedAt := 1 }] }
  rated := false
  users userId := if userId ∈ [1, 2] then some ⟨800, 0, false⟩ else none

/-- The paths of the first flows; all the others are of the scheduler. -/
def pathsOf (paths : List Path) (i : FlowId) : Path := paths.getD i .scheduler

theorem runs_of_replays (score : Int → Participant → List Participant → Int) (state : GameState)
    (paths : List Path) (first : World) (turns : List FlowId)
    (check : List Step → Server → Bool)
    (hreplays : Pool.Replays perform
      ⟨first, fun i => finishSession score state (pathsOf paths i)⟩ (turns.map (·, ())) check =
      true) : ∃ h p, Runs score state (pathsOf paths) first h p ∧ check h p = true :=
  Pool.runs_of_replays perform_exec rfl rfl hreplays

end Monopoly.Finish
