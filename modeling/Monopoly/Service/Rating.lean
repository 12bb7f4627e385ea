import Monopoly.Lib.Dict
import Monopoly.Lib.Ranking
import Monopoly.Rules.Bankruptcy

/-!
# Monopoly.Service.Rating

The ranking of a finished game (`application/services/rating_service.py`),
and what it does to the ratings (`domain/rating/elo.py`).
-/

namespace Monopoly

/-- `p.eliminated_at if p.eliminated_at is not None else -1`. -/
def eliminationKey (player : PlayerState) : Int :=
  match player.eliminatedAt with
  | some turnNumber => turnNumber
  | none => -1

/-- `_placements`: the winner first, then the eliminated players by their most
recent elimination. -/
def placements (players : List PlayerState) : List (UserId × Nat) :=
  let eliminated := pySortedDesc eliminationKey (players.filter (·.isBankrupt))
  let ordered := survivors players ++ eliminated
  ranked (·.userId) ordered

/-! ## ratings -/

/-- The games after which a rating counts as settled. -/
def calibrationGames : Int := 3

/-- The weight of a game before that, -/
def calibrationK : Int := 120

/-- and the most it may change a rating. -/
def calibrationCap : Int := 75

/-- The weight of a game after that, -/
def regularK : Int := 48

/-- and the most it may change a rating. -/
def regularCap : Int := 25

/-- No rating falls below. -/
def ratingFloor : Int := 100

/-- One player of a finished game, as the ratings see them. -/
structure Participant where
  userId : UserId
  rating : Int
  gamesPlayed : Int
  placement : Nat
  deriving DecidableEq, Repr

/-- What becomes of one rating. -/
structure RatingResult where
  userId : UserId
  oldRating : Int
  newRating : Int
  delta : Int
  gamesPlayed : Int
  calibrationComplete : Bool
  deriving DecidableEq, Repr

/-- `_clamp`. -/
def clampTo (value cap : Int) : Int := max (-cap) (min cap value)

/-- The result of one player.  `score k player participants` is the rounded
float `round(k * (actual - expected))`. -/
def ratingResult (score : Int → Participant → List Participant → Int)
    (participants : List Participant) (player : Participant) : RatingResult :=
  let provisional := decide (player.gamesPlayed < calibrationGames)
  let k := if provisional then calibrationK else regularK
  let cap := if provisional then calibrationCap else regularCap
  let delta := clampTo (score k player participants) cap
  let newRating := max ratingFloor (player.rating + delta)
  let newGames := player.gamesPlayed + 1
  { userId := player.userId
    oldRating := player.rating
    newRating
    delta := newRating - player.rating
    gamesPlayed := newGames
    calibrationComplete := decide (calibrationGames ≤ newGames) }

/-- One result for each user, in the order of their first appearance; the score
is a parameter. -/
def computeRatingChanges (score : Int → Participant → List Participant → Int)
    (participants : List Participant) : List RatingResult :=
  if participants.length < 2 then []
  else participants.foldl
    (fun results player => pyDictSet (·.userId) results (ratingResult score participants player)) []

section Changes

variable {score : Int → Participant → List Participant → Int} {participants : List Participant}

/-- Nobody has two results. -/
theorem nodup_computeRatingChanges (score : Int → Participant → List Participant → Int)
    (participants : List Participant) :
    ((computeRatingChanges score participants).map (·.userId)).Nodup := by
  unfold computeRatingChanges
  split
  · exact List.nodup_nil
  · exact nodup_keys_foldl _ _ List.nodup_nil

/-- When there are two participants or more, each of them has a result, and
nobody else. -/
theorem mem_computeRatingChanges (htwo : 2 ≤ participants.length) {userId : UserId} :
    userId ∈ (computeRatingChanges score participants).map (·.userId) ↔
      ∃ player ∈ participants, player.userId = userId := by
  rw [computeRatingChanges, if_neg (by omega), mem_keys_foldl]
  simp [ratingResult]

/-- A result is that of a participant. -/
theorem of_mem_computeRatingChanges {result : RatingResult}
    (hmem : result ∈ computeRatingChanges score participants) :
    ∃ player ∈ participants, result = ratingResult score participants player := by
  unfold computeRatingChanges at hmem
  split at hmem
  · exact absurd hmem List.not_mem_nil
  · rcases of_mem_foldl _ _ hmem with hnone | ⟨player, hplayer, rfl⟩
    · exact absurd hnone List.not_mem_nil
    · exact ⟨player, hplayer, rfl⟩

end Changes

end Monopoly
