import Monopoly.Lib.Keyed
import Monopoly.Lib.Rounding
import Monopoly.Service.Rating
import Mathlib.Order.Interval.Set.Defs

/-!
# Monopoly.Laws.RatingBounds

What a finished game can do to a rating: the change is capped, the rating
keeps to the floor, and a better placement is never worth less.  The
expected score is any number between 0 and 1 that the ratings determine.
-/

namespace Monopoly

/-- `_expected_score`, as exact arithmetic has it. -/
abbrev ExpectedScore := Int → List Int → Set.Icc (0 : ℚ) 1

/-- `(n - player.placement) / (n - 1)`. -/
def actualScore (n placement : Nat) : ℚ := ((n : ℚ) - placement) / ((n : ℚ) - 1)

/-- `[p.rating for p in participants if p.user_id != player.user_id]`. -/
def opponentsOf (participants : List Participant) (player : Participant) : List Int :=
  (participants.filter fun p => p.userId ≠ player.userId).map (·.rating)

/-- `round(k * (actual - expected))`. -/
def placementScore (expectedScore : ExpectedScore) (k : Int) (player : Participant)
    (participants : List Participant) : Int :=
  let expected := expectedScore player.rating (opponentsOf participants player)
  let actual := actualScore participants.length player.placement
  roundHalfEven ((k : ℚ) * (actual - expected))

/-- `results[user_id]`. -/
def resultOf (results : List RatingResult) (userId : UserId) : Option RatingResult :=
  results.find? fun result => decide (result.userId = userId)

/-- What the result of a player is held to in a field of `n`. -/
structure RatedWithin (n : Nat) (player : Participant) (result : RatingResult) : Prop where
  change : result.newRating = player.rating + result.delta
  floored : 100 ≤ result.newRating
  capped : |result.delta| ≤ if player.gamesPlayed < 3 then 75 else 25
  winner : player.placement = 1 → 0 ≤ result.delta
  last : player.placement = n → result.delta ≤ 0

section Scores

variable {n a b : Nat} {k : Int} {expectedScore : ExpectedScore} {player : Participant}
  {participants : List Participant}

theorem actualScore_one (hn : 2 ≤ n) : actualScore n 1 = 1 := by
  have hn' : (2 : ℚ) ≤ n := by exact_mod_cast hn
  have hne : (n : ℚ) - 1 ≠ 0 := by linarith
  rw [actualScore, Nat.cast_one, div_self hne]

theorem actualScore_last (n : Nat) : actualScore n n = 0 := by
  rw [actualScore, sub_self, zero_div]

theorem actualScore_anti (hn : 2 ≤ n) (hab : a ≤ b) : actualScore n b ≤ actualScore n a := by
  have hn' : (2 : ℚ) ≤ n := by exact_mod_cast hn
  have hab' : (a : ℚ) ≤ b := by exact_mod_cast hab
  exact div_le_div_of_nonneg_right (by linarith) (by linarith)

theorem placementScore_nonneg (hk : 0 ≤ k) (htwo : 2 ≤ participants.length)
    (hplacement : player.placement = 1) :
    0 ≤ placementScore expectedScore k player participants := by
  have hk' : (0 : ℚ) ≤ k := by exact_mod_cast hk
  obtain ⟨-, hle⟩ := (expectedScore player.rating (opponentsOf participants player)).2
  rw [placementScore, hplacement, actualScore_one htwo]
  exact roundHalfEven_nonneg (mul_nonneg hk' (by linarith))

theorem placementScore_nonpos (hk : 0 ≤ k) (hplacement : player.placement = participants.length) :
    placementScore expectedScore k player participants ≤ 0 := by
  have hk' : (0 : ℚ) ≤ k := by exact_mod_cast hk
  obtain ⟨hle, -⟩ := (expectedScore player.rating (opponentsOf participants player)).2
  rw [placementScore, hplacement, actualScore_last]
  exact roundHalfEven_nonpos (mul_nonpos_of_nonneg_of_nonpos hk' (by linarith))

/-- The rest of the field is the same for either placement of the player. -/
theorem opponentsOf_placed (before after : List Participant) (player : Participant)
    (placement : Nat) :
    opponentsOf (before ++ { player with placement } :: after) { player with placement } =
      opponentsOf (before ++ player :: after) player := by
  simp [opponentsOf, List.filter_append]

variable (expectedScore) in
theorem placementScore_mono {before after : List Participant} (hk : 0 ≤ k)
    (htwo : 2 ≤ (before ++ player :: after).length) {better : Nat}
    (hbetter : better ≤ player.placement) :
    placementScore expectedScore k player (before ++ player :: after) ≤
      placementScore expectedScore k { player with placement := better }
        (before ++ { player with placement := better } :: after) := by
  have hk' : (0 : ℚ) ≤ k := by exact_mod_cast hk
  have hlen : (before ++ { player with placement := better } :: after).length =
      (before ++ player :: after).length := by simp
  have hactual := actualScore_anti htwo hbetter
  rw [placementScore, placementScore, opponentsOf_placed before after player better, hlen]
  exact roundHalfEven_mono (mul_le_mul_of_nonneg_left (sub_le_sub_right hactual _) hk')

end Scores

/-! ## one result -/

section Results

variable {score score' : Int → Participant → List Participant → Int} {player : Participant}
  {participants participants' : List Participant}

theorem clampTo_mono {a b : Int} (cap : Int) (h : a ≤ b) : clampTo a cap ≤ clampTo b cap :=
  max_le_max le_rfl (min_le_min le_rfl h)

theorem abs_clampTo {cap : Int} (hcap : 0 ≤ cap) (a : Int) : |clampTo a cap| ≤ cap :=
  abs_le.mpr ⟨le_max_left _ _, max_le (by omega) (min_le_left _ _)⟩

/-- The window of a player. -/
def windowOf (player : Participant) : Int × Int :=
  if player.gamesPlayed < calibrationGames then (calibrationK, calibrationCap)
  else (regularK, regularCap)

theorem windowOf_nonneg (player : Participant) :
    0 ≤ (windowOf player).1 ∧ 0 ≤ (windowOf player).2 := by
  unfold windowOf
  split <;> decide

/-- The capped change, before the floor. -/
def cappedChange (score : Int → Participant → List Participant → Int)
    (participants : List Participant) (player : Participant) : Int :=
  clampTo (score (windowOf player).1 player participants) (windowOf player).2

theorem cappedChange_nonneg (h : 0 ≤ score (windowOf player).1 player participants) :
    0 ≤ cappedChange score participants player :=
  le_max_of_le_right (le_min (windowOf_nonneg player).2 h)

theorem cappedChange_nonpos (h : score (windowOf player).1 player participants ≤ 0) :
    cappedChange score participants player ≤ 0 :=
  max_le (neg_nonpos.mpr (windowOf_nonneg player).2) (min_le_of_right_le h)

theorem ratingResult_newRating : (ratingResult score participants player).newRating =
    max ratingFloor (player.rating + cappedChange score participants player) := by
  unfold ratingResult cappedChange windowOf
  by_cases hgames : player.gamesPlayed < calibrationGames <;> simp [hgames]

/-- The floor only takes from a loss. -/
theorem ratingResult_delta :
    (ratingResult score participants player).delta =
      max (100 - player.rating) (cappedChange score participants player) := by
  have hdelta : (ratingResult score participants player).delta =
      (ratingResult score participants player).newRating - player.rating := rfl
  rw [hdelta, ratingResult_newRating, ratingFloor]
  omega

theorem ratingResult_within {n : Nat} (hrating : 100 ≤ player.rating)
    (hwinner : player.placement = 1 → 0 ≤ cappedChange score participants player)
    (hlast : player.placement = n → cappedChange score participants player ≤ 0) :
    RatedWithin n player (ratingResult score participants player) where
  change := (add_sub_cancel player.rating _).symm
  floored := ratingResult_newRating ▸ le_max_left _ _
  capped := by
    have habs := abs_le.mp (abs_clampTo (windowOf_nonneg player).2
      (score (windowOf player).1 player participants))
    have hcap : (windowOf player).2 = if player.gamesPlayed < 3 then 75 else 25 := by
      unfold windowOf
      split <;> simp_all [calibrationGames, calibrationCap, regularCap]
    rw [ratingResult_delta, ← hcap, abs_le]
    exact ⟨habs.1.trans (le_max_right _ _), max_le (by omega) habs.2⟩
  winner := fun h => by
    rw [ratingResult_delta]
    exact (hwinner h).trans (le_max_right _ _)
  last := fun h => by
    rw [ratingResult_delta]
    exact max_le (by omega) (hlast h)

/-- A better score is never worth less. -/
theorem newRating_mono {player' : Participant} (hrating : player'.rating = player.rating)
    (hgames : player'.gamesPlayed = player.gamesPlayed)
    (hscore : score (windowOf player).1 player participants ≤
      score (windowOf player).1 player' participants') :
    (ratingResult score participants player).newRating ≤
      (ratingResult score participants' player').newRating := by
  have hwindow : windowOf player' = windowOf player := by rw [windowOf, windowOf, hgames]
  rw [ratingResult_newRating, ratingResult_newRating, hrating, cappedChange, cappedChange, hwindow]
  exact max_le_max le_rfl (add_le_add le_rfl (clampTo_mono _ hscore))

/-- The results of distinct users are those of the players in turn. -/
theorem resultOf_computeRatingChanges (score : Int → Participant → List Participant → Int)
    (htwo : 2 ≤ participants.length) (husers : (participants.map (·.userId)).Nodup)
    (hplayer : player ∈ participants) :
    resultOf (computeRatingChanges score participants) player.userId =
      some (ratingResult score participants player) := by
  have hkeys : ((participants.map (ratingResult score participants)).map (·.userId)).Nodup := by
    rw [List.map_map]
    exact husers
  have hall : computeRatingChanges score participants =
      participants.map (ratingResult score participants) := by
    rw [computeRatingChanges, if_neg (by omega)]
    exact foldl_pyDictSet_eq _ _ hkeys
  rw [hall]
  exact find?_key RatingResult.userId hkeys (List.mem_map_of_mem hplayer)

end Results

/-! ## the law -/

/-- The change of a rating is bounded by the window and the floor, its sign
at either end of the field is right, and it is monotone in the placement. -/
theorem rating_changes_bounded (expectedScore : ExpectedScore) {participants : List Participant}
    (htwo : 2 ≤ participants.length) (husers : (participants.map (·.userId)).Nodup)
    (hratings : ∀ player ∈ participants, 100 ≤ player.rating) :
    (∀ player ∈ participants, ∃ result,
      resultOf (computeRatingChanges (placementScore expectedScore) participants) player.userId =
        some result ∧ RatedWithin participants.length player result) ∧
    ∀ before player after, participants = before ++ player :: after →
      ∀ better ≤ player.placement, ∃ result result',
        resultOf (computeRatingChanges (placementScore expectedScore) participants)
          player.userId = some result ∧
        resultOf (computeRatingChanges (placementScore expectedScore)
          (before ++ { player with placement := better } :: after)) player.userId =
            some result' ∧ result.newRating ≤ result'.newRating := by
  constructor
  · intro player hplayer
    refine ⟨_, resultOf_computeRatingChanges _ htwo husers hplayer, ?_⟩
    refine ratingResult_within (hratings player hplayer) (fun hwinner => ?_) fun hlast => ?_
    · exact cappedChange_nonneg (placementScore_nonneg (windowOf_nonneg player).1 htwo hwinner)
    · exact cappedChange_nonpos (placementScore_nonpos (windowOf_nonneg player).1 hlast)
  · rintro before player after rfl better hbetter
    set placed : Participant := { player with placement := better }
    have htwo' : 2 ≤ (before ++ placed :: after).length := by simpa using htwo
    have husers' : ((before ++ placed :: after).map (·.userId)).Nodup := by simpa using husers
    have hplaced : placed ∈ before ++ placed :: after := by simp
    have hresult := resultOf_computeRatingChanges (placementScore expectedScore) htwo husers
      (show player ∈ before ++ player :: after by simp)
    have hresult' := resultOf_computeRatingChanges (placementScore expectedScore) htwo' husers'
      hplaced
    have hscore := placementScore_mono expectedScore (windowOf_nonneg player).1 htwo hbetter
    exact ⟨_, _, hresult, hresult', newRating_mono rfl rfl hscore⟩

/-- A regular winner, a player in calibration, and one who falls to the floor. -/
def threeRated : List Participant :=
  [⟨1, 800, 9, 1⟩, ⟨2, 1000, 0, 2⟩, ⟨3, 110, 9, 3⟩]

/-- The stronger of two is expected to win three times in four. -/
def threeInFour : ExpectedScore := fun rating opponents =>
  if opponents.all (· < rating) then ⟨3 / 4, by norm_num⟩ else ⟨1 / 4, by norm_num⟩

theorem rating_changes_bounded_three :
    (computeRatingChanges (placementScore threeInFour) threeRated).map (·.delta) = [25, -30, -10] ∧
    ∀ player ∈ threeRated, ∃ result,
      resultOf (computeRatingChanges (placementScore threeInFour) threeRated) player.userId =
        some result ∧ RatedWithin 3 player result :=
  ⟨by decide +kernel,
    (rating_changes_bounded threeInFour (show 2 ≤ threeRated.length by decide) (by decide)
      (by decide)).1⟩

end Monopoly
