import Monopoly.Service.Finish
import Monopoly.Spec.Replay

/-!
# Monopoly.Laws.RatedOnce

The ratings change exactly once for a ranked session, whichever finish
paths run and however they interleave.  For one that is not ranked they stay
as they are if no path of the scheduler runs: that path rates every game.
-/

namespace Monopoly.Finish

section Paths

variable (score : Int → Participant → List Participant → Int) (state : GameState)

/-- What a path does after the rating. -/
def afterwards : Path → Flow Unit
  | .handler => return ()
  | .scheduler => do
      let _ ← ask .markFinished
      return ()

/-- How a path goes on after each of its calls. -/
def Goes (path : Path) : (op : Op) → (op.Ans → Flow Unit) → Prop
  | .markFinished, k =>
      (path = .handler ∧ k = rateIfRanked score state) ∨ (path = .scheduler ∧ ∀ r, k r = .done ())
  | .claimForRating, k => ∀ r, k r = (rateIfClaimed score state r >>= fun _ => afterwards path)
  | .findByIds userIds, k =>
      userIds = (placements state.players).map (·.1) ∧
        ∀ r, k r = (updateRatings (ratingUpdates score state r) >>= fun _ => afterwards path)
  | .updateRating _, k => ∃ rest, ∀ r, k r = (updateRatings rest >>= fun _ => afterwards path)

variable {score state}

theorem updateRatings_goes (path : Path) (todo : List RatingUpdate)
    (htail : (afterwards path).Every (Goes score state path)) :
    (updateRatings todo >>= fun _ => afterwards path).Every (Goes score state path) := by
  induction todo with
  | nil => exact htail
  | cons update rest ih => exact ⟨⟨rest, fun _ => rfl⟩, fun _ => ih⟩

variable (score) in
theorem applyForFinishedGame_goes (hfinished : state.status = .finished) (path : Path)
    (htail : (afterwards path).Every (Goes score state path)) :
    (applyForFinishedGame score state >>= fun _ => afterwards path).Every
      (Goes score state path) := by
  unfold applyForFinishedGame
  rw [if_neg (by simp [hfinished])]
  refine ⟨fun r => rfl, fun r => ?_⟩
  change (rateIfClaimed score state r >>= fun _ => afterwards path).Every _
  cases r with
  | false => exact htail
  | true =>
      simp only [rateIfClaimed, rateClaimed]
      split
      · exact htail
      · exact ⟨⟨rfl, fun _ => rfl⟩, fun r => updateRatings_goes path _ htail⟩

theorem afterwards_goes (path : Path) : (afterwards path).Every (Goes score state path) := by
  cases path with
  | handler => trivial
  | scheduler => exact ⟨.inr ⟨rfl, fun _ => rfl⟩, fun _ => trivial⟩

variable (score) in
theorem finishSession_goes (hfinished : state.status = .finished) (path : Path) :
    (finishSession score state path).Every (Goes score state path) := by
  cases path with
  | handler =>
      refine ⟨.inl ⟨rfl, rfl⟩, fun r => ?_⟩
      change (rateIfRanked score state r).Every _
      cases r with
      | none => trivial
      | some session =>
          simp only [rateIfRanked]
          split
          · have hgoes := applyForFinishedGame_goes score hfinished .handler trivial
            rwa [show (applyForFinishedGame score state >>= fun _ => afterwards .handler) =
              applyForFinishedGame score state from Co.bind_done _] at hgoes
          · trivial
  | scheduler =>
      exact applyForFinishedGame_goes score hfinished .scheduler (afterwards_goes .scheduler)

end Paths

section Runs

variable {score : Int → Participant → List Participant → Int} {state : GameState}
  {paths : FlowId → Path} {first : World} {h : List Step} {p p' : Server}
  {e : Event FlowId Op Op.Ans}

theorem Runs.goes (hfinished : state.status = .finished) (hrun : Runs score state paths first h p)
    {i : FlowId} {op : Op} {k : op.Ans → Flow Unit} (hflow : p.flow i = .call op k) :
    Goes score state (paths i) op k := by
  have hevery := Pool.Runs.every hrun (finishSession_goes score hfinished (paths i))
  rw [hflow] at hevery
  exact hevery.1

/-! ## the session -/

section Operations

variable {i : FlowId} {w w' : World} {op : Op} {r : op.Ans}

/-- `mark_finished` finishes a session in progress, and answers with it. -/
theorem exec_markFinished {r : Option Session} (h : exec i w .markFinished r w') :
    (w.session.status ≠ .inProgress ∧ r = none ∧ w' = w) ∨
      (w.session.status = .inProgress ∧ r = some (w.session.withStatus .finished) ∧
        w' = { w with session := w.session.withStatus .finished }) := by
  simp only [exec, World.markFinished] at h
  split at h
  · rename_i hstatus
    obtain ⟨rfl, rfl⟩ := Prod.mk.inj h
    exact .inr ⟨hstatus, rfl, rfl⟩
  · rename_i hstatus
    obtain ⟨rfl, rfl⟩ := Prod.mk.inj h
    exact .inl ⟨hstatus, rfl, rfl⟩

/-- Only `mark_finished` changes the session. -/
theorem exec_session (h : exec i w op r w') (hop : op ≠ .markFinished) :
    w'.session = w.session := by
  cases op with
  | markFinished => exact absurd rfl hop
  | claimForRating => rw [h.2]
  | findByIds userIds => rw [h.2]
  | updateRating update => rw [show w' = _ from h]

/-- Only the claim sets the flag. -/
theorem exec_rated (h : exec i w op r w') (hop : op ≠ .claimForRating) : w'.rated = w.rated := by
  cases op with
  | markFinished =>
      obtain ⟨-, -, hw⟩ | ⟨-, -, hw⟩ := exec_markFinished h
      · rw [hw]
      · rw [hw]
  | claimForRating => exact absurd rfl hop
  | findByIds userIds => rw [h.2]
  | updateRating update => rw [show w' = _ from h]

/-- Only an update changes the users. -/
theorem exec_users (h : exec i w op r w') (hop : ∀ update, op ≠ .updateRating update) :
    w'.users = w.users := by
  cases op with
  | markFinished =>
      obtain ⟨-, -, hw⟩ | ⟨-, -, hw⟩ := exec_markFinished h
      · rw [hw]
      · rw [hw]
  | claimForRating => rw [h.2]
  | findByIds userIds => rw [h.2]
  | updateRating update => exact absurd rfl (hop update)

/-- An operation leaves the session's `ranked` flag alone. -/
theorem exec_ranked (h : exec i w op r w') : w'.session.ranked = w.session.ranked := by
  by_cases hop : op = .markFinished
  · subst hop
    obtain ⟨-, -, hw⟩ | ⟨-, -, hw⟩ := exec_markFinished h
    · rw [hw]
    · rw [hw]
      rfl
  · rw [exec_session h hop]

theorem exec_keeps_rated (h : exec i w op r w') (hrated : w.rated = true) : w'.rated = true := by
  by_cases hop : op = .claimForRating
  · subst hop
    rw [h.2]
  · rw [exec_rated h hop]
    exact hrated

theorem markFinished_ends {r : Option Session} (h : exec i w .markFinished r w') :
    w'.session.status ≠ .inProgress := by
  obtain ⟨hended, -, hw⟩ | ⟨-, -, hw⟩ := exec_markFinished h
  · rwa [hw]
  · rw [hw]
    simp [Session.withStatus]

theorem exec_keeps_ended (h : exec i w op r w') (hended : w.session.status ≠ .inProgress) :
    w'.session.status ≠ .inProgress := by
  by_cases hop : op = .markFinished
  · subst hop
    exact markFinished_ends h
  · rwa [exec_session h hop]

end Operations

theorem Runs.ranked (hrun : Runs score state paths first h p) :
    p.world.session.ranked = first.session.ranked := by
  refine Run.invariant (I := fun p => p.world.session.ranked = first.session.ranked) ?_ ?_ hrun
  · rintro p ⟨hworld, -⟩
    rw [hworld]
  · intro p e p' hranked hstep
    rw [exec_ranked hstep.exec, hranked]

/-! ## the updates -/

theorem updates_cons (t : Step) (h : List Step) :
    updates (t :: h) = updates h ++ (updateOf t).toList := by
  unfold updates
  cases hupdate : updateOf t with
  | none => rw [List.filterMap_cons_none hupdate]; simp
  | some update => rw [List.filterMap_cons_some hupdate]; simp

/-- The users are as the updates have left them. -/
theorem Runs.users (hrun : Runs score state paths first h p) :
    p.world.users = (updates h).foldl setRating first.users := by
  induction hrun with
  | start hs => rw [hs.1]; rfl
  | @next h p p' e _ hstep ih =>
      rw [updates_cons, List.foldl_append, ← ih]
      have hexec := hstep.exec
      obtain ⟨i, op, r⟩ := e
      cases op with
      | markFinished => exact exec_users hexec (by simp)
      | claimForRating => exact exec_users hexec (by simp)
      | findByIds userIds => exact exec_users hexec (by simp)
      | updateRating update => rw [show p'.world = _ from hexec]; rfl

/-! ## the claim -/

/-- The flow has claimed the game, and has not updated all the ratings. -/
def IsRating (c : Flow Unit) : Prop :=
  (∃ userIds k, c = .call (.findByIds userIds) k) ∨ ∃ update k, c = .call (.updateRating update) k

/-- Where the flow that has claimed the game is with the ratings: before the
first update, between two of them, or past the last one. -/
inductive RatingAt (score : Int → Participant → List Participant → Int) (state : GameState)
    (first : World) (path : Path) (done : List RatingUpdate) (c : Flow Unit) : Prop
  | finding (hdone : done = []) (hwaits : ∃ userIds k, c = .call (.findByIds userIds) k)
  | updating (update : RatingUpdate) (rest : List RatingUpdate)
      (hdone : done ++ update :: rest = ratingUpdates score state first.users)
      (hwaits : c = (updateRatings (update :: rest) >>= fun _ => afterwards path))
  | rated (hdone : done = ratingUpdates score state first.users) (hpast : ¬IsRating c)

/-- Nobody has claimed the game and no rating has changed, or one flow has
claimed it and is the only one to change ratings. -/
inductive Claim (score : Int → Participant → List Participant → Int) (state : GameState)
    (paths : FlowId → Path) (first : World) (h : List Step) (p : Server) : Prop
  | unclaimed (hrated : p.world.rated = false) (hnone : updates h = [])
      (hidle : ∀ i, ¬IsRating (p.flow i))
  | claimed (i : FlowId) (hrated : p.world.rated = true) (hbegun : ∃ t ∈ h, t.label.flow = i)
      (honly : ∀ j, IsRating (p.flow j) → j = i)
      (hat : RatingAt score state first (paths i) (updates h) (p.flow i))

/-- After the rating a path changes no ratings. -/
theorem not_isRating_afterwards (path : Path) : ¬IsRating (afterwards path) := by
  rintro (⟨userIds, k, hcall⟩ | ⟨update, k, hcall⟩)
  · cases path <;> cases hcall
  · cases path <;> cases hcall

theorem not_isRating_done : ¬IsRating (.done ()) := not_isRating_afterwards .handler

/-- Before the claim a path changes no ratings. -/
theorem not_isRating_rateIfRanked (hfinished : state.status = .finished)
    (found : Option Session) : ¬IsRating (rateIfRanked score state found) := by
  rintro (⟨userIds, k, hcall⟩ | ⟨update, k, hcall⟩)
  all_goals
    cases found with
    | none => cases hcall
    | some session =>
        simp only [rateIfRanked, applyForFinishedGame, hfinished, ne_eq, not_true_eq_false,
          if_false] at hcall
        split at hcall <;> cases hcall

theorem not_isRating_finishSession (hfinished : state.status = .finished) (path : Path) :
    ¬IsRating (finishSession score state path) := by
  rintro (⟨userIds, k, hcall⟩ | ⟨update, k, hcall⟩)
  all_goals
    cases path with
    | handler => cases hcall
    | scheduler =>
        simp only [finishSession, finishFromScheduler, applyForFinishedGame, hfinished, ne_eq,
          not_true_eq_false, if_false] at hcall
        cases hcall

/-- With these updates to come the flow is between two of them, or past the
last one. -/
theorem RatingAt.of_todo {path : Path} {done todo : List RatingUpdate}
    (hdone : done ++ todo = ratingUpdates score state first.users) :
    RatingAt score state first path done (updateRatings todo >>= fun _ => afterwards path) := by
  cases todo with
  | nil => exact .rated (by rw [← hdone, List.append_nil]) (not_isRating_afterwards path)
  | cons update rest => exact .updating update rest hdone rfl

/-- Only the users of the game are looked up. -/
theorem ratingUpdates_found (users : UserId → Option UserRecord) :
    ratingUpdates score state (fun userId =>
      if userId ∈ (placements state.players).map (·.1) then users userId else none) =
      ratingUpdates score state users := by
  unfold ratingUpdates participantsOf
  congr 2
  refine List.filterMap_congr fun player hplayer => ?_
  obtain ⟨userId, placement⟩ := player
  have hmem : userId ∈ (placements state.players).map (·.1) := List.mem_map_of_mem hplayer
  simp only [if_pos hmem]

/-- A game of fewer than two players changes no ratings. -/
theorem ratingUpdates_nil (users : UserId → Option UserRecord)
    (hfew : (placements state.players).length < 2) : ratingUpdates score state users = [] := by
  have hless : (participantsOf (placements state.players) users).length < 2 :=
    lt_of_le_of_lt (List.length_filterMap_le ..) hfew
  rw [ratingUpdates, computeRatingChanges, if_pos hless]
  rfl

/-- The flow that moves is no longer rating, nobody else begins to, and no
rating is changed. -/
theorem Claim.idle {c : Flow Unit} (hclaim : Claim score state paths first h p)
    (hflows : p'.flow = Function.update p.flow e.flow c) (hwas : ¬IsRating (p.flow e.flow))
    (hnow : ¬IsRating c) (hrated : p'.world.rated = p.world.rated)
    (hupdates : updates (⟨p, e, p'⟩ :: h) = updates h) :
    Claim score state paths first (⟨p, e, p'⟩ :: h) p' := by
  have hthen : ∀ j, IsRating (p'.flow j) → j ≠ e.flow ∧ IsRating (p.flow j) := by
    intro j hj
    rw [hflows] at hj
    by_cases hje : j = e.flow
    · subst hje
      rw [Function.update_self] at hj
      exact absurd hj hnow
    · rw [Function.update_of_ne hje] at hj
      exact ⟨hje, hj⟩
  cases hclaim with
  | unclaimed hnot hnone hidle =>
      exact .unclaimed (hrated.trans hnot) (hupdates.trans hnone)
        fun i hi => hidle i (hthen i hi).2
  | claimed i hyes hbegun honly hat =>
      obtain ⟨t, ht, hi⟩ := hbegun
      refine .claimed i (hrated.trans hyes) ⟨t, List.mem_cons_of_mem _ ht, hi⟩
        (fun j hj => honly j (hthen j hj).2) ?_
      rw [hupdates, hflows]
      by_cases hie : i = e.flow
      · subst hie
        rw [Function.update_self]
        cases hat with
        | finding _ hwaits => exact absurd (.inl hwaits) hwas
        | updating update rest _ hwaits => exact absurd (.inr ⟨update, _, hwaits⟩) hwas
        | rated hdone _ => exact .rated hdone hnow
      · rw [Function.update_of_ne hie]
        exact hat

/-- A rating flow is the one that has claimed the game. -/
theorem Claim.of_isRating {i : FlowId} (hclaim : Claim score state paths first h p)
    (hrates : IsRating (p.flow i)) : p.world.rated = true ∧ (∀ j, IsRating (p.flow j) → j = i) ∧
      RatingAt score state first (paths i) (updates h) (p.flow i) := by
  cases hclaim with
  | unclaimed _ _ hidle => exact absurd hrates (hidle i)
  | claimed j hyes _ honly hat =>
      obtain rfl := honly i hrates
      exact ⟨hyes, honly, hat⟩

/-- The rating flow goes on, with these updates to come. -/
theorem claim_of_todo (todo : List RatingUpdate) (hyes : p'.world.rated = true)
    (honly : ∀ j, IsRating (p.flow j) → j = e.flow)
    (hflows : p'.flow = Function.update p.flow e.flow
      (updateRatings todo >>= fun _ => afterwards (paths e.flow)))
    (htodo : updates (⟨p, e, p'⟩ :: h) ++ todo = ratingUpdates score state first.users) :
    Claim score state paths first (⟨p, e, p'⟩ :: h) p' := by
  refine .claimed e.flow hyes ⟨_, List.mem_cons_self, rfl⟩ (fun j hj => ?_) ?_
  · by_contra hje
    rw [hflows, Function.update_of_ne hje] at hj
    exact hje (honly j hj)
  · rw [hflows, Function.update_self]
    exact .of_todo htodo

/-- The claim: the first to make it is going to rate. -/
theorem Claim.claiming {i : FlowId} {r : Bool} (hclaim : Claim score state paths first h p)
    (hexec : exec i p.world .claimForRating r p'.world) (hnot : ¬IsRating (p.flow i))
    (hflows : p'.flow = Function.update p.flow i
      (rateIfClaimed score state r >>= fun _ => afterwards (paths i)))
    (hsame : updates (⟨p, ⟨i, .claimForRating, r⟩, p'⟩ :: h) = updates h) :
    Claim score state paths first (⟨p, ⟨i, .claimForRating, r⟩, p'⟩ :: h) p' := by
  have hyes : p'.world.rated = true := by rw [hexec.2]
  have hanswer : r = !p.world.rated := hexec.1
  cases hclaim with
  | claimed j hrated hbegun honly hat =>
      rw [hrated] at hanswer
      subst hanswer
      exact Claim.idle (.claimed j hrated hbegun honly hat) hflows hnot (not_isRating_afterwards _)
        (hyes.trans hrated.symm) hsame
  | unclaimed hrated hnone hidle =>
      rw [hrated] at hanswer
      subst hanswer
      have honly : ∀ j, IsRating (p.flow j) → j = i := fun j hj => absurd hj (hidle j)
      simp only [Bool.not_false, rateIfClaimed, rateClaimed] at hflows
      by_cases hfew : (placements state.players).length < 2
      · rw [if_pos hfew] at hflows
        refine claim_of_todo [] hyes honly hflows ?_
        rw [hsame, hnone, ratingUpdates_nil first.users hfew]
        rfl
      · rw [if_neg hfew] at hflows
        refine .claimed i hyes ⟨_, List.mem_cons_self, rfl⟩ (fun j hj => ?_) ?_
        · by_contra hji
          rw [hflows, Function.update_of_ne hji] at hj
          exact hji (honly j hj)
        · rw [hflows, Function.update_self]
          exact .finding (hsame.trans hnone) ⟨_, _, rfl⟩

theorem Claim.step (hfinished : state.status = .finished)
    (hrun : Runs score state paths first h p) (hstep : Pool.Step exec p e p')
    (hclaim : Claim score state paths first h p) :
    Claim score state paths first (⟨p, e, p'⟩ :: h) p' := by
  obtain ⟨k, hflow, hflows⟩ := hstep.call
  have hgoes := hrun.goes hfinished hflow
  have hexec := hstep.exec
  have hupdates := updates_cons ⟨p, e, p'⟩ h
  obtain ⟨i, op, r⟩ := e
  cases op with
  | markFinished =>
      refine hclaim.idle hflows ?_ ?_ (exec_rated hexec (by simp))
        (by rw [hupdates]; simp [updateOf])
      · rw [hflow]
        rintro (⟨_, _, hcall⟩ | ⟨_, _, hcall⟩) <;> cases hcall
      · rcases hgoes with ⟨-, rfl⟩ | ⟨-, hdone⟩
        · exact not_isRating_rateIfRanked hfinished r
        · rw [hdone]
          exact not_isRating_done
  | claimForRating =>
      refine hclaim.claiming hexec ?_ (hflows.trans (by rw [hgoes r]))
        (by rw [hupdates]; simp [updateOf])
      rw [hflow]
      rintro (⟨_, _, hcall⟩ | ⟨_, _, hcall⟩) <;> cases hcall
  | findByIds userIds =>
      obtain ⟨hrated, honly, hat⟩ := hclaim.of_isRating (i := i) (.inl ⟨_, _, hflow⟩)
      obtain ⟨rfl, hgo⟩ := hgoes
      have hnone : updates h = [] := by
        cases hat with
        | finding hdone _ => exact hdone
        | updating update rest _ hwaits => cases hflow.symm.trans hwaits
        | rated _ hpast => exact absurd (.inl ⟨_, _, hflow⟩) hpast
      have husers : p.world.users = first.users := by rw [hrun.users, hnone]; rfl
      refine claim_of_todo _ (exec_keeps_rated hexec hrated) honly
        (hflows.trans (by rw [hgo])) ?_
      rw [hupdates, hnone, show r = _ from hexec.1, ratingUpdates_found, husers]
      rfl
  | updateRating update =>
      obtain ⟨hrated, honly, hat⟩ := hclaim.of_isRating (i := i) (.inr ⟨_, _, hflow⟩)
      cases hat with
      | finding _ hwaits =>
          obtain ⟨_, _, hwaits⟩ := hwaits
          cases hflow.symm.trans hwaits
      | rated _ hpast => exact absurd (.inr ⟨_, _, hflow⟩) hpast
      | updating _ rest hdone hwaits =>
          cases hflow.symm.trans hwaits
          refine claim_of_todo rest (exec_keeps_rated hexec hrated) honly hflows ?_
          rw [hupdates, ← hdone]
          simp [updateOf]

theorem Runs.claim (hfinished : state.status = .finished) (hplaying : Playing first)
    (hrun : Runs score state paths first h p) : Claim score state paths first h p := by
  induction hrun with
  | start hs =>
      obtain ⟨hworld, hflow⟩ := hs
      refine .unclaimed (by rw [hworld]; exact hplaying.rated) rfl fun i => ?_
      rw [hflow]
      exact not_isRating_finishSession hfinished (paths i)
  | next hr hstep ih => exact ih.step hfinished hr hstep

/-! ## the marks -/

/-- What the session's status, the game's flag and the waiting paths say
about what has happened. -/
structure Marks (paths : FlowId → Path) (first : World) (h : List Step) (p : Server) : Prop where
  /-- A player's path only claims the game of a ranked session. -/
  claims : ∀ i k, p.flow i = .call .claimForRating k → paths i = .handler →
    first.session.ranked = true
  cause : p.world.rated = true →
    first.session.ranked = true ∨ ∃ t ∈ h, paths t.label.flow = .scheduler
  scheduled : ∀ t ∈ h, paths t.label.flow = .scheduler → p.world.rated = true
  handled : ∀ t ∈ h, paths t.label.flow = .handler → p.world.session.status ≠ .inProgress
  /-- Once a ranked session is finished, its game was claimed, or is going
  to be. -/
  pending : p.world.session.status ≠ .inProgress → first.session.ranked = true →
    p.world.rated = true ∨ ∃ i k, (∃ t ∈ h, t.label.flow = i) ∧ p.flow i = .call .claimForRating k

/-- After the rating a path does not claim the game. -/
theorem todo_ne_claim (path : Path) (todo : List RatingUpdate) (k : Bool → Flow Unit) :
    (updateRatings todo >>= fun _ => afterwards path) ≠ .call .claimForRating k := by
  cases todo with
  | nil => cases path <;> exact fun hcall => nomatch hcall
  | cons update rest => exact fun hcall => nomatch hcall

theorem rateIfClaimed_ne_claim (path : Path) (claimed : Bool) (k : Bool → Flow Unit) :
    (rateIfClaimed score state claimed >>= fun _ => afterwards path) ≠
      .call .claimForRating k := by
  cases claimed with
  | false => exact todo_ne_claim path [] k
  | true =>
      simp only [rateIfClaimed, rateClaimed]
      split
      · exact todo_ne_claim path [] k
      · exact fun hcall => nomatch hcall

/-- A path is at the claim after its look at the session only. -/
theorem at_claim (hfinished : state.status = .finished)
    (hrun : Runs score state paths first h p) (hstep : Pool.Step exec p e p')
    {k : Bool → Flow Unit} (hnow : p'.flow e.flow = .call .claimForRating k) :
    first.session.ranked = true := by
  obtain ⟨k', hflow, hflows⟩ := hstep.call
  have hgoes := hrun.goes hfinished hflow
  have hexec := hstep.exec
  obtain ⟨i, op, r⟩ := e
  rw [hflows, Function.update_self] at hnow
  cases op with
  | markFinished =>
      rcases hgoes with ⟨-, rfl⟩ | ⟨-, hdone⟩
      · obtain ⟨-, hnone, -⟩ | ⟨-, hsome, -⟩ := exec_markFinished hexec
        · rw [show r = none from hnone] at hnow
          cases hnow
        · rw [show r = some (p.world.session.withStatus .finished) from hsome] at hnow
          simp only [rateIfRanked] at hnow
          split at hnow
          · rename_i hranked
            rw [← hrun.ranked]
            exact hranked
          · cases hnow
      · rw [hdone] at hnow
        cases hnow
  | claimForRating =>
      exact absurd ((hgoes r).symm.trans hnow) (rateIfClaimed_ne_claim _ _ _)
  | findByIds userIds =>
      exact absurd ((hgoes.2 r).symm.trans hnow) (todo_ne_claim _ _ _)
  | updateRating update =>
      obtain ⟨rest, hrest⟩ := hgoes
      exact absurd ((hrest r).symm.trans hnow) (todo_ne_claim _ _ _)

def firstOp : Path → Op
  | .handler => .markFinished
  | .scheduler => .claimForRating

/-- A flow that is past its first operation has begun. -/
theorem Runs.begun (hfinished : state.status = .finished)
    (hrun : Runs score state paths first h p) {i : FlowId} {op : Op} {k : op.Ans → Flow Unit}
    (hflow : p.flow i = .call op k) (hpast : op ≠ firstOp (paths i)) :
    ∃ t ∈ h, t.label.flow = i := by
  by_contra hnot
  have hcode := Pool.Runs.unbegun hrun (i := i) fun t ht hi => hnot ⟨t, ht, hi⟩
  rw [hflow] at hcode
  apply hpast
  cases hpath : paths i with
  | handler =>
      rw [hpath] at hcode
      cases hcode
      rfl
  | scheduler =>
      simp only [hpath, finishSession, finishFromScheduler, applyForFinishedGame, hfinished, ne_eq,
        not_true_eq_false, if_false] at hcode
      cases hcode
      rfl

/-- A step is the first of its flow, or the flow had begun. -/
theorem Runs.first_or_begun (hfinished : state.status = .finished)
    (hrun : Runs score state paths first h p) (hstep : Pool.Step exec p e p') :
    e.op = firstOp (paths e.flow) ∨ ∃ t ∈ h, t.label.flow = e.flow := by
  obtain ⟨k, hflow, -⟩ := hstep.call
  by_cases hop : e.op = firstOp (paths e.flow)
  · exact .inl hop
  · exact .inr (hrun.begun hfinished hflow hop)

/-- The step that finishes a ranked session is followed by the claim, unless
the scheduler has claimed the game already. -/
theorem Marks.pending_finishing (hfinished : state.status = .finished)
    (hrun : Runs score state paths first h p) (hstep : Pool.Step exec p e p')
    (hmarks : Marks paths first h p) (hbefore : p.world.session.status = .inProgress)
    (hended : p'.world.session.status ≠ .inProgress) (hranked : first.session.ranked = true) :
    p.world.rated = true ∨ ∃ k, p'.flow e.flow = .call .claimForRating k := by
  have hexec := hstep.exec
  have hfirst := hrun.first_or_begun hfinished hstep
  obtain ⟨k, hflow, hflows⟩ := hstep.call
  have hgoes := hrun.goes hfinished hflow
  obtain ⟨i, op, r⟩ := e
  by_cases hop : op = .markFinished
  · cases hop
    obtain ⟨hnot, -⟩ | ⟨-, hsome, -⟩ := exec_markFinished hexec
    · exact absurd hbefore hnot
    rcases hgoes with ⟨hpath, rfl⟩ | ⟨hpath, -⟩
    · right
      have hsession : p.world.session.ranked = true := hrun.ranked.trans hranked
      refine ⟨rateIfClaimed score state, ?_⟩
      rw [hflows, Function.update_self,
        show r = some (p.world.session.withStatus .finished) from hsome]
      simp only [rateIfRanked, Session.withStatus, hsession, if_true, applyForFinishedGame,
        hfinished, ne_eq, not_true_eq_false, if_false]
      rfl
    · left
      rw [show paths i = _ from hpath] at hfirst
      rcases hfirst with hop | ⟨t, ht, hi⟩
      · cases hop
      · exact hmarks.scheduled t ht (by rw [hi]; exact hpath)
  · rw [exec_session hexec hop] at hended
    exact absurd hbefore hended

theorem Marks.step (hfinished : state.status = .finished)
    (hrun : Runs score state paths first h p) (hstep : Pool.Step exec p e p')
    (hmarks : Marks paths first h p) : Marks paths first (⟨p, e, p'⟩ :: h) p' := by
  have hexec := hstep.exec
  have hfirst := hrun.first_or_begun hfinished hstep
  obtain ⟨k, hflow, hflows⟩ := hstep.call
  constructor
  · intro i k' hnow hpath
    by_cases hi : i = e.flow
    · subst hi
      exact at_claim hfinished hrun hstep hnow
    · rw [hflows, Function.update_of_ne hi] at hnow
      exact hmarks.claims i k' hnow hpath
  · intro hyes
    by_cases hop : e.op = .claimForRating
    · cases hpath : paths e.flow with
      | handler =>
          obtain ⟨i, op, r⟩ := e
          cases hop
          exact .inl (hmarks.claims i k hflow hpath)
      | scheduler => exact .inr ⟨_, List.mem_cons_self, hpath⟩
    · rw [exec_rated hexec hop] at hyes
      rcases hmarks.cause hyes with hranked | ⟨t, ht, hpath⟩
      · exact .inl hranked
      · exact .inr ⟨t, List.mem_cons_of_mem _ ht, hpath⟩
  · intro t ht hpath
    rcases List.mem_cons.mp ht with rfl | ht
    · rw [show paths e.flow = _ from hpath] at hfirst
      rcases hfirst with hop | ⟨t, ht, hi⟩
      · obtain ⟨i, op, r⟩ := e
        cases hop
        rw [hexec.2]
      · exact exec_keeps_rated hexec (hmarks.scheduled t ht (by rw [hi]; exact hpath))
    · exact exec_keeps_rated hexec (hmarks.scheduled t ht hpath)
  · intro t ht hpath
    rcases List.mem_cons.mp ht with rfl | ht
    · rw [show paths e.flow = _ from hpath] at hfirst
      rcases hfirst with hop | ⟨t, ht, hi⟩
      · obtain ⟨i, op, r⟩ := e
        cases hop
        exact markFinished_ends hexec
      · exact exec_keeps_ended hexec (hmarks.handled t ht (by rw [hi]; exact hpath))
    · exact exec_keeps_ended hexec (hmarks.handled t ht hpath)
  · intro hended hranked
    by_cases hbefore : p.world.session.status = .inProgress
    · rcases hmarks.pending_finishing hfinished hrun hstep hbefore hended hranked with
        hyes | ⟨k', hnext⟩
      · exact .inl (exec_keeps_rated hexec hyes)
      · exact .inr ⟨e.flow, k', ⟨_, List.mem_cons_self, rfl⟩, hnext⟩
    · rcases hmarks.pending hbefore hranked with hyes | ⟨i, k', ⟨t, ht, hbegun⟩, hwaits⟩
      · exact .inl (exec_keeps_rated hexec hyes)
      · by_cases hi : i = e.flow
        · obtain ⟨j, op, r⟩ := e
          obtain rfl := hi
          obtain ⟨rfl, -⟩ := Co.call.inj (hflow.symm.trans hwaits)
          left
          rw [hexec.2]
        · right
          refine ⟨i, k', ⟨t, List.mem_cons_of_mem _ ht, hbegun⟩, ?_⟩
          rw [hflows, Function.update_of_ne hi]
          exact hwaits

theorem Runs.marks (hfinished : state.status = .finished) (hplaying : Playing first)
    (hrun : Runs score state paths first h p) : Marks paths first h p := by
  induction hrun with
  | start hs =>
      obtain ⟨hworld, hflow⟩ := hs
      constructor
      · intro i k hnow hpath
        simp only [hflow, hpath] at hnow
        cases hnow
      · intro hyes
        rw [hworld, hplaying.rated] at hyes
        cases hyes
      · exact fun t ht => absurd ht List.not_mem_nil
      · exact fun t ht => absurd ht List.not_mem_nil
      · intro hended
        rw [hworld, hplaying.status] at hended
        exact absurd rfl hended
  | next hr hstep ih => exact ih.step hfinished hr hstep

/-! ## the law -/

/-- What the updates leave of a user that none of them is about. -/
theorem foldl_setRating_of_notMem {userId : UserId} (todo : List RatingUpdate)
    (users : UserId → Option UserRecord) (hnot : userId ∉ todo.map (·.userId)) :
    todo.foldl setRating users userId = users userId := by
  induction todo generalizing users with
  | nil => rfl
  | cons update rest ih =>
      rw [List.map_cons, List.mem_cons, not_or] at hnot
      rw [List.foldl_cons, ih _ hnot.2, setRating, Function.update_of_ne hnot.1]

/-- When no two updates are about one user, the updates set what they
say. -/
theorem foldl_setRating_of_mem {todo : List RatingUpdate} {update : RatingUpdate}
    (users : UserId → Option UserRecord) (hnodup : (todo.map (·.userId)).Nodup)
    (hmem : update ∈ todo) {user : UserRecord} (huser : users update.userId = some user) :
    todo.foldl setRating users update.userId = some ⟨update.rating, update.gamesPlayed,
      update.calibrationComplete⟩ := by
  induction todo generalizing users with
  | nil => exact absurd hmem List.not_mem_nil
  | cons head rest ih =>
      rw [List.map_cons, List.nodup_cons] at hnodup
      rw [List.foldl_cons]
      rcases List.mem_cons.mp hmem with rfl | hmem
      · rw [foldl_setRating_of_notMem rest _ hnodup.1, setRating, Function.update_self, huser]
        rfl
      · have hother : update.userId ≠ head.userId := by
          intro hsame
          exact hnodup.1 (hsame ▸ List.mem_map_of_mem hmem)
        refine ih _ hnodup.2 hmem ?_
        rw [setRating, Function.update_of_ne hother]
        exact huser

/-- An update is about a user of the game, and counts one game more. -/
theorem mem_ratingUpdates {users : UserId → Option UserRecord} {update : RatingUpdate}
    (hmem : update ∈ ratingUpdates score state users) :
    ∃ user, users update.userId = some user ∧ update.gamesPlayed = user.gamesPlayed + 1 := by
  obtain ⟨result, hresult, rfl⟩ := List.mem_map.mp hmem
  obtain ⟨player, hplayer, rfl⟩ := of_mem_computeRatingChanges hresult
  obtain ⟨⟨userId, placement⟩, -, hfound⟩ := List.mem_filterMap.mp hplayer
  obtain ⟨user, huser, rfl⟩ := Option.map_eq_some_iff.mp hfound
  exact ⟨user, huser, rfl⟩

theorem map_userId_ratingUpdates (users : UserId → Option UserRecord) :
    (ratingUpdates score state users).map (·.userId) =
      (computeRatingChanges score (participantsOf (placements state.players) users)).map
        (·.userId) := by
  rw [ratingUpdates, List.map_map]
  rfl

/-- The updates of a game with two participants or more change the users. -/
theorem foldl_ratingUpdates_ne {users : UserId → Option UserRecord}
    (htwo : 2 ≤ (participantsOf (placements state.players) users).length) :
    (ratingUpdates score state users).foldl setRating users ≠ users := by
  intro hsame
  obtain ⟨player, hplayer⟩ := List.exists_mem_of_length_pos (Nat.zero_lt_of_lt htwo)
  have hkey : player.userId ∈ (ratingUpdates score state users).map (·.userId) := by
    rw [map_userId_ratingUpdates]
    exact (mem_computeRatingChanges htwo).mpr ⟨player, hplayer, rfl⟩
  obtain ⟨update, hupdate, -⟩ := List.mem_map.mp hkey
  obtain ⟨user, huser, hgames⟩ := mem_ratingUpdates hupdate
  have hnodup : ((ratingUpdates score state users).map (·.userId)).Nodup := by
    rw [map_userId_ratingUpdates]
    exact nodup_computeRatingChanges _ _
  have hset := foldl_setRating_of_mem users hnodup hupdate huser
  rw [hsame, huser] at hset
  have hrecord : user.gamesPlayed = update.gamesPlayed :=
    congrArg UserRecord.gamesPlayed (Option.some.inj hset)
  omega

/-- Once the paths that have begun have returned, the updates are those of
the game if it was claimed, and there are none if it was not. -/
theorem Runs.settled (hfinished : state.status = .finished) (hplaying : Playing first)
    (hrun : Runs score state paths first h p) (hquiet : ∀ i, ¬Pool.InFlight h p i) :
    (p.world.rated = false ∧ updates h = []) ∨
      (p.world.rated = true ∧ updates h = ratingUpdates score state first.users) := by
  cases hrun.claim hfinished hplaying with
  | unclaimed hrated hnone _ => exact .inl ⟨hrated, hnone⟩
  | claimed i hrated hbegun _ hat =>
      have hdone : ∃ u, p.flow i = .done u := by
        by_contra hnot
        exact hquiet i ⟨hbegun, fun u hu => hnot ⟨u, hu⟩⟩
      obtain ⟨u, hdone⟩ := hdone
      cases hat with
      | finding _ hwaits =>
          obtain ⟨_, _, hwaits⟩ := hwaits
          cases hdone.symm.trans hwaits
      | updating _ _ _ hwaits => cases hdone.symm.trans hwaits
      | rated hall _ => exact .inr ⟨hrated, hall⟩

/-- The game of a ranked session was claimed, if a path of it has begun and
none is in flight. -/
theorem Runs.rated (hfinished : state.status = .finished) (hplaying : Playing first)
    (hrun : Runs score state paths first h p) (hbegun : h ≠ [])
    (hquiet : ∀ i, ¬Pool.InFlight h p i) (hranked : first.session.ranked = true) :
    p.world.rated = true := by
  have hmarks := hrun.marks hfinished hplaying
  obtain ⟨t, ht⟩ := List.exists_mem_of_ne_nil h hbegun
  cases hpath : paths t.label.flow with
  | scheduler => exact hmarks.scheduled t ht hpath
  | handler =>
      rcases hmarks.pending (hmarks.handled t ht hpath) hranked with hyes | ⟨i, k, hi, hwaits⟩
      · exact hyes
      · refine absurd ⟨hi, fun u hu => ?_⟩ (hquiet i)
        cases hu.symm.trans hwaits

end Runs

section Law

variable {score : Int → Participant → List Participant → Int} {state : GameState}
  {paths : FlowId → Path} {first : World} {h : List Step} {p : Server}

/-- What is claimed of the ratings: those of a ranked session are updated
once for every participant, those of another one are left alone. -/
structure RatedOnce (score : Int → Participant → List Participant → Int) (state : GameState)
    (first : World) (h : List Step) (p : Server) : Prop where
  updates : first.session.ranked = true → updates h = ratingUpdates score state first.users
  once : first.session.ranked = true →
    2 ≤ (participantsOf (placements state.players) first.users).length →
    ∀ player ∈ participantsOf (placements state.players) first.users,
      ((Finish.updates h).map (·.userId)).count player.userId = 1
  unranked : first.session.ranked = false → p.world.users = first.users

/-- Whichever finish paths of a finished game run, and however they
interleave: when all that have begun have returned, the ratings were changed
once if the session is ranked and not at all if it is not, exactly if the
session is ranked, or no path of the scheduler has run, or there are not
two participants to rate. -/
theorem rated_exactly_once (hfinished : state.status = .finished) (hplaying : Playing first)
    (hrun : Runs score state paths first h p) (hbegun : h ≠ [])
    (hquiet : ∀ i, ¬Pool.InFlight h p i) :
    RatedOnce score state first h p ↔
      first.session.ranked = true ∨ (∀ t ∈ h, paths t.label.flow = .handler) ∨
        (participantsOf (placements state.players) first.users).length < 2 := by
  have husers := hrun.users
  have hmarks := hrun.marks hfinished hplaying
  cases hranked : first.session.ranked with
  | true =>
      refine iff_of_true ?_ (.inl rfl)
      have hrated := hrun.rated hfinished hplaying hbegun hquiet hranked
      obtain ⟨hnot, -⟩ | ⟨-, hall⟩ := hrun.settled hfinished hplaying hquiet
      · exact absurd (hrated.symm.trans hnot) nofun
      refine ⟨fun _ => hall, fun _ htwo player hplayer => ?_, fun hnot => ?_⟩
      · rw [hall, map_userId_ratingUpdates]
        exact List.count_eq_one_of_mem (nodup_computeRatingChanges _ _)
          ((mem_computeRatingChanges htwo).mpr ⟨player, hplayer, rfl⟩)
      · exact absurd (hranked.symm.trans hnot) nofun
  | false =>
      have hnever {P : Prop} : first.session.ranked = true → P := by
        rw [hranked]
        exact nofun
      constructor
      · intro honce
        by_contra hcond
        simp only [Bool.false_eq_true, false_or, not_or, not_lt, not_forall] at hcond
        obtain ⟨⟨t, ht, hpath⟩, htwo⟩ := hcond
        have hscheduled : paths t.label.flow = .scheduler := by
          cases hcase : paths t.label.flow with
          | handler => exact absurd hcase hpath
          | scheduler => rfl
        have hrated := hmarks.scheduled t ht hscheduled
        obtain ⟨hnot, -⟩ | ⟨-, hall⟩ := hrun.settled hfinished hplaying hquiet
        · exact absurd (hrated.symm.trans hnot) nofun
        rw [hall] at husers
        exact foldl_ratingUpdates_ne htwo (husers.symm.trans (honce.unranked hranked))
      · intro hcond
        refine ⟨hnever, hnever, fun _ => ?_⟩
        suffices hnone : Finish.updates h = [] by
          rw [husers, hnone]
          rfl
        obtain ⟨-, hnone⟩ | ⟨hrated, hall⟩ := hrun.settled hfinished hplaying hquiet
        · exact hnone
        rcases hcond with hyes | hhandlers | hfew
        · cases hyes
        · rcases hmarks.cause hrated with hyes | ⟨t, ht, hpath⟩
          · exact hnever hyes
          · exact absurd ((hhandlers t ht).symm.trans hpath) nofun
        · rw [hall, ratingUpdates, computeRatingChanges, if_pos hfew]
          rfl

end Law

section Replays

/-- The rounded float of two players of the same rating: each was expected
to score a half. -/
def evenScore (k : Int) (player : Participant) (_ : List Participant) : Int :=
  if player.placement = 1 then k / 2 else -(k / 2)

/-- Both paths of a ranked session have run, and the scheduler's has claimed
the game. -/
theorem rated_exactly_once_ranked : ∃ calls state h p, Play calls state ∧
    Runs evenScore state (pathsOf [.handler]) (playing true) h p ∧
    RatedOnce evenScore state (playing true) h p := by
  obtain ⟨calls, state, hplay, -, hcheck⟩ := play_of_reaches (duo 1500)
    [callAt 0 [] (.surrender 1)]
    (fun _ state => decide (state.status = .finished) && Pool.Replays perform
      ⟨playing true, fun i => finishSession evenScore state (pathsOf [.handler] i)⟩
      ([0, 1, 0, 1, 1, 1, 1].map (·, ())) fun h p => !h.isEmpty && Pool.settled h p)
    (by decide) (by decide +kernel)
  obtain ⟨hfinished, hreplays⟩ := Bool.and_eq_true_iff.mp hcheck
  obtain ⟨h, p, hrun, hdone⟩ := runs_of_replays _ _ _ _ _ _ hreplays
  obtain ⟨hbegun, hsettled⟩ := Bool.and_eq_true_iff.mp hdone
  refine ⟨calls, state, h, p, hplay, hrun, ?_⟩
  exact (rated_exactly_once (of_decide_eq_true hfinished) ⟨rfl, rfl⟩ hrun (by simpa using hbegun)
    (Pool.not_inFlight_of_settled hsettled)).mpr (.inl rfl)

/-- The scheduler's path rates the game of a session that is not ranked. -/
theorem rated_though_unranked : ∃ calls state h p, Play calls state ∧ state.status = .finished ∧
    Runs evenScore state (pathsOf []) (playing false) h p ∧ (∀ i, ¬Pool.InFlight h p i) ∧
    (playing false).users 1 = some ⟨800, 0, false⟩ ∧
    p.world.users 1 = some ⟨740, 1, false⟩ := by
  obtain ⟨calls, state, hplay, -, hcheck⟩ := play_of_reaches (duo 1500)
    [callAt 0 [] (.surrender 1)]
    (fun _ state => decide (state.status = .finished) && Pool.Replays perform
      ⟨playing false, fun i => finishSession evenScore state (pathsOf [] i)⟩
      ([0, 0, 0, 0, 0].map (·, ())) fun h p => Pool.settled h p &&
        decide (p.world.users 1 = some ⟨740, 1, false⟩))
    (by decide) (by decide +kernel)
  obtain ⟨hfinished, hreplays⟩ := Bool.and_eq_true_iff.mp hcheck
  obtain ⟨h, p, hrun, hdone⟩ := runs_of_replays _ _ _ _ _ _ hreplays
  obtain ⟨hsettled, husers⟩ := Bool.and_eq_true_iff.mp hdone
  exact ⟨calls, state, h, p, hplay, of_decide_eq_true hfinished, hrun,
    Pool.not_inFlight_of_settled hsettled, rfl, of_decide_eq_true husers⟩

end Replays

end Monopoly.Finish
