import Monopoly.Spec.Accounts
import Monopoly.Spec.Passing
import Monopoly.Spec.Play

/-!
# Monopoly.Spec.Estates

What the operations that move property do to the seats and to the records of
the spaces.  Nothing but distinct ids is assumed of the table: an operation
that returns has found every record it needed.
-/

namespace Monopoly

/-! ## the records of the spaces -/

/-- What is found for a position is `f` of what was found for it before. -/
structure Rewritten (f : SpaceOwnership → SpaceOwnership)
    (spaces spaces' : List SpaceOwnership) : Prop where
  positions : spaces'.map (·.position) = spaces.map (·.position)
  found : ∀ q, spaceAt spaces' q = (spaceAt spaces q).map f

section Spaces

variable {spaces spaces₁ spaces₂ : List SpaceOwnership} {f g : SpaceOwnership → SpaceOwnership}
  {pos : Nat} {o : SpaceOwnership} {owned : List Nat} {mode : GameMode}

theorem position_of_spaceAt (hat : spaceAt spaces pos = .ok o) : o.position = pos :=
  (spaceAt_found hat).choose_spec.2.2

theorem ownershipAt_of_spaceAt (hat : spaceAt spaces pos = .ok o) : ownershipAt spaces pos = o := by
  have hfind : spaces.find? (fun o => decide (o.position = pos)) = some o := by
    obtain ⟨i, hi, ha, hap⟩ := spaceAt_found hat
    cases hindex : spaces.findIdx? (fun o => decide (o.position = pos)) with
    | none => simp [spaceIndex, hindex, orRaise] at hi
    | some j =>
        obtain rfl : j = i := by simpa [spaceIndex, hindex, orRaise] using hi
        rw [List.find?_eq_bind_findIdx?_getElem?, hindex]
        exact ha
  rw [ownershipAt, hfind]
  rfl

/-- The records are told apart by their positions. -/
theorem Rewritten.congr (h : Rewritten f spaces spaces₁)
    (hfg : ∀ q o, spaceAt spaces q = .ok o → f o = g o) : Rewritten g spaces spaces₁ := by
  refine ⟨h.positions, fun q => (h.found q).trans ?_⟩
  cases hat : spaceAt spaces q with
  | error e => rfl
  | ok o => exact congrArg Except.ok (hfg q o hat)

theorem Rewritten.refl (spaces : List SpaceOwnership) : Rewritten id spaces spaces :=
  ⟨rfl, fun q => by cases spaceAt spaces q <;> rfl⟩

theorem Rewritten.trans (h : Rewritten f spaces spaces₁) (h' : Rewritten g spaces₁ spaces₂) :
    Rewritten (g ∘ f) spaces spaces₂ := by
  refine ⟨h'.positions.trans h.positions, fun q => ?_⟩
  rw [h'.found, h.found]
  cases spaceAt spaces q <;> rfl

theorem Rewritten.at (h : Rewritten f spaces spaces₁) (hat : spaceAt spaces pos = .ok o) :
    spaceAt spaces₁ pos = .ok (f o) := by
  rw [h.found, hat]
  rfl

/-- Where a record is found now, one was found before. -/
theorem Rewritten.back (h : Rewritten f spaces spaces₁) (hat : spaceAt spaces₁ pos = .ok o) :
    ∃ o₀, spaceAt spaces pos = .ok o₀ ∧ o = f o₀ := by
  rw [h.found] at hat
  cases hat₀ : spaceAt spaces pos with
  | error e => simp [hat₀, Except.map] at hat
  | ok o₀ => exact ⟨o₀, rfl, by simpa [hat₀, Except.map] using hat.symm⟩

theorem replaceSpace_rewrites (hat : spaceAt spaces pos = .ok o)
    (hf : (f o).position = o.position) :
    Ensures (replaceSpace spaces pos (f o)) (Rewritten (onListed [pos] f) spaces) := by
  have hpos := position_of_spaceAt hat
  refine ensures_iff.mpr fun spaces' hreplace => ?_
  obtain ⟨i, hset, hi, hfound⟩ := replaceSpace_at hat (hf.trans hpos)
  obtain rfl := Except.ok.inj (hreplace.symm.trans hset)
  have hpositions : (spaces.set i (f o)).map SpaceOwnership.position =
      spaces.map SpaceOwnership.position := map_key_set hi hf
  refine ⟨hpositions, fun q => ?_⟩
  rw [hfound]
  by_cases hq : q = pos
  · subst hq
    rw [if_pos rfl, hat]
    exact congrArg Except.ok (if_pos (by simp [hpos])).symm
  · rw [if_neg hq]
    cases hatq : spaceAt spaces q with
    | error e => rfl
    | ok o' =>
        have hne : o'.position ∉ [pos] := by
          rw [position_of_spaceAt hatq]
          simpa using hq
        exact congrArg Except.ok (if_neg hne).symm

theorem Rewritten.others (h : Rewritten (onListed owned f) spaces spaces₁) {q : Nat}
    (hq : q ∉ owned) : spaceAt spaces₁ q = spaceAt spaces q := by
  rw [h.found]
  cases hat : spaceAt spaces q with
  | error e => rfl
  | ok o =>
      have hne : o.position ∉ owned := by
        rw [position_of_spaceAt hat]
        exact hq
      exact congrArg Except.ok (if_neg hne)

theorem onListed_cons (hf : ∀ o, (f o).position = o.position) (hff : ∀ o, f (f o) = f o)
    (pos : Nat) (owned : List Nat) (o : SpaceOwnership) :
    onListed owned f (onListed [pos] f o) = onListed (pos :: owned) f o := by
  simp only [onListed, List.mem_cons, List.not_mem_nil, or_false]
  by_cases ho : o.position = pos
  · simp only [if_pos ho, hf, if_pos (Or.inl ho), hff, ite_self]
  · simp only [ho, if_false, false_or]

/-- One more position of a loop over positions. -/
theorem Rewritten.cons (hf : ∀ o, (f o).position = o.position) (hff : ∀ o, f (f o) = f o)
    (h : Rewritten (onListed [pos] f) spaces spaces₁)
    (h' : Rewritten (onListed owned f) spaces₁ spaces₂) :
    Rewritten (onListed (pos :: owned) f) spaces spaces₂ :=
  (h.trans h').congr fun _ o _ => onListed_cons hf hff pos owned o

theorem Rewritten.nil (spaces : List SpaceOwnership) :
    Rewritten (onListed [] f) spaces spaces :=
  (Rewritten.refl spaces).congr fun _ _ _ => (if_neg List.not_mem_nil).symm

theorem getBoardSpace_square {space : BoardSpace} (h : getBoardSpace pos mode = .ok space) :
    space = squareAt mode pos := by
  unfold getBoardSpace at h
  cases hfind : (boardForMode mode).find? fun space => decide (space.position = pos) with
  | none => simp [hfind, orRaise] at h
  | some found =>
      obtain rfl : found = space := by simpa [hfind, orRaise] using h
      rw [squareAt, hfind]
      rfl

/-- Handing spaces over leaves their mortgages. -/
theorem Rewritten.interestOn {owner : PlayerId} {positions : List Nat}
    (h : Rewritten (onListed positions (grant owner)) spaces spaces₁)
    (hfound : ∀ q ∈ owned, ∃ o, spaceAt spaces q = .ok o) :
    interestOn mode spaces₁ owned = interestOn mode spaces owned := by
  unfold Monopoly.interestOn
  congr 1
  refine List.map_congr_left fun q hq => ?_
  obtain ⟨o, hat⟩ := hfound q hq
  have hkept : (onListed positions (grant owner) o).isMortgaged = o.isMortgaged := by
    unfold onListed
    split <;> rfl
  rw [ownershipAt_of_spaceAt (h.at hat), ownershipAt_of_spaceAt hat, hkept]

/-- A record is on file for each of the positions. -/
def OnFile (spaces : List SpaceOwnership) (owned : List Nat) : Prop :=
  ∀ q ∈ owned, ∃ o, spaceAt spaces q = .ok o

theorem OnFile.cons (hat : spaceAt spaces pos = .ok o) (h : Rewritten f spaces spaces₁)
    (hrest : OnFile spaces₁ owned) : OnFile spaces (pos :: owned) := by
  refine List.forall_mem_cons.mpr ⟨⟨o, hat⟩, fun q hq => ?_⟩
  obtain ⟨o', hat'⟩ := hrest q hq
  obtain ⟨o₀, hat₀, -⟩ := h.back hat'
  exact ⟨o₀, hat₀⟩

theorem Rewritten.onFile (h : Rewritten f spaces spaces₁) (hfile : OnFile spaces owned) :
    OnFile spaces₁ owned := fun q hq =>
  have ⟨o, hat⟩ := hfile q hq
  ⟨f o, h.at hat⟩

/-! ## the property loops -/

theorem transferToCreditor_rewrites (mode : GameMode) (creditorId : PlayerId) (owned : List Nat)
    (spaces : List SpaceOwnership) (creditor : PlayerState) :
    Ensures (transferToCreditor mode creditorId owned spaces creditor) fun r =>
      Rewritten (onListed owned (grant creditorId)) spaces r.1 ∧ OnFile spaces owned ∧
      r.2 = debit (interestOn mode spaces owned) creditor := by
  induction owned generalizing spaces creditor with
  | nil => exact ⟨.nil spaces, by simp [OnFile], by simp [interestOn, debit]⟩
  | cons pos rest ih =>
      refine .after fun ownership hat => ?_
      refine (replaceSpace_rewrites (f := grant creditorId) hat rfl).seq fun spaces₁ h₁ => ?_
      have hown := ownershipAt_of_spaceAt hat
      -- what the rest of the loop does, once `pos` is charged for
      have hrest : ∀ c charge, c = debit charge creditor → charge = (if ownership.isMortgaged
          then (mortgageInterest ((squareAt mode pos).mortgageValue.getD 0) : Int) else 0) →
          Ensures (transferToCreditor mode creditorId rest spaces₁ c) fun r =>
            Rewritten (onListed (pos :: rest) (grant creditorId)) spaces r.1 ∧
            OnFile spaces (pos :: rest) ∧
            r.2 = debit (interestOn mode spaces (pos :: rest)) creditor := by
        rintro c charge rfl rfl
        refine (ih spaces₁ _).imp fun r hr => ?_
        obtain ⟨h₂, hfile, hpaid⟩ := hr
        have hall : OnFile spaces (pos :: rest) := .cons hat h₁ hfile
        refine ⟨.cons (fun _ => rfl) (fun _ => rfl) h₁ h₂, hall, hpaid.trans ?_⟩
        rw [h₁.interestOn fun q hq => hall q (List.mem_cons_of_mem _ hq)]
        simp only [interestOn, List.map_cons, List.sum_cons, hown, debit, Int.sub_sub]
      simp only [sat_ite]
      refine ⟨fun hmortgaged => .after fun boardSpace hspace => ?_, fun hfree => ?_⟩
      · obtain rfl := getBoardSpace_square hspace
        exact hrest _ _ rfl (if_pos hmortgaged).symm
      · exact hrest _ _ (debit_zero creditor).symm (if_neg hfree).symm

/-- The houses on the listed spaces. -/
def housesOn (spaces : List SpaceOwnership) (owned : List Nat) : Nat :=
  (owned.map fun q => (ownershipAt spaces q).houses).sum

/-- The hotels on the listed spaces. -/
def hotelsOn (spaces : List SpaceOwnership) (owned : List Nat) : Nat :=
  owned.countP fun q => (ownershipAt spaces q).hasHotel

/-- The loop of a surrender clears the spaces and gives their buildings to
the bank, where none of them has houses beside its hotel. -/
theorem clearSpaces_rewrites {owned : List Nat} (hnodup : owned.Nodup)
    {spaces : List SpaceOwnership} (hproper : ∀ q ∈ owned, ∀ o, spaceAt spaces q = .ok o →
      o.hasHotel = true → o.houses = 0) (bankHouses bankHotels : Int) :
    Ensures (clearSpaces owned spaces bankHouses bankHotels) fun r =>
      Rewritten (onListed owned release) spaces r.1 ∧ OnFile spaces owned ∧
      r.2.1 = bankHouses + housesOn spaces owned ∧ r.2.2 = bankHotels + hotelsOn spaces owned := by
  induction owned generalizing spaces bankHouses bankHotels with
  | nil => exact ⟨.nil spaces, by simp [OnFile], by simp [housesOn], by simp [hotelsOn]⟩
  | cons pos rest ih =>
      obtain ⟨hnew, hnodup⟩ := List.nodup_cons.mp hnodup
      refine .after fun ownership hat => ?_
      refine (replaceSpace_rewrites (f := release) hat rfl).seq fun spaces₁ h₁ => ?_
      have hown := ownershipAt_of_spaceAt hat
      have hsame : ∀ q ∈ rest, spaceAt spaces₁ q = spaceAt spaces q := fun q hq =>
        h₁.others (by simpa using ne_of_mem_of_not_mem hq hnew)
      have hproper₁ : ∀ q ∈ rest, ∀ o, spaceAt spaces₁ q = .ok o →
          o.hasHotel = true → o.houses = 0 := by
        intro q hq o ho
        rw [hsame q hq] at ho
        exact hproper q (List.mem_cons_of_mem _ hq) o ho
      -- what the rest of the loop adds, the buildings of `pos` once returned
      have hrest : ∀ houses hotels, houses = bankHouses + ownership.houses →
          hotels = bankHotels + ownership.hasHotel.toNat →
          Ensures (clearSpaces rest spaces₁ houses hotels) fun r =>
            Rewritten (onListed (pos :: rest) release) spaces r.1 ∧ OnFile spaces (pos :: rest) ∧
            r.2.1 = bankHouses + housesOn spaces (pos :: rest) ∧
            r.2.2 = bankHotels + hotelsOn spaces (pos :: rest) := by
        rintro houses hotels rfl rfl
        refine (ih hnodup hproper₁ _ _).imp fun r hr => ?_
        obtain ⟨h₂, hfile, hhouses, hhotels⟩ := hr
        have hkept : ∀ q ∈ rest, ownershipAt spaces₁ q = ownershipAt spaces q := by
          intro q hq
          obtain ⟨o, ho⟩ := hfile q hq
          rw [ownershipAt_of_spaceAt ho, ownershipAt_of_spaceAt (hsame q hq ▸ ho)]
        have hhouses₁ : housesOn spaces₁ rest = housesOn spaces rest :=
          congrArg List.sum (List.map_congr_left fun q hq => by rw [hkept q hq])
        have hhotels₁ : hotelsOn spaces₁ rest = hotelsOn spaces rest :=
          List.countP_congr fun q hq => by rw [hkept q hq]
        refine ⟨.cons (fun _ => rfl) (fun _ => rfl) h₁ h₂, .cons hat h₁ hfile, ?_, ?_⟩
        · rw [hhouses, hhouses₁]
          simp only [housesOn, List.map_cons, List.sum_cons, hown]
          omega
        · rw [hhotels, hhotels₁]
          simp only [hotelsOn, List.countP_cons, hown]
          cases ownership.hasHotel with
          | false => simp
          | true =>
              simp
              omega
      split
      · rename_i hhotel
        refine hrest _ _ ?_ (by rw [hhotel]; rfl)
        rw [hproper pos List.mem_cons_self ownership hat hhotel]
        simp
      · rename_i hnone
        exact hrest _ _ rfl (by simp [hnone])

end Spaces

/-! ## without an eliminated player -/

/-- How the game goes on without the player `pid`, who sat at index `i`: it
is over and the one player left has won, or it is the turn of the next player
round the table who is in the game. -/
inductive GoesOn (s : GameState) (pid : PlayerId) (i : Nat) (s' : GameState) : Prop
  | won {w : PlayerState} : s.players.filter (isRecipient pid) = [w] →
      s'.status = .finished → s'.winnerId = some w.id → GoesOn s pid i s'
  | passed {next : PlayerState} {wrapped : Bool} :
      2 ≤ (s.players.filter (isRecipient pid)).length →
      nextAround (isRecipient pid) s.players i = some (next, wrapped) →
      s'.status = s.status → s'.winnerId = s.winnerId →
      s'.turn.currentPlayerId = next.id → s'.turn.phase = openingPhase next →
      s'.turn.turnNumber = s.turn.turnNumber + 1 →
      s'.turn.roundNumber = s.turn.roundNumber + (if wrapped then 1 else 0) →
      GoesOn s pid i s'

section Going

variable {s e m : GameState} {p : PlayerState} {pid : PlayerId} {i : Nat}
  {f : PlayerState → PlayerState}

/-- What an elimination leaves of the players: the ids, and everybody but
`pid` in the game as before, in jail or not as before. -/
structure TakenOut (pid : PlayerId) (f : PlayerState → PlayerState) : Prop where
  id : ∀ p, (f p).id = p.id
  active : ∀ p, inGame (f p) = isRecipient pid p
  jailed : ∀ p, p.id ≠ pid → (f p).jailStatus = p.jailStatus

theorem filter_seats (players : List PlayerState) (pid : PlayerId) :
    (seatsOf players).filter (isRecipient pid) = seatsOf (players.filter (isRecipient pid)) := by
  simp only [seatsOf, List.filter_map]
  rfl

/-- The survivors of an elimination are those who were in the game beside the
player. -/
theorem TakenOut.survivors (hf : TakenOut pid f) (hseats : e.seats = s.seats.map f) :
    survivors e.seats = (seatsOf (s.players.filter (isRecipient pid))).map f := by
  rw [survivors_eq, hseats, List.filter_map, show inGame ∘ f = isRecipient pid from
    funext hf.active, GameState.seats, filter_seats]

theorem TakenOut.nextAround (hf : TakenOut pid f) (hseats : e.seats = s.seats.map f) (i : Nat) :
    nextAround inGame e.seats i =
      (nextAround (isRecipient pid) s.players i).map fun found => (f found.1.bare, found.2) := by
  have hactive : inGame ∘ f ∘ PlayerState.bare = isRecipient pid :=
    funext fun p => hf.active p.bare
  rw [hseats, GameState.seats, seatsOf, List.map_map, nextAround_map (f ∘ PlayerState.bare),
    hactive]
  rfl

/-- What both eliminations end with: the game goes on without the player, and
no win is left to be found. -/
theorem goesOn_of_takenOut (hf : TakenOut pid f) (hseats : e.seats = s.seats.map f)
    (hstatus : e.status = s.status) (hin : s.status = .inProgress) (hturn : e.turn = s.turn)
    (hwinner : e.winnerId = s.winnerId) (hids : (s.players.map (·.id)).Nodup)
    (hp : s.players[i]? = some p) (hpid : p.id = pid)
    (hothers : s.players.filter (isRecipient pid) ≠ [])
    {rest : GameState → Py GameState}
    (hrest : ∀ resolved, resolved.turn.currentPlayerId = s.turn.currentPlayerId →
      rest resolved = advanceTurnOffPlayer resolved pid) :
    Ensures (do
        let resolved := checkWinCondition e
        if resolved.status = .finished then return resolved else rest resolved) fun m =>
      m = { e with status := m.status, winnerId := m.winnerId, turn := m.turn } ∧
        GoesOn s pid i m ∧ (m.status = .inProgress → ∀ w, survivors m.seats ≠ [w]) := by
  have hsurvivors := hf.survivors hseats
  have hcheck := checkWinCondition_spec e
  have hin' : e.status = .inProgress := hstatus.trans hin
  generalize checkWinCondition e = c at hcheck
  simp only [sat_ite, sat_pure]
  cases hcheck with
  | @won w _ hone =>
      refine ⟨fun _ => ⟨rfl, ?_, fun h => by cases h⟩, fun h => absurd rfl h⟩
      rw [hsurvivors] at hone
      obtain ⟨x, hx, rfl⟩ := List.map_eq_singleton_iff.mp hone
      obtain ⟨y, hy, rfl⟩ := List.map_eq_singleton_iff.mp hx
      exact .won hy rfl (congrArg some (hf.id _))
  | unchanged hmany =>
      have hmany' := hmany hin'
      refine ⟨fun h => absurd (hin'.symm.trans h) (by simp), fun _ => ?_⟩
      have hids' : (e.players.map (·.id)).Nodup := by
        rw [ids_of_seats hseats hf.id]
        exact hids
      obtain ⟨q, hq, hqf⟩ := getElem?_of_seats hseats hp
      have hqid : q.id = pid := by
        rw [← bare_id q, hqf, hf.id]
        exact hpid
      have hadvance := advanceTurnOffPlayer_eq hids' hq
      rw [hqid, handOn_seats, hf.nextAround hseats] at hadvance
      rw [hrest e (by rw [hturn]), hadvance, sat_ok]
      obtain ⟨x, hx⟩ := List.exists_mem_of_ne_nil _ hothers
      obtain ⟨hxmem, hxin⟩ := List.mem_filter.mp hx
      obtain ⟨next, wrapped, hnext⟩ := nextAround_isSome hxmem hxin i
      have hne : next.id ≠ pid := by
        have hrecipient := (nextAround_mem hnext).2
        simpa using (Bool.and_eq_true_iff.mp hrecipient).1
      rw [hnext]
      refine ⟨rfl, ?_, fun _ w hw => hmany' w ?_⟩
      · have hlen : 2 ≤ (s.players.filter (isRecipient pid)).length := by
          cases hlist : s.players.filter (isRecipient pid) with
          | nil => exact absurd hlist hothers
          | cons y ys =>
              cases ys with
              | nil =>
                  rw [hsurvivors, hlist] at hmany'
                  exact absurd rfl (hmany' (f y.bare))
              | cons z zs => simp
        refine .passed hlen hnext hstatus hwinner (hf.id _) ?_ ?_ ?_
        · show openingPhase (f next.bare) = openingPhase next
          rw [openingPhase, hf.jailed next.bare hne]
          rfl
        · show e.turn.turnNumber + 1 = s.turn.turnNumber + 1
          rw [hturn]
        · show e.turn.roundNumber + _ = s.turn.roundNumber + _
          rw [hturn]
      · exact hw

/-- The end of a call leaves the seats, the spaces and the records as they
are, where no debt is pending and no win is left to be found. -/
theorem finishCommand_tidies (s : GameState) (command : GameCommand) (env : Env)
    (events : List GameEvent) (hdebt : m.bankruptcy = none)
    (hopen : m.status = .inProgress → ∀ w, Monopoly.survivors m.seats ≠ [w]) :
    Ensures (finishCommand s command env m events) (Tidied m) := by
  by_cases hreply : command.isReply = true
  · exact finishCommand_reply hreply events
  · refine (finishCommand_stages hreply events).imp ?_
    rintro s' ⟨n, n', htidy, hsettle, hs'⟩
    obtain rfl : n = n' := by
      rw [trySettleDebt, htidy.bankruptcy, hdebt] at hsettle
      exact Except.ok.inj hsettle
    have hwin : checkWinCondition n = n := by
      have hcheck := checkWinCondition_spec n
      generalize checkWinCondition n = c at hcheck
      cases hcheck with
      | won hin hone => exact absurd (htidy.seats_eq ▸ hone) (hopen (htidy.status ▸ hin) _)
      | unchanged _ => rfl
    exact htidy.trans (hwin ▸ hs')

theorem GoesOn.tidied {s' : GameState} (h : GoesOn s pid i m) (ht : Tidied m s') :
    GoesOn s pid i s' := by
  cases ht with
  | mk _ =>
      cases h with
      | won hone hstatus hwinner => exact .won hone hstatus hwinner
      | passed htwo hnext hstatus hwinner hcurrent hphase hnumber hround =>
          exact .passed htwo hnext hstatus hwinner hcurrent hphase hnumber hround

/-- The end of a call that has eliminated `pid`. -/
theorem ends_without {s' : GameState} {command : GameCommand} {env : Env}
    {events : List GameEvent} (hf : TakenOut pid f) (hseats : e.seats = s.seats.map f)
    (hstatus : e.status = s.status) (hin : s.status = .inProgress) (hturn : e.turn = s.turn)
    (hwinner : e.winnerId = s.winnerId) (hdebt : e.bankruptcy = none)
    (hids : (s.players.map (·.id)).Nodup) (hp : s.players[i]? = some p) (hpid : p.id = pid)
    (hothers : s.players.filter (isRecipient pid) ≠ []) {rest : GameState → Py GameState}
    (hrest : ∀ resolved, resolved.turn.currentPlayerId = s.turn.currentPlayerId →
      rest resolved = advanceTurnOffPlayer resolved pid)
    (hm : (do
      let resolved := checkWinCondition e
      if resolved.status = .finished then return resolved
      else rest resolved : Py GameState) = .ok m)
    (hfinish : finishCommand s command env m events = .ok s') :
    GoesOn s pid i s' ∧ ∃ status winnerId turn,
      Tidied { e with status, winnerId, turn } s' := by
  obtain ⟨hframe, hgoes, hopen⟩ := (goesOn_of_takenOut hf hseats hstatus hin hturn hwinner hids hp
    hpid hothers hrest).of_ok hm
  have hfree : m.bankruptcy = none := by
    rw [hframe]
    exact hdebt
  have htidy := (finishCommand_tidies s command env events hfree hopen).of_ok hfinish
  exact ⟨hgoes.tidied htidy, _, _, _, hframe ▸ htidy⟩

end Going

/-! ## titles -/

/-- The player whose list has a position is the owner of its record, and no
list repeats a position. -/
structure TitlesAgree (s : GameState) : Prop where
  nodup : ∀ p ∈ s.players, p.ownedPositions.Nodup
  agree : ∀ p ∈ s.players, ∀ q,
    q ∈ p.ownedPositions ↔ ∃ o, spaceAt s.spaces q = .ok o ∧ o.ownerId = some p.id

/-- An edit of the listed spaces is one of the spaces that are owned. -/
theorem TitlesAgree.onListed {s : GameState} (h : TitlesAgree s) {p : PlayerState}
    (hp : p ∈ s.players) {q : Nat} {o : SpaceOwnership} (hat : spaceAt s.spaces q = .ok o)
    (f : SpaceOwnership → SpaceOwnership) :
    onListed p.ownedPositions f o = if o.ownerId = some p.id then f o else o := by
  have hiff : o.position ∈ p.ownedPositions ↔ o.ownerId = some p.id := by
    rw [position_of_spaceAt hat, h.agree p hp]
    constructor
    · rintro ⟨o', hat', howner⟩
      rwa [Except.ok.inj (hat.symm.trans hat')]
    · exact fun howner => ⟨o, hat, howner⟩
  simp only [Monopoly.onListed, hiff]

theorem TitlesAgree.onFile {s : GameState} (h : TitlesAgree s) {p : PlayerState}
    (hp : p ∈ s.players) : OnFile s.spaces p.ownedPositions := fun q hq =>
  have ⟨o, hat, _⟩ := (h.agree p hp q).mp hq
  ⟨o, hat⟩

/-- The lists and the records agree once both are edited in the same way. -/
theorem titlesAgree_of_edits {s m : GameState} {f : PlayerState → PlayerState}
    {g : SpaceOwnership → SpaceOwnership} (hid : ∀ p, (f p).id = p.id)
    (hseats : m.seats = s.seats.map f) (hspaces : Rewritten g s.spaces m.spaces)
    (hnodup : ∀ p ∈ s.players, (f p.bare).ownedPositions.Nodup)
    (hfile : ∀ p ∈ s.players, OnFile s.spaces (f p.bare).ownedPositions)
    (hagree : ∀ p ∈ s.players, ∀ q o, spaceAt s.spaces q = .ok o →
      (q ∈ (f p.bare).ownedPositions ↔ (g o).ownerId = some p.id)) : TitlesAgree m := by
  have horigin : ∀ x ∈ m.players, ∃ p ∈ s.players, x.bare = f p.bare := by
    intro x hx
    have hx' : x.bare ∈ s.seats.map f := hseats ▸ mem_seats hx
    obtain ⟨y, hy, hyx⟩ := List.mem_map.mp hx'
    obtain ⟨p, hp, rfl⟩ := exists_player hy
    exact ⟨p, hp, hyx.symm⟩
  constructor
  · intro x hx
    obtain ⟨p, hp, hxp⟩ := horigin x hx
    rw [← bare_ownedPositions x, hxp]
    exact hnodup p hp
  · intro x hx q
    obtain ⟨p, hp, hxp⟩ := horigin x hx
    have hxid : x.id = p.id := by rw [← bare_id x, hxp, hid, bare_id]
    rw [← bare_ownedPositions x, hxp, hxid]
    constructor
    · intro hq
      obtain ⟨o, hat⟩ := hfile p hp q hq
      exact ⟨g o, hspaces.at hat, (hagree p hp q o hat).mp hq⟩
    · rintro ⟨o', hat', howner⟩
      obtain ⟨o, hat, rfl⟩ := hspaces.back hat'
      exact (hagree p hp q o hat).mpr howner

/-- `TitlesAgree` as it is computed. -/
def titled (s : GameState) : Bool :=
  decide (∀ p ∈ s.players, p.ownedPositions.Nodup ∧
    (∀ q ∈ p.ownedPositions, (spaceAt s.spaces q).toOption.any fun o =>
      decide (o.ownerId = some p.id)) ∧
    ∀ o ∈ s.spaces, o.ownerId = some p.id → o.position ∈ p.ownedPositions)

theorem of_titled {s : GameState} (h : titled s = true) : TitlesAgree s := by
  have hall := of_decide_eq_true h
  refine ⟨fun p hp => (hall p hp).1, fun p hp q => ⟨fun hq => ?_, ?_⟩⟩
  · have hany := (hall p hp).2.1 q hq
    cases hat : spaceAt s.spaces q with
    | error e => rw [hat] at hany; cases hany
    | ok o =>
        rw [hat] at hany
        exact ⟨o, rfl, of_decide_eq_true hany⟩
  · rintro ⟨o, hat, howner⟩
    obtain ⟨i, -, hi, hpos⟩ := spaceAt_found hat
    exact hpos ▸ (hall p hp).2.2 o (List.mem_of_getElem? hi) howner

/-! ## assets that change hands -/

section Assets

variable {s : GameState} {p d : PlayerState} {debt : BankruptcyState} {creditor : PlayerId}

/-- What a settlement leaves of the seats before the debtor is taken out: the
creditor has received everything, or nobody has. -/
theorem settleAssets_ensures (hids : (s.players.map (·.id)).Nodup) (d : PlayerState)
    (debt : BankruptcyState) : Ensures (settleAssets s d debt) fun settled =>
      match debt.creditorId with
      | some creditor =>
          seatsOf settled.players = editSeat creditor (inherit d (min d.balance debt.amountOwed)
              (interestOn s.gameMode s.spaces d.ownedPositions)) s.seats ∧
            Rewritten (onListed d.ownedPositions (grant creditor)) s.spaces settled.spaces ∧
            OnFile s.spaces d.ownedPositions ∧ settled.chanceDeck = s.chanceDeck ∧
            settled.chestDeck = s.chestDeck
      | none => seatsOf settled.players = s.seats := by
  unfold settleAssets
  cases debt.creditorId with
  | none => exact .after fun _ _ => rfl
  | some creditor =>
      refine .after fun c hc => ?_
      obtain ⟨hmem, hid⟩ := getPlayer_found hc
      refine (transferToCreditor_rewrites _ _ _ _ _).seq fun r hr => ?_
      obtain ⟨hspaces, hfile, hpaid⟩ := hr
      refine (assignPlayer_view (g := inherit d (min d.balance debt.amountOwed)
        (interestOn s.gameMode s.spaces d.ownedPositions)) bare_id hids (mem_seatsOf hmem) hid
        ?_).seq fun ps hps => ⟨hps, hspaces, hfile, rfl, rfl⟩
      rw [hpaid]
      rfl

/-- The seats once `d` has gone bankrupt. -/
def afterBankruptcy (s : GameState) (debt : BankruptcyState) (d p : PlayerState) : PlayerState :=
  if p.id = d.id then ruined s.gameMode s.turn.turnNumber p
  else if debt.creditorId = some p.id then inherit d (min d.balance debt.amountOwed)
    (interestOn s.gameMode s.spaces d.ownedPositions) p
  else p

theorem takenOut_bankrupt (s : GameState) (debt : BankruptcyState) (d : PlayerState) :
    TakenOut d.id (afterBankruptcy s debt d) := by
  refine ⟨fun p => ?_, fun p => ?_, fun p hne => ?_⟩
  · unfold afterBankruptcy
    split
    · rfl
    · split <;> rfl
  · unfold afterBankruptcy
    by_cases hp : p.id = d.id
    · simp [hp, isRecipient, inGame, ruined, eliminate]
    · rw [if_neg hp]
      split <;> simp [hp, isRecipient, inGame, inherit]
  · unfold afterBankruptcy
    rw [if_neg hne]
    split <;> rfl

/-- The creditor is paid, and then the debtor is taken out. -/
theorem takeOut_paid (hids : (s.players.map (·.id)).Nodup) (hd : d ∈ s.players) :
    editSeat d.id (fun _ => (ruined s.gameMode s.turn.turnNumber d).bare)
      (s.seats.map fun p => if debt.creditorId = some p.id then
        inherit d (min d.balance debt.amountOwed)
          (interestOn s.gameMode s.spaces d.ownedPositions) p else p) =
      s.seats.map (afterBankruptcy s debt d) := by
  simp only [editSeat, editAt, List.map_map]
  refine List.map_congr_left fun x hx => ?_
  simp only [Function.comp, afterBankruptcy]
  by_cases hxd : x.id = d.id
  · obtain rfl : x = d.bare :=
      eq_of_key_eq PlayerState.id (nodup_seats hids) hx (mem_seats hd) hxd
    rw [if_pos hxd, if_pos (by split <;> exact hxd)]
    rfl
  · rw [if_neg hxd, if_neg (by split <;> exact hxd)]

/-- A bankruptcy up to the win check and the passing of the turn. -/
theorem resolveBankruptcy_ensures (hids : (s.players.map (·.id)).Nodup)
    (hdebt : s.bankruptcy = some debt) (hdebtor : debt.debtorId = d.id) (hd : d ∈ s.players) :
    Ensures (resolveBankruptcy s d.id) fun m =>
      ∃ e : GameState, e.seats = s.seats.map (afterBankruptcy s debt d) ∧ e.bankruptcy = none ∧
        e.status = s.status ∧ e.winnerId = s.winnerId ∧ e.turn = s.turn ∧
        afterElimination e d.id = .ok m ∧
        ∀ creditor, debt.creditorId = some creditor →
          Rewritten (onListed d.ownedPositions (grant creditor)) s.spaces e.spaces ∧
          OnFile s.spaces d.ownedPositions ∧
          e = { s with players := e.players, spaces := e.spaces, bankruptcy := none } := by
  have hget : getPlayerByIdFromState s d.id = .ok d := getPlayerById_eq hids hd
  obtain ⟨i, hi, hgi⟩ := nextPlayerIdx_eq hids hd
  unfold resolveBankruptcy
  simp only [hdebt, hdebtor, ne_eq, not_true_eq_false, if_false, hget, hi, ok_bind]
  refine (settleAssets_ensures hids d debt).seq fun settled hsettled => ?_
  -- the seats with the creditor paid, and then the debtor taken out
  have hpaid : seatsOf settled.players = s.seats.map fun p =>
      if debt.creditorId = some p.id then inherit d (min d.balance debt.amountOwed)
        (interestOn s.gameMode s.spaces d.ownedPositions) p else p := by
    cases hc : debt.creditorId with
    | none =>
        rw [hc] at hsettled
        simpa using hsettled
    | some creditor =>
        rw [hc] at hsettled
        rw [hsettled.1]
        exact List.map_congr_left fun p _ => by simp only [Option.some.injEq, eq_comm]
  have hids' : (settled.players.map (·.id)).Nodup := by
    rw [ids_of_seats hpaid fun p => by split <;> rfl]
    exact hids
  obtain ⟨q, hq, hbare⟩ := getElem?_of_seats hpaid hgi
  have hqid : q.id = d.id := by
    rw [← bare_id q, hbare]
    split <;> rfl
  have hset : seatsOf (settled.players.set i (ruined s.gameMode s.turn.turnNumber d)) =
      s.seats.map (afterBankruptcy s debt d) := by
    rw [← takeOut_paid hids hd, ← hpaid, ← hqid]
    exact map_set_eq_editSeat bare_id hids' hq rfl
  refine (refreshAllNetWorth_bare _ _ _).seq fun ps hps => ?_
  refine ensures_iff.mpr fun m hm => ?_
  refine ⟨{ s with
    players := ps
    spaces := settled.spaces
    bankruptcy := none
    chanceDeck := settled.chanceDeck
    chestDeck := settled.chestDeck }, hps.trans hset, rfl, rfl, rfl, rfl, hm, fun creditor hc => ?_⟩
  rw [hc] at hsettled
  obtain ⟨-, hspaces, hfile, hchance, hchest⟩ := hsettled
  refine ⟨hspaces, hfile, ?_⟩
  rw [hchance, hchest]

/-- The seats once `p` has surrendered. -/
def afterSurrender (s : GameState) (p q : PlayerState) : PlayerState :=
  if q.id = p.id then eliminate q s.turn.turnNumber
  else credit (shareOf s.players p.id p.balance q) q

theorem takenOut_surrender (s : GameState) (p : PlayerState) :
    TakenOut p.id (afterSurrender s p) := by
  refine ⟨fun q => ?_, fun q => ?_, fun q hne => ?_⟩
  · unfold afterSurrender
    split <;> rfl
  · unfold afterSurrender
    by_cases hq : q.id = p.id
    · simp [hq, isRecipient, inGame, eliminate]
    · simp [hq, isRecipient, inGame, credit]
  · unfold afterSurrender
    rw [if_neg hne]
    rfl

theorem seats_afterSurrender (hids : (s.players.map (·.id)).Nodup) {i : Nat}
    (hi : s.players[i]? = some p) :
    seatsOf ((splitCash s.players p.id p.balance).set i (eliminate p s.turn.turnNumber)) =
      s.seats.map (afterSurrender s p) :=
  seats_splitCash hids hi

/-- A surrender up to the win check and the passing of the turn. -/
theorem resolveSurrender_ensures (hids : (s.players.map (·.id)).Nodup) (hp : p ∈ s.players)
    (hactive : p.isBankrupt = false) : Ensures (resolveSurrender s p.id) fun m =>
      ∃ e : GameState, e.seats = s.seats.map (afterSurrender s p) ∧ e.bankruptcy = s.bankruptcy ∧
        e.status = s.status ∧ e.winnerId = s.winnerId ∧ e.turn = s.turn ∧
        (do
          let resolved := checkWinCondition e
          if resolved.status = .finished then return resolved
          else if resolved.turn.currentPlayerId = p.id then advanceTurnOffPlayer resolved p.id
          else return resolved : Py GameState) = .ok m ∧
        clearSpaces p.ownedPositions s.spaces s.bankHouses s.bankHotels =
          .ok (e.spaces, e.bankHouses, e.bankHotels) ∧
        e = { s with
          players := e.players
          spaces := e.spaces
          bankHouses := e.bankHouses
          bankHotels := e.bankHotels
          chanceDeck := returnCards p.getOutOfJailCards s.chanceDeck chanceJailCard
          chestDeck := returnCards p.getOutOfJailCards s.chestDeck chestJailCard } := by
  have hget : getPlayerByIdFromState s p.id = .ok p := getPlayerById_eq hids hp
  obtain ⟨i, hi, hgi⟩ := nextPlayerIdx_eq hids hp
  simp only [resolveSurrender, hget, hi, ok_bind, hactive, Bool.false_eq_true, if_false]
  refine .after fun cleared hclear => ?_
  refine (refreshAllNetWorth_bare _ _ _).seq fun ps hps => ?_
  refine ensures_iff.mpr fun m hm => ?_
  exact ⟨{ s with
    players := ps
    spaces := cleared.1
    bankHouses := cleared.2.1
    bankHotels := cleared.2.2
    chanceDeck := returnCards p.getOutOfJailCards s.chanceDeck chanceJailCard
    chestDeck := returnCards p.getOutOfJailCards s.chestDeck chestJailCard },
    hps.trans (seats_afterSurrender hids hgi), rfl, rfl, rfl, rfl, hm, hclear, rfl⟩

end Assets

end Monopoly
