import Mathlib.Data.List.Perm.Subperm
import Monopoly.Service.Credentials

/-!
# Monopoly.Laws.RefreshTokens

Refresh tokens are rotated: each one is good for one refresh, by whoever
comes first, and stands for the sign-in it goes back to.  However the
requests interleave, nobody has more tokens than sign-ins, and a token that
was used or revoked is of no use any more.
-/

namespace Monopoly.Credentials

/-! ## what became of the tokens -/

/-- What a step may do to the tokens: insert one with a new hash, consume one
or delete one. -/
inductive Effect (flow : FlowId) (w : World) (op : Op) : World → Prop
  | same {w' : World} : w'.tokens = w.tokens → w'.inserted = w.inserted →
      w'.consumed = w.consumed → w'.deleted = w.deleted → Effect flow w op w'
  | inserted {token : RefreshToken} : op = .insertToken token →
      (∀ t ∈ w.tokens, t.tokenHash ≠ token.tokenHash) →
      Effect flow w op { w with
        tokens := token :: w.tokens
        inserted := (flow, token) :: w.inserted }
  | consumed {token : RefreshToken} {now : Int} : op = .consume token.tokenHash now →
      token ∈ w.tokens → now < token.expiresAt →
      Effect flow w op { w.without token with consumed := (flow, token) :: w.consumed }
  | deleted {token : RefreshToken} : token ∈ w.tokens →
      Effect flow w op { w.without token with deleted := token :: w.deleted }

section Steps

variable {i j : FlowId} {w w' : World} {op : Op} {r : op.Ans}

theorem World.find_some {tokenHash : String} {ok : RefreshToken → Bool} {token : RefreshToken}
    (h : w.find tokenHash ok = some token) :
    token ∈ w.tokens ∧ token.tokenHash = tokenHash ∧ ok token = true := by
  have hpassed := List.find?_some h
  simp only [Bool.and_eq_true, decide_eq_true_eq] at hpassed
  exact ⟨List.mem_of_find?_eq_some h, hpassed⟩

theorem effect_delete {tokenHash : String} {ok : RefreshToken → Bool} :
    Effect i w op (w.delete (w.find tokenHash ok)) := by
  cases hfind : w.find tokenHash ok with
  | none => exact .same rfl rfl rfl rfl
  | some token => exact .deleted (World.find_some hfind).1

theorem exec_effect (h : exec i w op r w') : Effect i w op w' := by
  cases op with
  | createUser user =>
      simp only [exec] at h
      split at h
      · exact .same (by rw [h.2]) (by rw [h.2]) (by rw [h.2]) (by rw [h.2])
      · exact .same (by rw [h.2]) (by rw [h.2]) (by rw [h.2]) (by rw [h.2])
  | insertToken token =>
      simp only [exec] at h
      split at h
      · exact .same (by rw [h.2]) (by rw [h.2]) (by rw [h.2]) (by rw [h.2])
      · rename_i hnew
        rw [h.2]
        exact .inserted rfl fun t ht heq => hnew ⟨t, ht, heq⟩
  | consume tokenHash now =>
      simp only [exec] at h
      split at h
      · exact .same (by rw [h.2]) (by rw [h.2]) (by rw [h.2]) (by rw [h.2])
      · rename_i token hfind
        obtain ⟨hmem, rfl, hlive⟩ := World.find_some hfind
        rw [h.2]
        exact .consumed rfl hmem (of_decide_eq_true hlive)
  | revoke tokenHash => cases h; exact effect_delete
  | purge tokenHash now => cases h; exact effect_delete
  | findByEmail => obtain ⟨-, rfl⟩ := h; exact .same rfl rfl rfl rfl
  | findById => obtain ⟨-, rfl⟩ := h; exact .same rfl rfl rfl rfl
  | _ => cases h; exact .same rfl rfl rfl rfl

/-- Every token that was inserted is live, consumed or deleted, once, and no
two live ones have the same hash. -/
structure Ledger (w : World) : Prop where
  conserved : (w.tokens ++ (w.consumed.map (·.2) ++ w.deleted)).Perm (w.inserted.map (·.2))
  unique : (w.tokens.map (·.tokenHash)).Nodup

theorem Ledger.step (hw : Ledger w) (h : Effect i w op w') : Ledger w' := by
  cases h with
  | same ht hi hc hd => exact ⟨by rw [ht, hi, hc, hd]; exact hw.conserved, ht ▸ hw.unique⟩
  | @inserted token _ hnew =>
      refine ⟨hw.conserved.cons token, List.nodup_cons.mpr ⟨?_, hw.unique⟩⟩
      rintro hmem
      obtain ⟨t, ht, heq⟩ := List.mem_map.mp hmem
      exact hnew t ht heq
  | @consumed token now _ hmem _ =>
      refine ⟨?_, hw.unique.sublist (List.erase_sublist.map _)⟩
      refine List.Perm.trans ?_ hw.conserved
      exact List.perm_middle.trans ((List.perm_cons_erase hmem).symm.append_right _)
  | @deleted token hmem =>
      refine ⟨?_, hw.unique.sublist (List.erase_sublist.map _)⟩
      refine List.Perm.trans ?_ hw.conserved
      refine (List.perm_middle.append_left _).trans ?_
      exact List.perm_middle.trans ((List.perm_cons_erase hmem).symm.append_right _)

/-! ## whose tokens they are -/

/-- The tokens of a flow in a record of flows and tokens. -/
def ofFlow (i : FlowId) (record : List (FlowId × RefreshToken)) : List RefreshToken :=
  (record.filter fun e => decide (e.1 = i)).map (·.2)

theorem ofFlow_cons (j : FlowId) (token : RefreshToken) (record : List (FlowId × RefreshToken)) :
    ofFlow i ((j, token) :: record) = if j = i then token :: ofFlow i record
      else ofFlow i record := by
  by_cases h : j = i <;> simp [ofFlow, h]

theorem mem_ofFlow {token : RefreshToken} {record : List (FlowId × RefreshToken)} :
    token ∈ ofFlow i record ↔ (i, token) ∈ record := by
  simp [ofFlow]

/-- What a flow did to the tokens: it inserted one at most, for a sign-in or
for the user of a token it consumed, and consumed those it was given. -/
structure Balanced (config : Config) (request : Request) (mine theirs : List RefreshToken) :
    Prop where
  once : mine.length ≤ 1
  rotates : request.signsIn = false → ∀ new ∈ mine, ∃ old ∈ theirs, old.userId = new.userId
  presented : ∀ old ∈ theirs, ∃ raw, request = .refresh raw ∧
    old.tokenHash = config.hashRefreshToken raw

/-- A flow inserts its first token, for a sign-in or for the user of a token
it has consumed; it consumes the token it was given. -/
def Entitled (config : Config) (requests : FlowId → Request) (i : FlowId) (w : World) :
    Op → Prop
  | .insertToken token => ofFlow i w.inserted = [] ∧
      ((requests i).signsIn = false → ∃ old ∈ ofFlow i w.consumed, old.userId = token.userId)
  | .consume tokenHash _ => ∃ raw, requests i = .refresh raw ∧
      tokenHash = config.hashRefreshToken raw
  | _ => True

/-- Every flow's part of the records is balanced. -/
def AllBalanced (config : Config) (requests : FlowId → Request) (w : World) : Prop :=
  ∀ i, Balanced config (requests i) (ofFlow i w.inserted) (ofFlow i w.consumed)

theorem AllBalanced.step {config : Config} {requests : FlowId → Request}
    (hw : AllBalanced config requests w) (hop : Entitled config requests i w op)
    (h : Effect i w op w') : AllBalanced config requests w' := by
  intro j
  have hj := hw j
  cases h with
  | same _ hi hc _ => rw [hi, hc]; exact hj
  | @inserted token hinsert _ =>
      subst hinsert
      simp only [ofFlow_cons]
      split
      · rename_i hij
        subst hij
        obtain ⟨hnone, hold⟩ := hop
        rw [hnone]
        refine ⟨Nat.le_refl 1, fun hsigns new hnew => ?_, hj.presented⟩
        rw [List.mem_singleton.mp hnew]
        exact hold hsigns
      · exact hj
  | @consumed token now hconsume _ _ =>
      subst hconsume
      simp only [ofFlow_cons]
      split
      · rename_i hij
        subst hij
        refine ⟨hj.once, fun hsigns new hnew => ?_, fun old hold => ?_⟩
        · obtain ⟨old, hold, huser⟩ := hj.rotates hsigns new hnew
          exact ⟨old, List.mem_cons_of_mem _ hold, huser⟩
        · rcases List.mem_cons.mp hold with rfl | hold
          · exact hop
          · exact hj.presented old hold
      · exact hj
  | deleted _ => exact hj

/-- What the others leave of a flow's part. -/
def Apart (i : FlowId) (w w' : World) : Prop :=
  ofFlow i w'.inserted = ofFlow i w.inserted ∧ ofFlow i w'.consumed = ofFlow i w.consumed

theorem Effect.apart (h : Effect i w op w') (hij : j ≠ i) : Apart j w w' := by
  cases h with
  | same _ hi hc _ => exact ⟨by rw [hi], by rw [hc]⟩
  | inserted _ _ => exact ⟨by rw [ofFlow_cons, if_neg (Ne.symm hij)], rfl⟩
  | consumed _ _ _ => exact ⟨rfl, by rw [World.without, ofFlow_cons, if_neg (Ne.symm hij)]⟩
  | deleted _ => exact ⟨rfl, rfl⟩

end Steps

/-- The records are in order, and every flow inserts and consumes as it is
entitled to. -/
def rotating (config : Config) (requests : FlowId → Request) : Protocol exec where
  inv w := Ledger w ∧ AllBalanced config requests w
  guar := Entitled config requests
  rely := Apart
  rely_refl _ _ := ⟨rfl, rfl⟩
  rely_trans _ _ _ _ h h' := ⟨h'.1.trans h.1, h'.2.trans h.2⟩
  keeps _ _ _ _ _ hw hop hexec :=
    ⟨hw.1.step (exec_effect hexec), hw.2.step hop (exec_effect hexec)⟩
  spares _ _ _ _ _ _ hij _ _ hexec := (exec_effect hexec).apart hij

/-! ## the flows -/

section Flows

variable {config : Config} {requests : FlowId → Request} {i : FlowId} {w : World} {userId : UserId}

/-- What a flow answers with is the token it inserted. -/
def Hands (config : Config) (i : FlowId) (outcome : Outcome) (w : World) : Prop :=
  ∀ userId raw, outcome = .issued userId raw → ∃ token ∈ ofFlow i w.inserted,
    token.userId = userId ∧ token.tokenHash = config.hashRefreshToken raw

theorem done_hands {outcome : Outcome} (h : Hands config i outcome w) :
    (rotating config requests).Holds i (Hands config i) (.done outcome : Flow Outcome) w := by
  intro w' _ hrely userId raw houtcome
  rw [hrely.1]
  exact h userId raw houtcome

theorem done_without {outcome : Outcome} (h : ∀ userId raw, outcome ≠ .issued userId raw) :
    (rotating config requests).Holds i (Hands config i) (.done outcome : Flow Outcome) w :=
  done_hands fun userId raw houtcome => absurd houtcome (h userId raw)

/-- The operations that leave the tokens alone. -/
def Op.Quiet : Op → Prop
  | .insertToken _ | .consume .. | .revoke _ | .purge .. => False
  | _ => True

/-- A quiet operation of a flow leaves its part of the records. -/
theorem quiet_holds (op : Op) {k : op.Ans → Flow Outcome} (hop : op.Quiet)
    (hnext : ∀ r w' w'', exec i w' op r w'' → Apart i w w'' →
      (rotating config requests).Holds i (Hands config i) (k r) w'') :
    (rotating config requests).Holds i (Hands config i) (.call op k) w := by
  intro w' _ hrely
  refine ⟨?_, fun r w'' hexec => hnext r w' w'' hexec ?_⟩
  · cases op with
    | insertToken => exact hop.elim
    | consume => exact hop.elim
    | _ => trivial
  · have heffect := exec_effect hexec
    cases heffect with
    | same _ hi hc _ => exact ⟨by rw [hi, hrely.1], by rw [hc, hrely.2]⟩
    | inserted hop' _ => subst hop'; exact hop.elim
    | consumed hop' _ _ => subst hop'; exact hop.elim
    | deleted _ => exact hrely

/-- A flow that may insert a token for the user hands it out. -/
theorem issueTokens_holds (hnone : ofFlow i w.inserted = [])
    (hentitled : (requests i).signsIn = false →
      ∃ old ∈ ofFlow i w.consumed, old.userId = userId) :
    (rotating config requests).Holds i (Hands config i) (issueTokens config userId) w := by
  refine quiet_holds .generateRefreshToken trivial fun raw _ w₁ _ hw₁ => ?_
  refine quiet_holds .now trivial fun now _ w₂ _ hw₂ => ?_
  intro w₃ _ hrely
  have hinserted : ofFlow i w₃.inserted = [] :=
    hrely.1.trans (hw₂.1.trans (hw₁.1.trans hnone))
  have hconsumed : ofFlow i w₃.consumed = ofFlow i w.consumed :=
    hrely.2.trans (hw₂.2.trans hw₁.2)
  refine ⟨⟨hinserted, fun hsigns => hconsumed ▸ hentitled hsigns⟩, fun done w₄ hexec => ?_⟩
  simp only [exec] at hexec
  split at hexec
  · rw [hexec.1]
    exact done_without fun _ _ h => by cases h
  · obtain ⟨rfl, rfl⟩ := hexec
    refine done_hands fun user raw' houtcome => ?_
    obtain ⟨rfl, rfl⟩ := Outcome.issued.inj houtcome
    exact ⟨_, mem_ofFlow.mpr List.mem_cons_self, rfl, rfl⟩

theorem register_holds {email password : String} (hrequest : (requests i).signsIn = true)
    (hnone : ofFlow i w.inserted = []) :
    (rotating config requests).Holds i (Hands config i) (register config email password) w := by
  refine quiet_holds (.hashPassword password) trivial fun passwordHash _ w₁ _ hw₁ => ?_
  refine quiet_holds .uuid4 trivial fun id _ w₂ _ hw₂ => ?_
  refine quiet_holds (.createUser { id, email := config.lower email, passwordHash }) trivial
    fun created _ w₃ _ hw₃ => ?_
  cases created with
  | false => exact done_without fun _ _ h => by cases h
  | true =>
      refine issueTokens_holds (hw₃.1.trans (hw₂.1.trans (hw₁.1.trans hnone))) fun hsigns => ?_
      rw [hrequest] at hsigns
      cases hsigns

theorem login_holds {email password : String} (hrequest : (requests i).signsIn = true)
    (hnone : ofFlow i w.inserted = []) :
    (rotating config requests).Holds i (Hands config i) (login config email password) w := by
  refine quiet_holds (.findByEmail (config.lower email)) trivial fun found _ w₁ _ hw₁ => ?_
  cases found with
  | none => exact done_without fun _ _ h => by cases h
  | some user =>
      show (rotating config requests).Holds i (Hands config i)
        (if config.verifyPassword password user.passwordHash then issueTokens config user.id
          else .done .invalidCredentials) w₁
      split
      · refine issueTokens_holds (hw₁.1.trans hnone) fun hsigns => ?_
        rw [hrequest] at hsigns
        cases hsigns
      · exact done_without fun _ _ h => by cases h

/-- A refresh consumes the token it was given before it issues one to the
same user. -/
theorem refresh_holds {refreshToken : String} (hrequest : requests i = .refresh refreshToken)
    (hnone : ofFlow i w.inserted = []) :
    (rotating config requests).Holds i (Hands config i) (refresh config refreshToken) w := by
  refine quiet_holds .now trivial fun now _ w₁ _ hw₁ => ?_
  intro w₂ _ hrely
  refine ⟨⟨refreshToken, hrequest, rfl⟩, fun userId w₃ hexec => ?_⟩
  simp only [exec] at hexec
  split at hexec
  · rw [hexec.1]
    exact done_without fun _ _ h => by cases h
  · rename_i token hfind
    obtain ⟨rfl, rfl⟩ := hexec
    refine quiet_holds (.findById token.userId) trivial fun found _ w₄ hfound hw₄ => ?_
    cases found with
    | none => exact done_without fun _ _ h => by cases h
    | some user =>
        have huser : user.id = token.userId := by
          simpa using List.find?_some hfound.1.symm
        refine issueTokens_holds ?_ fun _ => ⟨token, ?_, huser.symm⟩
        · exact hw₄.1.trans (hrely.1.trans (hw₁.1.trans hnone))
        · rw [hw₄.2]
          exact mem_ofFlow.mpr List.mem_cons_self

theorem serve_rotates (hw : Opened w) :
    (rotating config requests).Holds i (Hands config i) (serve config (requests i)) w := by
  have hnone : ofFlow i w.inserted = [] := by rw [hw.inserted]; rfl
  cases hrequest : requests i with
  | register email password => exact register_holds (by rw [hrequest]; rfl) hnone
  | login email password => exact login_holds (by rw [hrequest]; rfl) hnone
  | refresh refreshToken => exact refresh_holds hrequest hnone
  | logout refreshToken =>
      exact fun _ _ _ => ⟨trivial, fun _ _ _ => done_without fun _ _ h => by cases h⟩
  | purge tokenHash =>
      refine quiet_holds .now trivial fun now _ w₁ _ _ => ?_
      exact fun _ _ _ => ⟨trivial, fun _ _ _ => done_without fun _ _ h => by cases h⟩

end Flows

/-! ## the law -/

section Law

variable {config : Config} {requests : FlowId → Request}
  {h : List (Taken (Pool FlowId World Op Op.Ans Outcome) (Event FlowId Op Op.Ans))}
  {p : Pool FlowId World Op Op.Ans Outcome}

theorem opened_rotating {w : World} (hw : Opened w) : (rotating config requests).inv w := by
  refine ⟨⟨?_, ?_⟩, fun i => ?_⟩
  · rw [hw.tokens, hw.inserted, hw.consumed, hw.deleted]
    exact .refl _
  · rw [hw.tokens]
    exact List.nodup_nil
  · rw [hw.inserted, hw.consumed]
    exact ⟨Nat.zero_le 1, fun _ _ h => absurd h List.not_mem_nil, fun _ h =>
      absurd h List.not_mem_nil⟩

theorem Runs.balanced (hrun : Runs config requests h p) :
    Ledger p.world ∧ AllBalanced config requests p.world :=
  ((rotating config requests).sound (fun _ => opened_rotating) (fun _ _ => serve_rotates) hrun).1

/-- A flow that has answered with a token has inserted it. -/
theorem Runs.hands (hrun : Runs config requests h p) {i : FlowId} {outcome : Outcome}
    (hdone : p.flow i = .done outcome) : Hands config i outcome p.world :=
  (rotating config requests).returned (fun _ => opened_rotating)
    (fun _ _ => serve_rotates) hrun hdone

/-- If no more than one entry passes the test, those that do are the same. -/
theorem eq_of_countP_le_one {α : Type} {l : List α} {ok : α → Bool} {a b : α}
    (hone : l.countP ok ≤ 1) (ha : a ∈ l) (hb : b ∈ l) (hoka : ok a = true)
    (hokb : ok b = true) : a = b := by
  by_contra hne
  have htwo : [a, b].Subperm l :=
    List.subperm_of_subset (by simp [hne]) (by simp [ha, hb])
  have hcount := htwo.countP_le ok
  simp [hoka, hokb] at hcount
  omega

/-- The token is the user's. -/
def RefreshToken.ownedBy (userId : UserId) (token : RefreshToken) : Bool :=
  decide (token.userId = userId)

/-- The token has this hash. -/
def RefreshToken.hashed (tokenHash : String) (token : RefreshToken) : Bool :=
  decide (token.tokenHash = tokenHash)

theorem Ledger.count {w : World} (hw : Ledger w) (ok : RefreshToken → Bool) :
    w.tokens.countP ok + (w.consumed.countP (ok ·.2) + w.deleted.countP ok) =
      w.inserted.countP (ok ·.2) := by
  have hcount := hw.conserved.countP_eq ok
  rw [List.countP_append, List.countP_append, List.countP_map, List.countP_map] at hcount
  exact hcount

/-- No flow is twice among those that inserted a token. -/
theorem AllBalanced.nodup {w : World} (hw : AllBalanced config requests w) :
    (w.inserted.map (·.1)).Nodup := by
  refine List.nodup_iff_count_le_one.mpr fun i => ?_
  have honce := (hw i).once
  rw [ofFlow, List.length_map, ← List.countP_eq_length_filter] at honce
  rw [List.count_eq_countP, List.countP_map]
  refine Nat.le_trans (Nat.le_of_eq ?_) honce
  refine List.countP_congr fun e _ => ?_
  simp

/-- The refreshes of a user's tokens are no more than those consumed. -/
theorem AllBalanced.refreshed {w : World} (hw : AllBalanced config requests w) (userId : UserId) :
    w.inserted.countP (fun e => e.2.ownedBy userId && !(requests e.1).signsIn) ≤
      w.consumed.countP (·.2.ownedBy userId) := by
  rw [List.countP_eq_length_filter, List.countP_eq_length_filter,
    ← List.length_map (f := Prod.fst), ← List.length_map (f := Prod.fst)]
  have hdistinct : ((w.inserted.filter fun e => e.2.ownedBy userId &&
      !(requests e.1).signsIn).map (·.1)).Nodup :=
    hw.nodup.sublist (List.filter_sublist.map _)
  refine (List.subperm_of_subset hdistinct fun i hi => ?_).length_le
  obtain ⟨e, he, rfl⟩ := List.mem_map.mp hi
  obtain ⟨hinserted, hpassed⟩ := List.mem_filter.mp he
  simp only [Bool.and_eq_true, Bool.not_eq_true'] at hpassed
  obtain ⟨old, hold, huser⟩ := (hw e.1).rotates hpassed.2 e.2 (mem_ofFlow.mpr hinserted)
  refine List.mem_map.mpr ⟨(e.1, old), List.mem_filter.mpr ⟨mem_ofFlow.mp hold, ?_⟩, rfl⟩
  simpa [RefreshToken.ownedBy, huser] using hpassed.1

/-- A refresh that was answered with a token consumed the one it was given,
of the same user. -/
theorem Runs.refreshed (hrun : Runs config requests h p) {i : FlowId} {raw fresh : String}
    {userId : UserId} (hrequest : requests i = .refresh raw)
    (hdone : p.flow i = .done (.issued userId fresh)) :
    ∃ old, (i, old) ∈ p.world.consumed ∧ old.userId = userId ∧
      old.tokenHash = config.hashRefreshToken raw := by
  obtain ⟨new, hnew, huser, -⟩ := hrun.hands hdone userId fresh rfl
  have hmine := hrun.balanced.2 i
  obtain ⟨old, hold, hsame⟩ := hmine.rotates (by rw [hrequest]; rfl) new hnew
  obtain ⟨raw', hraw, hhash⟩ := hmine.presented old hold
  obtain rfl := Request.refresh.inj (hrequest.symm.trans hraw)
  exact ⟨old, mem_ofFlow.mp hold, hsame.trans huser, hhash⟩

/-- What rotation promises of the tokens that were issued. -/
structure Rotated (config : Config) (requests : FlowId → Request)
    (p : Pool FlowId World Op Op.Ans Outcome) : Prop where
  /-- A user's live tokens, with those revoked and expired, are no more than
  the sign-ins. -/
  sessions : ∀ userId,
    p.world.tokens.countP (·.ownedBy userId) + p.world.deleted.countP (·.ownedBy userId) ≤
      p.world.inserted.countP fun e => e.2.ownedBy userId && (requests e.1).signsIn
  /-- A refresh is answered for the user to whom the token it was given had
  been issued. -/
  owner : ∀ i raw userId fresh, requests i = .refresh raw →
    p.flow i = .done (.issued userId fresh) →
    ∃ e ∈ p.world.inserted, e.2.userId = userId ∧ e.2.tokenHash = config.hashRefreshToken raw
  /-- A token that was issued once is good for one refresh. -/
  once : ∀ raw, p.world.inserted.countP (·.2.hashed (config.hashRefreshToken raw)) ≤ 1 →
    ∀ i j userId userId' fresh fresh', requests i = .refresh raw → requests j = .refresh raw →
      p.flow i = .done (.issued userId fresh) → p.flow j = .done (.issued userId' fresh') → i = j
  /-- A token that was issued once and was revoked or expired was not
  refreshed. -/
  revoked : ∀ raw, p.world.inserted.countP (·.2.hashed (config.hashRefreshToken raw)) ≤ 1 →
    (∃ token ∈ p.world.deleted, token.tokenHash = config.hashRefreshToken raw) →
    ∀ i userId fresh, requests i = .refresh raw → p.flow i ≠ .done (.issued userId fresh)

/-- However the requests interleave, the refresh tokens are rotated. -/
theorem refresh_tokens_rotate (hrun : Runs config requests h p) : Rotated config requests p := by
  obtain ⟨hledger, hbalanced⟩ := hrun.balanced
  constructor
  · intro userId
    have hcount := hledger.count (·.ownedBy userId)
    have hrefreshed := hbalanced.refreshed userId
    rw [List.countP_eq_countP_filter_add p.world.inserted _ fun e => (requests e.1).signsIn,
      List.countP_filter, List.countP_filter] at hcount
    omega
  · intro i raw userId fresh hrequest hdone
    obtain ⟨old, hold, huser, hhash⟩ := hrun.refreshed hrequest hdone
    have hmem : old ∈ p.world.inserted.map (·.2) := by
      refine hledger.conserved.mem_iff.mp ?_
      simp only [List.mem_append, List.mem_map]
      exact .inr (.inl ⟨_, hold, rfl⟩)
    obtain ⟨e, he, rfl⟩ := List.mem_map.mp hmem
    exact ⟨e, he, huser, hhash⟩
  · intro raw hissued i j userId userId' fresh fresh' hi hj hdone hdone'
    obtain ⟨old, hold, -, hhash⟩ := hrun.refreshed hi hdone
    obtain ⟨old', hold', -, hhash'⟩ := hrun.refreshed hj hdone'
    have hcount := hledger.count (·.hashed (config.hashRefreshToken raw))
    have hone : p.world.consumed.countP (·.2.hashed (config.hashRefreshToken raw)) ≤ 1 := by
      omega
    have heq := eq_of_countP_le_one hone hold hold' (decide_eq_true hhash)
      (decide_eq_true hhash')
    exact (Prod.mk.inj heq).1
  · intro raw hissued hdeleted i userId fresh hi hdone
    obtain ⟨old, hold, -, hhash⟩ := hrun.refreshed hi hdone
    obtain ⟨token, htoken, hhash'⟩ := hdeleted
    have hcount := hledger.count (·.hashed (config.hashRefreshToken raw))
    have hconsumed := List.countP_pos_iff
      (p := fun e : FlowId × RefreshToken => e.2.hashed (config.hashRefreshToken raw)) |>.mpr
        ⟨_, hold, decide_eq_true hhash⟩
    have hgone := List.countP_pos_iff
      (p := fun t : RefreshToken => t.hashed (config.hashRefreshToken raw)) |>.mpr
        ⟨_, htoken, decide_eq_true hhash'⟩
    omega

/-- Two requests come with the token of a new account: one of them gets the
next token. -/
theorem refresh_tokens_rotate_replayed :
    ∃ h p, Runs plainConfig (requestsOf
        [.register "ada@mono.poly" "pw", .refresh "a", .refresh "a"]) h p ∧
      p.flow 0 = .done (.issued 1 "a") ∧ p.flow 1 = .done (.issued 1 "b") ∧
      p.flow 2 = .done .unauthorized ∧
      Rotated plainConfig (requestsOf
        [.register "ada@mono.poly" "pw", .refresh "a", .refresh "a"]) p := by
  obtain ⟨h, p, hrun, hcheck⟩ := runs_of_replays
    [.register "ada@mono.poly" "pw", .refresh "a", .refresh "a"]
    ([0, 0, 0, 0, 0, 0, 1, 2, 1, 2].map (·, "a") ++ [1, 1, 1, 1].map (·, "b"))
    (fun _ p => ended p 0 (.issued 1 "a") && ended p 1 (.issued 1 "b") && ended p 2 .unauthorized)
    (by decide +kernel)
  simp only [Bool.and_eq_true, ended_iff] at hcheck
  obtain ⟨⟨hfirst, hsecond⟩, hthird⟩ := hcheck
  exact ⟨h, p, hrun, hfirst, hsecond, hthird, refresh_tokens_rotate hrun⟩

end Law

end Monopoly.Credentials
