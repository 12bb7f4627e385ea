import Monopoly.Game.State
import Monopoly.Lib.Coroutine

/-!
# Monopoly.Service.Credentials

Accounts and refresh tokens (`application/services/user_service.py`,
`infra/mongo/users`, `infra/mongo/refresh_tokens`): the requests that issue,
rotate and revoke the tokens, at the granularity of their repository calls.
-/

namespace Monopoly.Credentials

abbrev FlowId := Nat

/-- The user's document: the fields that signing in reads. -/
structure User where
  id : UserId
  email : String
  passwordHash : String

/-- The document of a refresh token.  Its `_id` is the hash. -/
structure RefreshToken where
  tokenHash : String
  userId : UserId
  expiresAt : Int
  deriving DecidableEq

/-- `db.users` and `db.refresh_tokens`, and what became of every token: who
inserted it, who consumed it, and which ones were deleted otherwise. -/
structure World where
  users : List User
  tokens : List RefreshToken
  inserted : List (FlowId × RefreshToken)
  consumed : List (FlowId × RefreshToken)
  deleted : List RefreshToken

inductive Op where
  /-- `datetime.now(UTC)`. -/
  | now
  | uuid4
  /-- `hash_password`, which draws a salt. -/
  | hashPassword (plain : String)
  /-- `generate_refresh_token`. -/
  | generateRefreshToken
  | createUser (user : User)
  | findByEmail (email : String)
  | findById (userId : UserId)
  | insertToken (token : RefreshToken)
  /-- `find_one_and_delete` of an unexpired token. -/
  | consume (tokenHash : String) (now : Int)
  | revoke (tokenHash : String)
  /-- The index on `expires_at` takes out an expired token. -/
  | purge (tokenHash : String) (now : Int)

/-- An insert answers whether there was no `DuplicateKeyError`. -/
abbrev Op.Ans : Op → Type
  | .now => Int
  | .uuid4 => UserId
  | .hashPassword _ | .generateRefreshToken => String
  | .createUser _ | .insertToken _ => Bool
  | .findByEmail _ | .findById _ => Option User
  | .consume .. => Option UserId
  | .revoke _ | .purge .. => Unit

/-- The token with this hash, if it passes the filter. -/
def World.find (w : World) (tokenHash : String) (ok : RefreshToken → Bool) :
    Option RefreshToken :=
  w.tokens.find? fun token => decide (token.tokenHash = tokenHash) && ok token

/-- The token is taken out of the collection. -/
def World.without (w : World) (token : RefreshToken) : World :=
  { w with tokens := w.tokens.erase token }

/-- The token is deleted, if there is one. -/
def World.delete (w : World) : Option RefreshToken → World
  | none => w
  | some token => { w.without token with deleted := token :: w.deleted }

/-- What the operation answers and leaves. -/
def exec (flow : FlowId) (w : World) : (op : Op) → op.Ans → World → Prop
  | .createUser user, created, w' =>
      if ∃ u ∈ w.users, u.email = user.email ∨ u.id = user.id then created = false ∧ w' = w
      else created = true ∧ w' = { w with users := user :: w.users }
  | .findByEmail email, found, w' =>
      found = w.users.find? (fun u => decide (u.email = email)) ∧ w' = w
  | .findById userId, found, w' =>
      found = w.users.find? (fun u => decide (u.id = userId)) ∧ w' = w
  | .insertToken token, done, w' =>
      if ∃ t ∈ w.tokens, t.tokenHash = token.tokenHash then done = false ∧ w' = w
      else done = true ∧
        w' = { w with
          tokens := token :: w.tokens
          inserted := (flow, token) :: w.inserted }
  | .consume tokenHash now, userId, w' =>
      match w.find tokenHash fun t => decide (now < t.expiresAt) with
      | none => userId = none ∧ w' = w
      | some token => userId = some token.userId ∧
          w' = { w.without token with consumed := (flow, token) :: w.consumed }
  | .revoke tokenHash, _, w' => w' = w.delete (w.find tokenHash fun _ => true)
  | .purge tokenHash now, _, w' =>
      w' = w.delete (w.find tokenHash fun t => decide (t.expiresAt ≤ now))
  | _, _, w' => w' = w

abbrev Flow := Co Op Op.Ans

/-- `await`, of one operation. -/
abbrev ask (op : Op) : Flow op.Ans := Co.await op

/-- The code the service rests on, and its settings. -/
structure Config where
  hashRefreshToken : String → String
  verifyPassword : (plain hashed : String) → Bool
  lower : String → String
  refreshTokenExpireDays : Nat

/-- How a request ends. -/
inductive Outcome where
  /-- `AuthResponse`: the user, and the raw refresh token. -/
  | issued (userId : UserId) (refreshToken : String)
  | duplicateEmail
  | invalidCredentials
  | unauthorized
  /-- A `DuplicateKeyError` that is not caught. -/
  | raised
  | done
  deriving DecidableEq

section Service

variable (config : Config)

/-- A day, in milliseconds. -/
def dayMs : Int := 86400000

/-- `_issue_tokens`.  The access token is not stored. -/
def issueTokens (userId : UserId) : Flow Outcome := do
  let raw : String ← ask .generateRefreshToken
  let now : Int ← ask .now
  let inserted : Bool ← ask (.insertToken
    { tokenHash := config.hashRefreshToken raw, userId
      expiresAt := now + config.refreshTokenExpireDays * dayMs })
  return if inserted then .issued userId raw else .raised

/-- Tokens for the account, if it was created. -/
def issueIfCreated (userId : UserId) : Bool → Flow Outcome
  | true => issueTokens config userId
  | false => return .duplicateEmail

def register (email password : String) : Flow Outcome := do
  let passwordHash : String ← ask (.hashPassword password)
  let id : UserId ← ask .uuid4
  let created : Bool ← ask (.createUser { id, email := config.lower email, passwordHash })
  issueIfCreated config id created

/-- Tokens for the account, if there is one with this password. -/
def issueIfVerified (password : String) : Option User → Flow Outcome
  | none => return .invalidCredentials
  | some user =>
      if config.verifyPassword password user.passwordHash then issueTokens config user.id
      else return .invalidCredentials

def login (email password : String) : Flow Outcome := do
  let found : Option User ← ask (.findByEmail (config.lower email))
  issueIfVerified config password found

/-- Tokens for the account, if it is there. -/
def issueIfFound : Option User → Flow Outcome
  | none => return .unauthorized
  | some user => issueTokens config user.id

/-- Tokens for the owner of the token, if it was consumed. -/
def issueIfConsumed : Option UserId → Flow Outcome
  | none => return .unauthorized
  | some userId => do
      let user : Option User ← ask (.findById userId)
      issueIfFound config user

/-- `refresh`: the old token is consumed, a fresh one issued. -/
def refresh (refreshToken : String) : Flow Outcome := do
  let now : Int ← ask .now
  let userId : Option UserId ← ask (.consume (config.hashRefreshToken refreshToken) now)
  issueIfConsumed config userId

def logout (refreshToken : String) : Flow Outcome := do
  ask (.revoke (config.hashRefreshToken refreshToken))
  return .done

/-- One row that the index on `expires_at` finds expired. -/
def purge (tokenHash : String) : Flow Outcome := do
  let now : Int ← ask .now
  ask (.purge tokenHash now)
  return .done

/-- What a flow is started for. -/
inductive Request where
  | register (email password : String)
  | login (email password : String)
  | refresh (refreshToken : String)
  | logout (refreshToken : String)
  | purge (tokenHash : String)

/-- The request starts a new session of its user. -/
def Request.signsIn : Request → Bool
  | .register .. | .login .. => true
  | _ => false

/-- The coroutine that serves a request. -/
def serve : Request → Flow Outcome
  | .register email password => register config email password
  | .login email password => login config email password
  | .refresh refreshToken => refresh config refreshToken
  | .logout refreshToken => logout config refreshToken
  | .purge tokenHash => purge tokenHash

end Service

/-- Before the first token. -/
structure Opened (w : World) : Prop where
  tokens : w.tokens = []
  inserted : w.inserted = []
  consumed : w.consumed = []
  deleted : w.deleted = []

abbrev Runs (config : Config) (requests : FlowId → Request) :=
  Pool.Runs exec Opened fun i => serve config (requests i)

/-! ## replays -/

/-- At the time `0` for the user `1`, with the hint for a random token. -/
def perform : Performer FlowId World Op String Op.Ans
  | _, _, w, .now => some (0, w)
  | _, _, w, .uuid4 => some (1, w)
  | _, _, w, .hashPassword plain => some (plain, w)
  | _, hint, w, .generateRefreshToken => some (hint, w)
  | _, _, w, .createUser user =>
      if ∃ u ∈ w.users, u.email = user.email ∨ u.id = user.id then some (false, w)
      else some (true, { w with users := user :: w.users })
  | _, _, w, .findByEmail email => some (w.users.find? fun u => decide (u.email = email), w)
  | _, _, w, .findById userId => some (w.users.find? fun u => decide (u.id = userId), w)
  | i, _, w, .insertToken token =>
      if ∃ t ∈ w.tokens, t.tokenHash = token.tokenHash then some (false, w)
      else some (true, { w with
        tokens := token :: w.tokens
        inserted := (i, token) :: w.inserted })
  | i, _, w, .consume tokenHash now =>
      match w.find tokenHash fun t => decide (now < t.expiresAt) with
      | none => some (none, w)
      | some token => some (some token.userId,
          { w.without token with consumed := (i, token) :: w.consumed })
  | _, _, w, .revoke tokenHash => some ((), w.delete (w.find tokenHash fun _ => true))
  | _, _, w, .purge tokenHash now =>
      some ((), w.delete (w.find tokenHash fun t => decide (t.expiresAt ≤ now)))

theorem perform_exec (i : FlowId) (hint : String) (w : World) (op : Op) (r : op.Ans) (w' : World)
    (h : perform i hint w op = some (r, w')) : exec i w op r w' := by
  cases op with
  | createUser user =>
      simp only [perform] at h
      simp only [exec]
      split at h <;> simp_all
  | insertToken token =>
      simp only [perform] at h
      simp only [exec]
      split at h <;> simp_all
  | consume tokenHash now =>
      simp only [perform] at h
      simp only [exec]
      split at h <;> simp_all
  | findByEmail | findById =>
      obtain ⟨rfl, rfl⟩ := Prod.mk.inj (Option.some.inj h)
      exact ⟨rfl, rfl⟩
  | _ =>
      obtain ⟨-, rfl⟩ := Prod.mk.inj (Option.some.inj h)
      rfl

/-- Plain passwords and tokens, which last a day. -/
def plainConfig : Config where
  hashRefreshToken := id
  verifyPassword plain hashed := decide (plain = hashed)
  lower := id
  refreshTokenExpireDays := 1

/-- The requests of the first flows; all the others log out. -/
def requestsOf (requests : List Request) (i : FlowId) : Request := requests.getD i (.logout "")

theorem runs_of_replays (requests : List Request) (turns : List (FlowId × String))
    (check : List (Taken (Pool FlowId World Op Op.Ans Outcome) (Event FlowId Op Op.Ans)) →
      Pool FlowId World Op Op.Ans Outcome → Bool)
    (hreplays : Pool.Replays perform
      ⟨⟨[], [], [], [], []⟩, fun i => serve plainConfig (requestsOf requests i)⟩ turns check =
      true) : ∃ h p, Runs plainConfig (requestsOf requests) h p ∧ check h p = true :=
  Pool.runs_of_replays perform_exec ⟨rfl, rfl, rfl, rfl⟩ rfl hreplays

/-- The flow has ended so. -/
def ended (p : Pool FlowId World Op Op.Ans Outcome) (i : FlowId) (outcome : Outcome) : Bool :=
  match p.flow i with
  | .done a => decide (a = outcome)
  | .call .. => false

theorem ended_iff {p : Pool FlowId World Op Op.Ans Outcome} {i : FlowId} {outcome : Outcome} :
    ended p i outcome = true ↔ p.flow i = .done outcome := by
  cases hflow : p.flow i <;> simp [ended, hflow]

end Monopoly.Credentials
