import Mathlib.Data.List.TakeDrop
import Mathlib.Data.Prod.Lex
import Mathlib.Data.String.Basic
import Monopoly.Lib.Python
import Monopoly.Lib.Ranking
import Monopoly.Service.Session

/-!
# Monopoly.Service.Listing

The list of the public rooms, page by page (`list_public_lobby` of
`application/services/session_service.py`, `list_public_waiting` of
`infra/mongo/sessions/repository.py`).
-/

namespace Monopoly.Lobby

/-- What the list reads of a document of `db.sessions`. -/
structure ListedSession where
  id : String
  status : SessionStatus
  visibility : SessionVisibility
  createdAt : Int
  deriving DecidableEq, Repr

/-- The order of `sort([("created_at", -1), ("_id", -1)])`. -/
def ListedSession.key (session : ListedSession) : Int ×ₗ String :=
  toLex (session.createdAt, session.id)

/-- A room that is open to everybody and has not started. -/
def ListedSession.isOpen (session : ListedSession) : Bool :=
  decide (session.status = .waiting ∧ session.visibility = .publicRoom)

/-- The `$or` of the query. -/
def ListedSession.isBelow (session : ListedSession) (createdAt : Int) (id : String) : Bool :=
  decide (session.createdAt < createdAt ∨ session.createdAt = createdAt ∧ session.id < id)

/-- `list_public_waiting`, on the documents `collection`. -/
def listPublicWaiting (collection : List ListedSession) (limit : Nat)
    (cursor : Option (Int × String)) : List ListedSession :=
  let found := collection.filter fun session =>
    session.isOpen && cursor.all fun (createdAt, id) => session.isBelow createdAt id
  (pySortedDesc ListedSession.key found).take limit

/-- `s.split("|", 1)`, into two parts. -/
def splitAtBar (s : String) : Py (String × String) :=
  match s.toList.span (· ≠ '|') with
  | (_, []) => .error .valueError
  | (before, _ :: after) => .ok (String.ofList before, String.ofList after)

section Cursors

variable (isoformat : Int → String) (fromisoformat : String → Py Int)

/-- `_encode_cursor`. -/
def encodeCursor (createdAt : Int) (sessionId : String) : String :=
  isoformat createdAt ++ "|" ++ sessionId

/-- `_decode_cursor`. -/
def decodeCursor (cursor : String) : Py (Int × String) := do
  let (createdAtStr, sessionId) ← splitAtBar cursor
  return (← fromisoformat createdAtStr, sessionId)

/-- The cursor of a call: `if cursor` passes over an empty one. -/
def readCursor : Option String → Py (Option (Int × String))
  | none => return none
  | some cursor =>
      if cursor = "" then return none
      else return some (← decodeCursor fromisoformat cursor)

/-- `list_public_lobby`. -/
def listPublicLobby (collection : List ListedSession) (limit : Nat) (cursor : Option String) :
    Py (List ListedSession × Option String) := do
  let after ← readCursor fromisoformat cursor
  let sessions := listPublicWaiting collection (limit + 1) after
  if limit < sessions.length then
    let sessions := sessions.take limit
    let last ← pyGet sessions (-1)
    return (sessions, some (encodeCursor isoformat last.createdAt last.id))
  else return (sessions, none)

end Cursors

end Monopoly.Lobby
