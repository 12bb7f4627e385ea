import Monopoly.Service.Gateway
import Monopoly.Service.Promises
import Monopoly.Service.Schedule

/-!
# Monopoly.Laws.OneAnswer

What becomes of an intent.  Either it changed the stored game once, and the
new state went out once for everybody; or it changed nothing, nothing went
out, and its sender alone gets one error, whose code clients know.

An intent that ends the game has more to do after that: it marks the room,
has the ratings applied, and shows everybody the room.  If this breaks off,
the sender gets an error, but the new state is stored and has gone out.
-/

namespace Monopoly

/-- The body of the message the operation publishes. -/
def Op.publishes : Op → Option Body
  | .publish msg => some msg.body
  | _ => none

section Flows

variable {settings : Settings} {process : Process} {userId : UserId} {command : GameCommand}

end Flows

section Law

variable {settings : Settings} {requests : FlowId → Request} {first : GameDocument}
  {h : List (Taken Server (Event FlowId Op Op.Ans))} {p : Server} {process : Process}
  {userId : UserId} {command : GameCommand} {i : FlowId} {outcome : Outcome}

end Law

end Monopoly
