import Monopoly.Rules.Helpers

/-!
# Monopoly.Rules.Payments

Charges (`domain/game/rules/payments.py`).  The event lists of the source
are always empty and are left out.
-/

namespace Monopoly

/-- `_transfer_funds`: `none` pays the bank. -/
def transferFunds (state : GameState) (payerId : PlayerId) (creditorId : Option PlayerId)
    (amount : Int) : Py GameState := do
  let payer ← pyNext (fun p => decide (p.id = payerId)) state.players
  let payer ← updatePlayerNetWorth { payer with balance := payer.balance - amount }
    state.spaces state.gameMode
  let players ← assignPlayer state.players payerId payer
  match creditorId with
  | none => return { state with players }
  | some creditorId =>
      let creditor ← pyNext (fun p => decide (p.id = creditorId)) players
      let creditor ← updatePlayerNetWorth { creditor with balance := creditor.balance + amount }
        state.spaces state.gameMode
      let players ← assignPlayer players creditorId creditor
      return { state with players }

/-- Pay `amount`, or open a bankruptcy when the payer cannot. -/
def attemptPayment (state : GameState) (payerId : PlayerId) (amount : Int)
    (creditorId : Option PlayerId) : Py GameState := do
  if amount ≤ 0 then return state
  let payer ← getPlayerByIdFromState state payerId
  if payer.balance ≥ amount then
    transferFunds state payerId creditorId amount
  else if state.bankruptcy.isSome then return state
  else
    return { state with
      bankruptcy := some { debtorId := payerId, creditorId, amountOwed := amount }
      turn := { state.turn with phase := .bankruptResolution } }

/-- Settle the pending debt once the debtor can pay it. -/
def trySettleDebt (state : GameState) : Py GameState :=
  match state.bankruptcy with
  | none => return state
  | some debt => do
      let debtor ← getPlayerByIdFromState state debt.debtorId
      if debtor.balance ≥ debt.amountOwed then
        let state ← transferFunds state debtor.id debt.creditorId debt.amountOwed
        return { state with
          bankruptcy := none
          turn := { state.turn with phase := .postRoll } }
      else return state

end Monopoly
