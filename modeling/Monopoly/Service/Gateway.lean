import Monopoly.Service.Flows

/-!
# Monopoly.Service.Gateway

What the server makes of a text that a client sends: the envelope and its
payload are validated (`gateway/dispatcher.py`, `protocol/ws`), the handler
of its type builds the command (`gateway/handlers`), and what `apply_intent`
raises is reported to the sender.
-/

namespace Monopoly.Gateway

/-! ## texts -/

/-- A value that `json.loads` builds. -/
inductive Json where
  | null
  | bool (b : Bool)
  | int (n : Int)
  | float (text : String)
  | str (s : String)
  | arr (items : List Json)
  | obj (fields : List (String × Json))

/-- What `json.loads` comes to; `raised` is an exception other than
`JSONDecodeError`. -/
inductive Loaded where
  | value (data : Json)
  | decodeError
  | raised

/-- The code the gateway rests on: `json.loads`, what pydantic takes for an
`int`, a `str` and a `datetime`, its regular expressions, and the numbers
that stand for the ids. -/
structure Wire where
  loads : String → Loaded
  int : Json → Option Int
  str : Json → Option String
  datetime : Json → Option String
  fits : (pattern : String) → (text : String) → Bool
  idOf : String → Nat

/-- The fields of a `dict`. -/
abbrev Payload := List (String × Json)

/-- A field of type `T | None = None`. -/
def optionalField (parse : Json → Option α) : Option Json → Option (Option α)
  | none => some none
  | some .null => some none
  | some data => (parse data).map some

/-- A field with a default. -/
def fieldOr (default : α) (parse : Json → Option α) : Option Json → Option α
  | none => some default
  | some data => parse data

/-- An `int` with the bounds `ok`. -/
def boundedInt (w : Wire) (ok : Int → Prop) [DecidablePred ok] (data : Json) : Option Int :=
  (w.int data).filter fun n => decide (ok n)

/-- A `str` with the bounds `ok`. -/
def boundedStr (w : Wire) (ok : String → Prop) [DecidablePred ok] (data : Json) : Option String :=
  (w.str data).filter fun s => decide (ok s)

/-- `RawEnvelope`: the fields that are read. -/
structure RawEnvelope where
  v : Int
  type : String
  payload : Payload

/-- `dict[str, Any]`. -/
def Json.fields : Json → Option Payload
  | .obj fields => some fields
  | _ => none

/-- `RawEnvelope.model_validate`. -/
def RawEnvelope.validate (w : Wire) (data : Json) : Option RawEnvelope := do
  let fields ← data.fields
  let v ← fields.lookup "v" >>= w.int
  let type ← fields.lookup "type" >>= w.str
  let _ ← optionalField w.int (fields.lookup "seq")
  let _ ← fields.lookup "ts" >>= w.datetime
  let _ ← optionalField w.str (fields.lookup "idempotency_key")
  let payload ← fieldOr [] Json.fields (fields.lookup "payload")
  return { v, type, payload }

/-! ## payloads -/

/-- `STICKER_URL_PATTERN`. -/
def stickerUrlPattern : String := "^/stickers/[\\w-]+/[\\w.-]+$"

/-- `position: int = Field(ge=1)`, of the five payloads that name a
property. -/
def positionField (w : Wire) (payload : Payload) : Option Nat :=
  (payload.lookup "position" >>= boundedInt w (1 ≤ ·)).map Int.toNat

structure TradeOfferPayload where
  money : Int
  positions : List Int
  getOutOfJailCards : Int

/-- `list[int]`. -/
def intList (w : Wire) : Json → Option (List Int)
  | .arr items => items.mapM w.int
  | _ => none

def TradeOfferPayload.validate (w : Wire) (data : Json) : Option TradeOfferPayload := do
  let fields ← data.fields
  let money ← fields.lookup "money" >>= boundedInt w (0 ≤ ·)
  let positions ← fieldOr [] (intList w) (fields.lookup "positions")
  let getOutOfJailCards ←
    fieldOr 0 (boundedInt w (0 ≤ ·)) (fields.lookup "get_out_of_jail_cards")
  return { money, positions, getOutOfJailCards }

/-- `_to_offer`.  The payload takes any integers for positions, and a
`TradeOffer` of the model has naturals: a position below 0 goes as 0.  The
engine tells neither from the other, since it only ever looks for the space
that has the position, and the spaces count from 1 (`spaceAt_below`). -/
def toOffer (offer : TradeOfferPayload) : TradeOffer where
  money := offer.money
  positions := offer.positions.map Int.toNat
  getOutOfJailCards := offer.getOutOfJailCards

/-- `TradeResponse(response)`. -/
def tradeResponse : String → Option TradeResponse
  | "accept" => some .accept
  | "reject" => some .reject
  | "counter" => some .counter
  | _ => none

/-! ## handlers -/

/-- What the server does about a text. -/
inductive Reaction where
  /-- `send_error`. -/
  | error (code message : String)
  | errorThenClose (code message : String) (closeCode : Nat)
  /-- An exception leaves `dispatch`. -/
  | raised
  | chat (text : String)
  | sticker (url : String)
  | pong
  /-- `_apply_and_publish`. -/
  | intent (command : GameCommand)
  /-- `authorize_continue`, and the signal if the sender may. -/
  | animationContinue (interactionId : String)

/-- What a handler raises before it awaits anything. -/
inductive HandlerError where
  | validation
  | other

abbrev Handler := Wire → Payload → Except HandlerError Reaction

/-- `adapter.validate_python(payload)`. -/
def validated (x : Option α) : Except HandlerError α :=
  match x with
  | some a => .ok a
  | none => .error .validation

/-- A handler whose payload has no fields. -/
def plainHandler (command : PlayerId → GameCommand) : Handler := fun w _ =>
  .ok (.intent (command (w.idOf "")))

/-- A handler whose payload names a property. -/
def positionHandler (command : PlayerId → Nat → GameCommand) : Handler := fun w payload => do
  let position ← validated (positionField w payload)
  return .intent (command (w.idOf "") position)

def handleGameRollDice : Handler := plainHandler .rollDice
def handleGameBuyProperty : Handler := positionHandler .buyProperty
def handleGamePassBuy : Handler := plainHandler .passBuy
def handleGameEndTurn : Handler := plainHandler .endTurn
def handleGamePayJailFine : Handler := plainHandler .payJailFine
def handleGameUseJailCard : Handler := plainHandler .useJailCard
def handleGameBuildHouse : Handler := positionHandler .buildHouse
def handleGameSellHouse : Handler := positionHandler .sellHouse
def handleGameMortgage : Handler := positionHandler .mortgage
def handleGameUnmortgage : Handler := positionHandler .unmortgage
def handleGameDeclareBankruptcy : Handler := plainHandler .declareBankruptcy
def handleGameSurrender : Handler := plainHandler .surrender

def handleGameProposeTrade : Handler := fun w payload => do
  let targetId ← validated (payload.lookup "target_id" >>= w.str)
  let proposerOffer ← validated
    (payload.lookup "proposer_offer" >>= TradeOfferPayload.validate w)
  let targetRequest ← validated
    (payload.lookup "target_request" >>= TradeOfferPayload.validate w)
  return .intent (.proposeTrade (w.idOf "") (w.idOf targetId) (toOffer proposerOffer)
    (toOffer targetRequest))

def handleGameRespondTrade : Handler := fun w payload => do
  let tradeId ← validated (payload.lookup "trade_id" >>= w.str)
  let response ← validated (payload.lookup "response" >>= w.str)
  let counterOffer ← validated
    (optionalField (TradeOfferPayload.validate w) (payload.lookup "counter_offer"))
  match tradeResponse response with
  | none => .error .other
  | some response => return .intent (.respondTrade (w.idOf "") (w.idOf tradeId) response
      (counterOffer.map toOffer))

def handleGamePlaceBid : Handler := fun w payload => do
  let amount ← validated (payload.lookup "amount" >>= boundedInt w (0 < ·))
  return .intent (.placeBid (w.idOf "") amount)

def handleGameAnimationContinue : Handler := fun w payload => do
  let interactionId ← validated (payload.lookup "interaction_id" >>=
    boundedStr w fun s => 1 ≤ s.length ∧ s.length ≤ 128)
  return .animationContinue interactionId

def handleChatSend : Handler := fun w payload => do
  let text ← validated (payload.lookup "text" >>=
    boundedStr w fun s => 1 ≤ s.length ∧ s.length ≤ 1000)
  return .chat text

def handleStickerSend : Handler := fun w payload => do
  let url ← validated (payload.lookup "sticker_url" >>= boundedStr w fun s =>
    1 ≤ s.length ∧ s.length ≤ 256 ∧ w.fits stickerUrlPattern s = true)
  return .sticker url

def handlePong : Handler := fun _ _ => .ok .pong

/-- `HANDLERS`. -/
def handlers : List (String × Handler) :=
  [("chat.send", handleChatSend),
    ("chat.sticker_send", handleStickerSend),
    ("connection.pong", handlePong),
    ("game.roll_dice", handleGameRollDice),
    ("game.buy_property", handleGameBuyProperty),
    ("game.pass_buy", handleGamePassBuy),
    ("game.end_turn", handleGameEndTurn),
    ("game.pay_jail_fine", handleGamePayJailFine),
    ("game.use_jail_card", handleGameUseJailCard),
    ("game.build_house", handleGameBuildHouse),
    ("game.sell_house", handleGameSellHouse),
    ("game.mortgage", handleGameMortgage),
    ("game.unmortgage", handleGameUnmortgage),
    ("game.propose_trade", handleGameProposeTrade),
    ("game.respond_trade", handleGameRespondTrade),
    ("game.place_bid", handleGamePlaceBid),
    ("game.declare_bankruptcy", handleGameDeclareBankruptcy),
    ("game.surrender", handleGameSurrender),
    ("game.animation_continue", handleGameAnimationContinue)]

/-! ## dispatch -/

/-- `WS_PROTOCOL_VERSION`. -/
def wsProtocolVersion : Int := 1

/-- `dispatch`, once the envelope is validated. -/
def dispatchEnvelope (w : Wire) (envelope : RawEnvelope) : Reaction :=
  if envelope.v ≠ wsProtocolVersion then
    .errorThenClose "unsupported_version"
      s!"Expected protocol version {wsProtocolVersion}, got {envelope.v}" 4400
  else
    match handlers.lookup envelope.type with
    | none => .error "unknown_type" s!"Unknown message type: {envelope.type}"
    | some handler =>
        match handler w envelope.payload with
        | .error .validation => .error "malformed" "Invalid payload for message type"
        | .error .other => .error "internal" "Internal server error"
        | .ok reaction => reaction

/-- `dispatch`. -/
def dispatch (w : Wire) (raw : String) : Reaction :=
  match w.loads raw with
  | .raised => .raised
  | .decodeError => .error "malformed" "Invalid JSON"
  | .value data =>
      match RawEnvelope.validate w data with
      | none => .error "malformed" "Invalid message shape"
      | some envelope => dispatchEnvelope w envelope

/-! ## replies -/

end Monopoly.Gateway
