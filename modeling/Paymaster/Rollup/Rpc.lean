import Paymaster.Http.Status
import Paymaster.Json.Reader
import Paymaster.Rollup.Balance
/-!
# Asking a node over JSON-RPC

What is sent to a node for each question, and what its replies mean. The names of the methods can be
set; balances can be asked for directly only if the method for it is set.
-/

namespace Paymaster.Rollup

open Document (Decoder Fields)

/-- The names of the methods of a node. -/
structure MethodNames where
  /-- What the node says about itself. -/
  nodeInfo : String := "node_getNodeInfo"
  /-- What a storage slot holds. -/
  storageAt : String := "node_getPublicStorageAt"
  /-- Whether a message has arrived. -/
  messageReady : String := "node_isL1ToL2MessageSynced"
  deriving DecidableEq, Repr

/-- How a node is asked. -/
structure RpcSettings where
  /-- Where the node is. -/
  url : String
  /-- How long to wait for a reply, in milliseconds. -/
  timeout : Option UInt64
  balanceMethod : Option String
  /-- The other methods. -/
  methods : MethodNames
  deriving DecidableEq, Repr

namespace RpcSettings

/-- Decodes the names of the methods. -/
def methodsDecoder : Decoder MethodNames :=
  .record "struct RollupMethodMap" (MethodNames.mk
    <$> .defaulted "node_info" .text "node_getNodeInfo"
    <*> .defaulted "public_storage_at" .text "node_getPublicStorageAt"
    <*> .defaulted "message_ready" .text "node_isL1ToL2MessageSynced")

/-- Decodes how a node is asked. -/
def decoder : Decoder RpcSettings :=
  .record "struct RollupRpcConfig" (RpcSettings.mk
    <$> .required "url" .text
    <*> .defaulted "timeout_ms" (.nullable .uint64) none
    <*> .defaulted "balance_method" (.nullable .text) none
    <*> .defaulted "methods" methodsDecoder {})

/-- Judges how a node is asked. -/
def validate (s : RpcSettings) : Except RollupError Unit :=
  if Text.isBlankText s.url then .error (.config "rollup.url is empty")
  else match s.balanceMethod with
    | some m =>
      if Text.isBlankText m then .error (.config "rollup.balance_method is set but empty") else .ok ()
    | none => .ok ()

end RpcSettings

/-- A question to a node. -/
inductive Question where
  /-- What the node says about itself. -/
  | info
  /-- The balance of an account. -/
  | balance (token owner : Address)
  /-- What a storage slot of a contract holds. -/
  | storage (contract : Address) (slot : Word)
  /-- Whether a message has arrived. -/
  | ready (message : Word)
  deriving DecidableEq, Repr

/-- The method and the parameters of a question, unless it cannot be asked. -/
def Question.call (s : RpcSettings) : Question → Except RollupError (String × List Json)
  | .info => .ok (s.methods.nodeInfo, [])
  | .balance token owner =>
    match s.balanceMethod with
    | none => .error (.unsupported "no balance_method configured")
    | some m => .ok (m, [.text token.toHex, .text owner.toHex])
  | .storage contract slot =>
    .ok (s.methods.storageAt, [.text "latest", .text contract.toHex, .text slot.toHex])
  | .ready message => .ok (s.methods.messageReady, [.text message.toHex])

/-- What is sent for a call. -/
def requestBody (id : Nat) (method : String) (params : List Json) : Json :=
  .table [("jsonrpc", .text "2.0"), ("id", .nat id), ("method", .text method), ("params", .list params)]

/-- What comes back. -/
inductive HttpReply where
  /-- A reply with a status and a body. -/
  | answered (status : Nat) (body : List UInt8)
  /-- Nothing, or not in time. -/
  | lost
  deriving DecidableEq, Repr

/-- The code of a reply that says that the method is unknown. -/
def methodNotFound : Int := -32601

/-- An error that a node replies with. -/
structure RpcFailure where
  code : Int
  text : String
  deriving DecidableEq, Repr

/-- Decodes a signed number of 64 bits. -/
def int64Decoder : Decoder Int
  | .int n =>
    if Int64.minValue.toInt ≤ n ∧ n ≤ Int64.maxValue.toInt then .ok n
    else .error (.of (.invalidValue (.int n) "i64"))
  | t => .error (t.mismatch "i64")

/-- Decodes an error that a node replies with. -/
def failureDecoder : Decoder RpcFailure :=
  .record "struct RpcErrorObject"
    (RpcFailure.mk <$> .required "code" int64Decoder <*> .required "message" .text)

/-- Decodes a JSON value. -/
def valueDecoder : Decoder Json := fun t => (Json.ofTree t).mapError fun why => .of (.fault why)

/-- Decodes the result and the error of a reply. -/
def responseDecoder : Decoder (Option Json × Option RpcFailure) :=
  .record "struct RpcResponse" (Prod.mk
    <$> .defaulted "result" (.nullable valueDecoder) none
    <*> .defaulted "error" (.nullable failureDecoder) none)

/-- Why a call has no answer that says why. -/
def lost : RollupError := .network "no reply"

/-- Why a reply that is no reply to a call cannot be used. -/
def undecodable : RollupError := .malformed "undecodable body"

/-- The result in a reply to a call of a method. -/
def resultOf (method : String) : HttpReply → Except RollupError Json
  | .lost => .error lost
  | .answered status body =>
    if !Http.isSuccess status then
      .error (.network s!"{method}: http status {Http.describeStatus status}")
    else match Json.decode responseDecoder body with
      | .error _ => .error undecodable
      | .ok (_, some e) =>
        if e.code = methodNotFound then .error (.unsupported s!"{method}: {e.text}")
        else .error (.rpc s!"{method}: code {e.code} {e.text}")
      | .ok (some result, none) => .ok result
      | .ok (none, none) => .error (.malformed s!"{method}: missing result")

/-- Decodes the contract that holds the fee juice. -/
def contractsDecoder : Decoder String :=
  .record "struct RawProtocolAddresses" (.required "feeJuice" .text)

/-- Decodes what a node says about itself. -/
def infoDecoder : Decoder (String × UInt64 × String) :=
  .record "struct RawNodeInfo"
    ((fun version chain feeJuice => (version, chain, feeJuice))
      <$> .defaulted "nodeVersion" .text ""
      <*> .defaulted "l1ChainId" .uint64 0
      <*> .required "protocolContractAddresses" contractsDecoder)

/-- What a node says about itself, from a result. -/
def infoOfResult (j : Json) : Except RollupError NodeInfo :=
  match infoDecoder j.toTree with
  | .error e => .error (.malformed (e.message .jsonValue))
  | .ok (version, chain, feeJuice) =>
    match Address.ofText feeJuice with
    | .error e => .error (.malformed s!"feeJuice address: {e.message}")
    | .ok a => .ok ⟨a, chain, version⟩

/-- What a storage slot holds, from a result. -/
def wordOfResult : Json → Except RollupError Word
  | .text s =>
    match Word.ofText s with
    | .ok w => .ok w
    | .error e => .error (.malformed s!"storage word: {e.message}")
  | j => .error (.malformed s!"storage word is not a string: {j.compact}")

/-- Whether a message has arrived, from a result. -/
def readyOfResult : Json → Except RollupError Bool
  | .bool b => .ok b
  | j => .error (.malformed s!"message readiness is not a bool: {j.compact}")

/-- What a node answers. -/
inductive Answer where
  /-- What it says about itself. -/
  | info (i : NodeInfo)
  | balance (a : Amount)
  /-- What a storage slot holds. -/
  | storage (w : Word)
  /-- Whether a message has arrived. -/
  | ready (r : Bool)
  deriving DecidableEq, Repr

/-- The answer to a question, from a result. -/
def Question.answerOf (j : Json) : Question → Except RollupError Answer
  | .info => (infoOfResult j).map .info
  | .balance _ _ => (balanceOfJson j).map .balance
  | .storage _ _ => (wordOfResult j).map .storage
  | .ready _ => (readyOfResult j).map .ready

/-- A client of a node. -/
structure RpcClient where
  /-- How the node is asked. -/
  settings : RpcSettings
  /-- The number of the next request. -/
  nextId : Nat := 1

/-- The time to wait for a reply unless it is set, in milliseconds. -/
def defaultTimeout : UInt64 := 10000

namespace RpcClient

/-- A client with some settings. -/
def of (s : RpcSettings) : Except RollupError RpcClient :=
  s.validate.map fun () => { settings := s }

/-- The time to wait for a reply, in milliseconds. -/
def timeout (c : RpcClient) : UInt64 := c.settings.timeout.getD defaultTimeout

/-- What is sent for a question, unless it cannot be asked, and the client afterwards. -/
def send (c : RpcClient) (q : Question) : Except RollupError Json × RpcClient :=
  match q.call c.settings with
  | .error e => (.error e, c)
  | .ok (method, params) =>
    (.ok (requestBody c.nextId method params), { c with nextId := c.nextId + 1 })

/-- The answer to a question, from the reply to what was sent for it. -/
def receive (c : RpcClient) (q : Question) (reply : HttpReply) : Except RollupError Answer :=
  match q.call c.settings with
  | .error e => .error e
  | .ok (method, _) =>
    match resultOf method reply with
    | .error e => .error e
    | .ok result => q.answerOf result

end RpcClient
end Paymaster.Rollup
