import TelegramPub.Ports.InternalMessageParser
import TelegramPub.Ports.MessageTransaction
import TelegramPub.Verified.FirstMatch
import Mathlib.Data.List.Infix

/-!
# MTRequestMessageService

The service that sends API requests and matches answers to them.  Its state
is the list of requests, each with the context of its last transmission, and
the list of answers to be dropped.

Every callback of the class is one function here, under its own name.  Where
the source enumerates `_requests`, the port maps over the list; where it stops
at the first match, the port uses `updateFirst`.  The blocks that a message
transaction captures are the record `RequestTransaction`; calling a block is
one of the functions `prepared`, `failed` and `completion`.

Times are `CFAbsoluteTime` seconds and taken as rational numbers.
-/

namespace TelegramPub.Ports.RequestMessageService

open Verified.Bytes Verified.FirstMatch Ports.TLBuffer Ports.InternalMessageParser
open Ports.MessageTransaction

/-- `MTRequestContext`. -/
structure RequestContext where
  messageId : Int
  messageSeqNo : Int
  transactionId : Option TransactionId
  quickAckId : Int
  waitingForMessageId : Bool := false
  delivered : Bool := false
  responseMessageId : Int := 0
  willInitializeApi : Bool := false
  deriving DecidableEq

/-- `MTRequestErrorContext`. -/
structure RequestErrorContext where
  minimalExecuteTime : Rat := 0
  internalServerErrorCount : Nat := 0
  floodWaitSeconds : Int := 0
  waitingForTokenExport : Bool := false
  deriving DecidableEq

/-- `MTRequest`.  Requests are objects, so equality of requests is equality of
their `internalId`; `shouldDependOnRequest` is given the other request by its
id.  The three `Bool` fields after it say whether the block is set. -/
structure Request (ρ : Type) where
  internalId : Nat
  payload : Data
  responseParser : Option Data → Option ρ
  hasHighPriority : Bool := false
  dependsOnPasswordEntry : Bool := true
  passthroughPasswordEntryError : Bool := false
  shouldContinueExecutionWithErrorContext : Option (RequestErrorContext → Bool) := none
  shouldDependOnRequest : Option (Nat → Bool) := none
  hasCompleted : Bool := true
  hasAcknowledgementReceived : Bool := false
  hasProgressUpdated : Bool := false
  requestContext : Option RequestContext := none
  errorContext : Option RequestErrorContext := none

/-- `MTDropResponseContext`. -/
structure DropResponseContext where
  dropMessageId : Int
  messageId : Int := 0
  messageSeqNo : Int := 0
  deriving DecidableEq

/-- The part of `MTApiEnvironment` the service writes on the wire. -/
structure ApiEnvironment where
  apiId : Int
  deviceModel : String
  systemVersion : String
  appVersion : String
  systemLangCode : String
  langPack : String
  langPackCode : String
  apiInitializationHash : String
  disableUpdates : Bool
  deriving DecidableEq

/-- `MTRpcError`.  The description is `nil` when it was not UTF-8. -/
structure RpcError where
  errorCode : Int
  errorDescription : Option String
  deriving DecidableEq

/-- The blocks of one message transaction capture these. -/
structure RequestTransaction where
  messagePayload : List OutgoingMessage
  requestInternalIdToMessageInternalId : List (Nat × Nat)
  dropMessageIdToMessageInternalId : List (Int × Nat)
  requestsWillInitializeApi : Bool

/-- The state of the service, together with what it reads and writes of
`MTContext` for its datacenter. -/
structure Service (ρ : Type) where
  requests : List (Request ρ) := []
  dropReponseContexts : List DropResponseContext := []
  apiEnvironment : Option ApiEnvironment := none
  forceBackgroundRequests : Bool := false
  currentLayer : Int := 0
  requestsServiceTimer : Option Rat := none
  nextMessageInternalId : Nat := 0
  passwordInputRequired : Bool := false
  requiresAuthToken : Bool := false
  authApiInitializationHash : Option String := none

/-- What the service does to the outside. -/
inductive Output (ρ : Type) where
  | completed (internalId : Nat) (result : Option ρ) (timestamp : Int)
      (error : Option RpcError)
  | acknowledgementReceived (internalId : Nat)
  | progressUpdated (internalId : Nat)
  | requestTransportTransaction
  | requestSecureTransportReset
  | didCompleteAllRequests
  | authorizationRequired
  | raised (exception : NSException)

variable {ρ : Type}

/-! ## Adding and removing -/

/-- The internal ids of `_requests`, in order. -/
def Service.internalIds (s : Service ρ) : List Nat := s.requests.map (·.internalId)

/-- `addRequest:`. -/
def addRequest (s : Service ρ) (request : Request ρ) : Service ρ × List (Output ρ) :=
  if request.internalId ∈ s.internalIds then (s, [])
  else ({ s with requests := s.requests ++ [request] }, [.requestTransportTransaction])

/-- `minimalExecuteTime > currentTime + DBL_EPSILON`; the epsilon only breaks
ties of the clock. -/
def RequestErrorContext.isDelayed (e : RequestErrorContext) (currentTime : Rat) : Bool :=
  currentTime < e.minimalExecuteTime

/-- The wait the timer needs for a request, if the request waits at all. -/
def waitTime (currentTime : Rat) (request : Request ρ) : Option Rat :=
  match request.errorContext, request.requestContext with
  | some e, none =>
    if e.isDelayed currentTime then some (e.minimalExecuteTime - currentTime) else none
  | _, _ => none

/-- A request whose delay is over; `updateRequestsTimer` clears its time. -/
def isDue (currentTime : Rat) (request : Request ρ) : Bool :=
  match request.errorContext, request.requestContext with
  | some e, none => !e.isDelayed currentTime
  | _, _ => false

def clearExecuteTime (request : Request ρ) : Request ρ :=
  { request with
    errorContext := request.errorContext.map ({ · with minimalExecuteTime := 0 }) }

/-- `updateRequestsTimer`. -/
def updateRequestsTimer (s : Service ρ) (currentTime : Rat) :
    Service ρ × List (Output ρ) :=
  let waits := s.requests.filterMap (waitTime currentTime)
  let needTransaction := s.requests.any (isDue currentTime)
  ({ s with
      requests := s.requests.map fun request =>
        if isDue currentTime request then clearExecuteTime request else request
      requestsServiceTimer := waits.min? },
    if needTransaction then [.requestTransportTransaction] else [])

/-- `removeRequestByInternalId:askForReconnectionOnDrop:`. -/
def removeRequestByInternalId (s : Service ρ) (internalId : Nat)
    (askForReconnectionOnDrop : Bool) (currentTime : Rat) :
    Service ρ × List (Output ρ) :=
  let isIt := fun request : Request ρ => request.internalId == internalId
  let found := s.requests.find? isIt
  let dropped := found.bind (·.requestContext)
  let requests := updateFirst isIt (fun _ => none) s.requests
  let drops :=
    match dropped with
    | some context => [{ dropMessageId := context.messageId }]
    | none => []
  let dropOutputs : List (Output ρ) :=
    if dropped.isSome then
      (if askForReconnectionOnDrop then [.requestSecureTransportReset] else []) ++
        [.requestTransportTransaction]
    else []
  let completeOutputs : List (Output ρ) :=
    if found.isSome && requests.isEmpty then [.didCompleteAllRequests] else []
  let timed := updateRequestsTimer
    { s with requests, dropReponseContexts := s.dropReponseContexts ++ drops } currentTime
  (timed.1, dropOutputs ++ completeOutputs ++ timed.2)

/-! ## Emitting a transaction -/

/-- `decorateRequestData:initializeApi:unresolvedDependencyOnRequestInternalId:`,
with the unresolved dependency as the second component: `initConnection`, `invokeWithoutUpdates`
and `invokeAfterMsg` on the nearest of the requests before this one. -/
def decorateRequestData (s : Service ρ) (request : Request ρ) (initializeApi : Bool) :
    Data × Option Nat :=
  let currentData := request.payload
  let currentData :=
    match initializeApi, s.apiEnvironment with
    | true, some env =>
      let layerSupportsLangpacks := decide (67 ≤ s.currentLayer)
      int32Bytes 0xda9b0d0d ++ int32Bytes s.currentLayer ++
        int32Bytes (if layerSupportsLangpacks then 0xc7481da6 else 0x69796de9) ++
        int32Bytes env.apiId ++ tlString env.deviceModel ++
        tlString env.systemVersion ++ tlString env.appVersion ++
        tlString env.systemLangCode ++
        (if layerSupportsLangpacks then
          tlString env.langPack ++ tlString env.langPackCode else []) ++ currentData
    | _, _ => currentData
  let currentData :=
    if s.apiEnvironment.any (·.disableUpdates) || s.forceBackgroundRequests then
      int32Bytes 0xbf9459b7 ++ currentData
    else currentData
  match request.shouldDependOnRequest with
  | none => (currentData, none)
  | some shouldDepend =>
    let earlier := (s.requests.takeWhile (·.internalId != request.internalId)).reverse
    match earlier.find? (fun other => shouldDepend other.internalId) with
    | none => (currentData, none)
    | some other =>
      match other.requestContext with
      | some context =>
        (int32Bytes 0xcb9f372d ++ int64Bytes context.messageId ++ currentData, none)
      | none => (currentData, some other.internalId)

/-- Whether the emission loop passes over the request with `continue`. -/
def isHeldBack (s : Service ρ) (currentTime : Rat) (request : Request ρ) : Bool :=
  (request.dependsOnPasswordEntry && s.passwordInputRequired) ||
    match request.errorContext with
    | some e => e.isDelayed currentTime || e.waitingForTokenExport
    | none => false

/-- The condition under which a request is put into a message. -/
def needsSending (request : Request ρ) : Bool :=
  match request.requestContext with
  | none => true
  | some c => !c.waitingForMessageId && !c.delivered && c.transactionId.isNone

def isEmitted (s : Service ρ) (currentTime : Rat) (request : Request ρ) : Bool :=
  !isHeldBack s currentTime request && needsSending request

/-- The block that adds `invokeAfterMsg` for a dependency that is sent in the
same transaction. -/
def dependencyDecorator (requestInternalIdToMessageInternalId : List (Nat × Nat))
    (unresolved : Nat) (currentData : Data)
    (messageInternalIdToPreparedMessage : Nat → Option PreparedMessage) : Data :=
  match (dictionary requestInternalIdToMessageInternalId unresolved).bind
      messageInternalIdToPreparedMessage with
  | some preparedMessage =>
    int32Bytes 0xcb9f372d ++ int64Bytes preparedMessage.messageId ++ currentData
  | none => currentData

/-- The outgoing message of one emitted request. -/
def requestMessage (s : Service ρ) (requestsWillInitializeApi : Bool)
    (requestInternalIdToMessageInternalId : List (Nat × Nat))
    (request : Request ρ) (messageInternalId : Nat) : OutgoingMessage :=
  let (data, unresolved) := decorateRequestData s request requestsWillInitializeApi
  { internalId := messageInternalId
    data
    messageId := (request.requestContext.map (·.messageId)).getD 0
    messageSeqNo := (request.requestContext.map (·.messageSeqNo)).getD 0
    needsQuickAck := request.hasAcknowledgementReceived
    hasHighPriority := request.hasHighPriority
    dynamicDecorator :=
      unresolved.map (dependencyDecorator requestInternalIdToMessageInternalId) }

/-- The `dropAnswer` message of one drop context. -/
def dropMessage (dropContext : DropResponseContext) (messageInternalId : Nat) :
    OutgoingMessage :=
  { internalId := messageInternalId
    data := int32Bytes 0x58e4a740 ++ int64Bytes dropContext.dropMessageId
    messageId := dropContext.messageId
    messageSeqNo := dropContext.messageSeqNo
    requiresConfirmation := false }

/-- `requestsWillInitializeApi`. -/
def willInitializeApi (s : Service ρ) : Bool :=
  match s.apiEnvironment with
  | none => false
  | some env => !(s.authApiInitializationHash == some env.apiInitializationHash)

/-- The emitted requests with the internal ids their messages get. -/
def emittedRequests (s : Service ρ) (currentTime : Rat) : List (Request ρ × Nat) :=
  (s.requests.filter (isEmitted s currentTime)).zipIdx s.nextMessageInternalId

/-- `mtProtoMessageTransaction:`. -/
def mtProtoMessageTransaction (s : Service ρ) (currentTime : Rat) :
    Option RequestTransaction × Service ρ :=
  let requestsWillInitializeApi := willInitializeApi s
  let emitted := emittedRequests s currentTime
  let requestIds := emitted.map fun (request, messageInternalId) =>
    (request.internalId, messageInternalId)
  let drops := s.dropReponseContexts.zipIdx (s.nextMessageInternalId + emitted.length)
  let messages :=
    emitted.map (fun (request, messageInternalId) =>
      requestMessage s requestsWillInitializeApi requestIds request messageInternalId) ++
    drops.map (fun (dropContext, messageInternalId) =>
      dropMessage dropContext messageInternalId)
  let s' := { s with nextMessageInternalId := s.nextMessageInternalId + messages.length }
  if messages.isEmpty then (none, s')
  else
    (some
      { messagePayload := messages
        requestInternalIdToMessageInternalId := requestIds
        dropMessageIdToMessageInternalId := drops.map fun (dropContext, messageInternalId) =>
          (dropContext.dropMessageId, messageInternalId)
        requestsWillInitializeApi }, s')

/-! ## The blocks of a transaction -/

/-- The message a transaction made for a request. -/
def RequestTransaction.messageFor (t : RequestTransaction) (request : Request ρ) :
    Option Nat :=
  dictionary t.requestInternalIdToMessageInternalId request.internalId

/-- The `prepared` block. -/
def prepared (s : Service ρ) (t : RequestTransaction)
    (messageInternalIdToPreparedMessage : Nat → Option PreparedMessage) : Service ρ :=
  { s with
    requests := s.requests.map fun request =>
      match (t.messageFor request).bind messageInternalIdToPreparedMessage with
      | some preparedMessage =>
        { request with
          requestContext := some
            { messageId := preparedMessage.messageId
              messageSeqNo := preparedMessage.seqNo
              transactionId := none
              quickAckId := 0
              willInitializeApi := t.requestsWillInitializeApi
              waitingForMessageId := true } }
      | none => request }

/-- `request.requestContext.waitingForMessageId = false`. -/
def stopWaiting (request : Request ρ) : Request ρ :=
  { request with
    requestContext := request.requestContext.map ({ · with waitingForMessageId := false }) }

/-- The `failed` block. -/
def failed (s : Service ρ) (t : RequestTransaction) : Service ρ :=
  { s with
    requests := s.requests.map fun request =>
      if (t.messageFor request).isSome then stopWaiting request else request }

/-- What the `completion` block does to one request. -/
def completeRequest (t : RequestTransaction)
    (messageInternalIdToTransactionId : Nat → Option TransactionId)
    (messageInternalIdToPreparedMessage : Nat → Option PreparedMessage)
    (messageInternalIdToQuickAckId : Nat → Option Int)
    (request : Request ρ) : Request ρ :=
  match t.messageFor request with
  | none => request
  | some messageInternalId =>
    match messageInternalIdToPreparedMessage messageInternalId,
        messageInternalIdToTransactionId messageInternalId with
    | some preparedMessage, some transactionId =>
      { request with
        requestContext := some
          { messageId := preparedMessage.messageId
            messageSeqNo := preparedMessage.seqNo
            transactionId := some transactionId
            quickAckId := (messageInternalIdToQuickAckId messageInternalId).getD 0
            willInitializeApi := t.requestsWillInitializeApi } }
    | _, _ => stopWaiting request

/-- What the `completion` block does to one drop context. -/
def completeDrop (t : RequestTransaction)
    (messageInternalIdToPreparedMessage : Nat → Option PreparedMessage)
    (dropContext : DropResponseContext) : DropResponseContext :=
  match (dictionary t.dropMessageIdToMessageInternalId dropContext.dropMessageId).bind
      messageInternalIdToPreparedMessage with
  | some preparedMessage =>
    { dropContext with
      messageId := preparedMessage.messageId, messageSeqNo := preparedMessage.seqNo }
  | none => dropContext

/-- The `completion` block.  A payload that was not accepted is reported by
three `nil` dictionaries. -/
def completion (s : Service ρ) (t : RequestTransaction)
    (messageInternalIdToTransactionId : Nat → Option TransactionId)
    (messageInternalIdToPreparedMessage : Nat → Option PreparedMessage)
    (messageInternalIdToQuickAckId : Nat → Option Int) : Service ρ :=
  { s with
    requests := s.requests.map (completeRequest t messageInternalIdToTransactionId
      messageInternalIdToPreparedMessage messageInternalIdToQuickAckId)
    dropReponseContexts :=
      s.dropReponseContexts.map (completeDrop t messageInternalIdToPreparedMessage) }

/-- `[description rangeOfString:text].location != NSNotFound`.  Sent to `nil`
the message returns a zero range, which is not `NSNotFound`. -/
def mentions (description : Option String) (text : String) : Bool :=
  match description with
  | none => true
  | some d => decide (text.toList <:+: d.toList)

/-- `scanInt:` of `NSScanner`: leading white space, an optional sign, digits,
saturated to the range of `int`. -/
def scanInt (text : List Char) : Option Int :=
  let text := text.dropWhile (·.isWhitespace)
  let (negative, text) :=
    match text with
    | '-' :: rest => (true, rest)
    | '+' :: rest => (false, rest)
    | rest => (false, rest)
  let digits := text.takeWhile (·.isDigit)
  if digits.isEmpty then none
  else
    let value : Int := digits.foldl (fun n c => 10 * n + (c.toNat - '0'.toNat)) 0
    some (if negative then max (-(2 ^ 31)) (-value) else min (2 ^ 31 - 1) value)

/-- What follows the first occurrence of `text`, which a scanner looks for
without regard to case. -/
def scanPast (text : List Char) : List Char → List Char
  | [] => []
  | c :: rest =>
    if (text.map (·.toLower)).isPrefixOf ((c :: rest).map (·.toLower)) then
      (c :: rest).drop text.length
    else scanPast text rest

/-- The wait of a flood error: the number after `FLOOD_WAIT_`. -/
def scanFloodWait (description : String) : Option Int :=
  scanInt (scanPast "FLOOD_WAIT_".toList description.toList)

/-- How the handler of an answer leaves the request it belongs to. -/
structure AnswerEffect where
  errorContext : Option RequestErrorContext
  restartRequest : Bool
  passwordInputRequired : Bool
  authorizationRequired : Bool
  connectionNotInited : Bool

/-- `MAX(minimalExecuteTime, currentTime + delay)`. -/
def RequestErrorContext.delayUntil (e : RequestErrorContext) (time : Rat) :
    RequestErrorContext :=
  { e with minimalExecuteTime := max e.minimalExecuteTime time }

/-- The flood branch: a scanned wait restarts the request unless its block
says otherwise. -/
def floodEffect (request : Request ρ) (description : String) (currentTime : Rat) :
    AnswerEffect :=
  let e := request.errorContext.getD {}
  let unchanged : AnswerEffect := ⟨some e, false, false, false, false⟩
  if mentions (some description) "FLOOD_WAIT_" then
    match scanFloodWait description with
    | none => unchanged
    | some errorWaitTime =>
      let e := { e with floodWaitSeconds := errorWaitTime }
      let restart :=
        match request.shouldContinueExecutionWithErrorContext with
        | some shouldContinue => shouldContinue e
        | none => true
      if restart then
        ⟨some (e.delayUntil (currentTime + errorWaitTime)), true, false, false, false⟩
      else ⟨some e, false, false, false, false⟩
  else unchanged

/-- The switch over `rpcError` of `mtProto:receivedMessage:`.  The flood branch
builds an `NSScanner` on the description, which raises on `nil`. -/
def errorEffect (s : Service ρ) (request : Request ρ) (rpcError : RpcError)
    (currentTime : Rat) : Except NSException AnswerEffect :=
  let description := rpcError.errorDescription
  let unchanged : AnswerEffect := ⟨request.errorContext, false, false, false, false⟩
  if rpcError.errorCode = 401 then
    if mentions description "SESSION_PASSWORD_NEEDED" then
      .ok { unchanged with
        passwordInputRequired := !request.passthroughPasswordEntryError }
    else if s.requiresAuthToken && (mentions description "SESSION_REVOKED" ||
        mentions description "AUTH_KEY_UNREGISTERED") then
      .ok ⟨some { request.errorContext.getD {} with waitingForTokenExport := true },
        true, false, true, false⟩
    else .ok { unchanged with authorizationRequired := true }
  else if rpcError.errorCode = -500 ∨ rpcError.errorCode = 500 then
    let e := request.errorContext.getD {}
    let e := { e with internalServerErrorCount := e.internalServerErrorCount + 1 }
    match request.shouldContinueExecutionWithErrorContext with
    | some shouldContinue =>
      if shouldContinue e then
        .ok ⟨some (e.delayUntil (currentTime + 2)), true, false, false, false⟩
      else .ok ⟨some e, false, false, false, false⟩
    | none => .ok ⟨some e, false, false, false, false⟩
  else if rpcError.errorCode = 420 ∨ mentions description "FLOOD_WAIT_" then
    match description with
    | none => .error .raised
    | some d => .ok (floodEffect request d currentTime)
  else if rpcError.errorCode = 400 ∧ mentions description "CONNECTION_NOT_INITED" then
    .ok { unchanged with connectionNotInited := true }
  else .ok unchanged

/-- The result of an answer, or its error. -/
def answerOf (decompressGZip : Data → Option Data) (request : Request ρ) (data : Data)
    (maybeInternalMessage : Option InternalMessage) :
    Except NSException (Except RpcError ρ) :=
  match maybeInternalMessage with
  | some (.rpcError errorCode errorDescription) =>
    .ok (.error { errorCode, errorDescription })
  | _ =>
    match unwrapMessage decompressGZip data with
    | .error e => .error e
    | .ok unwrapped =>
      match request.responseParser unwrapped with
      | some result => .ok (.ok result)
      | none => .ok (.error ⟨500, some "TL_PARSING_ERROR"⟩)

/-- The request an answer is for. -/
def isAnswerFor (requestMessageId : Int) (request : Request ρ) : Bool :=
  request.requestContext.any (·.messageId == requestMessageId)

/-- The hash that a successful answer to an initializing request stores. -/
def hashAfterResult (s : Service ρ) (request : Request ρ) : Option String :=
  if request.requestContext.any (·.willInitializeApi) then
    s.apiEnvironment.map (·.apiInitializationHash)
  else s.authApiInitializationHash

/-- The service after its matching request has been answered. -/
def answerRequest (s : Service ρ) (requestMessageId timestamp : Int) (currentTime : Rat)
    (request : Request ρ) (answer : Except RpcError ρ) (effect : AnswerEffect) :
    Service ρ × List (Output ρ) :=
  let requests := updateFirst (isAnswerFor requestMessageId)
    (fun request =>
      if effect.restartRequest then
        some { request with requestContext := none, errorContext := effect.errorContext }
      else none) s.requests
  let authApiInitializationHash :=
    match answer with
    | .ok _ => hashAfterResult s request
    | .error _ =>
      if effect.connectionNotInited then none else s.authApiInitializationHash
  let completedOutputs : List (Output ρ) :=
    if !effect.restartRequest && request.hasCompleted then
      match answer with
      | .ok result => [.completed request.internalId (some result) timestamp none]
      | .error rpcError => [.completed request.internalId none timestamp (some rpcError)]
    else []
  let timed := updateRequestsTimer
    { s with
      requests, authApiInitializationHash
      passwordInputRequired := s.passwordInputRequired || effect.passwordInputRequired }
    currentTime
  (timed.1,
    (if effect.authorizationRequired then [.authorizationRequired] else []) ++
      completedOutputs ++
      (if requests.isEmpty then [.didCompleteAllRequests] else []) ++ timed.2)

/-- Whether the answer is one of the three `MTDropRpcResultMessage` classes. -/
def isDropRpcResult : InternalMessage → Bool
  | .dropRpcResultUnknown => true
  | .dropRpcResultDroppedRunning => true
  | .dropRpcResultDropped _ _ _ => true
  | _ => false

/-- `mtProto:receivedMessage:` for an `MTRpcResultMessage`; other bodies are
ignored. -/
def receivedRpcResult (decompressGZip : Data → Option Data) (s : Service ρ)
    (requestMessageId : Int) (data : Data) (timestamp : Int) (currentTime : Rat) :
    Service ρ × List (Output ρ) :=
  match parseMessage data with
  | .error e => (s, [.raised e])
  | .ok maybeInternalMessage =>
    if maybeInternalMessage.any isDropRpcResult then
      ({ s with
        dropReponseContexts :=
          updateFirst (fun drop => drop.messageId == requestMessageId)
            (fun _ => none) s.dropReponseContexts }, [])
    else
      match s.requests.find? (isAnswerFor requestMessageId) with
      | none => updateRequestsTimer s currentTime
      | some request =>
        match answerOf decompressGZip request data maybeInternalMessage with
        | .error e => (s, [.raised e])
        | .ok (.ok result) =>
          answerRequest s requestMessageId timestamp currentTime request (.ok result)
            ⟨request.errorContext, false, false, false, false⟩
        | .ok (.error rpcError) =>
          match errorEffect s request rpcError currentTime with
          | .error e => (s, [.raised e])
          | .ok effect =>
            answerRequest s requestMessageId timestamp currentTime request
              (.error rpcError) effect

/-- The `requestTransportTransaction` at the end of the notices, sent when
some request or drop context was changed. -/
def askWhen (changed : Bool) : List (Output ρ) :=
  if changed then [.requestTransportTransaction] else []

/-- The shape of the notices that change the requests they concern and ask for
a transaction if there were any. -/
def noticeRequests (s : Service ρ) (concerns : Request ρ → Bool)
    (change : Request ρ → Request ρ) : Service ρ × List (Output ρ) :=
  ({ s with
      requests := s.requests.map fun request =>
        if concerns request then change request else request },
    askWhen (s.requests.any concerns))

/-- `request.requestContext = nil`. -/
def forgetContext (request : Request ρ) : Request ρ :=
  { request with requestContext := none }

/-- `request.requestContext.transactionId = nil`. -/
def forgetTransaction (request : Request ρ) : Request ρ :=
  { request with
    requestContext := request.requestContext.map ({ · with transactionId := none }) }

/-- `mtProto:receivedQuickAck:`. -/
def receivedQuickAck (s : Service ρ) (quickAckId : Int) : Service ρ × List (Output ρ) :=
  (s, s.requests.filterMap fun request =>
    if request.requestContext.any (·.quickAckId == quickAckId) &&
        request.hasAcknowledgementReceived then
      some (.acknowledgementReceived request.internalId)
    else none)

/-- One id of `mtProto:messageDeliveryConfirmed:`. -/
def confirmDelivery (requests : List (Request ρ)) (messageId : Int) : List (Request ρ) :=
  updateFirst (isAnswerFor messageId)
    (fun request => some
      { request with
        requestContext := request.requestContext.map ({ · with delivered := true }) })
    requests

/-- `mtProto:messageDeliveryConfirmed:`. -/
def messageDeliveryConfirmed (s : Service ρ) (messageIds : List Int) :
    Service ρ × List (Output ρ) :=
  ({ s with requests := messageIds.foldl confirmDelivery s.requests }, [])

/-- `mtProto:messageDeliveryFailed:`. -/
def messageDeliveryFailed (s : Service ρ) (messageId : Int) :
    Service ρ × List (Output ρ) :=
  ({ s with
      requests := updateFirst (isAnswerFor messageId)
        (fun request => some (forgetContext request)) s.requests
      dropReponseContexts := updateFirst (fun drop => drop.messageId == messageId)
        (fun drop => some { drop with messageId := 0, messageSeqNo := 0 })
        s.dropReponseContexts },
    askWhen (s.requests.any (isAnswerFor messageId) ||
      s.dropReponseContexts.any (fun drop => drop.messageId == messageId)))

/-- `mtProto:transactionsMayHaveFailed:`. -/
def transactionsMayHaveFailed (s : Service ρ) (transactionIds : List TransactionId) :
    Service ρ × List (Output ρ) :=
  noticeRequests s
    (fun request => (request.requestContext.bind (·.transactionId)).any
      (transactionIds.contains ·)) forgetTransaction

/-- `mtProtoAllTransactionsMayHaveFailed:`. -/
def allTransactionsMayHaveFailed (s : Service ρ) : Service ρ × List (Output ρ) :=
  noticeRequests s
    (fun request => (request.requestContext.bind (·.transactionId)).isSome)
    forgetTransaction

/-- `mtProto:shouldRequestMessageWithId:inResponseToMessageId:currentTransactionId:`.
The answer is the second component. -/
def shouldRequestMessage (s : Service ρ) (responseMessageId messageId : Int)
    (currentTransactionId : TransactionId) : Service ρ × Bool :=
  ({ s with
      requests := updateFirst (isAnswerFor messageId)
        (fun request => some
          { request with
            requestContext := request.requestContext.map fun c =>
              if c.transactionId.all (· == currentTransactionId) then
                { c with responseMessageId }
              else c })
        s.requests },
    s.requests.any (isAnswerFor messageId))

/-- `mtProto:messageResendRequestFailed:`. -/
def messageResendRequestFailed (s : Service ρ) (messageId : Int) :
    Service ρ × List (Output ρ) :=
  noticeRequests s
    (fun request => request.requestContext.any (·.responseMessageId == messageId))
    forgetContext

/-- `mtProto:updateReceiveProgressForToken:progress:packetLength:`. -/
def updateReceiveProgress (s : Service ρ) (messageId : Int) :
    Service ρ × List (Output ρ) :=
  (s, s.requests.filterMap fun request =>
    if isAnswerFor messageId request && request.hasProgressUpdated then
      some (.progressUpdated request.internalId)
    else none)

/-- `mtProtoDidChangeSession:`. -/
def didChangeSession (s : Service ρ) : Service ρ × List (Output ρ) :=
  ({ s with requests := s.requests.map forgetContext, dropReponseContexts := [] },
    askWhen (!s.requests.isEmpty))

/-- Whether a server session change invalidates the request's message. -/
def isInvalidated (firstValidMessageId : Int) (otherValidMessageIds : List Int)
    (request : Request ρ) : Bool :=
  request.requestContext.any fun c =>
    c.messageId < firstValidMessageId && !otherValidMessageIds.contains c.messageId

/-- `mtProtoServerDidChangeSession:firstValidMessageId:otherValidMessageIds:`. -/
def serverDidChangeSession (s : Service ρ) (firstValidMessageId : Int)
    (otherValidMessageIds : List Int) : Service ρ × List (Output ρ) :=
  noticeRequests s (isInvalidated firstValidMessageId otherValidMessageIds) forgetContext

/-- `mtProtoAuthTokenUpdated:`. -/
def authTokenUpdated (s : Service ρ) : Service ρ × List (Output ρ) :=
  noticeRequests s
    (fun request => request.errorContext.any (·.waitingForTokenExport))
    (fun request =>
      { request with
        errorContext := request.errorContext.map ({ · with waitingForTokenExport := false }) })

end TelegramPub.Ports.RequestMessageService
