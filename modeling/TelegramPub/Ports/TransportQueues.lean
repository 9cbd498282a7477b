import TelegramPub.Ports.PayloadCompletion

/-!
# Manager, transport and connection queues

`MTProto` works on the manager queue, `MTTcpTransport` on the transport queue
and `MTTcpConnection` on the connection queue.  They talk by dispatching blocks
to each other's queues.  A queue runs its blocks one after the other, and a
dispatch from a queue to itself runs at once; here a queue is the list of its
pending blocks, and such a dispatch is a call.

A transport and a connection are known by their position in the lists of all
that were ever made, so that a replaced transport and a closed connection keep
their identity.  The position of a connection is also its `internalId`, the
transaction id under which the request service records what was sent on it.

Left out are the connection state notices, the actualization ping (only whether
it was sent matters for asking for transactions), timers other than the one of
the reconnection, and the `stop` of `MTProto`, after which there is no way back.
-/

namespace TelegramPub.Ports.TransportQueues

open Ports.MessageTransaction Ports.RequestMessageService Ports.Session Ports.TransportTransaction
open Ports.PayloadCompletion (Sent numbered noTransaction reportService)

variable {ρ : Type}

/-- A request as the application makes it. -/
abbrev NewRequest (ρ : Type) := { request : Request ρ // request.requestContext = none }

/-- `MTTcpTransport` with its context. -/
structure Transport where
  /-- Whether `delegate` is still set. -/
  delegate : Bool := true
  connection : Option TransactionId := none
  connectionConnected : Bool := false
  stopped : Bool := false
  willRequestTransactionOnNextQueuePass : Bool := false
  didSendActualizationPingAfterConnection : Bool := false
  isWaitingForTransactionToBecomeReady : Bool := false
  requestAnotherTransactionWhenReady : Bool := false
  deriving DecidableEq

/-- `MTTcpConnection`.  Its delegate is the transport that made it. -/
structure Connection where
  transport : Nat
  delegate : Bool := true
  socket : Bool := false
  closed : Bool := false
  deriving DecidableEq

/-- What others call on `MTProto` and on the request service. -/
inductive Call (ρ : Type) where
  | addRequest (request : NewRequest ρ)
  | messageDeliveryConfirmed (messageIds : List Int)
  | requestTransportTransaction
  | requestSecureTransportReset
  | resetTransport
  | pause
  | resume

/-- The blocks of the manager queue. -/
inductive ManagerBlock (ρ : Type) where
  | call (call : Call ρ)
  /-- The block of `requestTransportTransaction` -/
  | transactionPass
  | transportReadyForTransaction (transport : Nat)
  /-- The completion of a payload, with the transaction id of a success. -/
  | payloadCompletion (sent : Sent) (payload : Nat) (transactionId : Option TransactionId)
  | transactionsMayHaveFailed (transactionIds : List TransactionId)

/-- The blocks of the transport queue. -/
inductive TransportBlock where
  /-- `activeTransactionIds:` with the block of `setTransport:` -/
  | activeTransactionIds (transport : Nat)
  | stop (transport : Nat)
  | reset (transport : Nat)
  | setDelegateNeedsTransaction (transport : Nat)
  /-- The block of `setDelegateNeedsTransaction` -/
  | transactionPass (transport : Nat)
  /-- The block `transactionReady`, with payloads of transactions. -/
  | transactionReady (transport : Nat) (transactionList : List (Sent × Nat))
  | tcpConnectionOpened (transport : Nat) (connection : TransactionId)
  | tcpConnectionClosed (transport : Nat) (connection : TransactionId)
  /-- The backoff timer of the connection behaviour. -/
  | reconnectionTimer (transport : Nat)

/-- The blocks of the connection queue. -/
inductive TcpBlock where
  | clearDelegate (connection : TransactionId)
  | start (connection : TransactionId)
  | stop (connection : TransactionId)
  | sendDatas (connection : TransactionId) (sent : Sent) (payload : Nat)
  | didConnectToHost (connection : TransactionId)
  | socketDidDisconnect (connection : TransactionId)

structure World (ρ : Type) where
  service : Service ρ := {}
  info : SessionInfo := {}
  paused : Bool := false
  willRequestTransactionOnNextQueuePass : Bool := false
  transport : Option Nat := none
  transports : List Transport := []
  connections : List Connection := []
  managerQueue : List (ManagerBlock ρ) := []
  transportQueue : List TransportBlock := []
  tcpQueue : List TcpBlock := []

def World.toManager (w : World ρ) (block : ManagerBlock ρ) : World ρ :=
  { w with managerQueue := w.managerQueue ++ [block] }

def World.toTransport (w : World ρ) (block : TransportBlock) : World ρ :=
  { w with transportQueue := w.transportQueue ++ [block] }

def World.toTcp (w : World ρ) (block : TcpBlock) : World ρ :=
  { w with tcpQueue := w.tcpQueue ++ [block] }

def World.updateTransport (w : World ρ) (transport : Nat) (f : Transport → Transport) : World ρ :=
  { w with transports := w.transports.modify transport f }

def World.updateConnection (w : World ρ) (connection : TransactionId)
    (f : Connection → Connection) : World ρ :=
  { w with connections := w.connections.modify connection f }

/-! ## The manager queue -/

/-- What a block of the manager queue finds around it. -/
structure Surroundings where
  /-- The scheme, the keys and the token that a transport needs are there. -/
  createsTransport : Bool
  canAskForTransactions : Bool
  options : Options
  currentTime : Rat
  readings : Nat → Int
  containerReadings : Nat → Int
  /-- The messages of the transport and of the other services. -/
  others : List OutgoingMessage
  quickAckIds : Nat → Int

/-- `requestTransportTransaction`. -/
def requestTransportTransaction (w : World ρ) : World ρ :=
  if w.willRequestTransactionOnNextQueuePass then w
  else
    { w with willRequestTransactionOnNextQueuePass := true }.toManager .transactionPass

/-- Whether the service asked for a transaction. -/
def asksForTransaction (outputs : List (Output ρ)) : Bool :=
  outputs.any fun
    | .requestTransportTransaction => true
    | _ => false

/-- A call of the request service. -/
def serve (w : World ρ) (result : Service ρ × List (Output ρ)) : World ρ :=
  let w := { w with service := result.1 }
  if asksForTransaction result.2 then requestTransportTransaction w else w

/-- `setTransport:`. -/
def setTransport (w : World ρ) (transport : Option Nat) : World ρ :=
  let w := serve w (allTransactionsMayHaveFailed w.service)
  match w.transport with
  | none => { w with transport }
  | some previousTransport =>
    ({ w with transport }.toTransport (.activeTransactionIds previousTransport)).toTransport
      (.stop previousTransport)

/-- The transport is told that nobody listens any more, stopped and taken
away. -/
def dropTransport (w : World ρ) : World ρ :=
  match w.transport with
  | none => w
  | some transport =>
    setTransport
      ((w.updateTransport transport ({ · with delegate := false })).toTransport
        (.stop transport)) none

/-- `resetTransport`. -/
def resetTransport (w : World ρ) (createsTransport : Bool) : World ρ :=
  let w := dropTransport w
  if createsTransport then
    setTransport { w with transports := w.transports ++ [{}] } (some w.transports.length)
  else w

/-- The block of `requestTransportTransaction`. -/
def transactionPass (w : World ρ) (createsTransport : Bool) : World ρ :=
  let w := { w with willRequestTransactionOnNextQueuePass := false }
  if w.paused then w
  else
    let w := if w.transport = none then resetTransport w createsTransport else w
    match w.transport with
    | none => w
    | some transport => w.toTransport (.setDelegateNeedsTransaction transport)

/-- `resetSessionInfo`. -/
def resetSessionInfo (w : World ρ) (createsTransport : Bool) : World ρ :=
  let w := serve { w with info := {} } (didChangeSession w.service)
  requestTransportTransaction (resetTransport w createsTransport)

/-- The payloads of a transaction, for the transport. -/
def transactionListOf (sent : Sent) : List (Sent × Nat) :=
  (List.range sent.payloads.length).map fun payload => (sent, payload)

def messageInternalIdsByPayload (payloads : List Payload) : List (List Nat) :=
  payloads.map fun payload => payload.messages.map (·.messageInternalId)

/-- `transportReadyForTransaction:`.  The branches for the time fix and the
binding of a temporary key send no requests. -/
def readyForTransaction (w : World ρ) (transport : Nat) (around : Surroundings) : World ρ :=
  if w.transport ≠ some transport then w.toTransport (.transactionReady transport [])
  else if around.canAskForTransactions = false then
    w.toTransport (.transactionReady transport [])
  else
    let emission := mtProtoMessageTransaction w.service around.currentTime
    let transaction := emission.1.getD noTransaction
    let others := numbered around.others emission.2.nextMessageInternalId
    let service := { emission.2 with
      nextMessageInternalId := emission.2.nextMessageInternalId + others.length }
    let (preparedMessages, outcome, info) := transportReadyForTransaction around.options w.info
      around.readings around.containerReadings (others ++ transaction.messagePayload)
    let service := prepared service transaction (preparedDictionary preparedMessages)
    let abandoned := completion service transaction (fun _ => none) (fun _ => none) (fun _ => none)
    match outcome with
    | .monotonityViolated =>
      resetSessionInfo ({ w with service := abandoned, info }.toTransport
        (.transactionReady transport [])) around.createsTransport
    | .saltSetEmpty =>
      { w with service := abandoned, info }.toTransport (.transactionReady transport [])
    | .payloads [] =>
      { w with service := abandoned, info }.toTransport (.transactionReady transport [])
    | .payloads payloads =>
      { w with service, info }.toTransport (.transactionReady transport (transactionListOf
        { transaction
          preparedMessages
          payloads := messageInternalIdsByPayload payloads
          quickAckIds := around.quickAckIds }))

/-- The calls of `MTProto`. -/
def runCall (w : World ρ) (around : Surroundings) : Call ρ → World ρ
  | .addRequest request => serve w (addRequest w.service request.1)
  | .messageDeliveryConfirmed messageIds =>
    serve w (messageDeliveryConfirmed w.service messageIds)
  | .requestTransportTransaction => requestTransportTransaction w
  | .requestSecureTransportReset =>
    match w.transport with
    | none => w
    | some transport => w.toTransport (.reset transport)
  | .resetTransport => resetTransport w around.createsTransport
  | .pause => if w.paused then w else setTransport { w with paused := true } none
  | .resume =>
    if w.paused then
      requestTransportTransaction
        (resetTransport { w with paused := false } around.createsTransport)
    else w

/-- The completion of a payload. -/
def payloadCompletion (w : World ρ) (sent : Sent) (payload : Nat)
    (transactionId : Option TransactionId) : World ρ :=
  { w with
    service := reportService w.service sent payload (sent.payloads.getD payload [])
      transactionId }

def runManagerBlock (w : World ρ) (around : Surroundings) : ManagerBlock ρ → World ρ
  | .call call => runCall w around call
  | .transactionPass => transactionPass w around.createsTransport
  | .transportReadyForTransaction transport => readyForTransaction w transport around
  | .payloadCompletion sent payload transactionId =>
    payloadCompletion w sent payload transactionId
  | .transactionsMayHaveFailed transactionIds =>
    serve w (transactionsMayHaveFailed w.service transactionIds)

/-! ## The transport queue -/

/-- What a block of the transport queue finds around it. -/
structure Timing where
  /-- The lock of the last transaction is more than a second old. -/
  lockExpired : Bool
  /-- A backoff timer is running. -/
  backoffRunning : Bool
  /-- The first failure of a connection is followed by a new one at once. -/
  reconnectsAtOnce : Bool
  deriving DecidableEq

/-- `startIfNeeded`.  The delegate of the connection is set before anything
else reaches it. -/
def startIfNeeded (w : World ρ) (transport : Nat) (t : Transport) : World ρ :=
  match t.connection with
  | some _ => w
  | none =>
    let connection := w.connections.length
    let w := { w with connections := w.connections ++ [({ transport } : Connection)] }
    (w.updateTransport transport ({ · with connection := some connection })).toTcp
      (.start connection)

/-- `tcpConnectionBehaviourRequestsReconnection:`. -/
def requestsReconnection (w : World ρ) (transport : Nat) : World ρ :=
  match w.transports[transport]? with
  | none => w
  | some t => if t.stopped then w else startIfNeeded w transport t

/-- `_requestTransactionFromDelegate`. -/
def requestTransactionFromDelegate (w : World ρ) (transport : Nat) (lockExpired : Bool) :
    World ρ :=
  match w.transports[transport]? with
  | none => w
  | some t =>
    if t.isWaitingForTransactionToBecomeReady && t.didSendActualizationPingAfterConnection &&
        !lockExpired then
      w.updateTransport transport ({ · with requestAnotherTransactionWhenReady := true })
    else if t.delegate then
      (w.updateTransport transport ({ · with
        isWaitingForTransactionToBecomeReady := true
        didSendActualizationPingAfterConnection := true })).toManager
          (.transportReadyForTransaction transport)
    else
      w.updateTransport transport ({ · with isWaitingForTransactionToBecomeReady := false })

/-- The notice of a transport that still has its delegate. -/
def noticeFailure (w : World ρ) (delegate : Bool) (connection : TransactionId) : World ρ :=
  if delegate then w.toManager (.transactionsMayHaveFailed [connection]) else w

/-- `stop` of the transport. -/
def stopTransport (w : World ρ) (transport : Nat) (t : Transport) : World ρ :=
  let stopped := fun t : Transport =>
    { t with stopped := true, connectionConnected := false, connection := none }
  match t.connection with
  | none => w.updateTransport transport stopped
  | some connection =>
    (((noticeFailure w t.delegate connection).updateTransport transport stopped).toTcp
      (.clearDelegate connection)).toTcp (.stop connection)

/-- One transaction of the list: it is sent, or completed without success. -/
def acceptTransaction (connection : Option TransactionId) (w : World ρ)
    (transaction : Sent × Nat) : World ρ :=
  match connection with
  | some connection => w.toTcp (.sendDatas connection transaction.1 transaction.2)
  | none => w.toManager (.payloadCompletion transaction.1 transaction.2 none)

/-- The block `transactionReady`. -/
def transactionReady (w : World ρ) (transport : Nat) (t : Transport)
    (transactionList : List (Sent × Nat)) (lockExpired : Bool) : World ρ :=
  let w := transactionList.foldl (acceptTransaction t.connection) w
  let w := w.updateTransport transport ({ · with
    isWaitingForTransactionToBecomeReady := false
    requestAnotherTransactionWhenReady := false })
  if t.requestAnotherTransactionWhenReady then
    requestTransactionFromDelegate w transport lockExpired
  else w

/-- `tcpConnectionClosed:`. -/
def connectionClosed (w : World ρ) (transport : Nat) (t : Transport)
    (connection : TransactionId) (reconnectsAtOnce : Bool) : World ρ :=
  if t.connection = some connection then
    let w := (w.updateTransport transport ({ · with
      connectionConnected := false, connection := none })).toTcp (.clearDelegate connection)
    let w := if reconnectsAtOnce then requestsReconnection w transport else w
    noticeFailure
      (w.updateTransport transport ({ · with didSendActualizationPingAfterConnection := false }))
      t.delegate connection
  else w

/-- A block of the transport queue, for the transport it belongs to. -/
def runTransportBlock (w : World ρ) (timing : Timing) (block : TransportBlock)
    (transport : Nat) (t : Transport) : World ρ :=
  match block with
  | .activeTransactionIds _ =>
    match t.connection with
    | some connection => w.toManager (.transactionsMayHaveFailed [connection])
    | none => w
  | .stop _ => stopTransport w transport t
  | .reset _ =>
    match t.connection with
    | some connection => w.toTcp (.stop connection)
    | none => w
  | .setDelegateNeedsTransaction _ =>
    if t.willRequestTransactionOnNextQueuePass then w
    else
      (w.updateTransport transport ({ · with
        willRequestTransactionOnNextQueuePass := true })).toTransport
          (.transactionPass transport)
  | .transactionPass _ =>
    let w := w.updateTransport transport ({ · with
      willRequestTransactionOnNextQueuePass := false })
    if t.connection = none then
      if timing.backoffRunning then w else requestsReconnection w transport
    else if t.connectionConnected then
      requestTransactionFromDelegate w transport timing.lockExpired
    else w
  | .transactionReady _ transactionList =>
    transactionReady w transport t transactionList timing.lockExpired
  | .tcpConnectionOpened _ connection =>
    if t.connection = some connection then
      requestTransactionFromDelegate
        (w.updateTransport transport ({ · with
          connectionConnected := true
          didSendActualizationPingAfterConnection := false }))
        transport timing.lockExpired
    else w
  | .tcpConnectionClosed _ connection =>
    connectionClosed w transport t connection timing.reconnectsAtOnce
  | .reconnectionTimer _ => requestsReconnection w transport

/-- The transport of a block. -/
def TransportBlock.transport : TransportBlock → Nat
  | .activeTransactionIds transport => transport
  | .stop transport => transport
  | .reset transport => transport
  | .setDelegateNeedsTransaction transport => transport
  | .transactionPass transport => transport
  | .transactionReady transport _ => transport
  | .tcpConnectionOpened transport _ => transport
  | .tcpConnectionClosed transport _ => transport
  | .reconnectionTimer transport => transport

/-! ## The connection queue -/

/-- `closeAndNotify`. -/
def closeAndNotify (w : World ρ) (connection : TransactionId) (k : Connection) : World ρ :=
  if k.closed then w
  else
    let w := w.updateConnection connection ({ · with closed := true, socket := false })
    if k.delegate then w.toTransport (.tcpConnectionClosed k.transport connection) else w

/-- A block of the connection queue, for the connection it belongs to.
`connects` says whether the socket accepts the address. -/
def runTcpBlock (w : World ρ) (connects : Bool) (block : TcpBlock) (connection : TransactionId)
    (k : Connection) : World ρ :=
  match block with
  | .clearDelegate _ => w.updateConnection connection ({ · with delegate := false })
  | .start _ =>
    if k.socket then w
    else
      let w := w.updateConnection connection ({ · with socket := true })
      if connects then w else closeAndNotify w connection { k with socket := true }
  | .stop _ => closeAndNotify w connection k
  | .sendDatas _ sent payload =>
    w.toManager (.payloadCompletion sent payload
      (if !k.closed && k.socket then some connection else none))
  | .didConnectToHost _ =>
    if k.delegate then w.toTransport (.tcpConnectionOpened k.transport connection) else w
  | .socketDidDisconnect _ => closeAndNotify w connection k

/-- The connection of a block. -/
def TcpBlock.connection : TcpBlock → TransactionId
  | .clearDelegate connection => connection
  | .start connection => connection
  | .stop connection => connection
  | .sendDatas connection _ _ => connection
  | .didConnectToHost connection => connection
  | .socketDidDisconnect connection => connection

inductive Event (ρ : Type) where
  /-- Somebody calls `MTProto` or the request service. -/
  | call (call : Call ρ)
  /-- The backoff timer of a transport fires. -/
  | timer (transport : Nat)
  /-- The socket of a connection reports that it is open. -/
  | opens (connection : TransactionId)
  /-- The socket of a connection reports that it is closed. -/
  | closes (connection : TransactionId)
  /-- The next block of a queue runs. -/
  | runManager (around : Surroundings)
  | runTransport (timing : Timing)
  | runTcp (connects : Bool)

def step (w : World ρ) : Event ρ → World ρ
  | .call call => w.toManager (.call call)
  | .timer transport => w.toTransport (.reconnectionTimer transport)
  | .opens connection => w.toTcp (.didConnectToHost connection)
  | .closes connection => w.toTcp (.socketDidDisconnect connection)
  | .runManager around =>
    match w.managerQueue with
    | [] => w
    | block :: managerQueue => runManagerBlock { w with managerQueue } around block
  | .runTransport timing =>
    match w.transportQueue with
    | [] => w
    | block :: transportQueue =>
      match w.transports[block.transport]? with
      | none => { w with transportQueue }
      | some t => runTransportBlock { w with transportQueue } timing block block.transport t
  | .runTcp connects =>
    match w.tcpQueue with
    | [] => w
    | block :: tcpQueue =>
      match w.connections[block.connection]? with
      | none => { w with tcpQueue }
      | some k => runTcpBlock { w with tcpQueue } connects block block.connection k

end TelegramPub.Ports.TransportQueues
