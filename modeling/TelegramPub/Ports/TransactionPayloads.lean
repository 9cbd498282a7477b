import TelegramPub.Ports.TransportQueues

/-!
# Payloads on their way

A payload of a prepared transaction is handed to the transport, given to a
connection, and reported to the manager queue by its completion.  This module
follows the payloads through the queues of `TransportQueues`: to the steps of
that machine it adds what else happens on the manager queue and may matter to
them, and it writes down which payloads were handed over and which completions
were called.

The answer of `MTProto` to the transport is a block that holds the transport
weakly.  A transport is held by `MTProto` as long as it is the current one, and
by its `stop` block after that; other references only keep it longer.  The
event `transportReleased` drops an answer whose transport nobody holds.
-/

namespace TelegramPub.Ports.TransactionPayloads

open Verified.Bytes Ports.RequestMessageService Ports.Session Ports.TransportQueues
open Ports.PayloadCompletion (Sent noTransaction)

variable {ρ : Type}

/-! ## Payloads in the queues -/

/-- The payloads of an answer that waits on the transport queue. -/
def readyPayloads : TransportBlock → List (Sent × Nat)
  | .transactionReady _ transactionList => transactionList
  | _ => []

/-- The payload of a block for the connection. -/
def sendPayloads : TcpBlock → List (Sent × Nat)
  | .sendDatas _ sent payload => [(sent, payload)]
  | _ => []

/-- The payload whose completion waits on the manager queue. -/
def completionPayloads : ManagerBlock ρ → List (Sent × Nat)
  | .payloadCompletion sent payload _ => [(sent, payload)]
  | _ => []

/-- The payloads that were handed over and whose completion was not called. -/
def underway (w : World ρ) : List (Sent × Nat) :=
  w.transportQueue.flatMap readyPayloads ++ w.tcpQueue.flatMap sendPayloads

/-! ## What else happens on the manager queue -/

/-- A callback of the request service.  The application adds requests without a
context. -/
abbrev Callback (ρ : Type) :=
  { event : RequestLifecycle.Event ρ //
    ∀ request, event = .addRequest request → request.requestContext = none }

/-- `requestSecureTransportReset`. -/
def requestSecureTransportReset (w : World ρ) : World ρ :=
  match w.transport with
  | none => w
  | some transport => w.toTransport (.reset transport)

/-- Whether the service asked for a new connection. -/
def asksForReset (outputs : List (Output ρ)) : Bool :=
  outputs.any fun
    | .requestSecureTransportReset => true
    | _ => false

/-- A callback of the request service, with what it asks `MTProto` for. -/
def runCallback (decompressGZip : Data → Option Data) (w : World ρ) (callback : Callback ρ) :
    World ρ :=
  let (lifecycle, outputs) :=
    RequestLifecycle.respond decompressGZip { service := w.service } callback.1
  serve (if asksForReset outputs then requestSecureTransportReset w else w)
    (lifecycle.service, outputs)

/-- The payload of a time fix or of a key binding.  It belongs to no service, and
its only message is numbered like the others. -/
def serviceSent (messageInternalId : Nat) : Sent where
  transaction := noTransaction
  preparedMessages := []
  payloads := [[messageInternalId]]
  quickAckIds := fun _ => 0

/-- The branches of `transportReadyForTransaction:` for the time fix and the
binding of a temporary key.  A failed payload of theirs asks for a transaction. -/
def readyForServiceTransaction (w : World ρ) : World ρ :=
  match w.managerQueue with
  | .transportReadyForTransaction transport :: managerQueue =>
    if w.transport = some transport then
      { w with
        managerQueue
        service := { w.service with
          nextMessageInternalId := w.service.nextMessageInternalId + 1 } }.toTransport
        (.transactionReady transport [(serviceSent w.service.nextMessageInternalId, 0)])
    else w
  | _ => w

/-! ## Releasing a transport -/

def isStopOf (transport : Nat) : TransportBlock → Bool
  | .stop stopped => stopped == transport
  | _ => false

/-- Whether the transport is the current one or its `stop` block waits. -/
def isHeld (w : World ρ) (transportQueue : List TransportBlock) (transport : Nat) : Bool :=
  w.transport == some transport || transportQueue.any (isStopOf transport)

/-- The next block is an answer whose transport may be gone: `strongSelf` is `nil`. -/
def releaseTransport (w : World ρ) : World ρ :=
  match w.transportQueue with
  | .transactionReady transport _ :: transportQueue =>
    if isHeld w transportQueue transport then w else { w with transportQueue }
  | _ => w

inductive Event (ρ : Type) where
  /-- A step of the queues. -/
  | queues (event : TransportQueues.Event ρ)
  | callback (callback : Callback ρ)
  /-- Some code on the manager queue calls `requestTransportTransaction` -/
  | requestTransportTransaction
  /-- Some code on the manager queue calls `resetSessionInfo` -/
  | resetSessionInfo (createsTransport : Bool)
  /-- Incoming messages and timers change the session. -/
  | sessionChanged (info : SessionInfo)
  /-- `stop` of `MTProto`; it creates no transport after that -/
  | stop
  /-- The transport is ready, and a time fix or a key binding is due. -/
  | serviceTransaction
  | transportReleased

/-- The queues, the payloads handed to the transport, and the payloads whose
completion was called. -/
structure State (ρ : Type) where
  world : World ρ := {}
  handed : List (Sent × Nat) := []
  called : List (Sent × Nat) := []

def worldStep (decompressGZip : Data → Option Data) (w : World ρ) : Event ρ → World ρ
  | .queues event => TransportQueues.step w event
  | .callback callback => runCallback decompressGZip w callback
  | .requestTransportTransaction => requestTransportTransaction w
  | .resetSessionInfo createsTransport => resetSessionInfo w createsTransport
  | .sessionChanged info => { w with info }
  | .stop => dropTransport w
  | .serviceTransaction => readyForServiceTransaction w
  | .transportReleased => releaseTransport w

/-- The payloads of the answers that a step puts behind the transport queue.  The
steps that take a block from that queue answer nothing. -/
def handedBy (w w' : World ρ) : Event ρ → List (Sent × Nat)
  | .queues (.runTransport _) => []
  | .transportReleased => []
  | _ => (w'.transportQueue.drop w.transportQueue.length).flatMap readyPayloads

/-- The payloads whose completion a step calls: the completion puts a block behind
the manager queue.  The steps that take a block from that queue call none. -/
def calledBy (w w' : World ρ) : Event ρ → List (Sent × Nat)
  | .queues (.runManager _) => []
  | .serviceTransaction => []
  | _ => (w'.managerQueue.drop w.managerQueue.length).flatMap completionPayloads

def step (decompressGZip : Data → Option Data) (x : State ρ) (event : Event ρ) : State ρ :=
  let world := worldStep decompressGZip x.world event
  { world
    handed := x.handed ++ handedBy x.world world event
    called := x.called ++ calledBy x.world world event }

/-- `waitingForMessageId` of the request's context. -/
def isWaiting (request : Request ρ) : Bool :=
  request.requestContext.any (·.waitingForMessageId)

/-- No block waits on any queue. -/
def Idle (w : World ρ) : Prop :=
  w.managerQueue = [] ∧ w.transportQueue = [] ∧ w.tcpQueue = []

end TelegramPub.Ports.TransactionPayloads
