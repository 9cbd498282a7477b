import TelegramPub.Ports.Session
import Mathlib.Data.List.Sort

/-!
# transportReadyForTransaction

How `MTProto` turns the outgoing messages of its services into payloads for
the transport.  Every message without an id gets a fresh id and a sequence
number; the prepared messages are sorted, high-priority messages are moved to
the front, and the list is cut into containers of limited size.  A container
of one message is sent as that message, a larger one gets an id of its own.

Two things stop a transaction before anything is sent: a clock that has gone
back while ids were generated, and an empty set of server salts.

The clock readings of one transaction are a stream; the messages take the
first ones in order, and the `k`-th payload, if it is a container, takes
the `k`-th reading of a second stream.
-/

namespace TelegramPub.Ports.TransportTransaction

open Ports.MessageTransaction Ports.Session

/-- `MTMaxContainerSize`. -/
def maxContainerSize : Nat := 3 * 1024

/-- What `MTProto` reads of itself and of its arguments.  `messageSalt` is the
salt for the current time, zero if there is none. -/
structure Options where
  useUnauthorizedMode : Bool := false
  forceConfirmations : Bool := false
  messageSalt : Int := 1
  deriving DecidableEq

/-! ## Preparing messages -/

/-- The state of the preparation loop. -/
structure Preparation where
  info : SessionInfo
  monotonityViolated : Bool := false
  messages : List PreparedMessage := []

/-- `messageInternalIdToPreparedMessage`. -/
def preparedDictionary (messages : List PreparedMessage) : Nat → Option PreparedMessage :=
  dictionary (messages.map fun m => (m.messageInternalId, m))

/-- The prepared message of an outgoing one.  In unauthorized mode there is no
salt. -/
def preparedMessage (o : Options) (p : Preparation) (outgoing : OutgoingMessage)
    (messageId messageSeqNo : Int) : PreparedMessage :=
  { messageInternalId := outgoing.internalId
    data :=
      match outgoing.dynamicDecorator with
      | some decorate => decorate outgoing.data (preparedDictionary p.messages)
      | none => outgoing.data
    messageId
    seqNo := messageSeqNo
    salt := if o.useUnauthorizedMode then 0 else o.messageSalt
    requiresConfirmation := outgoing.requiresConfirmation
    hasHighPriority := outgoing.hasHighPriority
    inResponseToMessageId := outgoing.inResponseToMessageId }

/-- One round of the preparation loop. -/
def prepareMessage (o : Options) (p : Preparation) (outgoing : OutgoingMessage)
    (reading : Int) : Preparation :=
  let (messageId, messageSeqNo, violated, info) :=
    if outgoing.messageId = 0 then
      let (messageId, violated, info) := generateClientMessageId p.info reading
      let (messageSeqNo, info) := takeSeqNo info outgoing.requiresConfirmation
      (messageId, messageSeqNo, p.monotonityViolated || violated, info)
    else (outgoing.messageId, outgoing.messageSeqNo, p.monotonityViolated, p.info)
  { info
    monotonityViolated := violated
    messages :=
      if !violated || o.useUnauthorizedMode then
        p.messages ++ [preparedMessage o p outgoing messageId messageSeqNo]
      else p.messages }

/-- The preparation loop. -/
def prepareMessages (o : Options) : (Nat → Int) → Preparation → List OutgoingMessage →
    Preparation
  | _, p, [] => p
  | readings, p, outgoing :: rest =>
    prepareMessages o (fun k => readings (k + 1))
      (prepareMessage o p outgoing (readings 0)) rest

/-- The order of the prepared messages: by id, and high priority first unless
confirmations are forced.  Ids of one transaction differ, so any sort does. -/
def orderMessages (o : Options) (messages : List PreparedMessage) : List PreparedMessage :=
  let sorted := messages.insertionSort (fun a b => a.messageId < b.messageId)
  if o.forceConfirmations then sorted
  else sorted.filter (·.hasHighPriority) ++ sorted.filter (!·.hasHighPriority)

/-- The inner packing loop: the messages of the next container, the flag
`currentlyProcessingHighPriority`, and the messages left. -/
def fillContainer (forceConfirmations : Bool) : Bool → Nat → List PreparedMessage →
    List PreparedMessage × Bool × List PreparedMessage
  | highPriority, _, [] => ([], highPriority, [])
  | highPriority, size, m :: rest =>
    let breakContainer := !forceConfirmations && !m.hasHighPriority && highPriority
    let highPriority := if forceConfirmations then highPriority else m.hasHighPriority
    if size + m.data.length > maxContainerSize || (breakContainer && size != 0) then
      if size = 0 then ([m], highPriority, rest) else ([], highPriority, m :: rest)
    else
      let (container, highPriority, left) :=
        fillContainer forceConfirmations highPriority (size + m.data.length) rest
      (m :: container, highPriority, left)

/-- The outer packing loop.  Every round takes at least one message, so the
number of messages is enough fuel (`flatten_splitContainers`). -/
def splitContainers (forceConfirmations : Bool) : Nat → Bool → List PreparedMessage →
    List (List PreparedMessage)
  | 0, _, _ => []
  | _, _, [] => []
  | fuel + 1, highPriority, messages =>
    let (container, highPriority, left) :=
      fillContainer forceConfirmations highPriority 0 messages
    container :: splitContainers forceConfirmations fuel highPriority left

/-- One payload for the transport: its messages and, if it is a container, the
id and the sequence number of the container. -/
structure Payload where
  messages : List PreparedMessage
  container : Option (Int × Int) := none
  deriving DecidableEq

/-- `_dataForEncryptedMessage` for one message, and
`_dataForEncryptedContainerWithMessages` otherwise. -/
def makePayload (info : SessionInfo) (reading : Int) :
    List PreparedMessage → Payload × SessionInfo
  | [m] => ({ messages := [m] }, info)
  | messages =>
    let (containerMessageId, _, info) := generateClientMessageId info reading
    let containerMessageIds := (messages.filter (·.requiresConfirmation)).map (·.messageId)
    let info :=
      if containerMessageIds.isEmpty then info
      else addContainerMessageIdMapping info containerMessageId containerMessageIds
    let (seqNo, info) := takeSeqNo info false
    ({ messages, container := some (containerMessageId, seqNo) }, info)

/-- The payloads of the containers, in order. -/
def makePayloads : (Nat → Int) → SessionInfo → List (List PreparedMessage) →
    List Payload × SessionInfo
  | _, info, [] => ([], info)
  | readings, info, messages :: rest =>
    let (payload, info) := makePayload info (readings 0) messages
    let (payloads, info) := makePayloads (fun k => readings (k + 1)) info rest
    (payload :: payloads, info)

/-- How a transaction ends. -/
inductive Outcome where
  | monotonityViolated
  | saltSetEmpty
  | payloads (payloads : List Payload)
  deriving DecidableEq

/-- The groups in which ordered messages are sent. -/
def groups (o : Options) (messages : List PreparedMessage) : List (List PreparedMessage) :=
  if o.useUnauthorizedMode then messages.map ([·])
  else splitContainers o.forceConfirmations messages.length false messages

/-- The branch of `transportReadyForTransaction` that serves the message
services: the prepared messages, the outcome, and the session afterwards. -/
def transportReadyForTransaction (o : Options) (info : SessionInfo)
    (readings containerReadings : Nat → Int) (outgoing : List OutgoingMessage) :
    List PreparedMessage × Outcome × SessionInfo :=
  let p := prepareMessages o readings { info } outgoing
  if p.monotonityViolated then (p.messages, .monotonityViolated, p.info)
  else if !o.useUnauthorizedMode && o.messageSalt == 0 then
    (p.messages, .saltSetEmpty, p.info)
  else
    let (payloads, info) :=
      makePayloads containerReadings p.info (groups o (orderMessages o p.messages))
    (p.messages, .payloads payloads, info)

/-! ## No message is lost or doubled -/

theorem perm_orderMessages (o : Options) (messages : List PreparedMessage) :
    (orderMessages o messages).Perm messages := by
  have hsorted := List.perm_insertionSort
    (fun a b : PreparedMessage => a.messageId < b.messageId) messages
  unfold orderMessages
  split
  · exact hsorted
  · exact (List.filter_append_perm _ _).trans hsorted

theorem fillContainer_append (forceConfirmations : Bool) :
    ∀ (messages : List PreparedMessage) (highPriority : Bool) (size : Nat),
      (fillContainer forceConfirmations highPriority size messages).1 ++
        (fillContainer forceConfirmations highPriority size messages).2.2 = messages := by
  intro messages
  induction messages with
  | nil => intro highPriority size; rfl
  | cons m rest ih =>
    grind [fillContainer]

theorem fillContainer_length_le (forceConfirmations highPriority : Bool) (size : Nat)
    (messages : List PreparedMessage) :
    (fillContainer forceConfirmations highPriority size messages).2.2.length ≤
      messages.length := by
  have hsplit := congrArg List.length
    (fillContainer_append forceConfirmations messages highPriority size)
  rw [List.length_append] at hsplit
  omega

/-- A round that starts with an empty container takes a message. -/
theorem fillContainer_left_length (forceConfirmations highPriority : Bool)
    (m : PreparedMessage) (rest : List PreparedMessage) :
    (fillContainer forceConfirmations highPriority 0 (m :: rest)).2.2.length ≤
      rest.length := by
  simp only [fillContainer]
  split
  · simp
  · exact fillContainer_length_le _ _ _ _

theorem flatten_splitContainers (forceConfirmations : Bool) :
    ∀ (fuel : Nat) (highPriority : Bool) (messages : List PreparedMessage),
      messages.length ≤ fuel →
      (splitContainers forceConfirmations fuel highPriority messages).flatten = messages := by
  intro fuel
  induction fuel with
  | zero =>
    intro highPriority messages hfuel
    have hnil : messages = [] := List.length_eq_zero_iff.1 (by omega)
    rw [hnil]
    rfl
  | succ fuel ih =>
    intro highPriority messages hfuel
    cases messages with
    | nil => rfl
    | cons m rest =>
      grind [fillContainer_append, fillContainer_left_length, splitContainers]

theorem flatten_groups (o : Options) (messages : List PreparedMessage) :
    (groups o messages).flatten = messages := by
  unfold groups
  split
  · induction messages with
    | nil => rfl
    | cons m rest ih => rw [List.map_cons, List.flatten_cons, ih]; rfl
  · exact flatten_splitContainers _ _ _ _ (Nat.le_refl _)

theorem makePayload_messages (info : SessionInfo) (reading : Int)
    (messages : List PreparedMessage) :
    (makePayload info reading messages).1.messages = messages := by
  unfold makePayload
  split <;> rfl

theorem makePayloads_messages :
    ∀ (containers : List (List PreparedMessage)) (readings : Nat → Int)
      (info : SessionInfo),
      (makePayloads readings info containers).1.map (·.messages) = containers := by
  intro containers
  induction containers with
  | nil => intro readings info; rfl
  | cons messages rest ih =>
    intro readings info
    simp only [makePayloads, List.map_cons, makePayload_messages, ih]

theorem perm_payloads {o : Options} {info : SessionInfo}
    {readings containerReadings : Nat → Int} {outgoing : List OutgoingMessage}
    {payloads : List Payload}
    (h : (transportReadyForTransaction o info readings containerReadings outgoing).2.1 =
      .payloads payloads) :
    (payloads.flatMap (·.messages)).Perm
      (transportReadyForTransaction o info readings containerReadings outgoing).1 := by
  unfold transportReadyForTransaction at h ⊢
  dsimp only at h ⊢
  split at h
  · cases h
  · grind [flatten_groups, makePayloads_messages, perm_orderMessages]

end TelegramPub.Ports.TransportTransaction
