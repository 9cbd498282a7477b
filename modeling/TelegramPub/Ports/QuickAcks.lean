import TelegramPub.Ports.InvokeAfter
import TelegramPub.Ports.MessageEncryption
import TelegramPub.Ports.PayloadCompletion
import TelegramPub.Ports.TcpStream

/-!
# Quick acknowledgements

The server may acknowledge a payload before it answers it, with the first 31 bits
of the hash from which the message key of the payload is cut.  `MTProto` computes
the same number when it builds the payload and reports it with the payload; the
request service keeps it in the context of each request and compares.

Both builders compute the hash, but with `MTProtoV2` only the one for containers
takes the number out of it.  A payload of a single message is reported with the
number zero, and its request never hears of the acknowledgement.

A `Round` is one transaction of the request service, handed over from any state;
`acknowledged_iff` says for which answers the right requests are told.
-/

namespace TelegramPub.Ports.QuickAcks

open Verified.Bytes Ports.MessageTransaction Ports.MessageEncryption Ports.RequestMessageService
open Ports.Session Ports.TransportTransaction
open Ports.InvokeAfter (emittedRequests_snd isBlocked prepareMessages_extends
  transaction_ids transaction_messages)
open Ports.PayloadCompletion
open Ports.TcpFraming (ServerFrame quickAckId)

variable {ρ : Type}

/-! ## Building a payload -/

/-- The plaintext of a packet before it is padded. -/
def packetPlain (salt sessionId messageId seqNo : Int) (data : Data) : Data :=
  int64Bytes salt ++ int64Bytes sessionId ++ int64Bytes messageId ++ int32Bytes seqNo ++
    int32Bytes data.length ++ data

/-- `containerData`: `msg_container` and its messages. -/
def containerData (messages : List PreparedMessage) : Data :=
  int32Bytes 0x73f1f8dc ++ int32Bytes messages.length ++ messages.flatMap fun m =>
    int64Bytes m.messageId ++ int32Bytes m.seqNo ++ int32Bytes m.data.length ++ m.data

/-- The plaintext of a payload.  A container has the salt of its last message. -/
def payloadPlain (sessionId : Int) (payload : Payload) : Data :=
  match payload.container, payload.messages with
  | some (messageId, seqNo), messages =>
    packetPlain ((messages.getLast?.map (·.salt)).getD 0) sessionId messageId seqNo
      (containerData messages)
  | none, m :: _ => packetPlain m.salt sessionId m.messageId m.seqNo m.data
  | none, [] => []

/-- `msgKeyLarge`. -/
def msgKeyLarge (sha256 : Data → Digest) (key : AuthKey) (decryptedData : Data) : Digest :=
  sha256 (range key.authKey (88 + xValue false) 32 ++ decryptedData)

/-- `nQuickAckId`: the first `int32_t` of the hash, without its sign bit. -/
def nQuickAckId (digest : Digest) : Int := int32OfBytes (digest.1.take 4) % 2 ^ 31

/-- The data of a payload, and what the builder leaves in `quickAckId`, which is zero
before.  `_dataForEncryptedContainerWithMessages` writes to it;
`_dataForEncryptedMessage` does so only where `MTProtoV2` is not set. -/
def dataForEncrypted (sha256 : Data → Digest) (aes : Data → Equiv.Perm (BitVec 128))
    (key : AuthKey) (payload : Payload) (decryptedData : Data) : Option Data × Int :=
  (encryptPlaintext sha256 aes key false decryptedData,
    match payload.container with
    | some _ => nQuickAckId (msgKeyLarge sha256 key decryptedData)
    | none => 0)

/-- The number in the server's quick acknowledgement: the first 32 bits of the hash,
with the top bit cleared. -/
def quickAckWord (digest : Digest) : Nat := leNat (digest.1.take 4) % 2 ^ 31

/-- What `socket:didReadData:withTag:` makes of the four bytes of an acknowledgement. -/
def receivedId (word : Nat) : Int :=
  quickAckId ((ServerFrame.quickAck word).bytes.headD 0)
    ((ServerFrame.quickAck word).bytes.drop 1)

/-- The transport is ready while the request service is in any state, and the
connection has a key.  `randomBytes` and `draw` are the padding of each payload. -/
structure Round (ρ : Type) where
  sha256 : Data → Digest
  aes : Data → Equiv.Perm (BitVec 128)
  key : AuthKey
  sessionId : Int
  randomBytes : Nat → Nat → UInt8
  draw : Nat → Nat
  world : World ρ
  options : Options
  encrypted : options.useUnauthorizedMode = false
  currentTime : Rat
  readings : Nat → Int
  containerReadings : Nat → Int
  others : List OutgoingMessage

/-- A completion handler that is called: the payload, and the transaction id if the
payload was sent. -/
abbrev Report := Nat × Option TransactionId

namespace Round

variable (r : Round ρ)

/-- The service after `mtProtoMessageTransaction:`. -/
def emitted : Service ρ := (mtProtoMessageTransaction r.world.service r.currentTime).2

def transaction : RequestTransaction :=
  (mtProtoMessageTransaction r.world.service r.currentTime).1.getD noTransaction

def outgoing : List OutgoingMessage :=
  numbered r.others r.emitted.nextMessageInternalId ++ r.transaction.messagePayload

def ready : List PreparedMessage × Outcome × SessionInfo :=
  transportReadyForTransaction r.options r.world.info r.readings r.containerReadings r.outgoing

/-- The payloads that go to the transport. -/
def payloads : List Payload :=
  match r.ready.2.1 with
  | .payloads payloads => payloads
  | _ => []

def decryptedData (j : Nat) (payload : Payload) : Data :=
  paddedData (r.randomBytes j) (r.draw j) (payloadPlain r.sessionId payload)

/-- The hash of a payload. -/
def digest (j : Nat) (payload : Payload) : Digest :=
  msgKeyLarge r.sha256 r.key (r.decryptedData j payload)

/-- `quickAckIdsByPayload`. -/
def quickAckIds (j : Nat) : Int :=
  match r.payloads[j]? with
  | some payload => (dataForEncrypted r.sha256 r.aes r.key payload (r.decryptedData j payload)).2
  | none => 0

def handedOver : World ρ :=
  PayloadCompletion.step r.world
    (.readyForTransaction r.options r.currentTime r.readings r.containerReadings r.others
      r.quickAckIds)

def sent : Sent where
  transaction := r.transaction
  preparedMessages := r.ready.1
  payloads := r.payloads.map (·.messages.map (·.messageInternalId))
  quickAckIds := r.quickAckIds

/-- A payload is reported. -/
def report (s : Service ρ) (report : Report) : Service ρ :=
  match r.sent.payloads[report.1]? with
  | some ids => reportService s r.sent report.1 ids report.2
  | none => s

/-- The service after the reports. -/
def reported (reports : List Report) : Service ρ := reports.foldl r.report r.handedOver.service

/-- A message of the request is in the payload. -/
def Carries (payload : Payload) (request : Request ρ) : Prop :=
  ∃ m ∈ payload.messages, r.transaction.messageFor request = some m.messageInternalId

/-- The server acknowledges a payload with the hash, and the request service calls the
callback of the request. -/
def Acknowledges (reports : List Report) (digest : Digest) (request : Request ρ) : Prop :=
  Output.acknowledgementReceived request.internalId ∈
    (receivedQuickAck (r.reported reports) (receivedId (quickAckWord digest))).2

/-- The acknowledgement of the payload reaches the requests that have a callback, whose
messages are in the payload, and that were not acknowledged before, and no others. -/
def ReachesRight (reports : List Report) (j : Nat) (payload : Payload)
    (acknowledged : List Nat) : Prop :=
  ∀ request ∈ r.world.service.requests,
    r.Acknowledges reports (r.digest j payload) request ↔
      request.hasAcknowledgementReceived = true ∧ r.Carries payload request ∧
        request.internalId ∉ acknowledged

/-- Nothing but the number zero is known of the request: its message is in a payload of
one message or in one that was not sent, or it is not in the transaction and has the
number from before. -/
def HasNumberZero (reports : List Report) (request : Request ρ) : Prop :=
  match r.transaction.messageFor request with
  | some id => ∀ (i : Nat) (payload : Payload), r.payloads[i]? = some payload →
      id ∈ payload.messages.map (·.messageInternalId) →
        payload.messages.length = 1 ∨ ∀ transactionId, (i, some transactionId) ∉ reports
  | none => ∃ context, request.requestContext = some context ∧ context.quickAckId = 0

/-- For a request in the payload: it was not acknowledged before and the payload is a
container, or it was and the payload has one message; where the hash gives the number
zero, every payload counts as a container.  For another request: it has not the number
zero, or the hash does not give it. -/
structure Recognized (reports : List Report) (j : Nat) (payload : Payload)
    (acknowledged : List Nat) (request : Request ρ) : Prop where
  carried : r.Carries payload request →
    (request.internalId ∉ acknowledged ↔
      payload.messages.length ≠ 1 ∨ quickAckWord (r.digest j payload) = 0)
  other : ¬ r.Carries payload request → quickAckWord (r.digest j payload) = 0 →
    ¬ r.HasNumberZero reports request

end Round

/-! ## The number of a payload -/

theorem nQuickAckId_eq (digest : Digest) : nQuickAckId digest = quickAckWord digest := by
  unfold nQuickAckId quickAckWord int32OfBytes
  rw [int32_eq_ite]
  split <;> omega

/-- The connection reads the number that the server wrote. -/
theorem receivedId_eq (digest : Digest) :
    receivedId (quickAckWord digest) = quickAckWord digest := by
  have hlt : quickAckWord digest < 2 ^ 31 := Nat.mod_lt _ (by decide)
  obtain ⟨marker, b₁, b₂, b₃, hbytes, _, hid⟩ := TcpStream.quickAck_bytes hlt
  have hframe : (ServerFrame.quickAck (quickAckWord digest)).bytes = [marker, b₁, b₂, b₃] :=
    hbytes
  unfold receivedId
  rw [hframe]
  exact hid

theorem makePayload_container (info : SessionInfo) (reading : Int)
    (messages : List PreparedMessage) :
    (makePayload info reading messages).1.container = none ↔ messages.length = 1 := by
  unfold makePayload
  split
  · exact ⟨fun _ => rfl, fun _ => rfl⟩
  · rename_i hmany
    constructor
    · intro hnone
      cases hnone
    · intro hone
      obtain ⟨m, hm⟩ := List.length_eq_one_iff.1 hone
      exact absurd hm (hmany m)

theorem makePayloads_container :
    ∀ (containers : List (List PreparedMessage)) (readings : Nat → Int) (info : SessionInfo),
      ∀ payload ∈ (makePayloads readings info containers).1,
        payload.container = none ↔ payload.messages.length = 1 := by
  intro containers
  induction containers with
  | nil =>
    intro readings info payload hmem
    cases hmem
  | cons messages rest ih =>
    intro readings info payload hmem
    simp only [makePayloads, List.mem_cons] at hmem
    rcases hmem with heq | hmem
    · rw [heq, makePayload_messages]
      exact makePayload_container info (readings 0) messages
    · exact ih _ _ payload hmem

namespace Round

variable (r : Round ρ)

variable {payload : Payload}

theorem ready_of_payload {j : Nat} (h : r.payloads[j]? = some payload) :
    r.ready.2.1 = .payloads r.payloads := by
  unfold payloads at h ⊢
  split
  · assumption
  · grind

theorem container_iff {j : Nat} (h : r.payloads[j]? = some payload) :
    payload.container = none ↔ payload.messages.length = 1 := by
  have hready := r.ready_of_payload h
  have hmem := List.mem_of_getElem? h
  unfold ready transportReadyForTransaction at hready
  dsimp only at hready
  split at hready
  · cases hready
  · grind [makePayloads_container]

theorem quickAckIds_eq {j : Nat} (h : r.payloads[j]? = some payload) :
    r.quickAckIds j =
      if payload.messages.length = 1 then 0 else (quickAckWord (r.digest j payload) : Int) := by
  unfold quickAckIds dataForEncrypted
  rw [h]
  dsimp only
  by_cases hone : payload.messages.length = 1
  · rw [if_pos hone, (r.container_iff h).2 hone]
  · rw [if_neg hone]
    obtain ⟨container, hcontainer⟩ := Option.ne_none_iff_exists'.1
      (mt (r.container_iff h).1 hone)
    rw [hcontainer]
    exact nQuickAckId_eq _

end Round

/-! ## The messages of a round -/

theorem emission_ids (s : Service ρ) (now : Rat) :
    ∃ count, (mtProtoMessageTransaction s now).2.nextMessageInternalId =
        s.nextMessageInternalId + count ∧
      ((mtProtoMessageTransaction s now).1.getD noTransaction).messagePayload.map
        (·.internalId) = List.range' s.nextMessageInternalId count := by
  unfold mtProtoMessageTransaction
  dsimp only
  split
  · rename_i hempty
    refine ⟨0, ?_, rfl⟩
    rw [List.length_eq_zero_iff.2 (List.isEmpty_iff.1 hempty)]
  · refine ⟨_, rfl, ?_⟩
    rw [Option.getD_some, List.map_append, List.map_map, List.map_map, List.length_append,
      List.length_map, List.length_map, List.length_zipIdx, ← List.range'_append_1]
    congr 1
    · exact emittedRequests_snd s now
    · exact List.zipIdx_map_snd _ _

theorem numbered_ids (others : List OutgoingMessage) (n : Nat) :
    (numbered others n).map (·.internalId) = List.range' n others.length := by
  unfold numbered
  rw [List.map_map]
  exact List.zipIdx_map_snd _ _

namespace Round

variable (r : Round ρ)

theorem outgoing_nodup : (r.outgoing.map (·.internalId)).Nodup := by
  obtain ⟨count, hnext, hids⟩ := emission_ids r.world.service r.currentTime
  have hothers := numbered_ids r.others r.emitted.nextMessageInternalId
  have htransaction : r.transaction.messagePayload.map (·.internalId) =
      List.range' r.world.service.nextMessageInternalId count := hids
  have hnext' : r.emitted.nextMessageInternalId =
      r.world.service.nextMessageInternalId + count := hnext
  unfold outgoing
  rw [List.map_append, hothers, htransaction, hnext', List.nodup_append]
  refine ⟨List.nodup_range', List.nodup_range', ?_⟩
  intro a ha b hb
  have ha' := List.mem_range'_1.1 ha
  have hb' := List.mem_range'_1.1 hb
  omega

variable {payload : Payload}

theorem ready_ids {j : Nat} (h : r.payloads[j]? = some payload) :
    r.ready.1.map (·.messageInternalId) = r.outgoing.map (·.internalId) := by
  have hready := r.ready_of_payload h
  obtain ⟨new, hnew, _, _, hall⟩ := prepareMessages_extends r.options r.outgoing r.readings
    { info := r.world.info }
  unfold ready transportReadyForTransaction at hready ⊢
  dsimp only at hready ⊢
  split at hready
  · cases hready
  · rename_i hquiet
    have hfree : isBlocked r.options (prepareMessages r.options r.readings
        { info := r.world.info } r.outgoing) = false := by
      unfold isBlocked
      rw [Bool.not_eq_true] at hquiet
      rw [hquiet]
      rfl
    rw [if_neg hquiet, ← hall hfree]
    split <;> rw [hnew] <;> rfl

theorem payload_ids_perm {j : Nat} (h : r.payloads[j]? = some payload) :
    ((r.payloads.flatMap (·.messages)).map (·.messageInternalId)).Perm
      (r.outgoing.map (·.internalId)) := by
  rw [← r.ready_ids h]
  exact (perm_payloads (r.ready_of_payload h)).map _

theorem payload_unique {i j : Nat} {payload' : Payload} {id : Nat}
    (hi : r.payloads[i]? = some payload') (hj : r.payloads[j]? = some payload)
    (hid : id ∈ payload'.messages.map (·.messageInternalId))
    (hid' : id ∈ payload.messages.map (·.messageInternalId)) : i = j := by
  have hnodup : ((r.payloads.flatMap (·.messages)).map (·.messageInternalId)).Nodup :=
    (r.payload_ids_perm hj).nodup_iff.2 r.outgoing_nodup
  rw [List.map_flatMap, List.nodup_flatMap] at hnodup
  have hdisjoint := List.pairwise_iff_getElem.1 hnodup.2
  obtain ⟨hilt, hi⟩ := List.getElem?_eq_some_iff.1 hi
  obtain ⟨hjlt, hj⟩ := List.getElem?_eq_some_iff.1 hj
  rw [← hi] at hid
  rw [← hj] at hid'
  rcases Nat.lt_trichotomy i j with hlt | heq | hgt
  · exact absurd hid' (hdisjoint i j hilt hjlt hlt hid)
  · exact heq
  · exact absurd hid (hdisjoint j i hjlt hilt hgt hid')

theorem exists_payload {j : Nat} (h : r.payloads[j]? = some payload) {request : Request ρ}
    {id : Nat} (hid : r.transaction.messageFor request = some id) :
    ∃ (i : Nat) (payload' : Payload), r.payloads[i]? = some payload' ∧
      id ∈ payload'.messages.map (·.messageInternalId) := by
  have hmem : id ∈ r.outgoing.map (·.internalId) := by
    have hentry := dictionary_mem hid
    unfold outgoing
    rw [List.map_append]
    apply List.mem_append_right
    unfold transaction at hentry ⊢
    cases ht : (mtProtoMessageTransaction r.world.service r.currentTime).1 with
    | none =>
      rw [ht] at hentry
      cases hentry
    | some t =>
      rw [ht, Option.getD_some, transaction_ids ht] at hentry
      obtain ⟨e, he, heq⟩ := List.mem_map.1 hentry
      rw [Option.getD_some, transaction_messages ht, List.map_append]
      apply List.mem_append_left
      rw [List.map_map]
      exact List.mem_map.2 ⟨e, he, congrArg Prod.snd heq⟩
  rw [← (r.payload_ids_perm h).mem_iff, List.map_flatMap] at hmem
  obtain ⟨payload', hmem', hin⟩ := List.mem_flatMap.1 hmem
  obtain ⟨i, hi⟩ := List.getElem?_of_mem hmem'
  exact ⟨i, payload', hi, hin⟩

theorem carries_iff {request : Request ρ} :
    r.Carries payload request ↔ ∃ id, r.transaction.messageFor request = some id ∧
      id ∈ payload.messages.map (·.messageInternalId) := by
  constructor
  · intro ⟨m, hm, hid⟩
    exact ⟨_, hid, List.mem_map_of_mem hm⟩
  · intro ⟨id, hid, hmem⟩
    obtain ⟨m, hm, heq⟩ := List.mem_map.1 hmem
    exact ⟨m, hm, heq ▸ hid⟩

end Round

/-! ## The requests after the reports -/

/-- The request has a context with this number. -/
def HasQuickAckId (request : Request ρ) (number : Int) : Prop :=
  ∃ context, request.requestContext = some context ∧ context.quickAckId = number

theorem HasQuickAckId.iff {request : Request ρ} {number : Int}
    (h : HasQuickAckId request number) (other : Int) :
    HasQuickAckId request other ↔ number = other := by
  obtain ⟨context, hcontext, hnumber⟩ := h
  constructor
  · intro ⟨context', hcontext', hother⟩
    rw [hcontext] at hcontext'
    rw [← hnumber, ← hother, Option.some.inj hcontext']
  · intro heq
    exact ⟨context, hcontext, hnumber.trans heq⟩

theorem HasQuickAckId.stopWaiting {request : Request ρ} {number : Int}
    (h : HasQuickAckId request number) : HasQuickAckId (stopWaiting request) number := by
  obtain ⟨context, hcontext, hnumber⟩ := h
  refine ⟨{ context with waitingForMessageId := false }, ?_, hnumber⟩
  unfold RequestMessageService.stopWaiting
  rw [hcontext]
  rfl

namespace Round

variable (r : Round ρ)

/-- The blocks of a transaction with payloads are prepared, and it is in flight. -/
theorem handedOver_eq {j : Nat} {payload : Payload} (h : r.payloads[j]? = some payload) :
    ∃ s, s.requests = r.world.service.requests ∧
      r.handedOver =
        { service := prepared s r.transaction (preparedDictionary r.ready.1)
          info := r.ready.2.2
          sent := r.world.sent ++ [r.sent] } := by
  have hready := r.ready_of_payload h
  have hsame := RequestLifecycle.mtProtoMessageTransaction_requests r.world.service r.currentTime
  have houtgoing : transportReadyForTransaction r.options r.world.info r.readings
      r.containerReadings (numbered r.others r.emitted.nextMessageInternalId ++
        r.transaction.messagePayload) = r.ready := rfl
  refine ⟨{ r.emitted with
    nextMessageInternalId := r.emitted.nextMessageInternalId +
      (numbered r.others r.emitted.nextMessageInternalId).length }, hsame, ?_⟩
  have hstep : r.handedOver = handOver { r.world with service := r.emitted } r.transaction
      r.options r.readings r.containerReadings r.others r.quickAckIds := rfl
  rw [hstep]
  unfold handOver
  dsimp only
  rw [houtgoing]
  generalize hr : r.ready = ready at hready
  obtain ⟨messages, outcome, info⟩ := ready
  dsimp only at hready
  subst hready
  cases hp : r.payloads with
  | nil =>
    rw [hp] at h
    cases h
  | cons first rest =>
    grind [payloads, quickAckIds, sent, transaction]

/-- What a report does to a request. -/
def reportRequest (request : Request ρ) (report : Report) : Request ρ :=
  match r.payloads[report.1]?, report.2 with
  | some payload, some transactionId =>
    let ids := payload.messages.map (·.messageInternalId)
    completeRequest r.transaction
      (fun id => if ids.contains id then some transactionId else none)
      (fun id => if ids.contains id then preparedDictionary r.ready.1 id else none)
      (fun id => if ids.contains id then some (r.quickAckIds report.1) else none) request
  | some _, none =>
    completeRequest r.transaction (fun _ => none) (fun _ => none) (fun _ => none) request
  | none, _ => request

theorem report_requests (s : Service ρ) (report : Report) :
    (r.report s report).requests = s.requests.map (r.reportRequest · report) := by
  obtain ⟨i, transactionId⟩ := report
  have hids : r.sent.payloads[i]? =
      r.payloads[i]?.map (·.messages.map (·.messageInternalId)) := List.getElem?_map
  unfold Round.report reportRequest
  rw [hids]
  cases r.payloads[i]? with
  | none => exact (List.map_id' s.requests).symm
  | some payload =>
    cases transactionId with
    | none => rfl
    | some transactionId => rfl

theorem foldl_report_requests (reports : List Report) :
    ∀ s : Service ρ, (reports.foldl r.report s).requests =
      s.requests.map fun request => reports.foldl r.reportRequest request := by
  induction reports with
  | nil => intro s; exact (List.map_id' s.requests).symm
  | cons first rest ih =>
    intro s
    rw [List.foldl_cons, ih, report_requests, List.map_map]
    rfl

/-- A report changes nothing but the context. -/
theorem reportRequest_same (request : Request ρ) (report : Report) :
    (r.reportRequest request report).internalId = request.internalId ∧
      (r.reportRequest request report).hasAcknowledgementReceived =
        request.hasAcknowledgementReceived := by
  have hsame : ∀ transactionIds preparedMessages quickAckIds,
      (completeRequest r.transaction transactionIds preparedMessages quickAckIds
          request).internalId = request.internalId ∧
        (completeRequest r.transaction transactionIds preparedMessages quickAckIds
          request).hasAcknowledgementReceived = request.hasAcknowledgementReceived := by
    intro transactionIds preparedMessages quickAckIds
    unfold completeRequest
    split
    · exact ⟨rfl, rfl⟩
    · split <;> exact ⟨rfl, rfl⟩
  unfold reportRequest
  split
  · exact hsame _ _ _
  · exact hsame _ _ _
  · exact ⟨rfl, rfl⟩

theorem reportRequest_of_none {request : Request ρ}
    (h : r.transaction.messageFor request = none) (report : Report) :
    r.reportRequest request report = request := by
  unfold reportRequest
  split
  · exact completeRequest_of_none h _ _ _
  · exact completeRequest_of_none h _ _ _
  · rfl

theorem reportRequest_number {j : Nat} {payload : Payload}
    (h : r.payloads[j]? = some payload) {request : Request ρ} {id : Nat}
    (hid : r.transaction.messageFor request = some id)
    (hmem : id ∈ payload.messages.map (·.messageInternalId)) {number : Int}
    (hnumber : HasQuickAckId request number) (report : Report) :
    HasQuickAckId (r.reportRequest request report)
      (if report.1 = j ∧ report.2.isSome = true then r.quickAckIds j else number) := by
  obtain ⟨i, transactionId⟩ := report
  unfold reportRequest
  dsimp only
  cases hi : r.payloads[i]? with
  | none =>
    grind
  | some payload' =>
    cases transactionId with
    | none =>
      rw [if_neg (fun hboth => by cases hboth.2)]
      unfold completeRequest
      rw [hid]
      exact hnumber.stopWaiting
    | some transactionId =>
      dsimp only
      unfold completeRequest
      rw [hid]
      by_cases hin : id ∈ payload'.messages.map (·.messageInternalId)
      · have heq : i = j := r.payload_unique hi h hin hmem
        have hprepared : preparedDictionary r.ready.1 id ≠ none := by
          have hready : id ∈ r.ready.1.map (·.messageInternalId) := by
            rw [r.ready_ids h, ← (r.payload_ids_perm h).mem_iff, List.map_flatMap]
            exact List.mem_flatMap.2 ⟨payload, List.mem_of_getElem? h, hmem⟩
          obtain ⟨m, hm, heq⟩ := List.mem_map.1 hready
          exact heq ▸ preparedDictionary_of_mem hm
        obtain ⟨m, hm⟩ := Option.ne_none_iff_exists'.1 hprepared
        have hcontains : (payload'.messages.map (·.messageInternalId)).contains id = true :=
          List.contains_iff_mem.2 hin
        rw [if_pos ⟨heq, rfl⟩, ← heq]
        dsimp only
        rw [if_pos hcontains, if_pos hcontains, if_pos hcontains, hm]
        exact ⟨_, rfl, rfl⟩
      · have hne : i ≠ j := by
          intro heq
          rw [heq, h] at hi
          exact hin (Option.some.inj hi ▸ hmem)
        have hcontains : ¬ (payload'.messages.map (·.messageInternalId)).contains id =
            true := fun hc => hin (List.contains_iff_mem.1 hc)
        rw [if_neg (fun hboth => hne hboth.1)]
        dsimp only
        rw [if_neg hcontains, if_neg hcontains]
        exact hnumber.stopWaiting

end Round

/-- What the `prepared` block does to one request. -/
def prepareRequest (t : RequestTransaction) (preparedMessages : Nat → Option PreparedMessage)
    (request : Request ρ) : Request ρ :=
  match (t.messageFor request).bind preparedMessages with
  | some preparedMessage =>
    { request with
      requestContext := some
        { messageId := preparedMessage.messageId
          messageSeqNo := preparedMessage.seqNo
          transactionId := none
          quickAckId := 0
          willInitializeApi := t.requestsWillInitializeApi
          waitingForMessageId := true } }
  | none => request

theorem prepareRequest_same (t : RequestTransaction)
    (preparedMessages : Nat → Option PreparedMessage) (request : Request ρ) :
    (prepareRequest t preparedMessages request).internalId = request.internalId ∧
      (prepareRequest t preparedMessages request).hasAcknowledgementReceived =
        request.hasAcknowledgementReceived := by
  unfold prepareRequest
  split <;> exact ⟨rfl, rfl⟩

namespace Round

variable (r : Round ρ)

/-- A request after the reports. -/
def after (reports : List Report) (request : Request ρ) : Request ρ :=
  reports.foldl r.reportRequest
    (prepareRequest r.transaction (preparedDictionary r.ready.1) request)

variable {j : Nat} {payload : Payload}

theorem reported_requests (h : r.payloads[j]? = some payload) (reports : List Report) :
    (r.reported reports).requests = r.world.service.requests.map (r.after reports) := by
  obtain ⟨s, hs, heq⟩ := r.handedOver_eq h
  unfold reported
  rw [foldl_report_requests, heq, ← hs]
  exact List.map_map

theorem foldl_reportRequest_same (reports : List Report) :
    ∀ request : Request ρ,
      (reports.foldl r.reportRequest request).internalId = request.internalId ∧
        (reports.foldl r.reportRequest request).hasAcknowledgementReceived =
          request.hasAcknowledgementReceived := by
  induction reports with
  | nil => intro request; exact ⟨rfl, rfl⟩
  | cons first rest ih =>
    intro request
    have hfirst := r.reportRequest_same request first
    have hrest := ih (r.reportRequest request first)
    exact ⟨hrest.1.trans hfirst.1, hrest.2.trans hfirst.2⟩

theorem after_same (reports : List Report) (request : Request ρ) :
    (r.after reports request).internalId = request.internalId ∧
      (r.after reports request).hasAcknowledgementReceived =
        request.hasAcknowledgementReceived := by
  have hprepared := prepareRequest_same r.transaction (preparedDictionary r.ready.1) request
  have hreports := r.foldl_reportRequest_same reports
    (prepareRequest r.transaction (preparedDictionary r.ready.1) request)
  exact ⟨hreports.1.trans hprepared.1, hreports.2.trans hprepared.2⟩

variable {request : Request ρ}

/-- A request outside the transaction is as it was. -/
theorem after_of_none (h : r.transaction.messageFor request = none) (reports : List Report)
    : r.after reports request = request := by
  have hprepared : prepareRequest r.transaction (preparedDictionary r.ready.1) request =
      request := by
    unfold prepareRequest
    rw [h]
    rfl
  unfold after
  rw [hprepared]
  induction reports with
  | nil => rfl
  | cons first rest ih => rw [List.foldl_cons, r.reportRequest_of_none h, ih]

open Classical in
theorem foldl_number (h : r.payloads[j]? = some payload) {id : Nat}
    (hmem : id ∈ payload.messages.map (·.messageInternalId)) (reports : List Report) :
    ∀ (request : Request ρ) (number : Int), r.transaction.messageFor request = some id →
      HasQuickAckId request number →
      HasQuickAckId (reports.foldl r.reportRequest request)
        (if ∃ transactionId, (j, some transactionId) ∈ reports then r.quickAckIds j
          else number) := by
  induction reports with
  | nil =>
    grind
  | cons first rest ih =>
    intro request number hid hnumber
    have hfirst := r.reportRequest_number h hid hmem hnumber first
    have hid' : r.transaction.messageFor (r.reportRequest request first) = some id := by
      rw [messageFor_congr r.transaction (r.reportRequest_same request first).1]
      exact hid
    have hrest := ih _ _ hid' hfirst
    rw [List.foldl_cons]
    by_cases hlater : ∃ transactionId, (j, some transactionId) ∈ rest
    · obtain ⟨transactionId, hlater⟩ := hlater
      rw [if_pos ⟨transactionId, hlater⟩] at hrest
      rw [if_pos ⟨transactionId, List.mem_cons_of_mem _ hlater⟩]
      exact hrest
    · rw [if_neg hlater] at hrest
      obtain ⟨i, transactionId⟩ := first
      by_cases hnow : i = j ∧ transactionId.isSome = true
      · rw [if_pos hnow] at hrest
        obtain ⟨rfl, hsome⟩ := hnow
        obtain ⟨transactionId, rfl⟩ := Option.isSome_iff_exists.1 hsome
        rw [if_pos ⟨transactionId, .head _⟩]
        exact hrest
      · grind

open Classical in
theorem after_number (h : r.payloads[j]? = some payload) {id : Nat}
    (hid : r.transaction.messageFor request = some id)
    (hmem : id ∈ payload.messages.map (·.messageInternalId)) (reports : List Report) :
    HasQuickAckId (r.after reports request)
      (if ∃ transactionId, (j, some transactionId) ∈ reports then r.quickAckIds j else 0) := by
  have hsame := prepareRequest_same r.transaction (preparedDictionary r.ready.1) request
  apply r.foldl_number h hmem reports
  · rw [messageFor_congr r.transaction hsame.1]
    exact hid
  · have hready : id ∈ r.ready.1.map (·.messageInternalId) := by
      rw [r.ready_ids h, ← (r.payload_ids_perm h).mem_iff, List.map_flatMap]
      exact List.mem_flatMap.2 ⟨payload, List.mem_of_getElem? h, hmem⟩
    obtain ⟨m, hm, heq⟩ := List.mem_map.1 hready
    obtain ⟨found, hfound⟩ := Option.ne_none_iff_exists'.1 (preparedDictionary_of_mem hm)
    unfold prepareRequest
    rw [hid, Option.bind_some, ← heq, hfound]
    exact ⟨_, rfl, rfl⟩

/-- Who is told: the requests with a callback and with the number. -/
theorem acknowledges_iff (h : r.payloads[j]? = some payload)
    (hids : r.world.service.internalIds.Nodup) (reports : List Report) (digest : Digest)
    (hmem : request ∈ r.world.service.requests) :
    r.Acknowledges reports digest request ↔ request.hasAcknowledgementReceived = true ∧
      HasQuickAckId (r.after reports request) (quickAckWord digest) := by
  unfold Acknowledges receivedQuickAck
  rw [r.reported_requests h, receivedId_eq, List.filterMap_map, List.mem_filterMap]
  have hsame := r.after_same reports
  constructor
  · intro ⟨other, hother, hout⟩
    dsimp only [Function.comp_apply] at hout
    split at hout
    · rename_i hboth
      obtain ⟨hnumber, hcallback⟩ := Bool.and_eq_true_iff.1 hboth
      have hid := Output.acknowledgementReceived.inj (Option.some.inj hout)
      rw [(hsame other).1] at hid
      have heq : other = request := List.inj_on_of_nodup_map hids hother hmem hid
      rw [heq] at hnumber hcallback
      rw [(hsame request).2] at hcallback
      obtain ⟨hsome, hget⟩ := (Option.any_eq_true_iff_get _ _).1 hnumber
      exact ⟨hcallback, _, (Option.some_get hsome).symm, by simpa using hget⟩
    · cases hout
  · intro ⟨hcallback, context, hcontext, hnumber⟩
    refine ⟨request, hmem, ?_⟩
    dsimp only [Function.comp_apply]
    rw [hcontext, (hsame request).2, hcallback, (hsame request).1, Option.any_some, hnumber]
    simp

theorem judged_iff {reports : List Report} {acknowledged : List Nat}
    (hpayload : r.payloads[j]? = some payload)
    (hsent : ∃ transactionId, (j, some transactionId) ∈ reports)
    (hdistinct : ∀ (i : Nat) (other : Payload), r.payloads[i]? = some other → i ≠ j →
      quickAckWord (r.digest i other) ≠ quickAckWord (r.digest j payload))
    (hearlier : r.transaction.messageFor request = none → ∀ context,
      request.requestContext = some context →
        context.quickAckId = 0 ∨ context.quickAckId ≠ quickAckWord (r.digest j payload)) :
    (HasQuickAckId (r.after reports request) (quickAckWord (r.digest j payload)) ↔
        r.Carries payload request ∧ request.internalId ∉ acknowledged) ↔
      r.Recognized reports j payload acknowledged request := by
  generalize hword : quickAckWord (r.digest j payload) = word at hdistinct hearlier
  have hrecognized : r.Recognized reports j payload acknowledged request ↔
      (r.Carries payload request →
        (request.internalId ∉ acknowledged ↔ payload.messages.length ≠ 1 ∨ word = 0)) ∧
      (¬ r.Carries payload request → word = 0 → ¬ r.HasNumberZero reports request) := by
    rw [← hword]
    exact ⟨fun h => ⟨h.carried, h.other⟩, fun h => ⟨h.1, h.2⟩⟩
  rw [hrecognized]
  cases hid : r.transaction.messageFor request with
  | none =>
    have hnot : ¬ r.Carries payload request := by
      intro ⟨_, _, hsome⟩
      rw [hid] at hsome
      cases hsome
    have hzero : r.HasNumberZero reports request ↔ HasQuickAckId request 0 := by
      unfold HasNumberZero
      rw [hid]
      exact Iff.rfl
    rw [r.after_of_none hid, hzero]
    by_cases hw : word = 0
    · subst hw
      simp [hnot]
    · have hother : ¬ HasQuickAckId request word := by
        intro ⟨context, hcontext, hnumber⟩
        rcases hearlier hid context hcontext with hzero | hne
        · omega
        · exact hne hnumber
      simp [hnot, hw, hother]
  | some id =>
    obtain ⟨i, other, hi, hin⟩ := r.exists_payload hpayload hid
    have hafter := (r.after_number hi hid hin reports).iff word
    rw [hafter, r.quickAckIds_eq hi]
    by_cases hij : i = j
    · subst hij
      have heq : other = payload := Option.some.inj (hi.symm.trans hpayload)
      subst heq
      have hcarries : r.Carries other request := r.carries_iff.2 ⟨id, hid, hin⟩
      rw [if_pos hsent, hword]
      by_cases hone : other.messages.length = 1
      · grind
      · simp [hone, hcarries]
    · have hnot : ¬ r.Carries payload request := by
        intro hcarries
        obtain ⟨id', hid', hin'⟩ := r.carries_iff.1 hcarries
        rw [hid] at hid'
        exact hij (r.payload_unique hi hpayload hin (Option.some.inj hid' ▸ hin'))
      have hne := hdistinct i other hi hij
      have hzero : r.HasNumberZero reports request ↔ other.messages.length = 1 ∨
          ¬ ∃ transactionId, (i, some transactionId) ∈ reports := by
        unfold HasNumberZero
        rw [hid]
        constructor
        · intro hall
          rcases hall i other hi hin with hone | hnone
          · exact .inl hone
          · exact .inr fun ⟨transactionId, hreport⟩ => hnone transactionId hreport
        · intro hcases k found hk hfound
          have hki := r.payload_unique hk hi hfound hin
          subst hki
          rw [Option.some.inj (hk.symm.trans hi)]
          rcases hcases with hone | hnone
          · exact .inl hone
          · exact .inr fun transactionId hreport => hnone ⟨transactionId, hreport⟩
      rw [hzero]
      have hzero : (0 : Int) = word ↔ word = 0 := by omega
      have hother : ¬ (quickAckWord (r.digest i other) : Int) = word := by
        intro heq
        exact hne (Int.ofNat.inj heq)
      by_cases hreported : ∃ transactionId, (i, some transactionId) ∈ reports
      · by_cases hone : other.messages.length = 1
        · simp [hreported, hone, hnot, hzero]
        · simp [hreported, hone, hnot, hother]
      · simp [hreported, hnot, hzero]

end Round

/-- The request service tells the right requests of the acknowledgement of a payload,
if every request with a callback is recognized, and only then. -/
theorem acknowledged_iff (r : Round ρ) (reports : List Report) (j : Nat) (payload : Payload)
    (acknowledged : List Nat) (hids : r.world.service.internalIds.Nodup)
    (hpayload : r.payloads[j]? = some payload)
    (hsent : ∃ transactionId, (j, some transactionId) ∈ reports)
    (hdistinct : ∀ (i : Nat) (other : Payload), r.payloads[i]? = some other → i ≠ j →
      quickAckWord (r.digest i other) ≠ quickAckWord (r.digest j payload))
    (hearlier : ∀ request ∈ r.world.service.requests,
      r.transaction.messageFor request = none → ∀ context,
        request.requestContext = some context →
          context.quickAckId = 0 ∨ context.quickAckId ≠ quickAckWord (r.digest j payload)) :
    r.ReachesRight reports j payload acknowledged ↔
      ∀ request ∈ r.world.service.requests, request.hasAcknowledgementReceived = true →
        r.Recognized reports j payload acknowledged request := by
  apply forall₂_congr
  intro request hmem
  rw [r.acknowledges_iff hpayload hids reports _ hmem]
  by_cases hcallback : request.hasAcknowledgementReceived = true
  · simp only [hcallback, true_and, true_implies]
    exact r.judged_iff hpayload hsent hdistinct (hearlier request hmem)
  · simp [hcallback]

/-! ### A single message and a container -/

/-- A request with a callback. -/
def sampleRequest (internalId : Nat) : Request Unit :=
  { internalId, payload := [1, 2, 3, 4], responseParser := fun _ => some ()
    hasAcknowledgementReceived := true }

/-- A hash whose first 32 bits are five. -/
def sampleHash (_ : Data) : Digest := ⟨[5] ++ List.replicate 31 0, by decide⟩

/-- The given requests are handed over on a new connection. -/
def sampleRound (requests : List (Request Unit)) : Round Unit where
  sha256 := sampleHash
  aes := fun _ => Equiv.refl _
  key := zeroKey
  sessionId := 1
  randomBytes := fun _ _ => 0
  draw := fun _ => 0
  world := { service := { requests } }
  options := {}
  encrypted := rfl
  currentTime := 0
  readings := fun k => 1000 + 4 * k
  containerReadings := fun k => 2000 + 4 * k
  others := []

def sampleMessage (messageInternalId : Nat) : PreparedMessage :=
  { messageInternalId, data := [1, 2, 3, 4], messageId := 1000 + 4 * messageInternalId
    seqNo := 1 + 2 * messageInternalId, salt := 1, requiresConfirmation := true
    hasHighPriority := false, inResponseToMessageId := 0 }

/-- Two requests in one container are both told. -/
theorem container_acknowledged :
    (sampleRound [sampleRequest 1, sampleRequest 2]).ReachesRight [(0, some 7)] 0
      { messages := [sampleMessage 0, sampleMessage 1], container := some (2000, 4) } [] := by
  have hpayloads : (sampleRound [sampleRequest 1, sampleRequest 2]).payloads =
      [{ messages := [sampleMessage 0, sampleMessage 1], container := some (2000, 4) }] := by
    decide +kernel
  apply (acknowledged_iff _ [(0, some 7)] 0 _ [] (by decide) (by rw [hpayloads]; rfl)
    ⟨7, .head _⟩ ?_ ?_).2
  · intro request _ _
    constructor
    · intro _
      exact ⟨fun _ => .inl (by decide), fun _ => List.not_mem_nil⟩
    · intro _ hzero
      exact absurd hzero (by decide)
  · grind
  · intro request hmem _ context hcontext
    simp only [sampleRound, List.mem_cons, List.not_mem_nil, or_false] at hmem
    rcases hmem with rfl | rfl <;> cases hcontext

/-- A request that is sent alone is not told. -/
theorem single_not_acknowledged :
    ¬ (sampleRound [sampleRequest 1]).ReachesRight [(0, some 7)] 0
      { messages := [sampleMessage 0] } [] := by
  intro hright
  have htold := (hright (sampleRequest 1) (.head _)).2
    ⟨rfl, ⟨sampleMessage 0, List.mem_cons_self, by decide +kernel⟩, List.not_mem_nil⟩
  have hnumbers : ((sampleRound [sampleRequest 1]).reported [(0, some 7)]).requests.map
      (fun request => request.requestContext.map (·.quickAckId)) = [some 0] := by
    decide +kernel
  obtain ⟨request, hmem, hout⟩ := List.mem_filterMap.1 htold
  have hnumber := List.mem_map_of_mem (f := fun request : Request Unit =>
    request.requestContext.map (·.quickAckId)) hmem
  rw [hnumbers, List.mem_singleton] at hnumber
  split at hout
  · rename_i hboth
    obtain ⟨context, hcontext, hzero⟩ := Option.map_eq_some_iff.1 hnumber
    rw [hcontext, Option.any_some, hzero] at hboth
    exact absurd (Bool.and_eq_true_iff.1 hboth).1 (by decide)
  · cases hout

end TelegramPub.Ports.QuickAcks
