import TelegramPub.Verified.Encoded
import TelegramPub.Ports.InternalMessageParser

/-!
# The service messages that the client writes

Several services put service messages together field by field.  Here their bytes are given
to the parser of incoming messages.  Acknowledgements, pings and containers come back.  The
request to resend a message does not: it is written with a boxed vector, and the parser
reads a bare one, so it takes the constructor of the vector for the count.
-/

namespace TelegramPub.Ports.ServiceMessages

open Verified.Bytes Verified.ByteReader Ports.TLBuffer Ports.InternalMessageParser

/-- The messages that the client builds. -/
inductive ServiceMessage where
  /-- `transportReadyForTransaction:` -/
  | msgsAck (messageIds : List Int)
  /-- `MTResendMessageService`, which asks for one message -/
  | msgResendReq (messageId : Int)
  /-- `MTProto`, `MTTcpTransport` and `MTHttpTransport` -/
  | ping (pingId : Int)
  /-- `_dataForEncryptedContainerWithMessages:` -/
  | msgContainer (messages : List Message)

/-- An element of a container. -/
def elementBytes (message : Message) : Data :=
  int64Bytes message.messageId ++ (int32Bytes message.seqNo ++
    (int32Bytes message.data.length ++ message.data))

/-- What the services write.  The counts are cast to `int32_t`. -/
def ServiceMessage.bytes : ServiceMessage → Data
  | .msgsAck messageIds =>
    int32Bytes 0x62d6b459 ++ (int32Bytes 481674261 ++ (int32Bytes messageIds.length ++
      messageIds.flatMap int64Bytes))
  | .msgResendReq messageId =>
    int32Bytes 0x7d861a08 ++ (int32Bytes 481674261 ++ (int32Bytes 1 ++ int64Bytes messageId))
  | .ping pingId => int32Bytes 0x7abe77ec ++ int64Bytes pingId
  | .msgContainer messages =>
    int32Bytes 0x73f1f8dc ++ (int32Bytes messages.length ++ messages.flatMap elementBytes)

/-- The object that the parser has for the message. -/
def ServiceMessage.object : ServiceMessage → InternalMessage
  | .msgsAck messageIds => .msgsAck messageIds
  | .msgResendReq messageId => .msgResendReq [messageId]
  | .ping pingId => .ping pingId
  | .msgContainer messages => .msgContainer messages

/-- The numbers are machine integers, and a body has at most 16 MB. -/
structure FitsElement (message : Message) : Prop where
  messageId : int64 message.messageId = message.messageId
  seqNo : int32 message.seqNo = message.seqNo
  data : message.data.length ≤ 16 * 1024 * 1024

def ServiceMessage.Fits : ServiceMessage → Prop
  | .msgsAck messageIds => ∀ messageId ∈ messageIds, int64 messageId = messageId
  | .msgResendReq messageId => int64 messageId = messageId
  | .ping pingId => int64 pingId = pingId
  | .msgContainer messages => ∀ message ∈ messages, FitsElement message

/-- The parser returns the message that was written. -/
def ParsesBack (message : ServiceMessage) : Prop :=
  parseMessage message.bytes = .ok (some message.object)

theorem reads_readInt32_cast (n : Int) : Reads readInt32 (int32Bytes n) (int32 n) := by
  have hbytes := reads_take (int32Bytes n)
  rw [length_int32Bytes] at hbytes
  have hread := hbytes.map int32OfBytes
  rwa [int32OfBytes_int32Bytes] at hread

theorem reads_readInt32 {n : Int} (h : int32 n = n) : Reads readInt32 (int32Bytes n) n := by
  have hread := reads_readInt32_cast n
  rwa [h] at hread

theorem reads_readInt64 {n : Int} (h : int64 n = n) : Reads readInt64 (int64Bytes n) n := by
  have hbytes := reads_take (int64Bytes n)
  rw [length_int64Bytes] at hbytes
  have hread := hbytes.map int64OfBytes
  rwa [int64OfBytes_int64Bytes, h] at hread

theorem reads_element {message : Message} (h : FitsElement message) :
    Reads readContainerElement (elementBytes message) message := by
  have hdata := h.data
  have hlength : int32 message.data.length = message.data.length :=
    int32_of_range (by omega) (by omega)
  refine (reads_readInt64 h.messageId).bind ((reads_readInt32 h.seqNo).bind
    ((reads_readInt32 hlength).bind ?_))
  have hin :
      ¬ ((message.data.length : Int) < 0 ∨ 16 * 1024 * 1024 < (message.data.length : Int)) := by
    omega
  rw [if_neg hin, Int.toNat_natCast]
  exact (reads_take message.data).map _

/-- How many elements are read when `n` were written. -/
def readCount (n : Nat) : Nat := (int32 n).toNat

theorem readCount_le (n : Nat) : readCount n ≤ n := by
  unfold readCount
  rw [int32_eq_ite]
  split_ifs <;> omega

theorem readCount_eq_iff (n : Nat) : readCount n = n ↔ n < 2 ^ 31 := by
  unfold readCount
  rw [int32_eq_ite]
  split_ifs <;> omega

theorem take_readCount_eq_iff {α : Type} (as : List α) :
    as.take (readCount as.length) = as ↔ as.length < 2 ^ 31 := by
  rw [← readCount_eq_iff]
  constructor
  · intro htake
    have hlength := congrArg List.length htake
    rw [List.length_take] at hlength
    have hle := readCount_le as.length
    omega
  · intro hcount
    rw [hcount, List.take_length]

theorem reads_vector {α : Type} {p : Reader α} {encode : α → Data} {as : List α}
    (h : ∀ a ∈ as, Reads p (encode a) a) (make : List α → InternalMessage) :
    Reads (do return make (← readVector p (← readInt32)))
      (int32Bytes as.length ++ (as.take (readCount as.length)).flatMap encode)
      (make (as.take (readCount as.length))) :=
  (reads_readInt32_cast as.length).bind
    ((reads_replicateM h (readCount_le as.length)).map make)

/-- The elements that are not read follow. -/
theorem flatMap_take_drop {α : Type} (encode : α → Data) (as : List α) (n : Nat) :
    as.flatMap encode = (as.take n).flatMap encode ++ (as.drop n).flatMap encode := by
  rw [← List.flatMap_append, List.take_append_drop]

theorem reads_message (signature : Int) (branch : Branch) {bytes : Data} {m : InternalMessage}
    (hbranch : branchOf (leNat (int32Bytes signature)) = some branch)
    (h : Reads (parseBody branch) bytes m) :
    Reads messageReader (int32Bytes signature ++ bytes) m := by
  have hsignature := reads_take (int32Bytes signature)
  rw [length_int32Bytes] at hsignature
  refine hsignature.bind ?_
  dsimp only
  rw [hbranch]
  exact h

theorem parseMessage_eq {bytes : Data} {m : InternalMessage} (h : Reads messageReader bytes m)
    (more : Data) : parseMessage (bytes ++ more) = .ok (some m) := by
  unfold parseMessage
  rw [h.start]
  rfl

theorem reads_boxed {bytes : Data} {m : InternalMessage}
    (h : Reads (do return .msgsAck (← readVector readInt64 (← readInt32))) bytes m) :
    Reads (parseBody .msgsAck) (int32Bytes 481674261 ++ bytes) m := by
  have hboxed := reads_take (int32Bytes 481674261)
  rw [length_int32Bytes] at hboxed
  refine hboxed.bind ?_
  have hvector : ¬ leNat (int32Bytes 481674261) ≠ 0x1cb5c415 := by decide
  rw [if_neg hvector]
  exact h

theorem parse_msgsAck {messageIds : List Int} (h : (ServiceMessage.msgsAck messageIds).Fits) :
    parseMessage (ServiceMessage.msgsAck messageIds).bytes =
      .ok (some (.msgsAck (messageIds.take (readCount messageIds.length)))) := by
  have hvector := reads_vector (fun id hid => reads_readInt64 (h id hid)) InternalMessage.msgsAck
  have hbody := reads_boxed hvector
  have hmessage := reads_message 0x62d6b459 .msgsAck (by decide) hbody
  have hparse := parseMessage_eq hmessage
    ((messageIds.drop (readCount messageIds.length)).flatMap int64Bytes)
  rw [ServiceMessage.bytes, flatMap_take_drop int64Bytes messageIds (readCount messageIds.length)]
  simpa only [List.append_assoc] using hparse

theorem parse_msgContainer {messages : List Message}
    (h : (ServiceMessage.msgContainer messages).Fits) :
    parseMessage (ServiceMessage.msgContainer messages).bytes =
      .ok (some (.msgContainer (messages.take (readCount messages.length)))) := by
  have hbody : Reads (parseBody .msgContainer) _ _ :=
    reads_vector (fun message hmessage => reads_element (h message hmessage))
      InternalMessage.msgContainer
  have hmessage := reads_message 0x73f1f8dc .msgContainer (by decide) hbody
  have hparse := parseMessage_eq hmessage
    ((messages.drop (readCount messages.length)).flatMap elementBytes)
  rw [ServiceMessage.bytes, flatMap_take_drop elementBytes messages (readCount messages.length)]
  simpa only [List.append_assoc] using hparse

theorem parse_ping {pingId : Int} (h : int64 pingId = pingId) :
    parseMessage (ServiceMessage.ping pingId).bytes = .ok (some (.ping pingId)) := by
  have hbody : Reads (parseBody .ping) _ _ := (reads_readInt64 h).map InternalMessage.ping
  have hmessage := reads_message 0x7abe77ec .ping (by decide) hbody
  have hparse := parseMessage_eq hmessage []
  rwa [List.append_nil] at hparse

/-- After one number nothing is left for the second of many. -/
theorem readVector_two (n : Nat) {c : Cursor} (h : c.rest.length < 16) :
    replicateM readInt64 (n + 2) c = .error .endOfData := by
  have hread : ∀ c : Cursor, c.rest.length < 8 → readInt64 c = .error .endOfData := by
    intro c hc
    unfold readInt64
    rw [bind_apply, take_of_lt hc]
  unfold replicateM
  rw [bind_apply]
  by_cases hfirst : c.rest.length < 8
  · rw [hread c hfirst]
  · have hone : readInt64 c =
        .ok (int64OfBytes (c.rest.take 8), ⟨c.offset + 8, c.rest.drop 8⟩) := by
      unfold readInt64
      rw [bind_apply, take_of_le (by omega)]
      rfl
    rw [hone]
    dsimp only
    rw [bind_apply]
    unfold replicateM
    rw [bind_apply, hread _ (by rw [List.length_drop]; omega)]

/-- The constructor of the vector is taken for the count. -/
theorem parse_msgResendReq (messageId : Int) :
    parseMessage (ServiceMessage.msgResendReq messageId).bytes = .ok none := by
  have hsignature := reads_take (int32Bytes 0x7d861a08)
  rw [length_int32Bytes] at hsignature
  have hbranch : branchOf (leNat (int32Bytes 0x7d861a08)) = some .msgResendReq := by decide
  have hcount := reads_readInt32 (n := 481674261) (by decide)
  have hrest : (int32Bytes 1 ++ int64Bytes messageId).length < 16 := by
    rw [List.length_append, length_int32Bytes, length_int64Bytes]
    omega
  have hmany : Int.toNat 481674261 = 481674259 + 2 := rfl
  unfold parseMessage messageReader
  rw [bind_apply, ServiceMessage.bytes, hsignature.start]
  dsimp only
  rw [hbranch]
  show resultOf ((readInt32 >>= fun count => readVector readInt64 count >>= _) _) = _
  rw [bind_apply, hcount]
  dsimp only
  rw [bind_apply, readVector, hmany, readVector_two 481674259 hrest]
  rfl

/-! ## What comes back -/

/-- The messages that the parser reads as they were written. -/
def ServiceMessage.Readable : ServiceMessage → Prop
  | .msgsAck messageIds => messageIds.length < 2 ^ 31
  | .msgResendReq _ => False
  | .ping _ => True
  | .msgContainer messages => messages.length < 2 ^ 31

/-- The service messages that the parser gives back. -/
theorem parsesBack_iff (message : ServiceMessage) (h : message.Fits) :
    ParsesBack message ↔ message.Readable := by
  unfold ParsesBack
  cases message with
  | msgsAck messageIds =>
    rw [parse_msgsAck h]
    simp only [ServiceMessage.object, Except.ok.injEq, Option.some.injEq,
      InternalMessage.msgsAck.injEq]
    exact take_readCount_eq_iff messageIds
  | msgResendReq messageId =>
    rw [parse_msgResendReq]
    simp [ServiceMessage.Readable]
  | ping pingId =>
    rw [parse_ping h]
    simp [ServiceMessage.object, ServiceMessage.Readable]
  | msgContainer messages =>
    rw [parse_msgContainer h]
    simp only [ServiceMessage.object, Except.ok.injEq, Option.some.injEq,
      InternalMessage.msgContainer.injEq]
    exact take_readCount_eq_iff messages

/-- An acknowledgement of two messages. -/
theorem parsesBack_two_ids :
    ParsesBack (.msgsAck [5, 9]) ↔ (ServiceMessage.msgsAck [5, 9]).Readable :=
  parsesBack_iff (.msgsAck [5, 9]) (by unfold ServiceMessage.Fits; decide)

/-- A request for one message is not read. -/
theorem resend_request_is_lost : ¬ ParsesBack (.msgResendReq 5) := by
  unfold ParsesBack
  rw [parse_msgResendReq]
  simp

end TelegramPub.Ports.ServiceMessages
