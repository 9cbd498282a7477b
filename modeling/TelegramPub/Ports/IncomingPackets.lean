import TelegramPub.Ports.InternalMessageParser
import TelegramPub.Ports.MessageEncryption

/-!
# The messages of a decrypted packet

`_parseIncomingMessages` reads the header of a decrypted packet and parses all
the bytes after it as one message.  It reads the declared length of the body and
does not use it: the parser also sees the padding.

For most messages this makes no difference, because their parsers stop where the
message ends.  It does for the parsers that take what is left of the data, and
for bodies that announce more than they hold.  `padding_ignored` draws the line.

The decompressor and the serialization of the application are parameters.
-/

namespace TelegramPub.Ports.IncomingPackets

open Verified.Bytes Verified.ByteReader Ports.TLBuffer Ports.InternalMessageParser
open Ports.MessageEncryption (range declaredLength)

variable {Obj : Type} (decompressGZip : Data → Option Data)
  (serialization : Option Data → Option Obj)

/-- What `parseMessage:` of `MTProto` returns: a service message, or an object
of the application. -/
inductive Body (Obj : Type) where
  | internal (message : InternalMessage)
  | api (object : Obj)
  deriving DecidableEq

/-- `MTIncomingMessage`.  The timestamp is kept in units of `2^-32` seconds. -/
structure IncomingMessage (Obj : Type) where
  messageId : Int
  seqNo : Int
  salt : Int
  timestamp : Int
  size : Int
  body : Body Obj
  deriving DecidableEq

/-- What the header of a packet says. -/
structure Embedded where
  messageId : Int
  seqNo : Int
  salt : Int
  topMessageSize : Int
  /-- `*dataMessageId`, which only the unauthorized branch sets -/
  dataMessageId : Int
  deriving DecidableEq

/-- `parseMessage:` of `MTProto`.  The internal parser treats a `nil` argument
as it treats an empty one. -/
def parseObject (data : Data) : Except NSException (Option (Body Obj)) :=
  match unwrapMessage decompressGZip data with
  | .error e => .error e
  | .ok unwrappedData =>
    match parseMessage (unwrappedData.getD []) with
    | .error e => .error e
    | .ok (some internalMessage) => .ok (some (.internal internalMessage))
    | .ok none => .ok ((serialization unwrappedData).map .api)

/-- `[is readInt64]`, which uses whatever bytes there are. -/
def readInt64Unchecked : Reader Int := fun c =>
  .ok (int64OfBytes (c.rest.take 8), ⟨c.offset + (c.rest.take 8).length, c.rest.drop 8⟩)

/-- The first part of `_parseIncomingMessages`. -/
def readHeader (useUnauthorizedMode : Bool) (sessionId : Int) : Reader Embedded :=
  if useUnauthorizedMode then do
    let authKeyId ← readInt64Unchecked
    if authKeyId ≠ 0 then giveUp
    else
      let embeddedMessageId ← readInt64
      let topMessageSize ← readInt32
      if topMessageSize < 4 then giveUp
      else return {
        messageId := embeddedMessageId, seqNo := 0, salt := 0, topMessageSize
        dataMessageId := embeddedMessageId }
  else do
    let embeddedSalt ← readInt64
    let embeddedSessionId ← readInt64
    if embeddedSessionId ≠ sessionId then giveUp
    else
      let embeddedMessageId ← readInt64
      let embeddedSeqNo ← readInt32
      let _ ← readInt32
      return {
        messageId := embeddedMessageId, seqNo := embeddedSeqNo, salt := embeddedSalt
        topMessageSize := 0, dataMessageId := 0 }

/-- One sub-message of a container or of a `msg_copy`. -/
def subMessage (embedded : Embedded) (message : Message) :
    Except NSException (Option (IncomingMessage Obj)) :=
  match parseObject decompressGZip serialization message.data with
  | .error e => .error e
  | .ok none => .ok none
  | .ok (some subObject) =>
    .ok (some {
      messageId := message.messageId, seqNo := message.seqNo, salt := embedded.salt
      timestamp := embedded.messageId, size := int32 message.data.length
      body := subObject })

/-- The loop over the elements of a container; the first one that does not
parse makes the whole packet a parse error. -/
def subMessages (embedded : Embedded) :
    List Message → Except NSException (Option (List (IncomingMessage Obj)))
  | [] => .ok (some [])
  | message :: messages =>
    match subMessage decompressGZip serialization embedded message with
    | .error e => .error e
    | .ok none => .ok none
    | .ok (some incoming) =>
      match subMessages embedded messages with
      | .error e => .error e
      | .ok rest => .ok (rest.map (incoming :: ·))

/-- The only message of a packet that holds no others. -/
def topMessage (embedded : Embedded) (topObject : Body Obj) : IncomingMessage Obj where
  messageId := embedded.messageId
  seqNo := embedded.seqNo
  salt := embedded.salt
  timestamp := embedded.messageId
  size := embedded.topMessageSize
  body := topObject

/-- The last part of `_parseIncomingMessages`: the messages of the parsed
object. -/
def messagesOf (embedded : Embedded) :
    Option (Body Obj) → Except NSException (Option (List (IncomingMessage Obj)))
  | none => .ok none
  | some (.internal (.msgContainer messages)) =>
    subMessages decompressGZip serialization embedded messages
  | some (.internal (.message message)) =>
    subMessages decompressGZip serialization embedded [message]
  | some topObject => .ok (some [topMessage embedded topObject])

/-- What `_parseIncomingMessages` hands back; `messages` is `none` on a parse
error. -/
structure Parsed (Obj : Type) where
  dataMessageId : Int
  messages : Option (List (IncomingMessage Obj))
  deriving DecidableEq

/-- `_parseIncomingMessages:dataMessageId:parseError:`. -/
def parseIncomingMessages (useUnauthorizedMode : Bool) (sessionId : Int) (data : Data) :
    Except NSException (Parsed Obj) :=
  match readHeader useUnauthorizedMode sessionId (Cursor.start data) with
  | .error _ => .ok { dataMessageId := 0, messages := none }
  | .ok (embedded, c) =>
    let topMessageData := c.rest
    match parseObject decompressGZip serialization topMessageData with
    | .error e => .error e
    | .ok topObject =>
      match messagesOf decompressGZip serialization embedded topObject with
      | .error e => .error e
      | .ok messages => .ok { dataMessageId := embedded.dataMessageId, messages }

/-! ## Packets and their padding -/

/-- A header and the body that it declares. -/
structure Packet where
  header : Data
  body : Data
  header_length : header.length = 32
  declared : declaredLength header = body.length

/-- The decrypted packet with this padding. -/
def Packet.bytes (packet : Packet) (padding : Data) : Data :=
  packet.header ++ (packet.body ++ padding)

/-- The padding lengths that the protocol allows. -/
def AdmissiblePadding (padding : Data) : Prop := 12 ≤ padding.length ∧ padding.length ≤ 1024

/-- Whatever the padding of the packet, it has the same messages. -/
def PaddingIgnored (sessionId : Int) (packet : Packet) : Prop :=
  ∀ p q : Data, AdmissiblePadding p → AdmissiblePadding q →
    parseIncomingMessages decompressGZip serialization false sessionId (packet.bytes p) =
      parseIncomingMessages decompressGZip serialization false sessionId (packet.bytes q)

/-- The packet carries the id of another session. -/
def WrongSession (sessionId : Int) (packet : Packet) : Prop :=
  int64OfBytes (range packet.header 8 8) ≠ sessionId

instance (sessionId : Int) (packet : Packet) : Decidable (WrongSession sessionId packet) :=
  inferInstanceAs (Decidable (_ ≠ _))

/-- The signature of a body. -/
def signatureOf (body : Data) : Nat := leNat (body.take 4)

/-- The body is a `gzip_packed`. -/
def IsGzip (body : Data) : Prop := signatureOf body = 0x3072cfa1

/-- Where the packed bytes of a `gzip_packed` end, as far as the body says. -/
def packedEnd (body : Data) : Int :=
  if body.length < 5 then 5
  else if leNat (range body 4 1) = 254 then
    if body.length < 8 then 8
    else 8 + int32OfBytes (0 :: range body 5 3) >>> (8 : Nat)
  else 5 + leNat (range body 4 1)

/-- A `msg_copy` that announces more bytes than the body holds. -/
def CopyOpen (body : Data) : Prop :=
  branchOf (signatureOf body) = some .msgCopy ∧ leNat (range body 4 4) = 0x5bb8e511 ∧
    24 ≤ body.length ∧ (body.length : Int) - 24 < int32OfBytes (range body 20 4)

/-- The body announces more than it holds. -/
def Truncated (body : Data) : Prop :=
  body.length < 4 ∨
    (IsGzip body ∧ (body.length : Int) < packedEnd body) ∨
    (¬ IsGzip body ∧
      (messageReader (Cursor.start body) = .error .endOfData ∨ CopyOpen body))

/-- The messages that keep what is left of the data. -/
def KeepsRest (body : Data) : Prop :=
  branchOf (signatureOf body) = some .rpcResult ∨
    branchOf (signatureOf body) = some .destroySessionMultipleResponse

/-- The internal parser leaves the padded body to the application.  A complete
`msg_copy` belongs here: with a padding it never has the length it announces. -/
def Unrecognised (body : Data) : Prop :=
  branchOf (signatureOf body) = some .msgCopy ∨
    messageReader (Cursor.start body) = .error .rejected

/-- The application parses the body without regard to the padding. -/
def SerializationIgnores (body : Data) : Prop :=
  ∀ p q : Data, AdmissiblePadding p → AdmissiblePadding q →
    serialization (some (body ++ p)) = serialization (some (body ++ q))

/-- The message ends inside the body for every parser that sees it. -/
def EndsInBody (body : Data) : Prop :=
  ¬ Truncated body ∧
    (IsGzip body ∨
      (¬ KeepsRest body ∧ (Unrecognised body → SerializationIgnores serialization body)))

/-! ## Reading the header -/

/-- The header of an encrypted packet. -/
def embeddedOf (header : Data) : Embedded where
  messageId := int64OfBytes (range header 16 8)
  seqNo := int32OfBytes (range header 24 4)
  salt := int64OfBytes (range header 0 8)
  topMessageSize := 0
  dataMessageId := 0

variable {c : Cursor}

theorem readInt64_of_le (h : 8 ≤ c.rest.length) :
    readInt64 c = .ok (int64OfBytes (c.rest.take 8), ⟨c.offset + 8, c.rest.drop 8⟩) := by
  unfold readInt64
  rw [bind_apply, take_of_le h]
  rfl

theorem readInt32_of_le (h : 4 ≤ c.rest.length) :
    readInt32 c = .ok (int32OfBytes (c.rest.take 4), ⟨c.offset + 4, c.rest.drop 4⟩) := by
  unfold readInt32
  rw [bind_apply, take_of_le h]
  rfl

theorem range_append_left (front rest : Data) {location length : Nat}
    (h : location + length ≤ front.length) :
    range (front ++ rest) location length = range front location length := by
  unfold range
  rw [List.drop_append_of_le_length (by omega),
    List.take_append_of_le_length (by rw [List.length_drop]; omega)]

/-- The header is read from its 32 bytes, and what follows is left. -/
theorem readHeader_eq (sessionId : Int) {header : Data} (hlength : header.length = 32)
    (rest : Data) :
    readHeader false sessionId (Cursor.start (header ++ rest)) =
      if int64OfBytes (range header 8 8) ≠ sessionId then .error .rejected
      else .ok (embeddedOf header, ⟨32, rest⟩) := by
  have hall : (header ++ rest).length = 32 + rest.length := by
    rw [List.length_append, hlength]
  have hsession : ((header ++ rest).drop 8).take 8 = range header 8 8 :=
    range_append_left header rest (by omega)
  unfold readHeader Cursor.start
  simp only [Bool.false_eq_true, if_false]
  rw [bind_apply, readInt64_of_le (by dsimp only; omega)]
  dsimp only
  rw [bind_apply, readInt64_of_le (by dsimp only; rw [List.length_drop]; omega)]
  dsimp only
  rw [hsession]
  by_cases hid : int64OfBytes (range header 8 8) ≠ sessionId
  · rw [if_pos hid, if_pos hid]
    rfl
  · rw [if_neg hid, if_neg hid]
    rw [bind_apply, readInt64_of_le (by dsimp only; simp only [List.length_drop]; omega)]
    dsimp only
    rw [bind_apply, readInt32_of_le (by dsimp only; simp only [List.length_drop]; omega)]
    dsimp only
    rw [bind_apply, readInt32_of_le (by dsimp only; simp only [List.length_drop]; omega)]
    have hsalt : (header ++ rest).take 8 = range header 0 8 :=
      range_append_left header rest (show 0 + 8 ≤ header.length by omega)
    have hmessageId : ((header ++ rest).drop 16).take 8 = range header 16 8 :=
      range_append_left header rest (by omega)
    have hseqNo : ((header ++ rest).drop 24).take 4 = range header 24 4 :=
      range_append_left header rest (by omega)
    have hrest : (header ++ rest).drop 32 = rest := by
      rw [← hlength]
      exact List.drop_left
    simp only [List.drop_drop, pure_apply, hsalt, hmessageId, hseqNo, hrest, embeddedOf]

/-! ## The internal parser and the padding -/

variable {body padding : Data}

theorem signatureOf_append (hbody : 4 ≤ body.length) (more : Data) :
    signatureOf (body ++ more) = signatureOf body := by
  unfold signatureOf
  rw [List.take_append_of_le_length hbody]

theorem messageReader_eq (hbody : 4 ≤ body.length) (more : Data) :
    messageReader (Cursor.start (body ++ more)) =
      match branchOf (signatureOf body) with
      | some branch => parseBody branch ⟨4, body.drop 4 ++ more⟩
      | none => .error .rejected := by
  have hall : 4 ≤ (body ++ more).length := by
    rw [List.length_append]
    omega
  unfold messageReader Cursor.start
  rw [bind_apply, take_of_le hall]
  rw [List.take_append_of_le_length hbody, List.drop_append_of_le_length hbody]
  show (match branchOf (signatureOf body) with
    | some branch => parseBody branch
    | none => giveUp) (⟨0 + 4, body.drop 4 ++ more⟩ : Cursor) = _
  cases branchOf (signatureOf body) with
  | none => rfl
  | some branch => rfl

/-- A body that one of the local parsers decides is decided alike with a
padding. -/
theorem parseMessage_append (hbody : 4 ≤ body.length)
    (hlocal : ∀ branch, branchOf (signatureOf body) = some branch → ¬ ReadsToEnd branch)
    (hend : messageReader (Cursor.start body) ≠ .error .endOfData) (more : Data) :
    parseMessage (body ++ more) = parseMessage body := by
  have hplain := messageReader_eq hbody []
  have hpadded := messageReader_eq hbody more
  rw [List.append_nil, List.append_nil] at hplain
  unfold parseMessage
  rw [hplain] at hend ⊢
  rw [hpadded]
  cases hbranch : branchOf (signatureOf body) with
  | none => rfl
  | some branch =>
    rw [hbranch] at hend
    dsimp only at hend ⊢
    have hparse := local_parseBody (hlocal branch hbranch)
    cases hread : parseBody branch ⟨4, body.drop 4⟩ with
    | ok found =>
      have hmore := hparse.ok more hread
      rw [Cursor.extend] at hmore
      rw [hmore]
      rfl
    | error e =>
      have he : e ≠ .endOfData := by
        grind
      have hmore := hparse.error more he hread
      rw [Cursor.extend] at hmore
      rw [hmore]

/-- `rpc_result` keeps all that follows the request id. -/
theorem parse_rpcResult (hbranch : branchOf (signatureOf body) = some .rpcResult)
    (hbody : 12 ≤ body.length) (more : Data) :
    parseMessage (body ++ more) =
      .ok (some (.rpcResult (int64OfBytes (range body 4 8)) (body.drop 12 ++ more))) := by
  have hrest : 8 ≤ (body.drop 4).length := by
    rw [List.length_drop]
    omega
  unfold parseMessage
  rw [messageReader_eq (by omega), hbranch]
  dsimp only [parseBody]
  rw [bind_apply, readInt64_of_le (by dsimp only; rw [List.length_append]; omega)]
  rw [List.take_append_of_le_length hrest, List.drop_append_of_le_length hrest, List.drop_drop]
  rfl

theorem rpcResult_complete (hbranch : branchOf (signatureOf body) = some .rpcResult)
    (hbody : 4 ≤ body.length) (hend : messageReader (Cursor.start body) ≠ .error .endOfData)
    : 12 ≤ body.length := by
  by_contra hshort
  apply hend
  have hread := messageReader_eq hbody []
  rw [List.append_nil, List.append_nil, hbranch] at hread
  rw [hread]
  dsimp only [parseBody]
  rw [bind_apply]
  unfold readInt64
  rw [bind_apply, take_of_lt (by dsimp only; rw [List.length_drop]; omega)]

/-- `destroy_sessions_res` keeps all that follows the signature. -/
theorem parse_destroySessions
    (hbranch : branchOf (signatureOf body) = some .destroySessionMultipleResponse)
    (hbody : 4 ≤ body.length) (more : Data) :
    parseMessage (body ++ more) =
      .ok (some (.destroySessionMultipleResponse (body.drop 4 ++ more))) := by
  unfold parseMessage
  rw [messageReader_eq hbody, hbranch]
  rfl

theorem readInt64_of_lt (h : c.rest.length < 8) :
    readInt64 c = .error .endOfData := by
  unfold readInt64
  rw [bind_apply, take_of_lt h]

theorem readInt32_of_lt (h : c.rest.length < 4) :
    readInt32 c = .error .endOfData := by
  unfold readInt32
  rw [bind_apply, take_of_lt h]

/-- The fields of a `msg_copy` between its inner signature and its data. -/
theorem copyFields_eq {α : Type} (next : Int → Int → Int → Reader α) (offset : Nat) (rest : Data) :
    (do
      let messageId ← readInt64
      let seqNo ← readInt32
      let length ← readInt32
      next messageId seqNo length) ⟨offset, rest⟩ =
      if rest.length < 16 then .error .endOfData
      else next (int64OfBytes (range rest 0 8)) (int32OfBytes (range rest 8 4))
        (int32OfBytes (range rest 12 4)) ⟨offset + 16, rest.drop 16⟩ := by
  by_cases h8 : rest.length < 8
  · rw [bind_apply, readInt64_of_lt h8, if_pos (by omega)]
  · rw [bind_apply, readInt64_of_le (by dsimp only; omega)]
    dsimp only
    have hdrop8 : (rest.drop 8).length = rest.length - 8 := List.length_drop
    by_cases h12 : rest.length < 12
    · rw [bind_apply, readInt32_of_lt (by dsimp only; omega), if_pos (by omega)]
    · rw [bind_apply, readInt32_of_le (by dsimp only; omega)]
      dsimp only
      rw [List.drop_drop]
      have hdrop12 : (rest.drop (8 + 4)).length = rest.length - 12 := List.length_drop
      by_cases h16 : rest.length < 16
      · rw [bind_apply, readInt32_of_lt (by dsimp only; omega), if_pos h16]
      · rw [bind_apply, readInt32_of_le (by dsimp only; omega), if_neg h16]
        rw [List.drop_drop]
        rfl

theorem parseBody_msgCopy (offset : Nat) (rest : Data) :
    parseBody .msgCopy ⟨offset, rest⟩ =
      if rest.length < 4 then .error .endOfData
      else if leNat (range rest 0 4) ≠ 0x5bb8e511 then .error .rejected
      else if rest.length < 20 then .error .endOfData
      else if ((rest.drop 20).length : Int) ≠ int32OfBytes (range rest 16 4) then
        .error .rejected
      else .ok (.message {
          messageId := int64OfBytes (range rest 4 8), seqNo := int32OfBytes (range rest 12 4)
          data := rest.drop 20 }, ⟨offset + 20, rest.drop 20⟩) := by
  have hdrop : ∀ location length, range (rest.drop 4) location length =
      range rest (4 + location) length := by
    intro location length
    unfold range
    rw [List.drop_drop]
  dsimp only [parseBody]
  by_cases hshort : rest.length < 4
  · rw [if_pos hshort, bind_apply, take_of_lt hshort]
  · rw [if_neg hshort, bind_apply, take_of_le (by dsimp only; omega)]
    dsimp only
    have hsignature : rest.take 4 = range rest 0 4 := rfl
    rw [hsignature]
    by_cases hmagic : leNat (range rest 0 4) ≠ 0x5bb8e511
    · rw [if_pos hmagic, if_pos hmagic]
      rfl
    · rw [if_neg hmagic, if_neg hmagic, copyFields_eq, List.length_drop]
      by_cases hfields : rest.length < 20
      · rw [if_pos hfields, if_pos (by omega)]
      · rw [if_neg hfields, if_neg (by omega), hdrop, hdrop, hdrop, List.drop_drop]
        by_cases hlength : ((rest.drop 20).length : Int) ≠ int32OfBytes (range rest 16 4)
        · rw [if_pos hlength, bind_apply]
          exact congrFun (if_pos hlength) _
        · rw [if_neg hlength, bind_apply]
          exact congrFun (if_neg hlength) _

/-- A `msg_copy` that does not announce more than the body holds is not accepted
with a padding. -/
theorem parse_msgCopy (hbranch : branchOf (signatureOf body) = some .msgCopy)
    (hbody : 4 ≤ body.length) (hend : messageReader (Cursor.start body) ≠ .error .endOfData)
    (hopen : ¬ CopyOpen body) (hpadding : padding ≠ []) :
    parseMessage (body ++ padding) = .ok none := by
  have hpos : 0 < padding.length := List.length_pos_of_ne_nil hpadding
  have hread := messageReader_eq hbody []
  rw [List.append_nil, List.append_nil, hbranch] at hread
  rw [hread] at hend
  dsimp only at hend
  rw [parseBody_msgCopy, List.length_drop] at hend
  have hrejected : messageReader (Cursor.start (body ++ padding)) = .error .rejected := by
    rw [messageReader_eq hbody, hbranch]
    dsimp only
    rw [parseBody_msgCopy, List.length_append, List.length_drop]
    by_cases h8 : body.length < 8
    · rw [if_pos (by omega)] at hend
      exact absurd rfl hend
    · rw [if_neg (by omega)] at hend ⊢
      have hmagicRange : range (body.drop 4 ++ padding) 0 4 = range (body.drop 4) 0 4 :=
        range_append_left _ _ (by rw [List.length_drop]; omega)
      rw [hmagicRange]
      by_cases hmagic : leNat (range (body.drop 4) 0 4) ≠ 0x5bb8e511
      · rw [if_pos hmagic]
      · rw [if_neg hmagic] at hend ⊢
        by_cases h24 : body.length < 24
        · rw [if_pos (by omega)] at hend
          exact absurd rfl hend
        · rw [if_neg (by omega)]
          have hlengthRange : range (body.drop 4 ++ padding) 16 4 = range body 20 4 := by
            rw [range_append_left _ _ (by rw [List.length_drop]; omega)]
            unfold range
            rw [List.drop_drop]
          have hrest : (((body.drop 4 ++ padding).drop 20).length : Int) =
              (body.length : Int) - 24 + padding.length := by
            rw [List.length_drop, List.length_append, List.length_drop]
            omega
          rw [hlengthRange, hrest]
          apply if_pos
          intro heq
          exact hopen ⟨hbranch, not_not.1 hmagic, by omega, by omega⟩
  unfold parseMessage
  rw [hrejected]
  rfl

theorem subdata_append (data more : Data) {location length : Int}
    (h : length < 0 ∨ location + length ≤ data.length) :
    subdata (data ++ more) location length = subdata data location length := by
  unfold subdata
  by_cases hin : 0 ≤ location ∧ 0 ≤ length ∧ location + length ≤ data.length
  · grind
  · rw [if_neg hin, if_neg (by rw [List.length_append]; omega)]

theorem subdata_of_le {data : Data} {location length : Int} (hlocation : 0 ≤ location)
    (hlength : 0 ≤ length) (h : location + length ≤ data.length) :
    subdata data location length = .ok (range data location.toNat length.toNat) :=
  if_pos ⟨hlocation, hlength, h⟩

theorem readBytesSkipping_append (hend : packedEnd body ≤ body.length) (more : Data) :
    readBytesSkipping (body ++ more) 4 = readBytesSkipping body 4 := by
  unfold packedEnd at hend
  by_cases h5 : body.length < 5
  · rw [if_pos h5] at hend
    omega
  · rw [if_neg h5] at hend
    have htmp : subdata body ((4 : Nat) : Int) 1 = .ok (range body 4 1) :=
      subdata_of_le (by omega) (by omega) (by omega)
    unfold readBytesSkipping
    rw [subdata_append body more (by omega), htmp]
    dsimp only [bind, Except.bind]
    by_cases hlong : leNat (range body 4 1) = 254
    · rw [if_pos hlong] at hend ⊢
      rw [if_pos hlong]
      by_cases h8 : body.length < 8
      · rw [if_pos h8] at hend
        omega
      · grind [subdata_append, subdata_of_le]
    · rw [if_neg hlong] at hend ⊢
      rw [if_neg hlong]
      exact subdata_append body more (by omega)

theorem complete_gzip (hcomplete : ¬ Truncated body) (hgzip : IsGzip body) :
    4 ≤ body.length ∧ packedEnd body ≤ body.length := by
  constructor
  · by_contra hshort
    exact hcomplete (.inl (by omega))
  · by_contra hlong
    exact hcomplete (.inr (.inl ⟨hgzip, by omega⟩))

theorem complete_plain (hcomplete : ¬ Truncated body) (hgzip : ¬ IsGzip body) :
    4 ≤ body.length ∧ messageReader (Cursor.start body) ≠ .error .endOfData ∧
      ¬ CopyOpen body := by
  refine ⟨?_, ?_, ?_⟩
  · by_contra hshort
    exact hcomplete (.inl (by omega))
  · exact fun hend => hcomplete (.inr (.inr ⟨hgzip, .inl hend⟩))
  · exact fun hopen => hcomplete (.inr (.inr ⟨hgzip, .inr hopen⟩))

theorem local_of_not_rest (hrest : ¬ KeepsRest body)
    (hcopy : branchOf (signatureOf body) ≠ some .msgCopy) :
    ∀ branch, branchOf (signatureOf body) = some branch → ¬ ReadsToEnd branch := by
  rintro branch hbranch (rfl | rfl | rfl)
  · exact hrest (.inl hbranch)
  · exact hcopy hbranch
  · exact hrest (.inr hbranch)

/-! ## What a padded body parses to -/

theorem parseObject_plain (hbody : 4 ≤ body.length) (hgzip : ¬ IsGzip body) (more : Data) :
    parseObject decompressGZip serialization (body ++ more) =
      match parseMessage (body ++ more) with
      | .error e => .error e
      | .ok (some internalMessage) => .ok (some (.internal internalMessage))
      | .ok none => .ok ((serialization (some (body ++ more))).map .api) := by
  have hunwrap : unwrapMessage decompressGZip (body ++ more) = .ok (some (body ++ more)) := by
    unfold unwrapMessage
    have hsignature : ¬ leNat ((body ++ more).take 4) = 0x3072cfa1 := by
      have hsame := signatureOf_append hbody more
      unfold signatureOf at hsame
      rw [hsame]
      exact hgzip
    rw [if_neg (by rw [List.length_append]; omega), if_neg hsignature]
  unfold parseObject
  rw [hunwrap]
  rfl

theorem parseObject_gzip (hbody : 4 ≤ body.length) (hgzip : IsGzip body)
    (hend : packedEnd body ≤ body.length) (more : Data) :
    parseObject decompressGZip serialization (body ++ more) =
      parseObject decompressGZip serialization body := by
  have hsame : (body ++ more).take 4 = body.take 4 := List.take_append_of_le_length hbody
  have hunwrap : unwrapMessage decompressGZip (body ++ more) =
      unwrapMessage decompressGZip body := by
    have hlong : ¬ body.length < 4 := by omega
    have hlongMore : ¬ (body ++ more).length < 4 := by
      rw [List.length_append]
      omega
    have hsignature : leNat (body.take 4) = 0x3072cfa1 := hgzip
    unfold unwrapMessage
    rw [if_neg hlong, if_neg hlongMore, hsame, readBytesSkipping_append hend,
      if_pos hsignature, if_pos hsignature]
  unfold parseObject
  rw [hunwrap]

/-- What the internal parser does not recognise in a complete body it does not
recognise with a padding either. -/
theorem unrecognised_padded (hcomplete : ¬ Truncated body) (hgzip : ¬ IsGzip body)
    (hrest : ¬ KeepsRest body) (hunrecognised : Unrecognised body)
    (hpadding : AdmissiblePadding padding) :
    parseMessage (body ++ padding) = .ok none := by
  obtain ⟨hbody, hend, hopen⟩ := complete_plain hcomplete hgzip
  by_cases hcopy : branchOf (signatureOf body) = some .msgCopy
  · have hmin := hpadding.1
    exact parse_msgCopy hcopy hbody hend hopen (List.ne_nil_of_length_pos (by omega))
  · obtain hcase | hrejected := hunrecognised
    · exact absurd hcase hcopy
    · rw [parseMessage_append hbody (local_of_not_rest hrest hcopy) hend]
      unfold parseMessage
      rw [hrejected]
      rfl

/-- What the internal parser decides in a complete body it decides alike with
every padding, and the application is not asked. -/
theorem recognised_padded (hcomplete : ¬ Truncated body) (hgzip : ¬ IsGzip body)
    (hrest : ¬ KeepsRest body) (hrecognised : ¬ Unrecognised body) :
    ∃ outcome : Except NSException InternalMessage, ∀ padding : Data,
      parseMessage (body ++ padding) = outcome.map some := by
  obtain ⟨hbody, hend, hopen⟩ := complete_plain hcomplete hgzip
  have hlocal := local_of_not_rest hrest fun hcopy => hrecognised (.inl hcopy)
  cases hread : messageReader (Cursor.start body) with
  | ok found =>
    refine ⟨.ok found.1, fun padding => ?_⟩
    rw [parseMessage_append hbody hlocal hend]
    simp only [parseMessage, hread, resultOf, Except.map]
  | error e =>
    cases e with
    | endOfData => exact absurd hread hend
    | rejected => exact absurd (.inr hread) hrecognised
    | raised =>
      refine ⟨.error .raised, fun padding => ?_⟩
      rw [parseMessage_append hbody hlocal hend]
      simp only [parseMessage, hread, resultOf, Except.map]

theorem parseObject_padded (h : EndsInBody serialization body) {p q : Data}
    (hp : AdmissiblePadding p) (hq : AdmissiblePadding q) :
    parseObject decompressGZip serialization (body ++ p) =
      parseObject decompressGZip serialization (body ++ q) := by
  obtain ⟨hcomplete, hkind⟩ := h
  by_cases hgzip : IsGzip body
  · obtain ⟨hbody, hend⟩ := complete_gzip hcomplete hgzip
    rw [parseObject_gzip _ _ hbody hgzip hend, parseObject_gzip _ _ hbody hgzip hend]
  · obtain ⟨hbody, -, -⟩ := complete_plain hcomplete hgzip
    obtain ⟨hrest, hserialization⟩ := hkind.resolve_left hgzip
    rw [parseObject_plain _ _ hbody hgzip, parseObject_plain _ _ hbody hgzip]
    by_cases hunrecognised : Unrecognised body
    · rw [unrecognised_padded hcomplete hgzip hrest hunrecognised hp,
        unrecognised_padded hcomplete hgzip hrest hunrecognised hq]
      dsimp only
      rw [hserialization hunrecognised p q hp hq]
    · obtain ⟨outcome, houtcome⟩ := recognised_padded hcomplete hgzip hrest hunrecognised
      rw [houtcome p, houtcome q]
      cases outcome with
      | ok message => rfl
      | error e => rfl

/-! ## Which packets have the same messages under every padding -/

theorem parse_packet (sessionId : Int) (packet : Packet) (padding : Data) :
    parseIncomingMessages decompressGZip serialization false sessionId (packet.bytes padding) =
      if WrongSession sessionId packet then .ok { dataMessageId := 0, messages := none }
      else
        match parseObject decompressGZip serialization (packet.body ++ padding) with
        | .error e => .error e
        | .ok topObject =>
          match messagesOf decompressGZip serialization (embeddedOf packet.header)
            topObject with
          | .error e => .error e
          | .ok messages => .ok { dataMessageId := 0, messages } := by
  unfold parseIncomingMessages Packet.bytes
  rw [readHeader_eq sessionId packet.header_length]
  by_cases hsession : WrongSession sessionId packet
  · have hid : int64OfBytes (range packet.header 8 8) ≠ sessionId := hsession
    rw [if_pos hsession, if_pos hid]
  · have hid : ¬ int64OfBytes (range packet.header 8 8) ≠ sessionId := hsession
    rw [if_neg hsession, if_neg hid]
    rfl

variable {sessionId : Int} {packet : Packet}

theorem parse_internal (hsession : ¬ WrongSession sessionId packet) (hbody : 4 ≤ packet.body.length)
    (hgzip : ¬ IsGzip packet.body) {message : InternalMessage}
    (hparse : parseMessage (packet.body ++ padding) = .ok (some message))
    (hcontainer : ∀ messages, message ≠ .msgContainer messages)
    (hcopy : ∀ copied, message ≠ .message copied) :
    parseIncomingMessages decompressGZip serialization false sessionId (packet.bytes padding) =
      .ok {
        dataMessageId := 0
        messages := some [topMessage (embeddedOf packet.header) (.internal message)] } := by
  rw [parse_packet, if_neg hsession, parseObject_plain _ _ hbody hgzip, hparse]
  cases message with
  | msgContainer messages => exact absurd rfl (hcontainer messages)
  | message copied => exact absurd rfl (hcopy copied)
  | _ => rfl

theorem parse_api (hsession : ¬ WrongSession sessionId packet) (hbody : 4 ≤ packet.body.length)
    (hgzip : ¬ IsGzip packet.body) (hparse : parseMessage (packet.body ++ padding) = .ok none) :
    parseIncomingMessages decompressGZip serialization false sessionId (packet.bytes padding) =
      .ok {
        dataMessageId := 0
        messages := (serialization (some (packet.body ++ padding))).map fun object =>
          [topMessage (embeddedOf packet.header) (.api object)] } := by
  rw [parse_packet, if_neg hsession, parseObject_plain _ _ hbody hgzip, hparse]
  cases serialization (some (packet.body ++ padding)) with
  | none => rfl
  | some object => rfl

theorem admissible_replicate (byte : UInt8) : AdmissiblePadding (List.replicate 12 byte) := by
  unfold AdmissiblePadding
  rw [List.length_replicate]
  omega

/-- A message that keeps the rest of the data is different under two paddings. -/
theorem keepsRest_shows (hsession : ¬ WrongSession sessionId packet)
    (hcomplete : ¬ Truncated packet.body) (hgzip : ¬ IsGzip packet.body)
    (hrest : KeepsRest packet.body) {p q : Data}
    (hsame : parseIncomingMessages decompressGZip serialization false sessionId (packet.bytes p) =
      parseIncomingMessages decompressGZip serialization false sessionId
        (packet.bytes q)) : p = q := by
  obtain ⟨hbody, hend, -⟩ := complete_plain hcomplete hgzip
  obtain hbranch | hbranch := hrest
  · have hlong := rpcResult_complete hbranch hbody hend
    rw [parse_internal _ _ hsession hbody hgzip (parse_rpcResult hbranch hlong p)
        (by intro messages h; cases h) (by intro copied h; cases h),
      parse_internal _ _ hsession hbody hgzip (parse_rpcResult hbranch hlong q)
        (by intro messages h; cases h) (by intro copied h; cases h)] at hsame
    simp only [topMessage, Except.ok.injEq, Parsed.mk.injEq, Option.some.injEq, List.cons.injEq,
      IncomingMessage.mk.injEq, Body.internal.injEq, InternalMessage.rpcResult.injEq,
      List.append_cancel_left_eq, true_and, and_true] at hsame
    exact hsame
  · rw [parse_internal _ _ hsession hbody hgzip (parse_destroySessions hbranch hbody p)
        (by intro messages h; cases h) (by intro copied h; cases h),
      parse_internal _ _ hsession hbody hgzip (parse_destroySessions hbranch hbody q)
        (by intro messages h; cases h) (by intro copied h; cases h)] at hsame
    simp only [topMessage, Except.ok.injEq, Parsed.mk.injEq, Option.some.injEq, List.cons.injEq,
      IncomingMessage.mk.injEq, Body.internal.injEq,
      InternalMessage.destroySessionMultipleResponse.injEq,
      List.append_cancel_left_eq, true_and, and_true] at hsame
    exact hsame

/-- Where the application decides, the packet shows what it decides. -/
theorem api_shows (hsession : ¬ WrongSession sessionId packet) (hbody : 4 ≤ packet.body.length)
    (hgzip : ¬ IsGzip packet.body) {p q : Data} (hp : parseMessage (packet.body ++ p) = .ok none)
    (hq : parseMessage (packet.body ++ q) = .ok none)
    (hsame : parseIncomingMessages decompressGZip serialization false sessionId (packet.bytes p) =
      parseIncomingMessages decompressGZip serialization false sessionId
        (packet.bytes q)) :
    serialization (some (packet.body ++ p)) = serialization (some (packet.body ++ q)) := by
  rw [parse_api _ _ hsession hbody hgzip hp, parse_api _ _ hsession hbody hgzip hq] at hsame
  cases hleft : serialization (some (packet.body ++ p)) with
  | none =>
    cases hright : serialization (some (packet.body ++ q)) with
    | none => rfl
    | some object => simp [hleft, hright] at hsame
  | some object =>
    cases hright : serialization (some (packet.body ++ q)) with
    | none => simp [hleft, hright] at hsame
    | some other =>
      grind [topMessage]

/-- A packet of another session, and one whose message ends in its body, has the
same messages whatever its padding.  Of the complete bodies these are the only
ones: a top-level `rpc_result` or `destroy_sessions_res` keeps its padding. -/
theorem padding_ignored (sessionId : Int) (packet : Packet) :
    (WrongSession sessionId packet ∨ EndsInBody serialization packet.body →
      PaddingIgnored decompressGZip serialization sessionId packet) ∧
    (PaddingIgnored decompressGZip serialization sessionId packet →
      WrongSession sessionId packet ∨ EndsInBody serialization packet.body ∨
        Truncated packet.body) := by
  constructor
  · intro hcase p q hp hq
    rw [parse_packet, parse_packet]
    obtain hsession | hends := hcase
    · rw [if_pos hsession, if_pos hsession]
    · rw [parseObject_padded decompressGZip serialization hends hp hq]
  · intro hignored
    by_cases hsession : WrongSession sessionId packet
    · exact .inl hsession
    by_cases hcomplete : Truncated packet.body
    · exact .inr (.inr hcomplete)
    refine .inr (.inl ⟨hcomplete, ?_⟩)
    by_cases hgzip : IsGzip packet.body
    · exact .inl hgzip
    have hrest : ¬ KeepsRest packet.body := by
      intro hrest
      have hsame := keepsRest_shows decompressGZip serialization hsession hcomplete hgzip hrest
        (hignored _ _ (admissible_replicate 0) (admissible_replicate 1))
      exact absurd hsame (by decide)
    refine .inr ⟨hrest, fun hunrecognised p q hp hq => ?_⟩
    obtain ⟨hbody, -, -⟩ := complete_plain hcomplete hgzip
    exact api_shows decompressGZip serialization hsession hbody hgzip
      (unrecognised_padded hcomplete hgzip hrest hunrecognised hp)
      (unrecognised_padded hcomplete hgzip hrest hunrecognised hq) (hignored p q hp hq)

/-- A top-level `rpc_result` with an empty payload. -/
def emptyResult : Packet where
  header := List.replicate 28 0 ++ int32Bytes 12
  body := [0x01, 0x6d, 0x5c, 0xf3] ++ int64Bytes 4
  header_length := by decide
  declared := by decide

/-- Its payload is the padding. -/
theorem emptyResult_differs :
    parseIncomingMessages (fun _ => none) (fun _ => (none : Option Unit)) false 0
        (emptyResult.bytes (List.replicate 12 0)) ≠
      parseIncomingMessages (fun _ => none) (fun _ => (none : Option Unit)) false 0
        (emptyResult.bytes (List.replicate 12 1)) := by
  decide

end TelegramPub.Ports.IncomingPackets
