import TelegramPub.Ports.TLBuffer

/-!
# MTInternalMessageParser

The service messages of the protocol and the parser that recognises them.
`parseMessage:` switches on the four-byte signature; here the signatures are
a table (`signatures`) and each branch of the switch is a case of
`parseBody`.

A branch that reads a fixed shape is local: it never looks past the bytes it
consumes.  Three branches call `readRest` and are not (`ReadsToEnd`):
`rpc_result`, `msg_copy` and `destroy_sessions_res`.

`unwrapMessage:` removes one layer of gzip.  The decompressor is zlib, which
is not part of the repository, and stays a parameter.
-/

namespace TelegramPub.Ports.InternalMessageParser

open Verified.Bytes Verified.ByteReader Ports.TLBuffer

/-- `MTMessage`: an element of a container, or the message a `msg_copy`
wraps. -/
structure Message where
  messageId : Int
  seqNo : Int
  data : Data
  deriving DecidableEq

/-- `MTFutureSalt`. -/
structure FutureSalt where
  validSince : Int
  validUntil : Int
  salt : Int
  deriving DecidableEq

/-- The objects `parseMessage:` returns, one constructor for each class. -/
inductive InternalMessage where
  | resPq (nonce serverNonce pq : Data) (serverPublicKeyFingerprints : List Int)
  | serverDhParamsFail (nonce serverNonce nextNonceHash : Data)
  | serverDhParamsOk (nonce serverNonce encryptedResponse : Data)
  | serverDhInnerData (nonce serverNonce : Data) (g : Int) (dhPrime gA : Data)
      (serverTime : Int)
  | setClientDhParamsResponseOk (nonce serverNonce nextNonceHash1 : Data)
  | setClientDhParamsResponseRetry (nonce serverNonce nextNonceHash2 : Data)
  | setClientDhParamsResponseFail (nonce serverNonce nextNonceHash3 : Data)
  | rpcResult (requestMessageId : Int) (data : Data)
  | rpcError (errorCode : Int) (errorDescription : Option String)
  | dropRpcResultUnknown
  | dropRpcResultDroppedRunning
  | dropRpcResultDropped (messageId seqNo size : Int)
  | msgsStateReq (messageIds : List Int)
  | msgsStateInfo (requestMessageId : Int) (info : Data)
  | msgDetailedResponseInfo (requestMessageId responseMessageId responseLength
      status : Int)
  | msgDetailedInfo (responseMessageId responseLength status : Int)
  | msgAllInfo (messageIds : List Int) (info : Data)
  | message (message : Message)
  | msgResendReq (messageIds : List Int)
  | badMsgNotification (badMessageId badMessageSeqNo errorCode : Int)
  | badServerSaltNotification (badMessageId badMessageSeqNo errorCode
      nextServerSalt : Int)
  | msgsAck (messageIds : List Int)
  | ping (pingId : Int)
  | pong (messageId pingId : Int)
  | newSessionCreated (firstMessageId uniqueId serverSalt : Int)
  | destroySessionResponseOk (sessionId : Int)
  | destroySessionResponseNone (sessionId : Int)
  | destroySessionMultipleResponse (responses : Data)
  | msgContainer (messages : List Message)
  | futureSalts (requestMessageId now : Int) (salts : List FutureSalt)
  deriving DecidableEq

/-- The branches of the switch of `parseMessage:`. -/
inductive Branch where
  | resPq | serverDhParamsFail | serverDhParamsOk | serverDhInnerData
  | setClientDhParamsResponseOk | setClientDhParamsResponseRetry
  | setClientDhParamsResponseFail | rpcResult | rpcError
  | dropRpcResultUnknown | dropRpcResultDroppedRunning | dropRpcResultDropped
  | msgsStateReq | msgsStateInfo | msgDetailedResponseInfo | msgDetailedInfo
  | msgAllInfo | msgCopy | msgResendReq | badMsgNotification
  | badServerSaltNotification | msgsAck | ping | pong | newSessionCreated
  | destroySessionResponseOk | destroySessionResponseNone
  | destroySessionMultipleResponse | msgContainer | futureSalts
  deriving DecidableEq

/-- The `case` labels, as unsigned words. -/
def signatures : List (Nat × Branch) :=
  [ (0x05162463, .resPq), (0x79cb045d, .serverDhParamsFail),
    (0xd0e8075c, .serverDhParamsOk), (0xb5890dba, .serverDhInnerData),
    (0x3bcbf734, .setClientDhParamsResponseOk),
    (0x46dc1fb9, .setClientDhParamsResponseRetry),
    (0xa69dae02, .setClientDhParamsResponseFail), (0xf35c6d01, .rpcResult),
    (0x2144ca19, .rpcError), (0x5e2ad36e, .dropRpcResultUnknown),
    (0xcd78e586, .dropRpcResultDroppedRunning),
    (0xa43ad8b7, .dropRpcResultDropped), (0xda69fb52, .msgsStateReq),
    (0x04deb57d, .msgsStateInfo), (0x276d3ec6, .msgDetailedResponseInfo),
    (0x809db6df, .msgDetailedInfo), (0x8cc0d131, .msgAllInfo),
    (0xe06046b2, .msgCopy), (0x7d861a08, .msgResendReq),
    (0xa7eff811, .badMsgNotification), (0xedab447b, .badServerSaltNotification),
    (0x62d6b459, .msgsAck), (0x7abe77ec, .ping), (0x347773c5, .pong),
    (0x9ec20908, .newSessionCreated), (0xe22045fc, .destroySessionResponseOk),
    (0x62d350c9, .destroySessionResponseNone),
    (0xfb95abcd, .destroySessionMultipleResponse), (0x73f1f8dc, .msgContainer),
    (0xae500895, .futureSalts) ]

/-- The branch a signature selects; `none` is the `default` case. -/
def branchOf (signature : Nat) : Option Branch := signatures.lookup signature

/-- Two nonces in a row, as most handshake messages begin. -/
def readNonces : Reader (Data × Data) := do
  let nonce ← take 16
  let serverNonce ← take 16
  return (nonce, serverNonce)

/-- The three handshake answers of the shape nonce, nonce, hash. -/
def readNoncesAndHash (make : Data → Data → Data → InternalMessage) :
    Reader InternalMessage := do
  let (nonce, serverNonce) ← readNonces
  return make nonce serverNonce (← take 16)

/-- One element of a `msg_container`. -/
def readContainerElement : Reader Message := do
  let messageId ← readInt64
  let seqNo ← readInt32
  let length ← readInt32
  if length < 0 ∨ 16 * 1024 * 1024 < length then giveUp
  else
    let messageData ← take length.toNat
    return { messageId, seqNo, data := messageData }

def readFutureSalt : Reader FutureSalt := do
  let validSince ← readInt32
  let validUntil ← readInt32
  let salt ← readInt64
  return { validSince, validUntil, salt }

/-- What each branch of the switch reads after the signature. -/
def parseBody : Branch → Reader InternalMessage
  | .resPq => do
      let (nonce, serverNonce) ← readNonces
      let pq ← readTLBytes
      let _ ← readInt32
      let fingerprints ← readVector readInt64 (← readInt32)
      return .resPq nonce serverNonce pq fingerprints
  | .serverDhParamsFail => readNoncesAndHash .serverDhParamsFail
  | .serverDhParamsOk => do
      let (nonce, serverNonce) ← readNonces
      return .serverDhParamsOk nonce serverNonce (← readTLBytes)
  | .serverDhInnerData => do
      let (nonce, serverNonce) ← readNonces
      let g ← readInt32
      let dhPrime ← readTLBytes
      let gA ← readTLBytes
      return .serverDhInnerData nonce serverNonce g dhPrime gA (← readInt32)
  | .setClientDhParamsResponseOk => readNoncesAndHash .setClientDhParamsResponseOk
  | .setClientDhParamsResponseRetry =>
    readNoncesAndHash .setClientDhParamsResponseRetry
  | .setClientDhParamsResponseFail =>
    readNoncesAndHash .setClientDhParamsResponseFail
  | .rpcResult => do
      let requestMessageId ← readInt64
      return .rpcResult requestMessageId (← restOfData)
  | .rpcError => do
      let errorCode ← readInt32
      return .rpcError errorCode (← readTLString)
  | .dropRpcResultUnknown => return .dropRpcResultUnknown
  | .dropRpcResultDroppedRunning => return .dropRpcResultDroppedRunning
  | .dropRpcResultDropped => do
      let messageId ← readInt64
      let seqNo ← readInt32
      return .dropRpcResultDropped messageId seqNo (← readInt32)
  | .msgsStateReq => do
      let _ ← readInt32
      return .msgsStateReq (← readVector readInt64 (← readInt32))
  | .msgsStateInfo => do
      let requestMessageId ← readInt64
      return .msgsStateInfo requestMessageId (← readTLBytes)
  | .msgDetailedResponseInfo => do
      let requestMessageId ← readInt64
      let responseMessageId ← readInt64
      let responseLength ← readInt32
      return .msgDetailedResponseInfo requestMessageId responseMessageId
        responseLength (← readInt32)
  | .msgDetailedInfo => do
      let responseMessageId ← readInt64
      let responseLength ← readInt32
      return .msgDetailedInfo responseMessageId responseLength (← readInt32)
  | .msgAllInfo => do
      let _ ← readInt32
      let messageIds ← readVector readInt64 (← readInt32)
      return .msgAllInfo messageIds (← readTLBytes)
  | .msgCopy => do
      let messageSignature := leNat (← take 4)
      if messageSignature ≠ 0x5bb8e511 then giveUp
      else
        let messageId ← readInt64
        let seqNo ← readInt32
        let length ← readInt32
        let data ← restOfData
        if (data.length : Int) ≠ length then giveUp
        else return .message { messageId, seqNo, data }
  | .msgResendReq => do
      return .msgResendReq (← readVector readInt64 (← readInt32))
  | .badMsgNotification => do
      let badMessageId ← readInt64
      let badMessageSeqNo ← readInt32
      return .badMsgNotification badMessageId badMessageSeqNo (← readInt32)
  | .badServerSaltNotification => do
      let badMessageId ← readInt64
      let badMessageSeqNo ← readInt32
      let errorCode ← readInt32
      return .badServerSaltNotification badMessageId badMessageSeqNo errorCode
        (← readInt64)
  | .msgsAck => do
      let vectorSignature := leNat (← take 4)
      if vectorSignature ≠ 0x1cb5c415 then giveUp
      else return .msgsAck (← readVector readInt64 (← readInt32))
  | .ping => return .ping (← readInt64)
  | .pong => do
      let messageId ← readInt64
      return .pong messageId (← readInt64)
  | .newSessionCreated => do
      let firstMessageId ← readInt64
      let uniqueId ← readInt64
      return .newSessionCreated firstMessageId uniqueId (← readInt64)
  | .destroySessionResponseOk => return .destroySessionResponseOk (← readInt64)
  | .destroySessionResponseNone =>
    return .destroySessionResponseNone (← readInt64)
  | .destroySessionMultipleResponse =>
    return .destroySessionMultipleResponse (← restOfData)
  | .msgContainer => do
      return .msgContainer (← readVector readContainerElement (← readInt32))
  | .futureSalts => do
      let requestMessageId ← readInt64
      let now ← readInt32
      return .futureSalts requestMessageId now
        (← readVector readFutureSalt (← readInt32))

/-- The whole of `parseMessage:` as a reader. -/
def messageReader : Reader InternalMessage := do
  let signature := leNat (← take 4)
  match branchOf signature with
  | some branch => parseBody branch
  | none => giveUp

/-- The exceptions that the Foundation classes raise. -/
inductive NSException where
  | raised
  deriving DecidableEq

/-- A failed read returns `nil`; a raised exception propagates. -/
def resultOf {α : Type} (outcome : Except Fault (α × Cursor)) :
    Except NSException (Option α) :=
  match outcome with
  | .ok (a, _) => .ok (some a)
  | .error .endOfData => .ok none
  | .error .rejected => .ok none
  | .error .raised => .error .raised

/-- `parseMessage:`. -/
def parseMessage (data : Data) : Except NSException (Option InternalMessage) :=
  resultOf (messageReader (Cursor.start data))

/-- `getBytes:range:` and `subdataWithRange:`. -/
def subdata (data : Data) (location length : Int) : Except NSException Data :=
  if 0 ≤ location ∧ 0 ≤ length ∧ location + length ≤ data.length then
    .ok ((data.drop location.toNat).take length.toNat)
  else .error .raised

/-- `readBytes:skippingLength:`. -/
def readBytesSkipping (data : Data) (skipLength : Nat) : Except NSException Data := do
  let tmp ← subdata data skipLength 1
  if leNat tmp = 254 then
    let length := int32OfBytes (0 :: (← subdata data (skipLength + 1) 3)) >>> (8 : Nat)
    subdata data (skipLength + 4) length
  else subdata data (skipLength + 1) (leNat tmp)

/-- `unwrapMessage:` over the decompressor `decompressGZip:`, which returns
`nil` when zlib reports an error. -/
def unwrapMessage (decompressGZip : Data → Option Data) (data : Data) :
    Except NSException (Option Data) :=
  if data.length < 4 then .ok (some data)
  else if leNat (data.take 4) = 0x3072cfa1 then
    match readBytesSkipping data 4 with
    | .ok packedData => .ok (decompressGZip packedData)
    | .error e => .error e
  else .ok (some data)

/-! ## Locality of the switch -/

/-- The branches that call `readRest`. -/
def ReadsToEnd (branch : Branch) : Prop :=
  branch = .rpcResult ∨ branch = .msgCopy ∨
    branch = .destroySessionMultipleResponse

instance (branch : Branch) : Decidable (ReadsToEnd branch) := by
  unfold ReadsToEnd
  infer_instance

theorem local_readNonces : Local readNonces :=
  (local_take 16).bind fun _ => (local_take 16).bind fun _ => local_pure _

theorem local_readNoncesAndHash (make : Data → Data → Data → InternalMessage) :
    Local (readNoncesAndHash make) :=
  local_readNonces.bind fun _ => (local_take 16).bind fun _ => local_pure _

theorem local_readContainerElement : Local readContainerElement := by
  refine local_readInt64.bind fun _ => local_readInt32.bind fun _ => ?_
  refine local_readInt32.bind fun length => ?_
  exact local_giveUp.ite ((local_take length.toNat).bind fun _ => local_pure _)

theorem local_readFutureSalt : Local readFutureSalt :=
  local_readInt32.bind fun _ => local_readInt32.bind fun _ =>
    local_readInt64.bind fun _ => local_pure _

private theorem local_int64Vector (make : List Int → InternalMessage) :
    Local (do return make (← readVector readInt64 (← readInt32))) :=
  local_readInt32.bind fun count =>
    (Local.readVector local_readInt64 count).bind fun _ => local_pure _

/-- Every branch that does not call `readRest` is local. -/
theorem local_parseBody {branch : Branch} (h : ¬ ReadsToEnd branch) :
    Local (parseBody branch) := by
  cases branch with
  | rpcResult => exact absurd (.inl rfl) h
  | msgCopy => exact absurd (.inr (.inl rfl)) h
  | destroySessionMultipleResponse => exact absurd (.inr (.inr rfl)) h
  | resPq =>
    refine local_readNonces.bind fun _ => local_readTLBytes.bind fun _ => ?_
    refine local_readInt32.bind fun _ => local_readInt32.bind fun count => ?_
    exact (Local.readVector local_readInt64 count).bind fun _ => local_pure _
  | serverDhParamsFail => exact local_readNoncesAndHash _
  | serverDhParamsOk =>
    exact local_readNonces.bind fun _ =>
      local_readTLBytes.bind fun _ => local_pure _
  | serverDhInnerData =>
    refine local_readNonces.bind fun _ => local_readInt32.bind fun _ => ?_
    refine local_readTLBytes.bind fun _ => local_readTLBytes.bind fun _ => ?_
    exact local_readInt32.bind fun _ => local_pure _
  | setClientDhParamsResponseOk => exact local_readNoncesAndHash _
  | setClientDhParamsResponseRetry => exact local_readNoncesAndHash _
  | setClientDhParamsResponseFail => exact local_readNoncesAndHash _
  | rpcError =>
    exact local_readInt32.bind fun _ =>
      local_readTLString.bind fun _ => local_pure _
  | dropRpcResultUnknown => exact local_pure _
  | dropRpcResultDroppedRunning => exact local_pure _
  | dropRpcResultDropped =>
    exact local_readInt64.bind fun _ => local_readInt32.bind fun _ =>
      local_readInt32.bind fun _ => local_pure _
  | msgsStateReq => exact local_readInt32.bind fun _ => local_int64Vector _
  | msgsStateInfo =>
    exact local_readInt64.bind fun _ =>
      local_readTLBytes.bind fun _ => local_pure _
  | msgDetailedResponseInfo =>
    exact local_readInt64.bind fun _ => local_readInt64.bind fun _ =>
      local_readInt32.bind fun _ => local_readInt32.bind fun _ => local_pure _
  | msgDetailedInfo =>
    exact local_readInt64.bind fun _ => local_readInt32.bind fun _ =>
      local_readInt32.bind fun _ => local_pure _
  | msgAllInfo =>
    refine local_readInt32.bind fun _ => local_readInt32.bind fun count => ?_
    refine (Local.readVector local_readInt64 count).bind fun _ => ?_
    exact local_readTLBytes.bind fun _ => local_pure _
  | msgResendReq => exact local_int64Vector _
  | badMsgNotification =>
    exact local_readInt64.bind fun _ => local_readInt32.bind fun _ =>
      local_readInt32.bind fun _ => local_pure _
  | badServerSaltNotification =>
    exact local_readInt64.bind fun _ => local_readInt32.bind fun _ =>
      local_readInt32.bind fun _ => local_readInt64.bind fun _ => local_pure _
  | msgsAck =>
    exact (local_take 4).bind fun _ => local_giveUp.ite (local_int64Vector _)
  | ping => exact local_readInt64.bind fun _ => local_pure _
  | pong =>
    exact local_readInt64.bind fun _ =>
      local_readInt64.bind fun _ => local_pure _
  | newSessionCreated =>
    exact local_readInt64.bind fun _ => local_readInt64.bind fun _ =>
      local_readInt64.bind fun _ => local_pure _
  | destroySessionResponseOk => exact local_readInt64.bind fun _ => local_pure _
  | destroySessionResponseNone =>
    exact local_readInt64.bind fun _ => local_pure _
  | msgContainer =>
    exact local_readInt32.bind fun count =>
      (Local.readVector local_readContainerElement count).bind
        fun _ => local_pure _
  | futureSalts =>
    refine local_readInt64.bind fun _ => local_readInt32.bind fun _ => ?_
    exact local_readInt32.bind fun count =>
      (Local.readVector local_readFutureSalt count).bind fun _ => local_pure _

end TelegramPub.Ports.InternalMessageParser
