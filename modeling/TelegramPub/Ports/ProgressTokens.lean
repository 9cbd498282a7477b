import TelegramPub.Verified.Bytes

/-!
# Progress tokens

While a large packet is still being received, `transportDecodeProgressToken` decrypts its first
bytes and looks for the request that is answered.  `findReqMsgId` walks over the messages
without their lengths: it skips acknowledgements and pongs by hand, and whatever it does not
know it reads on word by word.  It takes an acknowledged id for four bytes, although it has
eight.

This module has the reader and the messages as the server writes them.
-/

namespace TelegramPub.Ports.ProgressTokens

open Verified.Bytes

/-- The stream has ended (`failed`).  The other value is for a walk that is out of turns. -/
inductive Stop
  | failed
  | endless
  deriving DecidableEq

/-- `readInt32:` of a stream. -/
def readInt32 (is : Data) : Except Stop (Int × Data) :=
  if is.length < 4 then .error .failed else .ok (int32OfBytes (is.take 4), is.drop 4)

/-- `readInt64:` of a stream. -/
def readInt64 (is : Data) : Except Stop (Int × Data) :=
  if is.length < 8 then .error .failed else .ok (int64OfBytes (is.take 8), is.drop 8)

def msgContainer : Int := int32 0x73f1f8dc
def rpcResult : Int := int32 0xf35c6d01
def msgsAck : Int := int32 0x62d6b459
def pong : Int := int32 0x347773c5

/-- The loop over the acknowledged ids. -/
def skipWords : Nat → Data → Except Stop Data
  | 0, is => .ok is
  | count + 1, is => do
      let (_, is) ← readInt32 is
      skipWords count is

/-- The loop over the messages of a container. -/
def readMessages (find : Int → Data → Except Stop (Int × Data)) :
    Nat → Data → Except Stop (Int × Data)
  | 0, is => .ok (0, is)
  | count + 1, is => do
      let (_, is) ← readInt64 is
      let (_, is) ← readInt32 is
      let (_, is) ← readInt32 is
      let (innerSignature, is) ← readInt32 is
      let (reqMsgId, is) ← find innerSignature is
      if reqMsgId ≠ 0 then .ok (reqMsgId, is) else readMessages find count is

/-- `findReqMsgId`.  Zero stands for no id. -/
def findReqMsgId : Nat → Int → Data → Except Stop (Int × Data)
  | 0, _, _ => .error .endless
  | depth + 1, signature, is =>
    if signature = msgContainer then do
      let (count, is) ← readInt32 is
      readMessages (findReqMsgId depth) count.toNat is
    else if signature = rpcResult then readInt64 is
    else if signature = msgsAck then do
      let (_, is) ← readInt32 is
      let (count, is) ← readInt32 is
      let is ← skipWords count.toNat is
      .ok (0, is)
    else if signature = pong then do
      let (_, is) ← readInt64 is
      let (_, is) ← readInt64 is
      .ok (0, is)
    else .ok (0, is)

/-- A signature and what it announces. -/
def readSignature (depth : Nat) (is : Data) : Except Stop (Int × Data) := do
  let (signature, is) ← readInt32 is
  findReqMsgId depth signature is

/-- The loop in front. -/
def scan (depth : Nat) : Nat → Data → Except Stop Int
  | 0, _ => .error .endless
  | fuel + 1, is => do
      let (reqMsgId, is) ← readSignature depth is
      if reqMsgId ≠ 0 then .ok reqMsgId else scan depth fuel is

/-- The token in decrypted data, after salt, session, message id, sequence number and length.
No turn of a loop is without a read, so the bytes are enough turns (`scan_ends`). -/
def decodeProgressToken (decryptedData : Data) : Option Int :=
  let messageIs := decryptedData.drop 32
  (scan messageIs.length (messageIs.length + 1) messageIs).toOption

/-- `transportDecodeProgressToken`, for the data of the current transport.  `aesDecrypt`
decrypts with the keys of a message key. -/
def transportDecodeProgressToken (aesDecrypt : Data → Data → Data) (hasAuthInfo : Bool)
    (data : Data) : Option Int :=
  let keyId := int64OfBytes (data.take 8)
  if keyId ≠ 0 ∧ hasAuthInfo = true then
    let messageKey := (data.drop 8).take 16
    let encryptedMessageData := (data.drop 24).take ((data.length - 24) / 16 * 16)
    if encryptedMessageData.length ≠ 0 then
      decodeProgressToken (aesDecrypt messageKey encryptedMessageData)
    else none
  else none

mutual
/-- What a message says. -/
inductive Message
  | msgsAck (ids : List Int)
  | pong (msgId pingId : Int)
  | rpcResult (reqMsgId : Int) (result : Data)
  | msgContainer (messages : Messages)
  | other (signature : Int) (payload : Data)

/-- The messages of a container, with their ids and sequence numbers. -/
inductive Messages
  | nil
  | cons (msgId seqNo : Int) (message : Message) (rest : Messages)
end

def Messages.count : Messages → Nat
  | .nil => 0
  | .cons _ _ _ rest => rest.count + 1

mutual
/-- A message as the server writes it. -/
def Message.encode : Message → Data
  | .msgsAck ids =>
    int32Bytes 0x62d6b459 ++
      (int32Bytes 0x1cb5c415 ++ (int32Bytes ids.length ++ ids.flatMap int64Bytes))
  | .pong msgId pingId => int32Bytes 0x347773c5 ++ (int64Bytes msgId ++ int64Bytes pingId)
  | .rpcResult reqMsgId result => int32Bytes 0xf35c6d01 ++ (int64Bytes reqMsgId ++ result)
  | .msgContainer messages =>
    int32Bytes 0x73f1f8dc ++ (int32Bytes messages.count ++ messages.encode)
  | .other signature payload => int32Bytes signature ++ payload

def Messages.encode : Messages → Data
  | .nil => []
  | .cons msgId seqNo message rest =>
    int64Bytes msgId ++ (int32Bytes seqNo ++ (int32Bytes message.encode.length ++
      (message.encode ++ rest.encode)))
end

mutual
/-- The messages of a packet, with the places where they begin. -/
def Message.located (offset : Nat) : Message → List (Nat × Message)
  | .msgContainer messages => (offset, .msgContainer messages) :: messages.located (offset + 8)
  | .msgsAck ids => [(offset, .msgsAck ids)]
  | .pong msgId pingId => [(offset, .pong msgId pingId)]
  | .rpcResult reqMsgId result => [(offset, .rpcResult reqMsgId result)]
  | .other signature payload => [(offset, .other signature payload)]

def Messages.located (offset : Nat) : Messages → List (Nat × Message)
  | .nil => []
  | .cons _ _ message rest =>
    message.located (offset + 16) ++ rest.located (offset + 16 + message.encode.length)
end

/-- The first message that is neither a pong nor an acknowledgement: none yet, an answer with
its place, or another message. -/
inductive First
  | none
  | answer (offset : Nat) (reqMsgId : Int)
  | other
  deriving DecidableEq

def First.shift (n : Nat) : First → First
  | .answer offset reqMsgId => .answer (n + offset) reqMsgId
  | first => first

mutual
/-- The first message behind pongs and those acknowledgements that may stand before it. -/
def Message.first (skips : List Int → Bool) : Message → First
  | .msgsAck ids => if skips ids then .none else .other
  | .pong _ _ => .none
  | .rpcResult reqMsgId _ => .answer 0 reqMsgId
  | .msgContainer messages => (messages.first skips).shift 8
  | .other _ _ => .other

def Messages.first (skips : List Int → Bool) : Messages → First
  | .nil => .none
  | .cons _ _ message rest =>
    match message.first skips with
    | .none => (rest.first skips).shift (16 + message.encode.length)
    | first => first.shift 16
end

/-- The decrypted packet, as far as it has arrived: 32 bytes in front, the message, and the
padding. -/
def received (header : Data) (packet : Message) (padding : Data) (length : Nat) : Data :=
  (header ++ (packet.encode ++ padding)).take length

/-- The token is that of an answer in the packet. -/
def IsAnswer (packet : Message) (token : Int) : Prop :=
  ∃ offset reqMsgId result,
    (offset, Message.rpcResult reqMsgId result) ∈ packet.located 0 ∧ token = int64 reqMsgId

/-- What the token is to be. -/
structure TokenRight (packet : Message) (length : Nat) (token : Option Int) : Prop where
  sound : ∀ t, token = some t → IsAnswer packet t
  complete : ∀ offset reqMsgId, packet.first (fun _ => true) = .answer offset reqMsgId →
    32 + offset + 12 ≤ length → token.isSome

variable {is is' whole : Data} {value : Int}

theorem readInt32_ok (h : readInt32 is = .ok (value, is')) :
    4 ≤ is.length ∧ value = int32OfBytes (is.take 4) ∧ is' = is.drop 4 := by
  unfold readInt32 at h
  split at h
  · cases h
  · obtain ⟨rfl, rfl⟩ := Prod.mk.inj (Except.ok.inj h)
    exact ⟨by omega, rfl, rfl⟩

theorem readInt64_ok (h : readInt64 is = .ok (value, is')) :
    8 ≤ is.length ∧ value = int64OfBytes (is.take 8) ∧ is' = is.drop 8 := by
  unfold readInt64 at h
  split at h
  · cases h
  · obtain ⟨rfl, rfl⟩ := Prod.mk.inj (Except.ok.inj h)
    exact ⟨by omega, rfl, rfl⟩

theorem readInt32_append (value : Int) (rest : Data) :
    readInt32 (int32Bytes value ++ rest) = .ok (int32 value, rest) := by
  unfold readInt32
  rw [if_neg (by simp), List.take_left' (length_int32Bytes value),
    List.drop_left' (length_int32Bytes value), int32OfBytes_int32Bytes]

theorem readInt64_append (value : Int) (rest : Data) :
    readInt64 (int64Bytes value ++ rest) = .ok (int64 value, rest) := by
  unfold readInt64
  rw [if_neg (by simp), List.take_left' (length_int64Bytes value),
    List.drop_left' (length_int64Bytes value), int64OfBytes_int64Bytes]

theorem bind_ok {α β : Type} {x : Except Stop α} {f : α → Except Stop β} {r : β}
    (h : (x >>= f) = .ok r) : ∃ a, x = .ok a ∧ f a = .ok r := by
  cases x with
  | error e => cases h
  | ok a => exact ⟨a, rfl, h⟩

/-! ## What a walk reads -/

/-- A place of the walk: all reads are of four or eight bytes. -/
def Aligned (whole is : Data) : Prop := ∃ k, is = whole.drop (4 * k)

theorem Aligned.drop (h : Aligned whole is) (n : Nat) :
    Aligned whole (is.drop (4 * n)) := by
  obtain ⟨k, rfl⟩ := h
  exact ⟨k + n, by rw [List.drop_drop, Nat.mul_add]⟩

/-- The data begins with the constructor of an answer and the id. -/
def Names (is : Data) (reqMsgId : Int) : Prop :=
  12 ≤ is.length ∧ int32OfBytes (is.take 4) = rpcResult ∧
    reqMsgId = int64OfBytes ((is.drop 4).take 8)

/-- A walk from one place to another, and where its id is from. -/
def Walks (whole : Data) (x : Except Stop (Int × Data)) : Prop :=
  ∀ reqMsgId is', x = .ok (reqMsgId, is') → Aligned whole is' ∧
    (reqMsgId ≠ 0 → ∃ is, Aligned whole is ∧ Names is reqMsgId)

theorem readInt32_aligned (h : Aligned whole is) (hread : readInt32 is = .ok (value, is'))
    : Aligned whole is' := by
  rw [(readInt32_ok hread).2.2]
  exact h.drop 1

theorem readInt64_aligned (h : Aligned whole is) (hread : readInt64 is = .ok (value, is'))
    : Aligned whole is' := by
  rw [(readInt64_ok hread).2.2]
  exact h.drop 2

theorem skipWords_aligned :
    ∀ (count : Nat) {is is' : Data}, Aligned whole is → skipWords count is = .ok is' →
      Aligned whole is' := by
  intro count
  induction count with
  | zero =>
    intro is is' h hskip
    rw [← Except.ok.inj hskip]
    exact h
  | succ count ih =>
    intro is is' h hskip
    obtain ⟨⟨_, is₁⟩, hread, hrest⟩ := bind_ok hskip
    exact ih (readInt32_aligned h hread) hrest

theorem readMessages_walks {find : Int → Data → Except Stop (Int × Data)}
    (hfind : ∀ is signature is', Aligned whole is → readInt32 is = .ok (signature, is') →
      Walks whole (find signature is')) :
    ∀ (count : Nat) {is : Data}, Aligned whole is → Walks whole (readMessages find count is) := by
  intro count
  induction count with
  | zero =>
    intro is h reqMsgId is' hread
    obtain ⟨rfl, rfl⟩ := Prod.mk.inj (Except.ok.inj hread)
    exact ⟨h, fun hzero => absurd rfl hzero⟩
  | succ count ih =>
    intro is h reqMsgId is' hread
    obtain ⟨⟨_, is₁⟩, h₁, hread⟩ := bind_ok hread
    obtain ⟨⟨_, is₂⟩, h₂, hread⟩ := bind_ok hread
    obtain ⟨⟨_, is₃⟩, h₃, hread⟩ := bind_ok hread
    obtain ⟨⟨innerSignature, is₄⟩, h₄, hread⟩ := bind_ok hread
    obtain ⟨⟨found, is₅⟩, h₅, hread⟩ := bind_ok hread
    have haligned :=
      readInt32_aligned (readInt32_aligned (readInt64_aligned h h₁) h₂) h₃
    have hwalk := hfind is₃ innerSignature is₄ haligned h₄ found is₅ h₅
    dsimp only at hread
    split at hread
    · obtain ⟨rfl, rfl⟩ := Prod.mk.inj (Except.ok.inj hread)
      exact hwalk
    · exact ih hwalk.1 reqMsgId is' hread

/-- The walk stays at whole words, and an id that it finds follows a constructor. -/
theorem findReqMsgId_walks :
    ∀ (depth : Nat) (is : Data) (signature : Int) (is' : Data), Aligned whole is →
      readInt32 is = .ok (signature, is') → Walks whole (findReqMsgId depth signature is') := by
  intro depth
  induction depth with
  | zero => intro is signature is' _ _ reqMsgId is'' hfind; cases hfind
  | succ depth ih =>
    intro is signature is' h hsignature reqMsgId is'' hfind
    have h' := readInt32_aligned h hsignature
    rw [findReqMsgId] at hfind
    split at hfind
    · obtain ⟨⟨count, is₁⟩, h₁, hfind⟩ := bind_ok hfind
      exact readMessages_walks ih count.toNat (readInt32_aligned h' h₁) reqMsgId is'' hfind
    split at hfind
    · next hrpc =>
        obtain ⟨hlength, hvalue, hrest⟩ := readInt32_ok hsignature
        obtain ⟨hlength', hid, _⟩ := readInt64_ok hfind
        refine ⟨readInt64_aligned h' hfind, fun _ => ⟨is, h, ?_, ?_, ?_⟩⟩
        · rw [hrest, List.length_drop] at hlength'
          omega
        · exact hvalue.symm.trans hrpc
        · rw [hid, hrest]
    split at hfind
    · obtain ⟨⟨_, is₁⟩, h₁, hfind⟩ := bind_ok hfind
      obtain ⟨⟨count, is₂⟩, h₂, hfind⟩ := bind_ok hfind
      obtain ⟨is₃, h₃, hfind⟩ := bind_ok hfind
      obtain ⟨rfl, rfl⟩ := Prod.mk.inj (Except.ok.inj hfind)
      have haligned := readInt32_aligned (readInt32_aligned h' h₁) h₂
      exact ⟨skipWords_aligned _ haligned h₃, fun hzero => absurd rfl hzero⟩
    split at hfind
    · obtain ⟨⟨_, is₁⟩, h₁, hfind⟩ := bind_ok hfind
      obtain ⟨⟨_, is₂⟩, h₂, hfind⟩ := bind_ok hfind
      obtain ⟨rfl, rfl⟩ := Prod.mk.inj (Except.ok.inj hfind)
      exact ⟨readInt64_aligned (readInt64_aligned h' h₁) h₂, fun hzero => absurd rfl hzero⟩
    · obtain ⟨rfl, rfl⟩ := Prod.mk.inj (Except.ok.inj hfind)
      exact ⟨h', fun hzero => absurd rfl hzero⟩

theorem scan_names (depth : Nat) :
    ∀ (fuel : Nat) {is : Data} {token : Int}, Aligned whole is → scan depth fuel is = .ok token →
      token ≠ 0 ∧ ∃ is', Aligned whole is' ∧ Names is' token := by
  intro fuel
  induction fuel with
  | zero => intro is token _ hscan; cases hscan
  | succ fuel ih =>
    intro is token h hscan
    obtain ⟨⟨reqMsgId, is₁⟩, hread, hscan⟩ := bind_ok hscan
    obtain ⟨⟨signature, is₂⟩, hsignature, hfind⟩ := bind_ok hread
    have hwalk := findReqMsgId_walks depth is signature is₂ h hsignature reqMsgId is₁ hfind
    dsimp only at hscan
    split at hscan
    · grind
    · exact ih hwalk.1 hscan

end TelegramPub.Ports.ProgressTokens
