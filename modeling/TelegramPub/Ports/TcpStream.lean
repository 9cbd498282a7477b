import TelegramPub.Ports.TcpFraming

/-!
# What goes through the stream

The reader of `MTTcpConnection` is deterministic, and a piece of the stream that comes
later does not disturb a read that is complete: so every run with the same bytes ends
where the run ends that has them all from the beginning (`reads_run`).  There the
frames are read one after the other (`reads_frames`).

`abridged_framing` puts the two directions together.
-/

namespace TelegramPub.Ports.TcpStream

open Verified.Bytes Verified.Machine Ports.TransportCipher Ports.TcpFraming

/-! ## The bytes of a packet -/

variable {data : Data}

theorem quarterLength_of_packet (h : IsPacket data) :
    quarterLength data = (data.length / 4 : Nat) := by
  have hbounded := h.bounded
  apply int32_of_range <;> omega

theorem packetData_cases (h : IsPacket data) (requestQuickAck : Bool) :
    ∃ flag : UInt8, flag = (if requestQuickAck then 0x80 else 0) ∧
      (data.length / 4 ≤ 0x7e ∧
          packetData requestQuickAck data = (UInt8.ofNat (data.length / 4) ||| flag) :: data ∨
        0x7e < data.length / 4 ∧
          packetData requestQuickAck data =
            (0x7f ||| flag) :: (natLE 3 (data.length / 4) ++ data)) := by
  have hbounded := h.bounded
  refine ⟨_, rfl, ?_⟩
  unfold packetData
  rw [quarterLength_of_packet h]
  by_cases hshort : data.length / 4 ≤ 0x7e
  · grind
  · right
    have hgt : ¬ ((data.length / 4 : Nat) : Int) ≤ 0x7e := by omega
    have hbytes : (int32Bytes ((data.length / 4 : Nat) : Int)).take 3 =
        natLE 3 (data.length / 4) := by
      have hmod : (((data.length / 4 : Nat) : Int) % 2 ^ 32).toNat = data.length / 4 := by omega
      unfold int32Bytes
      rw [hmod]
      rfl
    simp only [hgt, if_false, hbytes]
    exact ⟨by omega, trivial⟩

theorem leNat_quarters {q : Nat} (h : q < 2 ^ 24) : leNat (natLE 3 q) = q := by
  rw [leNat_natLE]
  exact Nat.mod_eq_of_lt h

/-- The first byte of a short packet. -/
theorem toNat_marker {q : Nat} (h : q ≤ 0x7f) (requestQuickAck : Bool) :
    (UInt8.ofNat q ||| (if requestQuickAck then 0x80 else 0)).toNat =
      q + if requestQuickAck then 0x80 else 0 := by
  have hall : ∀ q : Fin 0x80, (UInt8.ofNat q.val).toNat = q.val ∧
      (UInt8.ofNat q.val ||| 0x80).toNat = q.val + 0x80 := by decide
  have hq := hall ⟨q, by omega⟩
  cases requestQuickAck with
  | false => simpa using hq.1
  | true => simpa using hq.2

section Reading

variable {aes : Data → Data → Data}

/-- The socket completes one read. -/
def ReadsOne (aes : Data → Data → Data) (c c' : Connection) : Prop :=
  completeRead aes c = some c'

/-- The socket completes some reads. -/
def Reads (aes : Data → Data → Data) : Connection → Connection → Prop :=
  Relation.ReflTransGen (ReadsOne aes)

variable {c : Connection}

/-- Two runs that end with nothing to read end in the same state. -/
theorem reads_unique {c₁ c₂ : Connection} (h₁ : Reads aes c c₁) (h₂ : Reads aes c c₂)
    (hend₁ : completeRead aes c₁ = none) (hend₂ : completeRead aes c₂ = none) : c₁ = c₂ := by
  induction h₁ using Relation.ReflTransGen.head_induction_on with
  | refl =>
    rcases Relation.ReflTransGen.cases_head h₂ with heq | ⟨d, hd, _⟩
    · exact heq
    · rw [ReadsOne, hend₁] at hd
      cases hd
  | head hd _ ih =>
    rcases Relation.ReflTransGen.cases_head h₂ with heq | ⟨d', hd', hrest⟩
    · rw [← heq, hd] at hend₂
      cases hend₂
    · rw [ReadsOne, hd] at hd'
      exact ih (Option.some.inj hd' ▸ hrest)

/-- The connection is open and the rest `s` of the stream has come. -/
structure Holding (aes : Data → Data → Data) (c : Connection) (a : AesCtr) (s : Data) : Prop where
  isOpen : c.closed = false
  cipher : c.incomingAesCtr = some a
  received : c.received = (encrypt aes a s).2

variable {a : AesCtr} {rest : Data}

/-- A read whose bytes are there. -/
theorem completeRead_holding {xs : Data} {tag : ReadTag} (h : Holding aes c a (xs ++ rest))
    (hread : c.pendingRead = some (xs.length, tag)) :
    completeRead aes c = some (didReadPlain
      { c with
        pendingRead := none
        received := (encrypt aes (encrypt aes a xs).1 rest).2
        incomingAesCtr := some (encrypt aes a xs).1 } xs tag) := by
  have hlength : xs.length ≤ c.received.length := by
    rw [h.received, length_encrypt, List.length_append]
    exact Nat.le_add_right _ _
  have htake : c.received.take xs.length = (encrypt aes a xs).2 := by
    rw [h.received, take_encrypt]
  have hdrop : c.received.drop xs.length = (encrypt aes (encrypt aes a xs).1 rest).2 := by
    rw [h.received, drop_encrypt]
  unfold completeRead
  simp only [hread, hlength, if_true, htake, hdrop, didReadData, h.isOpen, h.cipher,
    encrypt_encrypt, Bool.false_eq_true, if_false]

/-- The connection is in a frame and asks for nothing yet. -/
structure InFrame (aes : Data → Data → Data) (c : Connection) (a : AesCtr) (s : Data)
    (delivered : List Delivery) : Prop extends Holding aes c a s where
  idle : c.pendingRead = none
  noHead : c.packetHead = none
  deliveries : c.delivered = delivered

/-- The connection waits for the first byte of a frame. -/
structure AtFrame (aes : Data → Data → Data) (c : Connection) (a : AesCtr) (s : Data)
    (delivered : List Delivery) : Prop extends Holding aes c a s where
  pending : c.pendingRead = some (1, .packetShortLength)
  noHead : c.packetHead = none
  deliveries : c.delivered = delivered

variable {marker : UInt8} {delivered : List Delivery}

/-- The first byte of a frame. -/
theorem reads_marker (h : AtFrame aes c a (marker :: rest) delivered) :
    ∃ c', ReadsOne aes c (didReadPlain c' [marker] .packetShortLength) ∧
      InFrame aes c' (encrypt aes a [marker]).1 rest delivered :=
  have hholding : Holding aes c a ([marker] ++ rest) := h.toHolding
  ⟨_, completeRead_holding hholding h.pending, ⟨h.isOpen, rfl, rfl⟩, rfl, h.noHead, h.deliveries⟩

theorem reads_ask {xs : Data} (tag : ReadTag) (h : InFrame aes c a (xs ++ rest) delivered)
    (hpos : xs.length ≠ 0) :
    ∃ c', ReadsOne aes (readDataToLength c xs.length tag) (didReadPlain c' xs tag) ∧
      InFrame aes c' (encrypt aes a xs).1 rest delivered ∧ c'.quickAckByte = c.quickAckByte := by
  have hask : readDataToLength c xs.length tag =
      { c with pendingRead := some (xs.length, tag) } := by
    simp only [readDataToLength, hpos, if_false]
  rw [hask]
  exact ⟨_, completeRead_holding (c := { c with pendingRead := some (xs.length, tag) })
    ⟨h.isOpen, h.cipher, h.received⟩ rfl,
    ⟨⟨h.isOpen, rfl, rfl⟩, rfl, h.noHead, h.deliveries⟩, rfl⟩

theorem reads_packetBody {xs : Data} (h : Holding aes c a (xs ++ rest))
    (hread : c.pendingRead = some (xs.length, .packetBody)) (hdelivered : c.delivered = delivered) :
    ∃ c', ReadsOne aes c c' ∧ AtFrame aes c' (encrypt aes a xs).1 rest
      (delivered ++ [Delivery.receivedData (c.packetHead.getD [] ++ xs)]) := by
  refine ⟨_, completeRead_holding h hread, ?_⟩
  cases hhead : c.packetHead with
  | none =>
    exact ⟨⟨h.isOpen, rfl, rfl⟩, rfl, rfl,
      by simp [didReadPlain, readDataToLength, deliver, hdelivered]⟩
  | some packetHead =>
    exact ⟨⟨h.isOpen, rfl, rfl⟩, rfl, rfl,
      by simp [didReadPlain, readDataToLength, deliver, hdelivered]⟩

theorem reads_packetHead {head : Data} (h : Holding aes c a (head ++ rest))
    (hread : c.pendingRead = some (head.length, .packetHead)) (hpos : c.packetRestLength ≠ 0) :
    ∃ c', ReadsOne aes c c' ∧ Holding aes c' (encrypt aes a head).1 rest ∧
      c'.pendingRead = some (c.packetRestLength, .packetBody) ∧ c'.packetHead = some head ∧
      c'.delivered = c.delivered := by
  refine ⟨_, completeRead_holding h hread, ?_⟩
  simp only [didReadPlain, readDataToLength, hpos, if_false]
  exact ⟨⟨h.isOpen, rfl, rfl⟩, trivial, trivial, trivial⟩

theorem reads_packet (h : InFrame aes c a (data ++ rest) delivered) (hpos : 0 < data.length) :
    ∃ c', Reads aes (readPacket c data.length) c' ∧
      AtFrame aes c' (encrypt aes a data).1 rest (delivered ++ [Delivery.receivedData data]) := by
  by_cases hlong : progressCalculationThreshold ≤ data.length
  · have hlong' : 4096 ≤ data.length := hlong
    obtain ⟨head, tail, hdata, hheadLength⟩ : ∃ head tail, data = head ++ tail ∧
        head.length = 128 :=
      ⟨data.take 128, data.drop 128, (List.take_append_drop 128 data).symm,
        by rw [List.length_take]; omega⟩
    have htail : data.length - 128 = tail.length := by
      rw [hdata, List.length_append]
      omega
    have hstart : readPacket c data.length = { c with
        packetRestLength := tail.length
        pendingRead := some (head.length, .packetHead) } := by
      simp only [readPacket, hlong, if_true, readDataToLength, htail, hheadLength]
      rfl
    have hreceived := h.received
    rw [hdata, List.append_assoc] at hreceived
    rw [hstart]
    have hholding : Holding aes { c with
        packetRestLength := tail.length
        pendingRead := some (head.length, .packetHead) } a (head ++ (tail ++ rest)) :=
      ⟨h.isOpen, h.cipher, hreceived⟩
    obtain ⟨c₁, hfirst, hholding₁, hread₁, hhead₁, hdelivered₁⟩ :=
      reads_packetHead hholding rfl (show tail.length ≠ 0 by omega)
    obtain ⟨c₂, hlast, hframe⟩ := reads_packetBody hholding₁ hread₁ (hdelivered₁.trans h.deliveries)
    rw [hhead₁, Option.getD_some, ← hdata] at hframe
    rw [show encrypt aes a data = encrypt aes a (head ++ tail) by rw [hdata], encrypt_append]
    exact ⟨c₂, Relation.ReflTransGen.head hfirst (Relation.ReflTransGen.single hlast), hframe⟩
  · have hne : data.length ≠ 0 := by omega
    have hstart : readPacket c data.length =
        { c with pendingRead := some (data.length, .packetBody) } := by
      simp only [readPacket, hlong, if_false, readDataToLength, hne]
    rw [hstart]
    have hholding : Holding aes { c with pendingRead := some (data.length, .packetBody) } a
        (data ++ rest) :=
      ⟨h.isOpen, h.cipher, h.received⟩
    obtain ⟨c', hlast, hframe⟩ := reads_packetBody hholding rfl h.deliveries
    refine ⟨c', Relation.ReflTransGen.single hlast, ?_⟩
    simpa [h.noHead] using hframe

/-! ### The three kinds of frames -/

theorem didReadPlain_short (hpos : 1 ≤ marker.toNat) (hle : marker.toNat ≤ 0x7e) :
    didReadPlain c [marker] .packetShortLength = readPacket c (marker.toNat * 4) := by
  have hack : ¬ 0x80 ≤ marker := by rw [UInt8.le_iff_toNat_le]; show ¬ 128 ≤ _; omega
  have hone : (0x01 : UInt8) ≤ marker := by rw [UInt8.le_iff_toNat_le]; exact hpos
  have hshort : marker ≤ 0x7e := by rw [UInt8.le_iff_toNat_le]; exact hle
  simp [didReadPlain, hack, hone, hshort]

theorem didReadPlain_long (c : Connection) :
    didReadPlain c [0x7f] .packetShortLength = readDataToLength c 3 .packetLongLength := by
  rfl

theorem didReadPlain_zero (c : Connection) :
    didReadPlain c [0] .packetShortLength = closeAndNotify c := by
  rfl

theorem didReadPlain_ack (hge : 0x80 ≤ marker.toNat) :
    didReadPlain c [marker] .packetShortLength =
      readDataToLength { c with quickAckByte := marker } 3 .quickAck := by
  have hack : 0x80 ≤ marker := by rw [UInt8.le_iff_toNat_le]; exact hge
  simp [didReadPlain, hack]

theorem didReadPlain_quarters {q : Nat} (hlt : q < 2 ^ 24) :
    didReadPlain c (natLE 3 q) .packetLongLength =
      if q = 0 ∨ 4 * 1024 * 1024 / 4 < q then closeAndNotify c else readPacket c (q * 4) := by
  have htake : (natLE 3 q).take 3 = natLE 3 q := List.take_of_length_le (length_natLE 3 q).le
  simp only [didReadPlain, htake, leNat_quarters hlt]

theorem reads_shortPacket (hpacket : IsPacket data) (hshort : data.length / 4 ≤ 0x7e)
    (h : AtFrame aes c a (UInt8.ofNat (data.length / 4) :: data ++ rest) delivered) :
    ∃ c', Reads aes c c' ∧
      AtFrame aes c' (encrypt aes a (UInt8.ofNat (data.length / 4) :: data)).1 rest
        (delivered ++ [Delivery.receivedData data]) := by
  have hquarters := hpacket.quarters
  have hpos := hpacket.pos
  have hmarker : (UInt8.ofNat (data.length / 4)).toNat = data.length / 4 := by
    rw [UInt8.toNat_ofNat']
    exact Nat.mod_eq_of_lt (by omega)
  obtain ⟨c₁, hread, hframe⟩ := reads_marker h
  rw [didReadPlain_short (by omega) (by omega), hmarker,
    Nat.div_mul_cancel (Nat.dvd_of_mod_eq_zero hquarters)] at hread
  obtain ⟨c₂, hreads, hnext⟩ := reads_packet hframe hpos
  refine ⟨c₂, Relation.ReflTransGen.head hread hreads, ?_⟩
  rw [← List.singleton_append, encrypt_append]
  exact hnext

theorem reads_longPacket (hpacket : IsPacket data)
    (h : AtFrame aes c a (0x7f :: (natLE 3 (data.length / 4) ++ data) ++ rest) delivered) :
    ∃ c', Reads aes c c' ∧
      AtFrame aes c' (encrypt aes a (0x7f :: (natLE 3 (data.length / 4) ++ data))).1 rest
        (delivered ++ [Delivery.receivedData data]) := by
  have hquarters := hpacket.quarters
  have hpos := hpacket.pos
  have hbounded := hpacket.bounded
  rw [List.cons_append, List.append_assoc] at h
  obtain ⟨c₁, hread, hframe⟩ := reads_marker h
  rw [didReadPlain_long] at hread
  obtain ⟨c₂, hlength, hframe₂, _⟩ := reads_ask .packetLongLength hframe
    (by rw [length_natLE]; decide)
  have hgood : ¬ (data.length / 4 = 0 ∨ 4 * 1024 * 1024 / 4 < data.length / 4) := by omega
  rw [length_natLE, didReadPlain_quarters (by omega), if_neg hgood,
    Nat.div_mul_cancel (Nat.dvd_of_mod_eq_zero hquarters)] at hlength
  obtain ⟨c₃, hreads, hnext⟩ := reads_packet hframe₂ hpos
  refine ⟨c₃, Relation.ReflTransGen.head hread (Relation.ReflTransGen.head hlength hreads), ?_⟩
  rw [← List.singleton_append, encrypt_append, encrypt_append]
  exact hnext

theorem quickAck_bytes {word : Nat} (h : word < 2 ^ 31) :
    ∃ marker b₁ b₂ b₃, (natLE 4 (2 ^ 31 + word)).reverse = [marker, b₁, b₂, b₃] ∧
      0x80 ≤ marker.toNat ∧ quickAckId marker [b₁, b₂, b₃] = word := by
  refine ⟨_, _, _, _, rfl, ?_, ?_⟩
  · rw [UInt8.toNat_ofNat']
    omega
  · have hbytes : leNat (natLE 4 (2 ^ 31 + word)) = 2 ^ 31 + word := by
      rw [leNat_natLE]
      exact Nat.mod_eq_of_lt (by omega)
    unfold quickAckId beNat
    rw [show List.reverse (_ :: List.take 3 _) = natLE 4 (2 ^ 31 + word) from rfl, hbytes]
    omega

theorem reads_quickAck {word : Nat} (hword : word < 2 ^ 31)
    (h : AtFrame aes c a ((natLE 4 (2 ^ 31 + word)).reverse ++ rest) delivered) :
    ∃ c', Reads aes c c' ∧
      AtFrame aes c' (encrypt aes a (natLE 4 (2 ^ 31 + word)).reverse).1 rest
        (delivered ++ [Delivery.receivedQuickAck word]) := by
  obtain ⟨marker, b₁, b₂, b₃, hbytes, hge, hid⟩ := quickAck_bytes hword
  rw [hbytes] at h ⊢
  obtain ⟨c₁, hread, hframe⟩ := reads_marker h
  rw [didReadPlain_ack hge] at hread
  have hframe' : InFrame aes { c₁ with quickAckByte := marker } (encrypt aes a [marker]).1
      ([b₁, b₂, b₃] ++ rest) delivered :=
    ⟨⟨hframe.isOpen, hframe.cipher, hframe.received⟩, hframe.idle, hframe.noHead,
      hframe.deliveries⟩
  obtain ⟨c₂, hack, hframe₂, hbyte⟩ := reads_ask .quickAck hframe' (Nat.succ_ne_zero 2)
  refine ⟨_, Relation.ReflTransGen.head hread (Relation.ReflTransGen.single hack), ?_⟩
  rw [show [marker, b₁, b₂, b₃] = [marker] ++ [b₁, b₂, b₃] from rfl, encrypt_append]
  refine ⟨⟨hframe₂.isOpen, hframe₂.cipher, hframe₂.received⟩, rfl, hframe₂.noHead, ?_⟩
  show c₂.delivered ++ [Delivery.receivedQuickAck (quickAckId c₂.quickAckByte [b₁, b₂, b₃])] = _
  rw [hframe₂.deliveries, hbyte, hid]

theorem reads_frame {frame : ServerFrame} (hvalid : frame.IsValid)
    (h : AtFrame aes c a (frame.bytes ++ rest) delivered) :
    ∃ c', Reads aes c c' ∧
      AtFrame aes c' (encrypt aes a frame.bytes).1 rest (delivered ++ [frame.delivery]) := by
  cases frame with
  | quickAck word => exact reads_quickAck hvalid h
  | packet data =>
    obtain ⟨flag, hflag, hbytes⟩ := packetData_cases hvalid false
    rw [if_neg Bool.false_ne_true] at hflag
    subst hflag
    simp only [UInt8.or_zero] at hbytes
    show ∃ c', Reads aes c c' ∧ AtFrame aes c' (encrypt aes a (packetData false data)).1 rest
      (delivered ++ [Delivery.receivedData data])
    rcases hbytes with ⟨hshort, hbytes⟩ | ⟨_, hbytes⟩
    · rw [show ServerFrame.bytes (.packet data) = packetData false data from rfl, hbytes] at h
      rw [hbytes]
      exact reads_shortPacket hvalid hshort h
    · rw [show ServerFrame.bytes (.packet data) = packetData false data from rfl, hbytes] at h
      rw [hbytes]
      exact reads_longPacket hvalid h

theorem reads_frames {frames : List ServerFrame} (hvalid : ∀ frame ∈ frames, frame.IsValid)
    (h : AtFrame aes c a (frames.flatMap ServerFrame.bytes ++ rest) delivered) :
    ∃ c', Reads aes c c' ∧
      AtFrame aes c' (encrypt aes a (frames.flatMap ServerFrame.bytes)).1 rest
        (delivered ++ frames.map ServerFrame.delivery) := by
  induction frames generalizing c a delivered with
  | nil => exact ⟨c, Relation.ReflTransGen.refl, by simpa using h⟩
  | cons frame frames ih =>
    rw [List.flatMap_cons, List.append_assoc] at h
    obtain ⟨c₁, hfirst, hframe₁⟩ := reads_frame (hvalid frame (List.mem_cons_self ..)) h
    obtain ⟨c₂, hrest, hframe₂⟩ :=
      ih (fun frame hmem => hvalid frame (.tail _ hmem)) hframe₁
    refine ⟨c₂, Relation.ReflTransGen.trans hfirst hrest, ?_⟩
    rw [List.flatMap_cons, encrypt_append, List.map_cons, ← List.singleton_append,
      ← List.append_assoc]
    exact hframe₂

theorem reads_malformed {bad : Data} (hbad : MalformedLength bad)
    (h : AtFrame aes c a (bad ++ rest) delivered) :
    ∃ c', Reads aes c c' ∧ c'.closed = true ∧ c'.pendingRead = none ∧
      c'.delivered = delivered := by
  cases hbad with
  | zero =>
    obtain ⟨c₁, hread, hframe⟩ := reads_marker h
    rw [didReadPlain_zero] at hread
    exact ⟨_, Relation.ReflTransGen.single hread, rfl, rfl, hframe.deliveries⟩
  | quarters q hlt hbad =>
    obtain ⟨c₁, hread, hframe⟩ := reads_marker h
    rw [didReadPlain_long] at hread
    obtain ⟨c₂, hlength, hframe₂, _⟩ := reads_ask .packetLongLength hframe
      (by rw [length_natLE]; decide)
    rw [length_natLE, didReadPlain_quarters hlt, if_pos hbad] at hlength
    exact ⟨_, Relation.ReflTransGen.head hread (Relation.ReflTransGen.single hlength), rfl, rfl,
      hframe₂.deliveries⟩

/-! ### Every chunking is the same -/

/-- What the writer depends on. -/
structure Outgoing where
  addedControlHeader : Bool
  outgoingAesCtr : Option AesCtr
  written : Data

def outgoing (c : Connection) : Outgoing where
  addedControlHeader := c.addedControlHeader
  outgoingAesCtr := c.outgoingAesCtr
  written := c.written

/-- The connection with another writer, and with bytes that come later. -/
def view (out : Outgoing) (later : Data) (c : Connection) : Connection :=
  { c with
    addedControlHeader := out.addedControlHeader
    outgoingAesCtr := out.outgoingAesCtr
    written := out.written
    received := c.received ++ later }

variable (out : Outgoing) (later : Data)

theorem view_readDataToLength (c : Connection) (length : Nat) (tag : ReadTag) :
    view out later (readDataToLength c length tag) =
      readDataToLength (view out later c) length tag := by
  unfold readDataToLength
  split <;> rfl

theorem view_readPacket (c : Connection) (length : Nat) :
    view out later (readPacket c length) = readPacket (view out later c) length := by
  unfold readPacket
  split
  · exact view_readDataToLength out later _ _ _
  · exact view_readDataToLength out later _ _ _

theorem view_didReadPlain (c : Connection) (data : Data) (tag : ReadTag) :
    view out later (didReadPlain c data tag) = didReadPlain (view out later c) data tag := by
  cases tag with
  | packetShortLength =>
    simp only [didReadPlain]
    split
    · exact view_readDataToLength out later _ _ _
    · split
      · exact view_readPacket out later _ _
      · split
        · exact view_readDataToLength out later _ _ _
        · rfl
  | packetLongLength =>
    simp only [didReadPlain]
    split
    · rfl
    · exact view_readPacket out later _ _
  | packetHead => exact view_readDataToLength out later _ _ _
  | packetBody => exact view_readDataToLength out later _ _ _
  | quickAck => exact view_readDataToLength out later _ _ _

theorem view_didReadData (c : Connection) (data : Data) (tag : ReadTag) :
    view out later (didReadData aes c data tag) =
      didReadData aes (view out later c) data tag := by
  have hclosed : (view out later c).closed = c.closed := rfl
  have hincoming : (view out later c).incomingAesCtr = c.incomingAesCtr := rfl
  unfold didReadData
  rw [hclosed, hincoming]
  split
  · rfl
  · cases c.incomingAesCtr with
    | some a => exact view_didReadPlain out later _ _ _
    | none => exact view_didReadPlain out later _ _ _

/-- Neither the writer nor the bytes that come later disturb a read. -/
theorem view_completeRead {c' : Connection} (h : completeRead aes c = some c') :
    completeRead aes (view out later c) = some (view out later c') := by
  have hpending : (view out later c).pendingRead = c.pendingRead := rfl
  unfold completeRead at h ⊢
  rw [hpending]
  cases hread : c.pendingRead with
  | none =>
    rw [hread] at h
    cases h
  | some read =>
    grind [view, view_didReadData]

theorem completeRead_view_none (h : completeRead aes c = none) :
    completeRead aes (view out [] c) = none := by
  have hpending : (view out [] c).pendingRead = c.pendingRead := rfl
  have hreceived : (view out [] c).received = c.received := List.append_nil _
  unfold completeRead at h ⊢
  rw [hpending, hreceived]
  cases hread : c.pendingRead with
  | none => rfl
  | some read =>
    rw [hread] at h
    simpa using h

theorem completeRead_outgoing {c' : Connection} (h : completeRead aes c = some c') :
    outgoing c' = outgoing c := by
  have hself : view (outgoing c) [] c = c := by simp [view, outgoing]
  have hview := view_completeRead (outgoing c) [] h
  rw [hself, h] at hview
  rw [Option.some.inj hview]
  rfl

theorem completeRead_closed {c' : Connection} (h : completeRead aes c = some c')
    (hopen : c'.closed = false) : c.closed = false := by
  by_contra hclosed
  rw [Bool.not_eq_false] at hclosed
  unfold completeRead at h
  split at h
  · split at h
    · rw [didReadData, if_pos hclosed, Option.some.injEq] at h
      rw [← h] at hopen
      exact absurd (hopen.symm.trans hclosed) Bool.false_ne_true
    · cases h
  · cases h

/-! ### Sending -/

theorem sendData_header (aes : Data → Data → Data) (random : Nat → UInt8) (requestQuickAck : Bool)
    (data : Data) (h : c.addedControlHeader = true) :
    ∃ a w, sendData aes random requestQuickAck c data =
      { c with outgoingAesCtr := a, written := w } := by
  unfold sendData
  rw [if_pos h]
  cases hcipher : c.outgoingAesCtr with
  | some a => exact ⟨_, _, rfl⟩
  | none => exact ⟨c.outgoingAesCtr, _, by rw [hcipher]⟩

/-- Sending leaves the reader alone. -/
theorem sendDatas_header (aes : Data → Data → Data) (random : Nat → UInt8) (datas : List Data)
    (requestQuickAck : Bool) (h : c.addedControlHeader = true) :
    ∃ a w, sendDatas aes random c datas requestQuickAck =
      { c with outgoingAesCtr := a, written := w } := by
  have hall : ∀ (datas : List Data) (c : Connection), c.addedControlHeader = true →
      ∃ a w, datas.foldl (sendData aes random requestQuickAck) c =
        { c with outgoingAesCtr := a, written := w } := by
    intro datas
    induction datas with
    | nil => exact fun c _ => ⟨_, _, rfl⟩
    | cons data datas ih =>
      intro c h
      obtain ⟨a, w, hone⟩ := sendData_header aes random requestQuickAck data h
      rw [List.foldl_cons, hone]
      exact ih _ h
  unfold sendDatas
  split
  · exact ⟨_, _, rfl⟩
  · exact hall datas c h

theorem step_addedControlHeader (aes : Data → Data → Data) (random : Nat → UInt8) (e : Event)
    (h : c.addedControlHeader = true) :
    (step aes random c e).addedControlHeader = true := by
  cases e with
  | sends datas requestQuickAck =>
    obtain ⟨a, w, hsend⟩ := sendDatas_header aes random datas requestQuickAck h
    rw [step, hsend]
    exact h
  | arrives chunk => exact h
  | reads =>
    rw [step]
    cases hread : completeRead aes c with
    | none => exact h
    | some c' =>
      exact (congrArg Outgoing.addedControlHeader (completeRead_outgoing hread)).trans h

/-- Every run is a run that has all the bytes from the beginning. -/
theorem reads_run (aes : Data → Data → Data) (random : Nat → UInt8) (events : List Event)
    (h : c.addedControlHeader = true) :
    Reads aes (view out (arrivals events ++ later) c)
      (view out later (run (step aes random) c events)) := by
  induction events generalizing c with
  | nil => exact Relation.ReflTransGen.refl
  | cons e events ih =>
    have hrest := ih (step_addedControlHeader aes random e h)
    rw [run_cons]
    cases e with
    | sends datas requestQuickAck =>
      obtain ⟨a, w, hsend⟩ := sendDatas_header aes random datas requestQuickAck h
      have hsame : view out (arrivals events ++ later)
          (step aes random c (.sends datas requestQuickAck)) =
            view out (arrivals events ++ later) c := by
        rw [step, hsend]
        rfl
      rw [hsame] at hrest
      exact hrest
    | arrives chunk =>
      have hsame : view out (arrivals events ++ later) (step aes random c (.arrives chunk)) =
          view out (arrivals (.arrives chunk :: events) ++ later) c := by
        simp [view, step, arrivals]
      rw [hsame] at hrest
      exact hrest
    | reads =>
      cases hread : completeRead aes c with
      | none =>
        have hsame : step aes random c .reads = c := by rw [step, hread]; rfl
        rw [hsame] at hrest ⊢
        exact hrest
      | some c' =>
        have hnext : step aes random c .reads = c' := by rw [step, hread]; rfl
        rw [hnext] at hrest ⊢
        exact Relation.ReflTransGen.head (view_completeRead _ _ hread) hrest

end Reading

section Writing

variable {aes : Data → Data → Data}

/-- The bytes of the packets that were sent. -/
def framed (packets : List (Bool × Data)) : Data :=
  packets.flatMap fun packet => packetData packet.1 packet.2

/-- The header and the packets were written. -/
structure Sent (aes : Data → Data → Data) (header : Data) (a : AesCtr) (c : Connection)
    (packets : List (Bool × Data)) : Prop where
  addedHeader : c.addedControlHeader = true
  cipher : c.outgoingAesCtr = some (encrypt aes a (framed packets)).1
  written : c.written = header ++ (encrypt aes a (framed packets)).2

theorem framed_append (packets more : List (Bool × Data)) :
    framed (packets ++ more) = framed packets ++ framed more :=
  List.flatMap_append

theorem framed_singleton (requestQuickAck : Bool) (data : Data) :
    framed [(requestQuickAck, data)] = packetData requestQuickAck data := by
  simp [framed]

variable {packets : List (Bool × Data)}

theorem sent_sendData {header : Data} {a : AesCtr} {c : Connection} (random : Nat → UInt8)
    (requestQuickAck : Bool) (data : Data) (h : Sent aes header a c packets) :
    Sent aes header a (sendData aes random requestQuickAck c data)
      (packets ++ [(requestQuickAck, data)]) := by
  have hsend : sendData aes random requestQuickAck c data = { c with
      outgoingAesCtr := some (encrypt aes (encrypt aes a (framed packets)).1
        (packetData requestQuickAck data)).1
      written := c.written ++ (encrypt aes (encrypt aes a (framed packets)).1
        (packetData requestQuickAck data)).2 } := by
    unfold sendData
    rw [if_pos h.addedHeader, h.cipher]
  rw [hsend]
  refine ⟨h.addedHeader, ?_, ?_⟩
  · rw [framed_append, framed_singleton, encrypt_append]
  · rw [framed_append, framed_singleton, encrypt_append]
    simp only [h.written, List.append_assoc]

theorem sent_foldl {header : Data} {a : AesCtr} (random : Nat → UInt8) (requestQuickAck : Bool)
    (datas : List Data) :
    ∀ (c : Connection) (packets : List (Bool × Data)), Sent aes header a c packets →
      Sent aes header a (datas.foldl (sendData aes random requestQuickAck) c)
        (packets ++ datas.map fun data => (requestQuickAck, data)) := by
  induction datas with
  | nil =>
    intro c packets h
    simpa using h
  | cons data datas ih =>
    intro c packets h
    have hrest := ih _ _ (sent_sendData random requestQuickAck data h)
    rw [List.append_assoc] at hrest
    exact hrest

/-- The header, of which the first 56 bytes are not encrypted. -/
def controlHeader (aes : Data → Data → Data) (random : Nat → UInt8) : Data :=
  (controlBytes random).take 56 ++
    (encrypt aes (outgoingCipher (controlBytes random)) (controlBytes random)).2.drop 56

/-- The writer's cipher after the header. -/
def cipherAfterHeader (aes : Data → Data → Data) (random : Nat → UInt8) : AesCtr :=
  (encrypt aes (outgoingCipher (controlBytes random)) (controlBytes random)).1

/-- The first packet brings the header with it. -/
theorem sendData_started (aes : Data → Data → Data) (random : Nat → UInt8)
    (requestQuickAck : Bool) (data : Data) :
    sendData aes random requestQuickAck started data = { started with
      addedControlHeader := true
      outgoingAesCtr :=
        some (encrypt aes (cipherAfterHeader aes random) (packetData requestQuickAck data)).1
      incomingAesCtr := some (incomingCipher (controlBytes random))
      written := controlHeader aes random ++
        (encrypt aes (cipherAfterHeader aes random) (packetData requestQuickAck data)).2 } := by
  have hfresh : ¬ started.addedControlHeader = true := Bool.false_ne_true
  unfold sendData controlHeader cipherAfterHeader
  have hempty : started.written = [] := rfl
  rw [if_neg hfresh, hempty]
  dsimp only
  rw [List.nil_append]

theorem sent_started (aes : Data → Data → Data) (random : Nat → UInt8) (requestQuickAck : Bool)
    (data : Data) :
    Sent aes (controlHeader aes random) (cipherAfterHeader aes random)
      (sendData aes random requestQuickAck started data) [(requestQuickAck, data)] := by
  rw [sendData_started]
  refine ⟨rfl, ?_, ?_⟩
  · rw [framed_singleton]
  · rw [framed_singleton]

/-- Everything that was sent while the connection was open. -/
theorem sent_run (random : Nat → UInt8) {header : Data} {a : AesCtr} (events : List Event) :
    ∀ (c : Connection) (packets : List (Bool × Data)), Sent aes header a c packets →
      (run (step aes random) c events).closed = false →
        c.closed = false ∧
          Sent aes header a (run (step aes random) c events) (packets ++ sends events) := by
  induction events with
  | nil =>
    intro c packets h hopen
    exact ⟨hopen, by simpa [sends] using h⟩
  | cons e events ih =>
    intro c packets h hopen
    rw [run_cons] at hopen ⊢
    cases e with
    | sends datas requestQuickAck =>
      by_cases hclosed : c.closed = true
      · have hsame : step aes random c (.sends datas requestQuickAck) = c := by
          rw [step, sendDatas, if_pos hclosed]
        rw [hsame] at hopen
        have hopen' := (ih c packets h hopen).1
        exact absurd (hopen'.symm.trans hclosed) Bool.false_ne_true
      · have hsend : step aes random c (.sends datas requestQuickAck) =
            datas.foldl (sendData aes random requestQuickAck) c := by
          rw [step, sendDatas, if_neg hclosed]
        rw [hsend] at hopen ⊢
        have hrest := ih _ _ (sent_foldl random requestQuickAck datas c packets h) hopen
        rw [List.append_assoc] at hrest
        exact ⟨Bool.not_eq_true _ ▸ hclosed, hrest.2⟩
    | arrives chunk =>
      exact ih (step aes random c (.arrives chunk)) packets
        ⟨h.addedHeader, h.cipher, h.written⟩ hopen
    | reads =>
      cases hread : completeRead aes c with
      | none =>
        have hsame : step aes random c .reads = c := by rw [step, hread]; rfl
        rw [hsame] at hopen ⊢
        exact ih c packets h hopen
      | some c' =>
        have hnext : step aes random c .reads = c' := by rw [step, hread]; rfl
        rw [hnext] at hopen ⊢
        have hout := completeRead_outgoing hread
        have hsent : Sent aes header a c' packets :=
          ⟨(congrArg Outgoing.addedControlHeader hout).trans h.addedHeader,
            (congrArg Outgoing.outgoingAesCtr hout).trans h.cipher,
            (congrArg Outgoing.written hout).trans h.written⟩
        have hrest := ih c' packets hsent hopen
        exact ⟨completeRead_closed hread hrest.1, hrest.2⟩

/-! ### The server's side -/

theorem deframePacket_packetData (h : IsPacket data) (requestQuickAck : Bool) (rest : Data) :
    deframePacket (packetData requestQuickAck data ++ rest) =
      some ((requestQuickAck, data), rest) := by
  have hbounded := h.bounded
  have hlength : 4 * (data.length / 4) = data.length := Nat.mul_div_cancel' <|
    Nat.dvd_of_mod_eq_zero h.quarters
  have hwish : ∀ (marker : UInt8) (q : Nat), q ≤ 0x7f →
      marker.toNat = q + (if requestQuickAck then 0x80 else 0) →
        marker.toNat % 0x80 = q ∧ decide (0x80 ≤ marker) = requestQuickAck := by
    intro marker q hq hmarker
    have hiff : 0x80 ≤ marker ↔ 0x80 ≤ marker.toNat := UInt8.le_iff_toNat_le
    cases requestQuickAck with
    | false =>
      simp only [Bool.false_eq_true, if_false] at hmarker
      exact ⟨by omega, decide_eq_false (by rw [hiff]; omega)⟩
    | true =>
      simp only [if_true] at hmarker
      exact ⟨by omega, decide_eq_true (by rw [hiff]; omega)⟩
  obtain ⟨flag, hflag, hbytes⟩ := packetData_cases h requestQuickAck
  subst hflag
  rcases hbytes with ⟨hshort, hbytes⟩ | ⟨hlong, hbytes⟩
  · obtain ⟨hquarters, hack⟩ := hwish _ (data.length / 4) (by omega)
      (toNat_marker (by omega) requestQuickAck)
    have hne : ¬ data.length / 4 = 0x7f := by omega
    rw [hbytes]
    simp only [List.cons_append, deframePacket, hquarters, hack, hne, if_false, hlength,
      List.length_append, Nat.le_add_right, if_true, List.take_left', List.drop_left']
  · obtain ⟨hquarters, hack⟩ := hwish _ 0x7f (by omega)
      (toNat_marker (q := 0x7f) (by omega) requestQuickAck)
    have htake : (natLE 3 (data.length / 4) ++ (data ++ rest)).take 3 =
        natLE 3 (data.length / 4) :=
      List.take_left' (length_natLE _ _)
    have hdrop : (natLE 3 (data.length / 4) ++ (data ++ rest)).drop 3 = data ++ rest :=
      List.drop_left' (length_natLE _ _)
    rw [hbytes]
    simp only [List.cons_append, List.append_assoc, deframePacket]
    rw [show (0x7f : UInt8) = UInt8.ofNat 0x7f from rfl, hquarters, hack]
    simp only [if_true, htake, hdrop, leNat_quarters (show data.length / 4 < 2 ^ 24 by omega),
      hlength, List.length_append, Nat.le_add_right, List.take_left', List.drop_left']

theorem deframe_framed (hpackets : ∀ packet ∈ packets, IsPacket packet.2) :
    ∀ fuel, (framed packets).length ≤ fuel → deframe fuel (framed packets) = some packets := by
  induction packets with
  | nil =>
    intro fuel _
    cases fuel <;> rfl
  | cons packet packets ih =>
    intro fuel hfuel
    have hpacket := hpackets packet (List.mem_cons_self ..)
    have hframed : framed (packet :: packets) =
        packetData packet.1 packet.2 ++ framed packets := List.flatMap_cons
    have hhead := deframePacket_packetData hpacket packet.1 (framed packets)
    rw [hframed] at hfuel ⊢
    have hpos : 0 < (packetData packet.1 packet.2).length := by
      obtain ⟨flag, _, ⟨_, hbytes⟩ | ⟨_, hbytes⟩⟩ := packetData_cases hpacket packet.1
      · rw [hbytes]; exact Nat.succ_pos _
      · rw [hbytes]; exact Nat.succ_pos _
    rw [List.length_append] at hfuel
    obtain ⟨fuel, rfl⟩ : ∃ n, fuel = n + 1 := ⟨fuel - 1, by omega⟩
    obtain ⟨marker, stream, hstream⟩ :
        ∃ marker stream, packetData packet.1 packet.2 ++ framed packets = marker :: stream := by
      cases hcases : packetData packet.1 packet.2 ++ framed packets with
      | nil => rw [hcases] at hhead; cases hhead
      | cons marker stream => exact ⟨marker, stream, rfl⟩
    have hrest := ih (fun packet hmem => hpackets packet (.tail _ hmem)) fuel
      (by omega)
    rw [hstream] at hhead ⊢
    simp only [deframe, hhead, hrest, Option.map_some]

/-! ### The keys from the header -/

theorem length_controlBytes (random : Nat → UInt8) : (controlBytes random).length = 64 := by
  simp [controlBytes]

theorem length_controlHeader (random : Nat → UInt8) : (controlHeader aes random).length = 64 := by
  simp [controlHeader, length_controlBytes]

/-- The last eight bytes give no key. -/
theorem outgoingCipher_append {xs t : Data} (hxs : xs.length = 56) :
    outgoingCipher (xs ++ t) =
      initWithKey ((xs.drop 8).take 32) ((xs.drop 40).take 16) := by
  unfold outgoingCipher
  rw [List.drop_append_of_le_length (by omega), List.drop_append_of_le_length (by omega),
    List.take_append_of_le_length (by rw [List.length_drop]; omega),
    List.take_append_of_le_length (by rw [List.length_drop]; omega)]

theorem incomingCipher_append {xs t : Data} (ht : t.length = 8) :
    incomingCipher (xs ++ t) =
      initWithKey (xs.reverse.take 32) ((xs.reverse.drop 32).take 16) := by
  have hrev : t.reverse.length = 8 := by rw [List.length_reverse, ht]
  have hiv : (t.reverse ++ xs.reverse).drop 40 = xs.reverse.drop 32 := by
    rw [show 40 = t.reverse.length + 32 by rw [hrev], ← List.drop_drop, List.drop_left]
  unfold incomingCipher outgoingCipher
  rw [List.reverse_append, hiv, List.drop_left' hrev]

theorem outgoingCipher_header (random : Nat → UInt8) :
    outgoingCipher (controlHeader aes random) = outgoingCipher (controlBytes random) := by
  have hlength : ((controlBytes random).take 56).length = 56 := by
    simp [length_controlBytes]
  conv_rhs => rw [← List.take_append_drop 56 (controlBytes random)]
  rw [controlHeader, outgoingCipher_append hlength, outgoingCipher_append hlength]

theorem incomingCipher_header (random : Nat → UInt8) :
    incomingCipher (controlHeader aes random) = incomingCipher (controlBytes random) := by
  conv_rhs => rw [← List.take_append_drop 56 (controlBytes random)]
  rw [controlHeader, incomingCipher_append (by simp [length_controlBytes]),
    incomingCipher_append (by simp [length_controlBytes])]

theorem serverReads_sent {random : Nat → UInt8} {c : Connection}
    (h : Sent aes (controlHeader aes random) (cipherAfterHeader aes random) c packets)
    (hpackets : ∀ packet ∈ packets, IsPacket packet.2) :
    serverReads aes c.written = some packets := by
  have htake : c.written.take 64 = controlHeader aes random := by
    rw [h.written]
    exact List.take_left' (length_controlHeader random)
  have hdrop : c.written.drop 64 =
      (encrypt aes (cipherAfterHeader aes random) (framed packets)).2 := by
    rw [h.written]
    exact List.drop_left' (length_controlHeader random)
  have hposition : (encrypt aes (outgoingCipher (controlHeader aes random))
      (controlHeader aes random)).1 = cipherAfterHeader aes random := by
    rw [outgoingCipher_header]
    exact encrypt_position aes _ ((length_controlHeader random).trans
      (length_controlBytes random).symm)
  have hstream : (encrypt aes (cipherAfterHeader aes random)
      (encrypt aes (cipherAfterHeader aes random) (framed packets)).2).2 = framed packets := by
    rw [encrypt_encrypt]
  unfold serverReads
  rw [htake, hdrop]
  dsimp only
  rw [hposition, hstream]
  exact deframe_framed hpackets _ (Nat.le_refl _)

end Writing

section Framing

variable {aes : Data → Data → Data}

/-- The connection after the first packets. -/
theorem sent_sendDatas (aes : Data → Data → Data) (random : Nat → UInt8) {datas : List Data}
    (hne : datas ≠ []) (requestQuickAck : Bool) :
    ∃ out, sendDatas aes random started datas requestQuickAck =
        view out [] { started with incomingAesCtr := some (incomingCipher (controlBytes random)) } ∧
      Sent aes (controlHeader aes random) (cipherAfterHeader aes random)
        (sendDatas aes random started datas requestQuickAck)
        (datas.map fun data => (requestQuickAck, data)) := by
  have hopen : ¬ started.closed = true := Bool.false_ne_true
  cases datas with
  | nil => exact absurd rfl hne
  | cons data datas =>
    have hsent := sent_foldl random requestQuickAck datas _ _
      (sent_started aes random requestQuickAck data)
    have hfirst := sendData_started aes random requestQuickAck data
    have hheader : (sendData aes random requestQuickAck started data).addedControlHeader =
        true := by rw [hfirst]
    have hstill : ¬ (sendData aes random requestQuickAck started data).closed = true := by
      rw [hfirst]
      exact hopen
    obtain ⟨a, w, hrest⟩ := sendDatas_header aes random datas requestQuickAck hheader
    rw [sendDatas, if_neg hstill] at hrest
    rw [sendDatas, if_neg hopen, List.foldl_cons]
    refine ⟨⟨true, a, w⟩, ?_, hsent⟩
    rw [hrest, hfirst]
    rfl

/-- The reader at the first byte of the stream. -/
theorem atFrame_started (out : Outgoing) {a : AesCtr} (s : Data) :
    AtFrame aes (view out (encrypt aes a s).2 { started with incomingAesCtr := some a }) a s [] :=
  ⟨⟨rfl, rfl, rfl⟩, rfl, rfl, rfl⟩

/-- A run to which the bytes of `s` come ends as one ends that has them from the
beginning. -/
theorem run_unique (random : Nat → UInt8) {datas : List Data} (hne : datas ≠ [])
    (requestQuickAck : Bool) (events : List Event) {s : Data} {closed : Bool}
    {delivered : List Delivery}
    (hreads : ∀ c, AtFrame aes c (incomingCipher (controlBytes random)) s [] →
      ∃ c', Reads aes c c' ∧ completeRead aes c' = none ∧ c'.closed = closed ∧
        c'.delivered = delivered)
    (harrivals : arrivals events = (encrypt aes (incomingCipher (controlBytes random)) s).2)
    (hdone : completeRead aes (run (step aes random)
      (sendDatas aes random started datas requestQuickAck) events) = none) :
    (run (step aes random) (sendDatas aes random started datas requestQuickAck) events).closed =
        closed ∧
      (run (step aes random) (sendDatas aes random started datas requestQuickAck)
        events).delivered = delivered := by
  obtain ⟨out, hview, hsent⟩ := sent_sendDatas aes random hne requestQuickAck
  have hrun := reads_run out [] aes random events hsent.addedHeader
  have hstart : view out (arrivals events ++ [])
      (sendDatas aes random started datas requestQuickAck) =
        view out (encrypt aes (incomingCipher (controlBytes random)) s).2
          { started with incomingAesCtr := some (incomingCipher (controlBytes random)) } := by
    rw [hview, List.append_nil, harrivals]
    rfl
  rw [hstart] at hrun
  obtain ⟨c', hreads, hend, hclosed, hdelivered⟩ := hreads _ (atFrame_started out s)
  have hsame := reads_unique hrun hreads (completeRead_view_none out hdone) hend
  rw [← hclosed, ← hdelivered, ← hsame]
  exact ⟨rfl, rfl⟩

/-- The packets and acknowledgements of the server are delivered, however the stream is
cut; a malformed length closes the connection; the server reads what was sent. -/
theorem abridged_framing (aes : Data → Data → Data) (random : Nat → UInt8) (datas : List Data)
    (hne : datas ≠ []) (requestQuickAck : Bool) (events : List Event) (frames : List ServerFrame)
    (hdatas : ∀ data ∈ datas, IsPacket data)
    (hsends : ∀ packet ∈ sends events, IsPacket packet.2)
    (hframes : ∀ frame ∈ frames, frame.IsValid) :
    let c₀ := sendDatas aes random started datas requestQuickAck
    let serverCipher := incomingCipher (c₀.written.take 64)
    let stream := frames.flatMap ServerFrame.bytes
    let c := run (step aes random) c₀ events
    (c.closed = false → serverReads aes c.written =
      some (datas.map (fun data => (requestQuickAck, data)) ++ sends events)) ∧
    (completeRead aes c = none → arrivals events = (encrypt aes serverCipher stream).2 →
      c.closed = false ∧ c.delivered = frames.map ServerFrame.delivery) ∧
    (∀ bad rest, MalformedLength bad → completeRead aes c = none →
      arrivals events = (encrypt aes serverCipher (stream ++ (bad ++ rest))).2 →
        c.closed = true ∧ c.delivered = frames.map ServerFrame.delivery) := by
  intro c₀ serverCipher stream c
  obtain ⟨_, _, hsent⟩ := sent_sendDatas aes random hne requestQuickAck
  have hcipher : serverCipher = incomingCipher (controlBytes random) := by
    have htake : c₀.written.take 64 = controlHeader aes random := by
      rw [hsent.written]
      exact List.take_left' (length_controlHeader random)
    rw [show serverCipher = incomingCipher (c₀.written.take 64) from rfl, htake,
      incomingCipher_header]
  refine ⟨?_, ?_, ?_⟩
  · intro hopen
    refine serverReads_sent (sent_run random events _ _ hsent hopen).2 ?_
    intro packet hmem
    rcases List.mem_append.1 hmem with hfirst | hlater
    · obtain ⟨data, hdata, rfl⟩ := List.mem_map.1 hfirst
      exact hdatas data hdata
    · exact hsends packet hlater
  · intro hdone harrivals
    rw [hcipher] at harrivals
    refine run_unique random hne requestQuickAck events ?_ harrivals hdone
    intro c₁ hframe
    rw [← List.append_nil stream] at hframe
    obtain ⟨c₂, hreads, hend⟩ := reads_frames hframes hframe
    have hempty : c₂.received = [] := hend.received
    have hnone : completeRead aes c₂ = none := by
      unfold completeRead
      rw [hend.pending, hempty]
      rfl
    exact ⟨c₂, hreads, hnone, hend.isOpen, hend.deliveries⟩
  · intro bad rest hbad hdone harrivals
    rw [hcipher] at harrivals
    refine run_unique random hne requestQuickAck events ?_ harrivals hdone
    intro c₁ hframe
    obtain ⟨c₂, hreads, hend⟩ := reads_frames hframes hframe
    obtain ⟨c₃, hclose, hclosed, hidle, hdelivered⟩ := reads_malformed hbad hend
    have hnone : completeRead aes c₃ = none := by
      unfold completeRead
      rw [hidle]
    exact ⟨c₃, Relation.ReflTransGen.trans hreads hclose, hnone, hclosed, hdelivered⟩

/-- A stream cut in the middle of its first packet. -/
theorem abridged_framing_cut :
    let aes : Data → Data → Data := fun key block => List.zipWith (· ^^^ ·) (key.take 16) block
    let c := run (step aes UInt8.ofNat)
      (sendDatas aes UInt8.ofNat started [[1, 2, 3, 4]] true)
      [.arrives [33, 37, 38], .reads, .reads, .sends [[9, 9, 9, 9]] false,
        .arrives [39, 40, 160, 32, 32, 109], .reads, .reads, .reads]
    c.closed = false ∧ c.delivered = [.receivedData [5, 6, 7, 8], .receivedQuickAck 77] ∧
      serverReads aes c.written = some [(true, [1, 2, 3, 4]), (false, [9, 9, 9, 9])] := by
  intro aes c
  have hframing := abridged_framing aes UInt8.ofNat [[1, 2, 3, 4]] (List.cons_ne_nil _ _) true
    [.arrives [33, 37, 38], .reads, .reads, .sends [[9, 9, 9, 9]] false,
      .arrives [39, 40, 160, 32, 32, 109], .reads, .reads, .reads]
    [.packet [5, 6, 7, 8], .quickAck 77]
    (by
      intro data hmem
      rw [List.mem_singleton.1 hmem]
      exact ⟨by decide, by decide, by decide⟩)
    (by
      intro packet hmem
      rw [show packet = (false, [9, 9, 9, 9]) from List.mem_singleton.1 hmem]
      exact ⟨by decide, by decide, by decide⟩)
    (by
      intro frame hmem
      rcases List.mem_pair.1 hmem with rfl | rfl
      · exact ⟨by decide, by decide, by decide⟩
      · show 77 < 2 ^ 31
        decide)
  have hread := hframing.2.1 (by decide +kernel) (by decide +kernel)
  exact ⟨hread.1, hread.2, hframing.1 hread.1⟩

end Framing

end TelegramPub.Ports.TcpStream
