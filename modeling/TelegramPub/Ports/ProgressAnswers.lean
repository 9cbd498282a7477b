import TelegramPub.Ports.ProgressTokens

/-!
# Progress tokens and answers

A token is the number behind a word that looks like the constructor of an answer.  If no other
word of the packet looks like it, the token is that of an answer.  The first answer is found if
it has arrived, and only pongs and acknowledgements without ids stand before it
(`progress_tokens`).  A payload that contains the constructor is taken for an answer, and an
acknowledged id puts the walk out of step (`payload_reported`).
-/

namespace TelegramPub.Ports.ProgressTokens

open Verified.Bytes

/-! ## The walk ends -/

/-- A walk that ends, and a property of what it leaves. -/
def Ends {α : Type} (x : Except Stop (α × Data)) (P : Data → Prop) : Prop :=
  x ≠ .error .endless ∧ ∀ value is, x = .ok (value, is) → P is

theorem Ends.bind {α β : Type} {x : Except Stop (α × Data)} {f : α × Data → Except Stop (β × Data)}
    {P Q : Data → Prop} (hx : Ends x P) (hf : ∀ value is, P is → Ends (f (value, is)) Q) :
    Ends (x >>= f) Q := by
  cases x with
  | error e => exact ⟨fun h => hx.1 (by cases h; rfl), fun _ _ h => by cases h⟩
  | ok a => exact hf a.1 a.2 (hx.2 a.1 a.2 rfl)

theorem Ends.imp {α : Type} {x : Except Stop (α × Data)} {P Q : Data → Prop} (hx : Ends x P)
    (h : ∀ is, P is → Q is) : Ends x Q :=
  ⟨hx.1, fun value is hok => h is (hx.2 value is hok)⟩

theorem ends_ok {α : Type} {value : α} {is : Data} {P : Data → Prop} (h : P is) :
    Ends (.ok (value, is)) P := by
  refine ⟨fun h => (by cases h), fun _ _ hok => ?_⟩
  obtain ⟨_, rfl⟩ := Prod.mk.inj (Except.ok.inj hok)
  exact h

theorem readInt32_ends (is : Data) :
    Ends (readInt32 is) fun rest => rest.length + 4 ≤ is.length := by
  refine ⟨by unfold readInt32; split <;> simp, fun _ _ h => ?_⟩
  obtain ⟨hlength, _, rfl⟩ := readInt32_ok h
  rw [List.length_drop]
  omega

theorem readInt64_ends (is : Data) :
    Ends (readInt64 is) fun rest => rest.length + 8 ≤ is.length := by
  refine ⟨by unfold readInt64; split <;> simp, fun _ _ h => ?_⟩
  obtain ⟨hlength, _, rfl⟩ := readInt64_ok h
  rw [List.length_drop]
  omega

theorem skipWords_ends :
    ∀ (count : Nat) (is : Data),
      Ends (do let is ← skipWords count is; .ok (0, is) : Except Stop (Int × Data))
        fun rest => rest.length ≤ is.length := by
  intro count
  induction count with
  | zero => intro is; exact ends_ok (Nat.le_refl _)
  | succ count ih =>
    intro is
    rw [skipWords, bind_assoc]
    exact (readInt32_ends is).bind fun _ rest hrest =>
      (ih rest).imp fun rest' hrest' => by omega

/-- The loop over the messages of a container ends if the walk over each of them does. -/
theorem readMessages_ends {find : Int → Data → Except Stop (Int × Data)} {bound : Nat}
    (hfind : ∀ signature is, is.length < bound →
      Ends (find signature is) fun rest => rest.length ≤ is.length) :
    ∀ (count : Nat) (is : Data), is.length ≤ bound →
      Ends (readMessages find count is) fun rest => rest.length ≤ is.length := by
  intro count
  induction count with
  | zero => intro is _; exact ends_ok (Nat.le_refl _)
  | succ count ih =>
    intro is hbound
    refine (readInt64_ends is).bind fun _ is₁ h₁ => ?_
    refine (readInt32_ends is₁).bind fun _ is₂ h₂ => ?_
    refine (readInt32_ends is₂).bind fun _ is₃ h₃ => ?_
    refine (readInt32_ends is₃).bind fun innerSignature is₄ h₄ => ?_
    refine (hfind innerSignature is₄ (by omega)).bind fun reqMsgId is₅ h₅ => ?_
    dsimp only
    split
    · exact ends_ok (by omega)
    · exact (ih is₅ (by omega)).imp fun rest hrest => by omega

theorem findReqMsgId_ends :
    ∀ (depth : Nat) (signature : Int) (is : Data), is.length < depth →
      Ends (findReqMsgId depth signature is) fun rest => rest.length ≤ is.length := by
  intro depth
  induction depth with
  | zero => intro signature is h; cases h
  | succ depth ih =>
    intro signature is hdepth
    rw [findReqMsgId]
    split
    · refine (readInt32_ends is).bind fun count is₁ h₁ => ?_
      exact (readMessages_ends ih _ is₁ (by omega)).imp fun rest hrest => by omega
    split
    · exact (readInt64_ends is).imp fun rest hrest => by omega
    split
    · refine (readInt32_ends is).bind fun _ is₁ h₁ => ?_
      refine (readInt32_ends is₁).bind fun count is₂ h₂ => ?_
      exact (skipWords_ends _ is₂).imp fun rest hrest => by omega
    split
    · refine (readInt64_ends is).bind fun _ is₁ h₁ => ?_
      refine (readInt64_ends is₁).bind fun _ is₂ h₂ => ?_
      exact ends_ok (by omega)
    · exact ends_ok (Nat.le_refl _)

/-- As many turns as there are bytes are enough. -/
theorem scan_ends (depth : Nat) :
    ∀ (fuel : Nat) (is : Data), is.length ≤ depth → is.length < fuel →
      scan depth fuel is ≠ .error .endless := by
  intro fuel
  induction fuel with
  | zero => intro is _ h; cases h
  | succ fuel ih =>
    intro is hdepth hfuel
    have hread : Ends (readSignature depth is) fun rest => rest.length + 4 ≤ is.length :=
      (readInt32_ends is).bind fun signature is₁ h₁ =>
        (findReqMsgId_ends depth signature is₁ (by omega)).imp fun rest hrest => by omega
    rw [scan]
    cases hresult : readSignature depth is with
    | error e => exact fun h => hread.1 (hresult.trans (by cases h; rfl))
    | ok a =>
      have hrest := hread.2 a.1 a.2 hresult
      show (if a.1 ≠ 0 then .ok a.1 else scan depth fuel a.2) ≠ _
      split
      · exact fun h => by cases h
      · exact ih a.2 (by omega) (by omega)

/-- A container with two acknowledged ids, a message that is not known, and an answer. -/
def nested : Message :=
  .msgContainer (.cons 1 0 (.msgsAck [5, 6]) (.cons 2 1 (.other 9 [1, 2, 3, 4])
    (.cons 3 2 (.rpcResult 7 []) .nil)))

/-- The walk gets lost behind the ids and finds the answer word by word, if it is whole. -/
theorem scan_ends_nested :
    (scan 104 105 nested.encode ≠ .error .endless ∧ scan 104 105 nested.encode = .ok 7) ∧
      scan 103 104 (nested.encode.take 103) ≠ .error .endless ∧
      scan 103 104 (nested.encode.take 103) = .error .failed :=
  ⟨⟨scan_ends 104 105 nested.encode (by decide +kernel) (by decide +kernel), by decide +kernel⟩,
    scan_ends 103 104 _ (by decide +kernel) (by decide +kernel), by decide +kernel⟩

/-! ## Messages in a packet -/

theorem located_split_self {m sub : Message} {offset place : Nat} (h : (place, sub) = (offset, m)) :
    ∃ before after, m.encode = before ++ (sub.encode ++ after) ∧
      place = offset + before.length := by
  obtain ⟨rfl, rfl⟩ := Prod.mk.inj h
  exact ⟨[], [], by rw [List.nil_append, List.append_nil], rfl⟩

mutual
theorem Message.located_split :
    ∀ (m : Message) {offset place : Nat} {sub : Message}, (place, sub) ∈ m.located offset →
      ∃ before after, m.encode = before ++ (sub.encode ++ after) ∧ place = offset + before.length
  | .msgContainer messages, offset, place, sub, h => by
    rw [Message.located, List.mem_cons] at h
    rcases h with h | h
    · exact located_split_self h
    · obtain ⟨before, after, hencode, hplace⟩ := messages.located_split h
      refine ⟨int32Bytes 0x73f1f8dc ++ (int32Bytes messages.count ++ before), after, ?_, ?_⟩
      · rw [Message.encode, hencode, List.append_assoc, List.append_assoc]
      · simp only [hplace, List.length_append, length_int32Bytes]
        omega
  | .msgsAck ids, offset, place, sub, h => by
    rw [Message.located, List.mem_singleton] at h
    exact located_split_self h
  | .pong msgId pingId, offset, place, sub, h => by
    rw [Message.located, List.mem_singleton] at h
    exact located_split_self h
  | .rpcResult reqMsgId result, offset, place, sub, h => by
    rw [Message.located, List.mem_singleton] at h
    exact located_split_self h
  | .other signature payload, offset, place, sub, h => by
    rw [Message.located, List.mem_singleton] at h
    exact located_split_self h

theorem Messages.located_split :
    ∀ (ms : Messages) {offset place : Nat} {sub : Message}, (place, sub) ∈ ms.located offset →
      ∃ before after, ms.encode = before ++ (sub.encode ++ after) ∧ place = offset + before.length
  | .nil, offset, place, sub, h => by cases h
  | .cons msgId seqNo message rest, offset, place, sub, h => by
    rw [Messages.located, List.mem_append] at h
    rcases h with h | h
    · obtain ⟨before, after, hencode, hplace⟩ := message.located_split h
      refine ⟨int64Bytes msgId ++ (int32Bytes seqNo ++ (int32Bytes message.encode.length ++
        before)), after ++ rest.encode, ?_, ?_⟩
      · rw [Messages.encode]
        generalize int32Bytes (message.encode.length : Int) = lengthBytes
        rw [hencode]
        simp only [List.append_assoc]
      · simp only [hplace, List.length_append, length_int32Bytes, length_int64Bytes]
        omega
    · obtain ⟨before, after, hencode, hplace⟩ := rest.located_split h
      refine ⟨int64Bytes msgId ++ (int32Bytes seqNo ++ (int32Bytes message.encode.length ++
        (message.encode ++ before))), after, ?_, ?_⟩
      · rw [Messages.encode, hencode]
        simp only [List.append_assoc]
      · simp only [hplace, List.length_append, length_int32Bytes, length_int64Bytes]
        omega
end

/-- Every word that looks like the constructor of an answer is one. -/
def OnlyAnswers (packet : Message) (is : Data) : Prop :=
  ∀ k, int32OfBytes ((is.drop (4 * k)).take 4) = rpcResult → 4 * k + 4 ≤ is.length →
    ∃ reqMsgId result, (4 * k, Message.rpcResult reqMsgId result) ∈ packet.located 0

/-- What stands where an answer is located is its id. -/
theorem names_answer {packet : Message} {offset length : Nat} {reqMsgId token : Int}
    {result padding : Data}
    (hlocated : (offset, Message.rpcResult reqMsgId result) ∈ packet.located 0)
    (hnames : Names (((packet.encode ++ padding).take length).drop offset) token) :
    token = int64 reqMsgId := by
  obtain ⟨before, after, hencode, hplace⟩ := packet.located_split hlocated
  rw [Nat.zero_add] at hplace
  obtain ⟨hlength, _, htoken⟩ := hnames
  have hdata : ((packet.encode ++ padding).take length).drop offset =
      (int32Bytes 0xf35c6d01 ++ (int64Bytes reqMsgId ++ (result ++ (after ++ padding)))).take
        (length - offset) := by
    rw [List.drop_take, hencode, hplace]
    simp only [Message.encode, List.append_assoc, List.drop_left]
  rw [hdata] at hlength htoken
  have htwelve : 12 ≤ length - offset := by
    rw [List.length_take] at hlength
    omega
  rw [htoken, List.drop_take, List.drop_left' (length_int32Bytes _), List.take_take,
    Nat.min_eq_left (by omega), List.take_left' (length_int64Bytes _),
    int64OfBytes_int64Bytes]

theorem int32_count {n : Nat} (h : n < 2 ^ 31) : (int32 n).toNat = n := by
  rw [int32_of_range (by omega) (by omega), Int.toNat_natCast]

theorem ok_bind {α β : Type} (a : α) (f : α → Except Stop β) : (Except.ok a >>= f) = f a := rfl

theorem readSignature_append (depth : Nat) (signature : Int) (is : Data) :
    readSignature depth (int32Bytes signature ++ is) =
      findReqMsgId depth (int32 signature) is := by
  unfold readSignature
  rw [readInt32_append, ok_bind]

theorem readSignature_container (depth count : Nat) (hcount : count < 2 ^ 31) (is : Data) :
    readSignature (depth + 1) (int32Bytes 0x73f1f8dc ++ (int32Bytes count ++ is)) =
      readMessages (findReqMsgId depth) count is := by
  have hsignature : int32 0x73f1f8dc = msgContainer := rfl
  rw [readSignature_append, findReqMsgId, if_pos hsignature, readInt32_append, ok_bind]
  dsimp only
  rw [int32_count hcount]

theorem readSignature_pong (depth : Nat) (msgId pingId : Int) (is : Data) :
    readSignature (depth + 1) ((Message.pong msgId pingId).encode ++ is) = .ok (0, is) := by
  have hsignature : int32 0x347773c5 = pong := rfl
  rw [Message.encode, List.append_assoc, readSignature_append, findReqMsgId,
    if_neg (by decide), if_neg (by decide), if_neg (by decide), if_pos hsignature,
    List.append_assoc, readInt64_append, ok_bind]
  dsimp only
  rw [readInt64_append, ok_bind]

theorem readSignature_emptyAck (depth : Nat) (is : Data) :
    readSignature (depth + 1) ((Message.msgsAck []).encode ++ is) = .ok (0, is) := by
  have hsignature : int32 0x62d6b459 = msgsAck := rfl
  have hcount : int32Bytes (([] : List Int).length : Int) = int32Bytes ((0 : Nat) : Int) := rfl
  rw [Message.encode, List.append_assoc, readSignature_append, findReqMsgId,
    if_neg (by decide), if_neg (by decide), if_pos hsignature, List.append_assoc,
    readInt32_append, ok_bind]
  dsimp only
  rw [hcount, List.append_assoc, readInt32_append, ok_bind]
  rw [int32_count (by decide), skipWords, ok_bind, List.flatMap_nil, List.nil_append]

theorem readSignature_rpcResult (depth : Nat) (reqMsgId : Int) (is : Data) :
    readSignature (depth + 1) (int32Bytes 0xf35c6d01 ++ (int64Bytes reqMsgId ++ is)) =
      .ok (int64 reqMsgId, is) := by
  have hsignature : int32 0xf35c6d01 = rpcResult := rfl
  rw [readSignature_append, findReqMsgId, if_neg (by decide), if_pos hsignature,
    readInt64_append]

theorem readMessages_cons (depth count : Nat) (msgId seqNo length : Int) (is : Data) :
    readMessages (findReqMsgId depth) (count + 1)
        (int64Bytes msgId ++ (int32Bytes seqNo ++ (int32Bytes length ++ is))) =
      (do
        let (reqMsgId, is) ← readSignature depth is
        if reqMsgId ≠ 0 then .ok (reqMsgId, is)
        else readMessages (findReqMsgId depth) count is) := by
  rw [readMessages, readInt64_append, ok_bind]
  dsimp only
  rw [readInt32_append, ok_bind]
  rw [readInt32_append, ok_bind]
  unfold readSignature
  rw [bind_assoc]

theorem First.shift_eq_none {n : Nat} {first : First} : first.shift n = .none ↔ first = .none := by
  cases first <;> simp [First.shift]

theorem First.shift_eq_answer {n offset : Nat} {reqMsgId : Int} {first : First} :
    first.shift n = .answer offset reqMsgId ↔
      ∃ offset', first = .answer offset' reqMsgId ∧ offset = n + offset' := by
  cases first with
  | none => simp [First.shift]
  | other => simp [First.shift]
  | answer offset' reqMsgId' =>
    constructor
    · intro h
      obtain ⟨rfl, rfl⟩ := First.answer.inj h
      exact ⟨offset', rfl, rfl⟩
    · rintro ⟨offset'', h, rfl⟩
      obtain ⟨rfl, rfl⟩ := First.answer.inj h
      rfl

theorem Messages.count_le : ∀ ms : Messages, ms.count ≤ ms.encode.length
  | .nil => Nat.zero_le _
  | .cons msgId seqNo message rest => by
    have hrest := rest.count_le
    simp only [Messages.count, Messages.encode, List.length_append, length_int64Bytes]
    omega

theorem Messages.length_encode (msgId seqNo : Int) (message : Message) (rest : Messages) :
    (Messages.cons msgId seqNo message rest).encode.length =
      16 + (message.encode.length + rest.encode.length) := by
  rw [Messages.encode]
  simp only [List.length_append, length_int64Bytes, length_int32Bytes]
  omega

theorem Message.length_container (messages : Messages) :
    (Message.msgContainer messages).encode.length = 8 + messages.encode.length := by
  rw [Message.encode]
  simp only [List.length_append, length_int32Bytes]
  omega

mutual
theorem Message.first_length :
    ∀ (m : Message) {skips : List Int → Bool} {offset : Nat} {reqMsgId : Int},
      m.first skips = .answer offset reqMsgId → offset + 12 ≤ m.encode.length
  | .msgsAck ids, skips, offset, reqMsgId, h => by
    rw [Message.first] at h
    split at h <;> cases h
  | .pong msgId pingId, skips, offset, reqMsgId, h => by
    rw [Message.first] at h
    cases h
  | .rpcResult reqMsgId' result, skips, offset, reqMsgId, h => by
    rw [Message.first] at h
    obtain ⟨rfl, rfl⟩ := First.answer.inj h
    rw [Message.encode]
    simp only [List.length_append, length_int64Bytes, length_int32Bytes]
    omega
  | .msgContainer messages, skips, offset, reqMsgId, h => by
    rw [Message.first, First.shift_eq_answer] at h
    obtain ⟨offset', h, rfl⟩ := h
    have hlength := messages.first_length h
    rw [Message.length_container]
    omega
  | .other signature payload, skips, offset, reqMsgId, h => by
    rw [Message.first] at h
    cases h

theorem Messages.first_length :
    ∀ (ms : Messages) {skips : List Int → Bool} {offset : Nat} {reqMsgId : Int},
      ms.first skips = .answer offset reqMsgId → offset + 12 ≤ ms.encode.length
  | .nil, skips, offset, reqMsgId, h => by
    rw [Messages.first] at h
    cases h
  | .cons msgId seqNo message rest, skips, offset, reqMsgId, h => by
    rw [Messages.first] at h
    rw [Messages.length_encode]
    split at h
    · obtain ⟨offset', hrest, rfl⟩ := First.shift_eq_answer.1 h
      have hlength := rest.first_length hrest
      omega
    · obtain ⟨offset', hmessage, rfl⟩ := First.shift_eq_answer.1 h
      have hlength := message.first_length hmessage
      omega
end

/-- The header of a message in a container stays whole. -/
theorem take_header (msgId seqNo length : Int) (n : Nat) (is : Data) :
    (int64Bytes msgId ++ (int32Bytes seqNo ++ (int32Bytes length ++ is))).take (16 + n) =
      int64Bytes msgId ++ (int32Bytes seqNo ++ (int32Bytes length ++ is.take n)) := by
  have h₁ : 16 + n = (int64Bytes msgId).length + (8 + n) := by rw [length_int64Bytes]; omega
  have h₂ : 8 + n = (int32Bytes seqNo).length + (4 + n) := by rw [length_int32Bytes]; omega
  have h₃ : 4 + n = (int32Bytes length).length + n := by rw [length_int32Bytes]
  rw [h₁, List.take_length_add_append, h₂, List.take_length_add_append, h₃,
    List.take_length_add_append]

mutual
/-- Pongs, acknowledgements without ids, and containers of them are passed over. -/
theorem Message.skipped :
    ∀ (m : Message) {depth : Nat} (is : Data), m.first List.isEmpty = .none →
      m.encode.length ≤ depth → m.encode.length < 2 ^ 31 →
      readSignature depth (m.encode ++ is) = .ok (0, is)
  | .msgsAck ids, depth, is, hfirst, hdepth, _ => by
    rw [Message.first] at hfirst
    split at hfirst
    · next hempty =>
        obtain rfl := List.isEmpty_iff.1 hempty
        rw [Message.encode, List.length_append, length_int32Bytes] at hdepth
        obtain ⟨depth, rfl⟩ : ∃ d, depth = d + 1 := ⟨depth - 1, by omega⟩
        exact readSignature_emptyAck depth is
    · cases hfirst
  | .pong msgId pingId, depth, is, _, hdepth, _ => by
    rw [Message.encode, List.length_append, length_int32Bytes] at hdepth
    obtain ⟨depth, rfl⟩ : ∃ d, depth = d + 1 := ⟨depth - 1, by omega⟩
    exact readSignature_pong depth msgId pingId is
  | .rpcResult reqMsgId result, depth, is, hfirst, _, _ => by
    rw [Message.first] at hfirst
    cases hfirst
  | .msgContainer messages, depth, is, hfirst, hdepth, hsize => by
    rw [Message.first, First.shift_eq_none] at hfirst
    rw [Message.length_container] at hdepth hsize
    obtain ⟨depth, rfl⟩ : ∃ d, depth = d + 1 := ⟨depth - 1, by omega⟩
    have hcount := messages.count_le
    rw [Message.encode, List.append_assoc, List.append_assoc,
      readSignature_container depth _ (by omega)]
    exact messages.skipped is hfirst (by omega) (by omega)
  | .other signature payload, depth, is, hfirst, _, _ => by
    rw [Message.first] at hfirst
    cases hfirst

theorem Messages.skipped :
    ∀ (ms : Messages) {depth : Nat} (is : Data), ms.first List.isEmpty = .none →
      ms.encode.length ≤ depth → ms.encode.length < 2 ^ 31 →
      readMessages (findReqMsgId depth) ms.count (ms.encode ++ is) = .ok (0, is)
  | .nil, depth, is, _, _, _ => rfl
  | .cons msgId seqNo message rest, depth, is, hfirst, hdepth, hsize => by
    rw [Messages.first] at hfirst
    rw [Messages.length_encode] at hdepth hsize
    split at hfirst
    · next hmessage =>
        rw [First.shift_eq_none] at hfirst
        rw [Messages.encode, Messages.count]
        simp only [List.append_assoc]
        rw [readMessages_cons, message.skipped _ hmessage (by omega) (by omega), ok_bind]
        exact rest.skipped is hfirst (by omega) (by omega)
    · next hnone =>
        rw [First.shift_eq_none] at hfirst
        exact absurd hfirst hnone
end

mutual
theorem Message.answered :
    ∀ (m : Message) {depth offset : Nat} {reqMsgId : Int} (is : Data),
      m.first List.isEmpty = .answer offset reqMsgId → int64 reqMsgId ≠ 0 →
      offset + 12 ≤ depth → m.encode.length < 2 ^ 31 →
      readSignature depth (m.encode.take (offset + 12) ++ is) = .ok (int64 reqMsgId, is)
  | .msgsAck ids, depth, offset, reqMsgId, is, hfirst, _, _, _ => by
    rw [Message.first] at hfirst
    split at hfirst <;> cases hfirst
  | .pong msgId pingId, depth, offset, reqMsgId, is, hfirst, _, _, _ => by
    rw [Message.first] at hfirst
    cases hfirst
  | .rpcResult reqMsgId' result, depth, offset, reqMsgId, is, hfirst, _, hdepth, _ => by
    rw [Message.first] at hfirst
    obtain ⟨rfl, rfl⟩ := First.answer.inj hfirst
    obtain ⟨depth, rfl⟩ : ∃ d, depth = d + 1 := ⟨depth - 1, by omega⟩
    have htake : (Message.rpcResult reqMsgId' result).encode.take (0 + 12) =
        int32Bytes 0xf35c6d01 ++ int64Bytes reqMsgId' := by
      rw [Message.encode, ← List.append_assoc]
      exact List.take_left' (by rw [List.length_append, length_int32Bytes, length_int64Bytes])
    rw [htake, List.append_assoc]
    exact readSignature_rpcResult depth reqMsgId' is
  | .msgContainer messages, depth, offset, reqMsgId, is, hfirst, hid, hdepth, hsize => by
    rw [Message.first, First.shift_eq_answer] at hfirst
    obtain ⟨offset', hfirst, rfl⟩ := hfirst
    rw [Message.length_container] at hsize
    obtain ⟨depth, rfl⟩ : ∃ d, depth = d + 1 := ⟨depth - 1, by omega⟩
    have hcount := messages.count_le
    have htake : (Message.msgContainer messages).encode.take (8 + offset' + 12) =
        int32Bytes 0x73f1f8dc ++
          (int32Bytes messages.count ++ messages.encode.take (offset' + 12)) := by
      have h₁ : 8 + offset' + 12 = (int32Bytes 0x73f1f8dc).length + (4 + (offset' + 12)) := by
        rw [length_int32Bytes]
        omega
      have h₂ : 4 + (offset' + 12) = (int32Bytes messages.count).length + (offset' + 12) := by
        rw [length_int32Bytes]
      rw [Message.encode, h₁, List.take_length_add_append, h₂, List.take_length_add_append]
    rw [htake, List.append_assoc, List.append_assoc,
      readSignature_container depth _ (by omega)]
    exact messages.answered is hfirst hid (by omega) (by omega)
  | .other signature payload, depth, offset, reqMsgId, is, hfirst, _, _, _ => by
    rw [Message.first] at hfirst
    cases hfirst

theorem Messages.answered :
    ∀ (ms : Messages) {depth offset : Nat} {reqMsgId : Int} (is : Data),
      ms.first List.isEmpty = .answer offset reqMsgId → int64 reqMsgId ≠ 0 →
      offset + 12 ≤ depth → ms.encode.length < 2 ^ 31 →
      readMessages (findReqMsgId depth) ms.count (ms.encode.take (offset + 12) ++ is) =
        .ok (int64 reqMsgId, is)
  | .nil, depth, offset, reqMsgId, is, hfirst, _, _, _ => by
    rw [Messages.first] at hfirst
    cases hfirst
  | .cons msgId seqNo message rest, depth, offset, reqMsgId, is, hfirst, hid, hdepth, hsize => by
    rw [Messages.first] at hfirst
    rw [Messages.length_encode] at hsize
    split at hfirst
    · next hmessage =>
        obtain ⟨offset', hrest, rfl⟩ := First.shift_eq_answer.1 hfirst
        have hsum : 16 + message.encode.length + offset' + 12 =
            16 + (message.encode.length + (offset' + 12)) := by omega
        rw [Messages.encode, Messages.count, hsum, take_header, List.take_length_add_append]
        simp only [List.append_assoc]
        rw [readMessages_cons, message.skipped _ hmessage (by omega) (by omega), ok_bind]
        exact rest.answered is hrest hid (by omega) (by omega)
    · obtain ⟨offset', hmessage, rfl⟩ := First.shift_eq_answer.1 hfirst
      have hsum : 16 + offset' + 12 = 16 + (offset' + 12) := by omega
      rw [Messages.encode, Messages.count, hsum, take_header,
        List.take_append_of_le_length (message.first_length hmessage)]
      simp only [List.append_assoc]
      rw [readMessages_cons, message.answered is hmessage hid (by omega) (by omega), ok_bind]
      dsimp only
      rw [if_pos hid]
end

theorem received_drop {header : Data} (hheader : header.length = 32) (packet : Message)
    (padding : Data) (length : Nat) :
    (received header packet padding length).drop 32 =
      (packet.encode ++ padding).take (length - 32) := by
  rw [received, List.drop_take, List.drop_left' hheader]

theorem decodeProgressToken_eq_some {decryptedData : Data} {token : Int} :
    decodeProgressToken decryptedData = some token ↔
      scan (decryptedData.drop 32).length ((decryptedData.drop 32).length + 1)
        (decryptedData.drop 32) = .ok token := by
  unfold decodeProgressToken
  dsimp only
  generalize scan (decryptedData.drop 32).length ((decryptedData.drop 32).length + 1)
    (decryptedData.drop 32) = found
  cases found <;> simp [Except.toOption]

theorem decodeProgressToken_answered {header : Data} (hheader : header.length = 32)
    {packet : Message} {offset length : Nat} {reqMsgId : Int} (padding : Data)
    (hfirst : packet.first List.isEmpty = .answer offset reqMsgId) (hid : int64 reqMsgId ≠ 0)
    (harrived : 32 + offset + 12 ≤ length) (hsize : packet.encode.length < 2 ^ 31) :
    decodeProgressToken (received header packet padding length) = some (int64 reqMsgId) := by
  rw [decodeProgressToken_eq_some, received_drop hheader]
  have hpacket := packet.first_length hfirst
  have hsplit : (packet.encode ++ padding).take (length - 32) =
      packet.encode.take (offset + 12) ++
        ((packet.encode ++ padding).take (length - 32)).drop (offset + 12) := by
    rw [← List.take_append_of_le_length hpacket,
      ← List.take_append_drop (offset + 12) ((packet.encode ++ padding).take (length - 32)),
      List.take_take, Nat.min_eq_left (by omega), List.drop_left']
    rw [List.length_take, List.length_append]
    omega
  have hlength : offset + 12 ≤ ((packet.encode ++ padding).take (length - 32)).length := by
    rw [List.length_take, List.length_append]
    omega
  rw [scan]
  nth_rewrite 2 [hsplit]
  rw [packet.answered _ hfirst hid hlength hsize, ok_bind]
  exact if_pos hid

/-- A token is what follows a word that looks like the constructor of an answer, and if only
answers look like it, the token is that of an answer.  The first answer is found if it has
arrived, unless its id is zero or something else than pongs and acknowledgements without ids
stands before it. -/
theorem progress_tokens (aesDecrypt : Data → Data → Data) (data header : Data)
    (hkeyId : int64OfBytes (data.take 8) ≠ 0) (hdata : 40 ≤ data.length)
    (hheader : header.length = 32) (packet : Message) (hsize : packet.encode.length < 2 ^ 31)
    (padding : Data) (length : Nat)
    (hdecrypted : aesDecrypt ((data.drop 8).take 16)
        ((data.drop 24).take ((data.length - 24) / 16 * 16)) =
      received header packet padding length) :
    (∀ token, transportDecodeProgressToken aesDecrypt true data = some token →
        token ≠ 0 ∧ ∃ k, Names
          (((received header packet padding length).drop 32).drop (4 * k)) token) ∧
      (OnlyAnswers packet ((received header packet padding length).drop 32) →
        ∀ token, transportDecodeProgressToken aesDecrypt true data = some token →
          IsAnswer packet token) ∧
      ∀ offset reqMsgId, packet.first List.isEmpty = .answer offset reqMsgId →
        int64 reqMsgId ≠ 0 → 32 + offset + 12 ≤ length →
        transportDecodeProgressToken aesDecrypt true data = some (int64 reqMsgId) := by
  have htoken : transportDecodeProgressToken aesDecrypt true data =
      decodeProgressToken (received header packet padding length) := by
    unfold transportDecodeProgressToken
    rw [if_pos ⟨hkeyId, rfl⟩, if_pos (by rw [List.length_take, List.length_drop]; omega),
      hdecrypted]
  rw [htoken]
  have hnames : ∀ token,
      decodeProgressToken (received header packet padding length) = some token →
      token ≠ 0 ∧ ∃ k, Names
        (((received header packet padding length).drop 32).drop (4 * k)) token := by
    intro token h
    obtain ⟨hne, is, ⟨k, rfl⟩, hnames⟩ :=
      scan_names _ _ ⟨0, rfl⟩ (decodeProgressToken_eq_some.1 h)
    exact ⟨hne, k, hnames⟩
  refine ⟨hnames, fun honly token h => ?_, fun offset reqMsgId hfirst hid harrived =>
    decodeProgressToken_answered hheader padding hfirst hid harrived hsize⟩
  obtain ⟨_, k, hname⟩ := hnames token h
  have hlong := hname.1
  rw [List.length_drop] at hlong
  obtain ⟨reqMsgId, result, hlocated⟩ := honly k hname.2.1 (by omega)
  rw [received_drop hheader] at hname
  exact ⟨4 * k, reqMsgId, result, hlocated, names_answer hlocated hname⟩

/-- A pong and an answer. -/
def samplePacket : Message :=
  .msgContainer (.cons 5 1 (.pong 1 2) (.cons 9 3 (.rpcResult 7 [1, 2, 3, 4]) .nil))

/-- The data of a packet, for a cipher that leaves it as it is. -/
def sampleData : Data :=
  int64Bytes 1 ++ (List.replicate 16 0 ++
    received (List.replicate 32 0) samplePacket (List.replicate 4 0) 112)

/-- The token of an answer that is under way. -/
theorem progress_tokens_sample :
    transportDecodeProgressToken (fun _ encrypted => encrypted) true sampleData =
      some (int64 7) :=
  (progress_tokens (fun _ encrypted => encrypted) sampleData (List.replicate 32 0)
    (by decide +kernel) (by decide +kernel) List.length_replicate samplePacket
    (by decide +kernel) (List.replicate 4 0) 112 (by decide +kernel)).2.2 60 7
    (by decide +kernel) (by decide +kernel) (by decide)

/-- An update whose payload contains the constructor of an answer. -/
def updatePacket : Message := .other 0x74ae4240 (int32Bytes 0xf35c6d01 ++ int64Bytes 7)

/-- An acknowledged id before two answers, of which the first one has arrived. -/
def ackPacket : Message :=
  .msgContainer (.cons 5 1 (.msgsAck [1]) (.cons 9 3 (.rpcResult 7 [1, 2, 3, 4])
    (.cons 13 5 (.rpcResult 8 [1, 2, 3, 4]) .nil)))

/-- The payload is reported as an answer, and the answer behind an id is not found. -/
theorem payload_reported :
    ¬ TokenRight updatePacket 48
        (decodeProgressToken (received (List.replicate 32 0) updatePacket [] 48)) ∧
      ¬ TokenRight ackPacket 112
        (decodeProgressToken (received (List.replicate 32 0) ackPacket [] 112)) := by
  constructor
  · intro h
    have htoken : decodeProgressToken (received (List.replicate 32 0) updatePacket [] 48) =
        some 7 := by decide +kernel
    obtain ⟨offset, reqMsgId, result, hlocated, _⟩ := h.sound 7 htoken
    rw [updatePacket, Message.located, List.mem_singleton] at hlocated
    cases (Prod.mk.inj hlocated).2
  · intro h
    have htoken : decodeProgressToken (received (List.replicate 32 0) ackPacket [] 112) =
        none := by decide +kernel
    have hsome := h.complete 60 7 (by decide +kernel) (by decide)
    rw [htoken] at hsome
    cases hsome

end TelegramPub.Ports.ProgressTokens
