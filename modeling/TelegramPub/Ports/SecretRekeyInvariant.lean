import TelegramPub.Ports.SecretRekeyChannel

/-!
# What holds between the two clients

A client that has enqueued its commit, or taken one, counts here as one without an exchange
and with the new key, although it stores the key and clears the record later: `newKey`,
`allKeys`, `taken` and `pending` are its state seen that way.

`Joint` is what holds between the clients: the exchanges and the packets on their way agree
(`Verified.KeyExchange.Agree`), the newest keys are the same unless a commit is on its way,
and each side can read what the other sends (`Half`).
-/

namespace TelegramPub.Ports.SecretRekey

open Verified.Bytes Verified.KeyExchange Ports.SecretKeys

/-! ## Seen as a key exchange -/

def Payload.packet : Payload → Option (Packet Data)
  | .requestKey exchangeId gA => some (.request exchangeId gA)
  | .acceptKey exchangeId gB keyFingerprint => some (.accept exchangeId gB keyFingerprint)
  | .commitKey exchangeId keyFingerprint => some (.commit exchangeId keyFingerprint)
  | .abortKey exchangeId => some (.abort exchangeId)
  | .noop => none
  | .ordinary => none

/-- The packets among messages. -/
def packets (l : List Message) : List (Packet Data) := l.filterMap (·.payload.packet)

def EncryptedData.pending (d : EncryptedData) : Pending Data Data :=
  if d.currentRekeyExchangeId = 0 then .idle
  else if d.currentRekeyIsInitiatedByLocalClient then
    .initiator d.currentRekeyExchangeId d.currentRekeyNumber
  else .acceptor d.currentRekeyExchangeId d.currentRekeyKey

theorem pending_initiator {d : EncryptedData} {e : Int} {a : Data}
    (h : d.pending = .initiator e a) :
    d.currentRekeyExchangeId = e ∧ e ≠ 0 ∧ d.currentRekeyIsInitiatedByLocalClient = true ∧
      d.currentRekeyNumber = a := by
  unfold EncryptedData.pending at h
  split at h
  case isTrue => cases h
  case isFalse hne =>
    grind

theorem pending_acceptor {d : EncryptedData} {e : Int} {k : Data} (h : d.pending = .acceptor e k) :
    d.currentRekeyExchangeId = e ∧ e ≠ 0 ∧ d.currentRekeyIsInitiatedByLocalClient = false ∧
      d.currentRekeyKey = k := by
  unfold EncryptedData.pending at h
  split at h
  case isTrue => cases h
  case isFalse hne =>
    grind

theorem pending_id {d : EncryptedData} {e : Int} :
    d.pending.id? = some e ↔ d.currentRekeyExchangeId = e ∧ e ≠ 0 := by
  unfold EncryptedData.pending
  split
  case isTrue hzero =>
    refine ⟨nofun, fun ⟨heq, hne⟩ => absurd (heq ▸ hzero) hne⟩
  case isFalse hne =>
    split <;>
      exact ⟨fun heq => ⟨Option.some_inj.1 heq, Option.some_inj.1 heq ▸ hne⟩,
        fun ⟨heq, _⟩ => congrArg some heq⟩

/-- The record after `markHandshakeAsAborted:`. -/
def EncryptedData.marked (d : EncryptedData) (exchangeId : Int) : EncryptedData :=
  if d.currentRekeyExchangeId = exchangeId then d.cleared else d

theorem pending_marked (d : EncryptedData) (e : Int) :
    (d.marked e).pending = if d.pending.id? = some e then .idle else d.pending := by
  unfold EncryptedData.marked
  split
  case isTrue heq =>
    split
    case isTrue => rfl
    case isFalse hne =>
      have hzero : d.currentRekeyExchangeId = 0 := by
        by_contra h
        exact hne (pending_id.2 ⟨heq, heq ▸ h⟩)
      unfold EncryptedData.pending
      rw [if_pos hzero]
      rfl
  case isFalse hne => rw [if_neg fun h => hne (pending_id.1 h).1]

/-- The key of work that is not finished. -/
def Unfinished.newKey : Unfinished → Option (KeyData Data)
  | .requestKey .. => none
  | .acceptKey _ key keyId seqOut => some { keyId, key, firstSeqOut := seqOut }
  | .commitKey loaded seqOut =>
    some
      { keyId := loaded.currentRekeyKeyId, key := loaded.currentRekeyKey, firstSeqOut := seqOut }

def Client.newKey (c : Client) : Option (KeyData Data) := c.unfinished.bind Unfinished.newKey

def Client.allKeys (c : Client) : List (KeyData Data) := c.keys ++ c.newKey.toList

/-- The number of the peer's messages that have been taken. -/
def Client.taken (c : Client) : Nat := c.handled + c.newKey.toList.length

def Client.pending (c : Client) : Pending Data Data :=
  match c.newKey with
  | none => c.encryptedData.pending
  | some _ => .idle

/-- The packets on their way from `c` to `peer`. -/
def toward (c peer : Client) : List (Packet Data) := packets (c.sent.drop peer.taken)

theorem mem_toward {c peer : Client} {e f : Int} :
    .commit e f ∈ toward c peer ↔
      ∃ i m, peer.taken ≤ i ∧ c.sent[i]? = some m ∧ m.payload = .commitKey e f := by
  unfold toward packets
  rw [List.mem_filterMap]
  constructor
  · rintro ⟨m, hm, hpacket⟩
    obtain ⟨i, hi⟩ := List.getElem?_of_mem hm
    rw [List.getElem?_drop] at hi
    refine ⟨peer.taken + i, m, by omega, hi, ?_⟩
    revert hpacket
    cases m.payload with
    | commitKey e' f' =>
      intro hpacket
      cases hpacket
      rfl
    | _ => exact nofun
  · rintro ⟨i, m, hi, hm, hpayload⟩
    refine ⟨m, List.mem_of_getElem? (i := i - peer.taken) ?_, by rw [hpayload]; rfl⟩
    rw [List.getElem?_drop, ← hm]
    congr 1
    omega

/-- A commit that comes is on its way. -/
theorem commitBefore_length {c peer : Client} {f : Int} :
    CommitBefore c.sent peer.taken c.sent.length f ↔ ∃ e, .commit e f ∈ toward c peer := by
  constructor
  · rintro ⟨i, m, e, htaken, -, hm, hpayload⟩
    exact ⟨e, mem_toward.2 ⟨i, m, htaken, hm, hpayload⟩⟩
  · rintro ⟨e, hcommit⟩
    obtain ⟨i, m, htaken, hm, hpayload⟩ := mem_toward.1 hcommit
    exact ⟨i, m, e, htaken, (List.getElem?_eq_some_iff.1 hm).1, hm, hpayload⟩

/-- The newest key of the other client, or one that comes to it. -/
def Current (c peer : Client) (keyId : Int) : Prop :=
  keyId = (newest peer.allKeys).keyId ∨ CommitBefore c.sent peer.taken c.sent.length keyId

/-- The other client will be able to read what is stored under the key: it is its newest or
comes to it, or it has it and nothing on the way makes it discard the key. -/
def Timely (c peer : Client) (keyId : Int) : Prop :=
  Current c peer keyId ∨
    (keyId ∈ ids peer.allKeys ∧ ∀ j m, peer.processed ≤ j → c.sent[j]? = some m →
      (m.seqIn : Int) ≤ (newest peer.allKeys).firstSeqOut)

instance (c peer : Client) (keyId : Int) : Decidable (Current c peer keyId) :=
  inferInstanceAs (Decidable (_ ∨ _))

instance (c peer : Client) (keyId : Int) : Decidable (Timely c peer keyId) :=
  decidable_of_iff
    (Current c peer keyId ∨ (keyId ∈ ids peer.allKeys ∧ ∀ m ∈ c.sent.drop peer.processed,
      (m.seqIn : Int) ≤ (newest peer.allKeys).firstSeqOut)) <| by
      refine or_congr_right (and_congr_right fun _ => ⟨fun hall j m hj hm => ?_, ?_⟩)
      · refine hall m (List.mem_of_getElem? (i := j - peer.processed) ?_)
        rw [List.getElem?_drop, Nat.add_sub_cancel' hj]
        exact hm
      · intro hall m hm
        obtain ⟨i, hi⟩ := List.getElem?_of_mem hm
        rw [List.getElem?_drop] at hi
        exact hall _ m (Nat.le_add_right ..) hi

/-- A commit comes, or its key is not stored yet. -/
def Client.Switching (c peer : Client) : Prop :=
  (∃ e f, .commit e f ∈ toward peer c) ∨ c.newKey ≠ none

/-- What holds of a client and of what it sends. -/
structure Half (dh : DhConfig) (c peer : Client) : Prop where
  handled_le : c.handled ≤ c.processed
  working : c.unfinished ≠ none → c.handled < c.processed
  processed_le : c.processed ≤ peer.sent.length
  seqIn_le : ∀ m ∈ c.sent, m.seqIn ≤ c.processed
  blocks : c.unfinished ≠ none → c.rekeyBlocks = 0
  loaded : ∀ loaded e gA, c.unfinished = some (.requestKey loaded e gA) →
    loaded = c.encryptedData ∧
      (c.encryptedData.currentRekeyExchangeId = 0 ∨
        (c.encryptedData.currentRekeyIsInitiatedByLocalClient = true ∧
          c.encryptedData.currentRekeyExchangeId ≤ e)) ∧
      ∃ m, peer.sent[c.handled]? = some m ∧ m.payload = .requestKey e gA
  fingerprint : ∀ e k, c.encryptedData.pending = .acceptor e k →
    c.encryptedData.currentRekeyKeyId = dh.exchange.fingerprint k
  nonempty : c.keys ≠ []
  ordered : Ordered c.allKeys c.sent.length
  freshNew : ∀ k, c.newKey = some k → k.keyId ≠ 0 ∧ k.keyId ∉ ids c.keys
  freshComing : ∀ e f, .commit e f ∈ toward peer c → f ≠ 0 ∧ f ∉ ids c.keys
  channel : Channel c.sent peer.processed peer.taken peer.allKeys
  current : ¬ c.Switching peer → Current c peer (newest c.keys).keyId

/-- What holds between the clients. -/
structure Joint (dh : DhConfig) (c peer : Client) : Prop where
  agree : Agree dh.exchange c.pending peer.pending (toward c peer) (toward peer c)
  mine : Half dh c peer
  theirs : Half dh peer c
  same : (∀ e f, .commit e f ∉ toward c peer) → (∀ e f, .commit e f ∉ toward peer c) →
    (newest c.allKeys).keyId = (newest peer.allKeys).keyId ∧
      (newest c.allKeys).key = (newest peer.allKeys).key
  coming : ∀ e f, .commit e f ∈ toward c peer → ∀ e' k, peer.pending = .acceptor e' k →
    (newest c.allKeys).keyId = f ∧ (newest c.allKeys).key = k
  coming' : ∀ e f, .commit e f ∈ toward peer c → ∀ e' k, c.pending = .acceptor e' k →
    (newest peer.allKeys).keyId = f ∧ (newest peer.allKeys).key = k

theorem Joint.symm {dh : DhConfig} {c peer : Client} (h : Joint dh c peer) : Joint dh peer c where
  agree := h.agree.symm
  mine := h.theirs
  theirs := h.mine
  same := fun hpeer hc => by
    obtain ⟨hid, hkey⟩ := h.same hc hpeer
    exact ⟨hid.symm, hkey.symm⟩
  coming := h.coming'
  coming' := h.coming

section Stored

variable {dh : DhConfig} {c peer : Client} {keyId : Int} {payload : Payload}

theorem packets_drop_concat {sent : List Message} {m : Message} {n : Nat} (h : n ≤ sent.length) :
    packets ((sent ++ [m]).drop n) = packets (sent.drop n) ++ m.payload.packet.toList := by
  unfold packets
  rw [List.drop_append_of_le_length h, List.filterMap_append, List.filterMap_cons]
  cases m.payload.packet <;> rfl

/-- A message that can be read is stored. -/
theorem Half.store (h : Half dh c peer) (hkeys : peer.allKeys ≠ []) (htimely : Timely c peer keyId)
    (payload : Payload) : Half dh (c.store keyId payload) peer where
  handled_le := h.handled_le
  working := h.working
  processed_le := h.processed_le
  seqIn_le := by
    intro m hm
    rcases List.mem_append.1 hm with hold | hnew
    · exact h.seqIn_le m hold
    · rw [List.mem_singleton.1 hnew]
      exact Nat.le_refl _
  blocks := h.blocks
  loaded := h.loaded
  fingerprint := h.fingerprint
  nonempty := h.nonempty
  ordered := h.ordered.mono (by
    change (c.sent.length : Int) ≤ (c.sent ++ [_]).length
    rw [List.length_append]
    omega)
  freshNew := h.freshNew
  freshComing := h.freshComing
  channel := h.channel.concat hkeys htimely
  current := by
    refine fun hswitching => (h.current hswitching).imp_right fun hcommit => ?_
    refine (hcommit.concat _).mono ?_
    change c.sent.length ≤ (c.sent ++ [_]).length
    rw [List.length_append]
    omega

/-- The other client, when a message is stored. -/
theorem Half.store_peer (h : Half dh peer c) (htaken : peer.taken ≤ c.sent.length)
    (hfresh : ∀ e f, payload = .commitKey e f → f ≠ 0 ∧ f ∉ ids peer.keys) :
    Half dh peer (c.store keyId payload) := by
  have hlength : c.sent.length ≤ (c.store keyId payload).sent.length := by
    change c.sent.length ≤ (c.sent ++ [_]).length
    rw [List.length_append]
    omega
  have htoward : toward (c.store keyId payload) peer =
      toward c peer ++ payload.packet.toList := packets_drop_concat htaken
  exact
    { h with
      processed_le := Nat.le_trans h.processed_le hlength
      loaded := by
        intro loaded e gA hu
        obtain ⟨hloaded, haccepts, m, hm, hpayload⟩ := h.loaded loaded e gA hu
        refine ⟨hloaded, haccepts, m, ?_, hpayload⟩
        change (c.sent ++ [_])[peer.handled]? = some m
        rw [List.getElem?_append_left (List.getElem?_eq_some_iff.1 hm).1]
        exact hm
      freshComing := by
        intro e f hcommit
        rw [htoward] at hcommit
        rcases List.mem_append.1 hcommit with hold | hnew
        · exact h.freshComing e f hold
        · refine hfresh e f ?_
          cases payload <;> simp [Payload.packet] at hnew ⊢
          exact ⟨hnew.1.symm, hnew.2.symm⟩
      current := by
        refine fun hswitching => h.current fun hold => hswitching ?_
        refine hold.imp_left fun ⟨e, f, hcommit⟩ => ⟨e, f, ?_⟩
        rw [htoward]
        exact List.mem_append_left _ hcommit }

end Stored

/-! ## Work on one action -/

/-- The record is written, a message may have been stored, and the work on the next action is
done. -/
def Client.reply (c : Client) (d : EncryptedData) (payload : Option Payload) : Client :=
  { (match payload with
      | none => c
      | some payload => c.store c.newestKeyId payload) with
    encryptedData := d
    handled := c.handled + 1
    unfinished := none }

section Replied

variable {dh : DhConfig} {c peer : Client} {d : EncryptedData} {m : Message}

theorem newestKeyId_eq (h : c.keys ≠ []) : c.newestKeyId = (newest c.keys).keyId := by
  unfold Client.newestKeyId
  rw [encryptionKeyForConversationId_zero h]
  rfl

theorem allKeys_of_none (h : c.newKey = none) : c.allKeys = c.keys := by
  unfold Client.allKeys
  rw [h]
  exact List.append_nil _

theorem taken_of_none (h : c.newKey = none) : c.taken = c.handled := by
  unfold Client.taken
  rw [h]
  rfl

theorem pending_of_none (h : c.newKey = none) : c.pending = c.encryptedData.pending := by
  unfold Client.pending
  rw [h]

/-- The packets on their way begin with the one of the next message. -/
theorem packets_drop {sent : List Message} {n : Nat} (h : sent[n]? = some m) :
    packets (sent.drop n) = m.payload.packet.toList ++ packets (sent.drop (n + 1)) := by
  obtain ⟨hlt, heq⟩ := List.getElem?_eq_some_iff.1 h
  rw [List.drop_eq_getElem_cons hlt, heq]
  unfold packets
  rw [List.filterMap_cons]
  cases m.payload.packet <;> rfl

/-- `c` without the next action. -/
theorem Half.advance (h : Half dh c peer) (hnew : c.newKey = none)
    (hworking : c.handled < c.processed) (hm : peer.sent[c.handled]? = some m)
    (hcommit : ∀ e f, m.payload.packet ≠ some (.commit e f))
    (hd : ∀ e k, d.pending = .acceptor e k →
      d.currentRekeyKeyId = dh.exchange.fingerprint k) :
    Half dh (c.reply d none) peer := by
  have hcommits : ∀ e f, .commit e f ∈ toward peer (c.reply d none) ↔
      .commit e f ∈ toward peer c := by
    intro e f
    have htaken : (c.reply d none).taken = c.handled + 1 := rfl
    unfold toward
    rw [htaken, taken_of_none hnew, packets_drop hm, List.mem_append]
    refine ⟨.inr, fun hor => hor.resolve_left fun hmem => ?_⟩
    exact hcommit e f (Option.mem_toList.1 hmem)
  exact
    { h with
      handled_le := hworking
      working := fun hu => absurd rfl hu
      blocks := fun hu => absurd rfl hu
      loaded := fun _ _ _ hu => nomatch hu
      fingerprint := hd
      ordered := by
        have hordered := h.ordered
        rw [allKeys_of_none hnew] at hordered
        rw [allKeys_of_none rfl]
        exact hordered
      freshNew := fun _ hk => nomatch hk
      freshComing := fun e f hmem => h.freshComing e f ((hcommits e f).1 hmem)
      current := by
        refine fun hswitching => h.current fun hold => hswitching ?_
        rcases hold with ⟨e, f, hcoming⟩ | hnone
        · exact .inl ⟨e, f, (hcommits e f).2 hcoming⟩
        · exact absurd hnew hnone }

/-- The other client, when `c` is done with the next action. -/
theorem Half.advance_peer (h : Half dh peer c) (hnew : c.newKey = none) (hkeys : c.keys ≠ [])
    (hm : peer.sent[c.handled]? = some m)
    (hcommit : ∀ e f, m.payload.packet ≠ some (.commit e f)) :
    Half dh peer (c.reply d none) := by
  have hnone : ∀ {e f : Int} {m' : Message}, peer.sent[c.handled]? = some m' →
      m'.payload ≠ .commitKey e f := by
    intro e f m' hm' hpayload
    rw [hm] at hm'
    obtain rfl := Option.some_inj.1 hm'
    exact hcommit e f (by rw [hpayload]; rfl)
  have htaken : (c.reply d none).taken = c.handled + 1 := rfl
  have hall : (c.reply d none).allKeys = c.keys := allKeys_of_none rfl
  exact
    { h with
      channel := by
        have hchannel := h.channel
        rw [taken_of_none hnew, allKeys_of_none hnew] at hchannel
        rw [htaken, hall]
        exact hchannel.take hkeys fun m' e f hm' hpayload => absurd hpayload (hnone hm')
      current := by
        have hcurrent := h.current
        unfold Current at hcurrent ⊢
        rw [taken_of_none hnew, allKeys_of_none hnew] at hcurrent
        rw [htaken, hall]
        refine fun hswitching => (hcurrent hswitching).imp_right ?_
        rintro ⟨i, m', e, hi, hplace, hm', hpayload⟩
        have hne : i ≠ c.handled := fun heq => hnone (heq ▸ hm') hpayload
        exact ⟨i, m', e, by omega, hplace, hm', hpayload⟩ }

/-- While no commit comes and no key waits to be stored, the newest key can be used. -/
theorem Half.timely (h : Half dh c peer) (hswitching : ¬ c.Switching peer) :
    Timely c peer c.newestKeyId := by
  rw [newestKeyId_eq h.nonempty]
  exact .inl (h.current hswitching)

theorem Half.taken_le (h : Half dh c peer) : c.taken ≤ c.processed := by
  unfold Client.taken
  cases hnew : c.newKey with
  | none => exact h.handled_le
  | some k =>
    have hu : c.unfinished ≠ none := by
      grind [Client.newKey]
    exact h.working hu

/-- A reply that is neither a commit nor under an old key. -/
theorem Half.reply {payload : Option Payload} (h : Half dh c peer) (hpeer : Half dh peer c)
    (hnew : c.newKey = none) (hworking : c.handled < c.processed)
    (hm : peer.sent[c.handled]? = some m) (hcommit : ∀ e f, m.payload.packet ≠ some (.commit e f))
    (hd : ∀ e k, d.pending = .acceptor e k → d.currentRekeyKeyId = dh.exchange.fingerprint k)
    (hpayload : ∀ p, payload = some p → ¬ c.Switching peer ∧ ∀ e f, p ≠ .commitKey e f) :
    Half dh (c.reply d payload) peer ∧ Half dh peer (c.reply d payload) := by
  cases payload with
  | none =>
    exact ⟨h.advance hnew hworking hm hcommit hd, hpeer.advance_peer hnew h.nonempty hm hcommit⟩
  | some p =>
    obtain ⟨hswitching, hother⟩ := hpayload p rfl
    have hallKeys : peer.allKeys ≠ [] := hpeer.ordered.nonempty
    have htaken : peer.taken ≤ c.sent.length := Nat.le_trans hpeer.taken_le hpeer.processed_le
    have hstored : Half dh (c.store c.newestKeyId p) peer :=
      h.store hallKeys (h.timely hswitching) p
    have hstored' : Half dh peer (c.store c.newestKeyId p) :=
      hpeer.store_peer htaken fun e f heq => absurd heq (hother e f)
    exact ⟨hstored.advance hnew hworking hm hcommit hd,
      hstored'.advance_peer hnew h.nonempty hm hcommit⟩

theorem toward_reply {payload : Option Payload} (htaken : peer.taken ≤ c.sent.length) :
    toward (c.reply d payload) peer = toward c peer ++ (payload.bind Payload.packet).toList := by
  cases payload with
  | none => exact (List.append_nil _).symm
  | some p => exact packets_drop_concat htaken

theorem toward_peer_reply {payload : Option Payload} (hnew : c.newKey = none)
    (hm : peer.sent[c.handled]? = some m) :
    toward peer c = m.payload.packet.toList ++ toward peer (c.reply d payload) := by
  unfold toward
  rw [taken_of_none hnew, packets_drop hm]
  rfl

/-- What a client may answer: nothing to a message that is no packet, or as a party of a key
exchange. -/
def Answers (dh : DhConfig) (c : Client) (received : Payload) (d : EncryptedData)
    (payload : Option Payload) : Prop :=
  (received.packet = none ∧ d.pending = c.encryptedData.pending ∧ payload = none) ∨
    ∃ pk, received.packet = some pk ∧ (payload.bind Payload.packet).isSome = payload.isSome ∧
      Handles dh.exchange c.encryptedData.pending pk d.pending
        (payload.bind Payload.packet).toList

/-- A client that answers to anything but a commit, without a commit. -/
theorem Joint.reply {payload : Option Payload} (h : Joint dh c peer) (hnew : c.newKey = none)
    (hworking : c.handled < c.processed) (hm : peer.sent[c.handled]? = some m)
    (hcommit : ∀ e f, m.payload.packet ≠ some (.commit e f))
    (hpayload : ∀ e f, payload ≠ some (.commitKey e f))
    (hd : ∀ e k, d.pending = .acceptor e k → d.currentRekeyKeyId = dh.exchange.fingerprint k)
    (hanswers : Answers dh c m.payload d payload) : Joint dh (c.reply d payload) peer := by
  have htaken : peer.taken ≤ c.sent.length :=
    Nat.le_trans h.theirs.taken_le h.theirs.processed_le
  have hmine : toward (c.reply d payload) peer =
      toward c peer ++ (payload.bind Payload.packet).toList := toward_reply htaken
  have htheirs : toward peer c = m.payload.packet.toList ++ toward peer (c.reply d payload) :=
    toward_peer_reply hnew hm
  have hpending : c.pending = c.encryptedData.pending := pending_of_none hnew
  have hpending' : (c.reply d payload).pending = d.pending := pending_of_none rfl
  have hall : (c.reply d payload).allKeys = c.allKeys := by
    rw [allKeys_of_none hnew, allKeys_of_none rfl]
    cases payload <;> rfl
  have hagree := h.agree
  rw [hpending] at hagree
  have hbefore : ∀ e f, .commit e f ∈ toward peer c →
      d.pending = c.encryptedData.pending ∧ payload = none := by
    intro e f hcoming
    rcases hanswers with ⟨-, hsame, hnone⟩ | ⟨pk, hpk, hsome, hhandles⟩
    · exact ⟨hsame, hnone⟩
    · rw [htheirs, hpk] at hcoming hagree
      have hrest : .commit e f ∈ toward peer (c.reply d payload) := by
        rcases List.mem_cons.1 hcoming with heq | hrest
        · exact absurd (hpk.trans (congrArg some heq.symm)) (hcommit e f)
        · exact hrest
      obtain ⟨hsame, hnil⟩ := hagree.symm.before_commit hrest hhandles
      refine ⟨hsame, ?_⟩
      cases payload with
      | none => rfl
      | some p =>
        rw [Option.toList_eq_nil_iff.1 hnil] at hsome
        cases hsome
  have hcommits : ∀ e f, .commit e f ∈ toward peer (c.reply d payload) ↔
      .commit e f ∈ toward peer c := by
    intro e f
    rw [htheirs, List.mem_append]
    exact ⟨.inr, fun hor => hor.resolve_left fun hmem => hcommit e f (Option.mem_toList.1 hmem)⟩
  have hcommits' : ∀ e f, .commit e f ∈ toward (c.reply d payload) peer ↔
      .commit e f ∈ toward c peer := by
    intro e f
    rw [hmine, List.mem_append]
    refine ⟨fun hor => hor.resolve_right fun hmem => ?_, .inl⟩
    rw [Option.mem_toList, Option.bind_eq_some_iff] at hmem
    obtain ⟨p, hp, hpacket⟩ := hmem
    cases p <;> simp [Payload.packet] at hpacket
    exact hpayload _ _ hp
  obtain ⟨hhalf, hhalf'⟩ := h.mine.reply h.theirs hnew hworking hm hcommit hd fun p hp =>
    ⟨fun hswitching => by
      rcases hswitching with ⟨e, f, hcoming⟩ | hnone
      · rw [(hbefore e f hcoming).2] at hp
        cases hp
      · exact hnone hnew, fun e f heq => hpayload e f (heq ▸ hp)⟩
  refine
    { agree := ?_
      mine := hhalf
      theirs := hhalf'
      same := ?_
      coming := ?_
      coming' := ?_ }
  · rw [hpending', hmine]
    rcases hanswers with ⟨hnone, hsame, rfl⟩ | ⟨pk, hpk, -, hhandles⟩
    · rw [htheirs, hnone] at hagree
      rw [hsame]
      simpa using hagree
    · rw [htheirs, hpk] at hagree
      exact (hagree.symm.handle hhandles).symm
  · intro hno hno'
    rw [hall]
    exact h.same (fun e f hmem => hno e f ((hcommits' e f).2 hmem))
      fun e f hmem => hno' e f ((hcommits e f).2 hmem)
  · intro e f hmem
    rw [hall]
    exact h.coming e f ((hcommits' e f).1 hmem)
  · intro e f hmem e' k hacceptor
    have hcoming := (hcommits e f).1 hmem
    rw [hpending', (hbefore e f hcoming).1, ← hpending] at hacceptor
    exact h.coming' e f hcoming e' k hacceptor

end Replied

end TelegramPub.Ports.SecretRekey
