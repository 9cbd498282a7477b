import TelegramPub.Ports.SecretRekeyExchanges
import TelegramPub.Ports.SecretRekeySwitch

/-!
# Agreement on keys

Two clients that rekey a secret chat can read what the other sends, and when nothing is on
its way they have the same newest key or the same exchange.  This can fail in three ways.  A
message that another thread stores may be under a key that the peer has discarded by then, or
discards before it.  A layer between those that the program knows has no service messages, so
that an exchange is recorded and nothing is sent.  And two keys may have one fingerprint.

`rekeying_agrees` is about the runs in which none of the three happens.
-/

namespace TelegramPub.Ports.SecretRekey

open Verified.Bytes Verified.Machine Verified.KeyExchange Ports.DhChecks Ports.SecretKeys

/-- The fingerprint of no key of the clients. -/
def FreshKeyId (c peer : Client) (keyId : Int) : Prop :=
  keyId ≠ 0 ∧ keyId ∉ ids c.keys ∧ keyId ∉ ids peer.keys

section Conditions

variable (dh : DhConfig)

/-- `maybeRekeyPeerId:` starts an exchange. -/
def Client.Starts (c : Client) (config : Bool) (a : Data) : Prop :=
  c.rekeyBlocks ≠ 0 ∧ c.encryptedData.keyFingerprint ≠ 0 ∧
    c.encryptedData.currentRekeyExchangeId = 0 ∧ config = true ∧
    checkIsSafeGAOrB (dh.exchange.power a) dh.p = true

/-- The next action of the peer is worked on. -/
def Client.Works (c : Client) : Prop :=
  c.rekeyBlocks = 0 ∧ c.unfinished = none ∧ c.handled < c.processed

/-- An answer to a request or an acceptance is composed, and the fingerprint of a new key
belongs to no other. -/
def OrderlyWork (c peer : Client) (config : Bool) : Payload → Prop
  | .requestKey exchangeId _ =>
    c.encryptedData.currentRekeyIsInitiatedByLocalClient = true →
      exchangeId < c.encryptedData.currentRekeyExchangeId → composes c.peerLayer = true
  | .acceptKey exchangeId gB keyFingerprint =>
    c.encryptedData.currentRekeyExchangeId = exchangeId → config = true →
      composes c.peerLayer = true ∧
        (checkIsSafeGAOrB gB dh.p = true → FreshKeyId c peer keyFingerprint)
  | _ => True

/-- What a step needs: requests and their answers are composed; new keys have new fingerprints;
and what another thread stores is under a key that the peer has when it gets there. -/
def Client.Orderly (c peer : Client) : Action → Prop
  | .rekey config _ a => c.Starts dh config a → composes c.peerLayer = true
  | .enqueue index => ∀ keyId, c.chosen[index]? = some keyId → Timely c peer keyId
  | .work config => c.Works → ∀ m, peer.sent[c.handled]? = some m →
      OrderlyWork dh c peer config m.payload
  | .finish _ _ => ∀ loaded exchangeId gA,
      c.unfinished = some (.requestKey loaded exchangeId gA) → composes c.peerLayer = true
  | _ => True

def Orderly (s : Chat) : Party × Action → Prop
  | (.creator, action) => s.creator.Orderly dh s.participant action
  | (.participant, action) => s.participant.Orderly dh s.creator action

instance (c peer : Client) (keyId : Int) : Decidable (FreshKeyId c peer keyId) :=
  inferInstanceAs (Decidable (_ ∧ _))

instance (c : Client) (config : Bool) (a : Data) : Decidable (c.Starts dh config a) :=
  inferInstanceAs (Decidable (_ ∧ _))

instance (c : Client) : Decidable c.Works :=
  decidable_of_iff (c.rekeyBlocks = 0 ∧ c.unfinished.isNone ∧ c.handled < c.processed) <|
    and_congr_right fun _ => and_congr_left fun _ => Option.isNone_iff_eq_none

instance (c peer : Client) (config : Bool) :
    (payload : Payload) → Decidable (OrderlyWork dh c peer config payload)
  | .requestKey .. => inferInstanceAs (Decidable (_ → _ → _))
  | .acceptKey .. => inferInstanceAs (Decidable (_ → _ → _))
  | .commitKey .. => isTrue trivial
  | .abortKey _ => isTrue trivial
  | .noop => isTrue trivial
  | .ordinary => isTrue trivial

instance (c peer : Client) : (action : Action) → Decidable (c.Orderly dh peer action)
  | .rekey .. => inferInstanceAs (Decidable (_ → _))
  | .enqueue index =>
    inferInstanceAs (Decidable (∀ keyId ∈ c.chosen[index]?, Timely c peer keyId))
  | .work config =>
    inferInstanceAs (Decidable (c.Works → ∀ m ∈ peer.sent[c.handled]?,
      OrderlyWork dh c peer config m.payload))
  | .finish _ _ =>
    match hu : c.unfinished with
    | some (.requestKey loaded exchangeId gA) =>
      decidable_of_iff (composes c.peerLayer = true)
        ⟨fun h _ _ _ _ => h, fun h => h loaded exchangeId gA hu⟩
    | some (.acceptKey ..) => isTrue fun _ _ _ heq => nomatch hu.symm.trans heq
    | some (.commitKey ..) => isTrue fun _ _ _ heq => nomatch hu.symm.trans heq
    | none => isTrue fun _ _ _ heq => nomatch hu.symm.trans heq
  | .outgoingPoll => isTrue trivial
  | .choose => isTrue trivial
  | .receive _ => isTrue trivial
  | .setPeerLayer _ => isTrue trivial

instance (s : Chat) : (event : Party × Action) → Decidable (Orderly dh s event)
  | (.creator, action) => inferInstanceAs (Decidable (s.creator.Orderly dh s.participant action))
  | (.participant, action) =>
    inferInstanceAs (Decidable (s.participant.Orderly dh s.creator action))

end Conditions

variable {dh : DhConfig} {c peer : Client}

/-! ## Work on the next action -/

theorem markHandshakeAsAborted_next (c : Client) (e : Int) :
    (c.markHandshakeAsAborted e).next = c.reply (c.encryptedData.marked e) none := by
  unfold Client.markHandshakeAsAborted EncryptedData.marked
  split <;> rfl

theorem enqueue_next {payload : Payload} (h : composes c.peerLayer = true) :
    (c.enqueue payload).next = c.reply c.encryptedData (some payload) := by
  unfold Client.enqueue
  rw [if_pos h]
  rfl

variable {e keyId : Int}

theorem abortHandshake_next (h : composes c.peerLayer = true) :
    (c.abortHandshake e).next = c.reply (c.encryptedData.marked e) (some (.abortKey e)) := by
  unfold Client.abortHandshake Client.enqueue
  rw [if_pos h, markHandshakeAsAborted_next]
  rfl

theorem Half.fingerprint_marked (h : Half dh c peer) (e : Int) :
    ∀ e' k, (c.encryptedData.marked e).pending = .acceptor e' k →
      (c.encryptedData.marked e).currentRekeyKeyId = dh.exchange.fingerprint k := by
  unfold EncryptedData.marked
  split
  case isTrue => exact fun _ _ hacceptor => nomatch hacceptor
  case isFalse => exact h.fingerprint

theorem newKey_of_unfinished (h : c.unfinished = none) : c.newKey = none := by
  unfold Client.newKey
  rw [h]
  rfl

/-- Work on a request that will be accepted begins. -/
theorem Joint.load {m : Message} {gA : Data} (h : Joint dh c peer) (hu : c.unfinished = none)
    (hblocks : c.rekeyBlocks = 0) (hworking : c.handled < c.processed)
    (hm : peer.sent[c.handled]? = some m) (hpayload : m.payload = .requestKey e gA)
    (haccepts : c.encryptedData.currentRekeyExchangeId = 0 ∨
      (c.encryptedData.currentRekeyIsInitiatedByLocalClient = true ∧
        c.encryptedData.currentRekeyExchangeId ≤ e)) :
    Joint dh { c with unfinished := some (.requestKey c.encryptedData e gA) } peer := by
  obtain ⟨encryptedData, keys, sent, peerLayer, processed, handled, unfinished, rekeyBlocks,
    chosen⟩ := c
  cases hu
  exact
    { h with
      mine :=
        { handled_le := h.mine.handled_le
          working := fun _ => hworking
          processed_le := h.mine.processed_le
          seqIn_le := h.mine.seqIn_le
          blocks := fun _ => hblocks
          loaded := by
            rintro loaded e' gA' heq
            cases heq
            exact ⟨rfl, haccepts, m, hm, hpayload⟩
          fingerprint := h.mine.fingerprint
          nonempty := h.mine.nonempty
          ordered := h.mine.ordered
          freshNew := fun _ hk => nomatch hk
          freshComing := h.mine.freshComing
          channel := h.mine.channel
          current := h.mine.current }
      theirs :=
        { handled_le := h.theirs.handled_le
          working := h.theirs.working
          processed_le := h.theirs.processed_le
          seqIn_le := h.theirs.seqIn_le
          blocks := h.theirs.blocks
          loaded := h.theirs.loaded
          fingerprint := h.theirs.fingerprint
          nonempty := h.theirs.nonempty
          ordered := h.theirs.ordered
          freshNew := h.theirs.freshNew
          freshComing := h.theirs.freshComing
          channel := h.theirs.channel
          current := h.theirs.current }
      coming' := h.coming' }

/-- The packets on their way begin with that of the next message. -/
theorem toward_cons {m : Message} {pk : Packet Data} (hnew : c.newKey = none)
    (hm : peer.sent[c.handled]? = some m) (hpk : m.payload.packet = some pk) :
    toward peer c = pk :: packets (peer.sent.drop (c.handled + 1)) := by
  unfold toward
  rw [taken_of_none hnew, packets_drop hm, hpk]
  rfl

section Working

variable {m : Message}

theorem Joint.answer {d : EncryptedData} {payload : Option Payload} (pk : Packet Data)
    (h : Joint dh c peer) (hnew : c.newKey = none) (hworking : c.handled < c.processed)
    (hm : peer.sent[c.handled]? = some m) (hpk : m.payload.packet = some pk)
    (hcommit : ∀ e f, pk ≠ .commit e f) (hpayload : ∀ e f, payload ≠ some (.commitKey e f))
    (hsome : (payload.bind Payload.packet).isSome = payload.isSome)
    (hd : ∀ e k, d.pending = .acceptor e k → d.currentRekeyKeyId = dh.exchange.fingerprint k)
    (hhandles : Handles dh.exchange c.encryptedData.pending pk d.pending
      (payload.bind Payload.packet).toList) : Joint dh (c.reply d payload) peer := by
  refine h.reply hnew hworking hm (fun e f heq => hcommit e f ?_) hpayload hd
    (.inr ⟨pk, hpk, hsome, hhandles⟩)
  rw [hpk] at heq
  exact Option.some_inj.1 heq

theorem Joint.skip (h : Joint dh c peer) (hnew : c.newKey = none)
    (hworking : c.handled < c.processed) (hm : peer.sent[c.handled]? = some m)
    (hpk : m.payload.packet = none) : Joint dh c.next peer := by
  have hreply : Joint dh (c.reply c.encryptedData none) peer := by
    refine h.reply hnew hworking hm (fun e f heq => ?_) nofun h.mine.fingerprint
      (.inl ⟨hpk, rfl, rfl⟩)
    rw [hpk] at heq
    cases heq
  exact hreply

theorem Joint.work_abortKey {e : Int} (h : Joint dh c peer) (hnew : c.newKey = none)
    (hworking : c.handled < c.processed) (hm : peer.sent[c.handled]? = some m)
    (hpayload : m.payload = .abortKey e) : Joint dh (c.markHandshakeAsAborted e).next peer := by
  rw [markHandshakeAsAborted_next]
  refine h.answer (.abort e) hnew hworking hm ?_ nofun nofun rfl
    (h.mine.fingerprint_marked e) ?_
  · rw [hpayload]
    rfl
  rw [pending_marked]
  split
  case isTrue hid => exact .aborted hid
  case isFalse hid => exact .ignoreAbort hid

variable {config : Bool}

theorem Joint.work_commitKey {e f : Int} (h : Joint dh c peer) (hworks : c.Works)
    (hm : peer.sent[c.handled]? = some m) (hpayload : m.payload = .commitKey e f) :
    Joint dh (c.work dh config (.commitKey e f)) peer := by
  obtain ⟨hblocks, hu, hworking⟩ := hworks
  have hnew : c.newKey = none := newKey_of_unfinished hu
  have hcommit : .commit e f ∈ toward peer c := by
    rw [toward_cons hnew hm (by rw [hpayload]; rfl)]
    exact .head _
  obtain ⟨⟨key, hacceptor, hf⟩, -⟩ := h.agree.symm.of_commit hcommit
  rw [pending_of_none hnew] at hacceptor
  obtain ⟨hid, -, hinitiated, -⟩ := pending_acceptor hacceptor
  have hkeyId := (h.mine.fingerprint e key hacceptor).trans hf
  have hmatches : c.encryptedData.currentRekeyExchangeId = e ∧
      ¬ c.encryptedData.currentRekeyIsInitiatedByLocalClient = true ∧
      c.encryptedData.currentRekeyKeyId = f := ⟨hid, by rw [hinitiated]; nofun, hkeyId⟩
  unfold Client.work
  dsimp only
  rw [if_pos hmatches]
  exact h.install hnew hworking hblocks hm hpayload

theorem Joint.work_acceptKey {e f : Int} {gB : Data} (h : Joint dh c peer) (hworks : c.Works)
    (hm : peer.sent[c.handled]? = some m) (hpayload : m.payload = .acceptKey e gB f)
    (horderly : OrderlyWork dh c peer config (.acceptKey e gB f)) :
    Joint dh (c.work dh config (.acceptKey e gB f)) peer := by
  obtain ⟨hblocks, hu, hworking⟩ := hworks
  have hnew : c.newKey = none := newKey_of_unfinished hu
  have hpk : m.payload.packet = some (.accept e gB f) := by
    rw [hpayload]
    rfl
  have hagree := h.agree.symm
  rw [toward_cons hnew hm hpk] at hagree
  obtain ⟨⟨a, hinitiator, -, hf⟩, -⟩ := hagree.of_accept
  rw [pending_of_none hnew] at hinitiator
  obtain ⟨hid, hne, hinitiated, hnumber⟩ := pending_initiator hinitiator
  unfold Client.work
  dsimp only
  rw [if_pos ⟨hid, hinitiated⟩]
  split
  case isFalse =>
    have hreply : Joint dh (c.reply c.encryptedData none) peer :=
      h.answer _ hnew hworking hm hpk nofun nofun rfl h.mine.fingerprint (.ignoreAccept gB f)
    exact hreply
  case isTrue hconfig =>
    obtain ⟨hcomposes, hfresh⟩ := horderly hid hconfig
    split
    case isTrue hsafe =>
      obtain ⟨hzero, hmine, htheirs⟩ := hfresh hsafe
      rw [hnumber, if_pos hf]
      unfold Client.enqueue
      rw [if_pos hcomposes, hf]
      exact h.commit hnew hworking hblocks hm hpayload hinitiator hf hzero hmine htheirs
    case isFalse =>
      rw [abortHandshake_next hcomposes]
      refine h.answer _ hnew hworking hm hpk nofun nofun rfl (h.mine.fingerprint_marked e) ?_
      rw [pending_marked, if_pos (pending_id.2 ⟨hid, hne⟩), hinitiator]
      exact .abortAccept gB f

theorem Joint.work_requestKey {e : Int} {gA : Data} (h : Joint dh c peer) (hworks : c.Works)
    (hm : peer.sent[c.handled]? = some m) (hpayload : m.payload = .requestKey e gA)
    (horderly : OrderlyWork dh c peer config (.requestKey e gA)) :
    Joint dh (c.work dh config (.requestKey e gA)) peer := by
  obtain ⟨hblocks, hu, hworking⟩ := hworks
  have hnew : c.newKey = none := newKey_of_unfinished hu
  have hpk : m.payload.packet = some (.request e gA) := by
    rw [hpayload]
    rfl
  unfold Client.work
  dsimp only
  by_cases hzero : c.encryptedData.currentRekeyExchangeId = 0
  · rw [if_neg (not_not_intro hzero)]
    exact h.load hu hblocks hworking hm hpayload (.inl hzero)
  · rw [if_pos hzero]
    by_cases hinitiated : c.encryptedData.currentRekeyIsInitiatedByLocalClient = true
    · rw [if_pos hinitiated]
      have hpending : c.encryptedData.pending = .initiator
          c.encryptedData.currentRekeyExchangeId c.encryptedData.currentRekeyNumber := by
        unfold EncryptedData.pending
        rw [if_neg hzero, if_pos hinitiated]
      split
      case isTrue hgt =>
        rw [enqueue_next (horderly hinitiated hgt)]
        refine h.answer _ hnew hworking hm hpk nofun nofun rfl h.mine.fingerprint
          (.refuse gA ?_)
        rw [hpending]
        exact nofun
      case isFalse hle =>
        exact h.load hu hblocks hworking hm hpayload (.inr ⟨hinitiated, by omega⟩)
    · rw [if_neg hinitiated]
      have hpending : c.encryptedData.pending = .acceptor
          c.encryptedData.currentRekeyExchangeId c.encryptedData.currentRekeyKey := by
        unfold EncryptedData.pending
        rw [if_neg hzero, if_neg hinitiated]
      have hreply : Joint dh (c.reply c.encryptedData none) peer := by
        refine h.answer _ hnew hworking hm hpk nofun nofun rfl h.mine.fingerprint ?_
        rw [hpending]
        exact .busy gA
      exact hreply

theorem Joint.work (h : Joint dh c peer) (hworks : c.Works) (hm : peer.sent[c.handled]? = some m)
    (horderly : OrderlyWork dh c peer config m.payload) :
    Joint dh (c.work dh config m.payload) peer := by
  have hnew : c.newKey = none := newKey_of_unfinished hworks.2.1
  cases hpayload : m.payload with
  | ordinary => exact h.skip hnew hworks.2.2 hm (by rw [hpayload]; rfl)
  | requestKey e gA => exact h.work_requestKey hworks hm hpayload (hpayload ▸ horderly)
  | acceptKey e gB f => exact h.work_acceptKey hworks hm hpayload (hpayload ▸ horderly)
  | commitKey e f => exact h.work_commitKey hworks hm hpayload
  | abortKey e => exact h.work_abortKey hnew hworks.2.2 hm hpayload
  | noop => exact h.skip hnew hworks.2.2 hm (by rw [hpayload]; rfl)

end Working

/-! ## The rest of the work -/

/-- The record of an acceptor. -/
def EncryptedData.accepted (d : EncryptedData) (exchangeId : Int) (key : Data) (keyId : Int) :
    EncryptedData :=
  { d with
    currentRekeyExchangeId := exchangeId
    currentRekeyKey := key
    currentRekeyKeyId := keyId
    currentRekeyIsInitiatedByLocalClient := false }

variable {d : EncryptedData}

theorem pending_accepted {key : Data} (hne : e ≠ 0) :
    (d.accepted e key keyId).pending = .acceptor e key := if_neg hne

theorem accepted_keyId {key : Data} :
    (d.accepted e key keyId).currentRekeyKeyId = keyId := rfl

/-- A request is accepted. -/
theorem Joint.accept {m : Message} {gA b : Data} (h : Joint dh c peer) (hnew : c.newKey = none)
    (hworking : c.handled < c.processed) (hm : peer.sent[c.handled]? = some m)
    (hpk : m.payload.packet = some (.request e gA)) (hne : e ≠ 0)
    (hle : ∀ e', c.encryptedData.pending.id? = some e' → e' ≤ e)
    (hnotAcceptor : ∀ e' k, c.encryptedData.pending ≠ .acceptor e' k) :
    Joint dh
      (c.reply
        (c.encryptedData.accepted e (dh.exchange.shared gA b)
          (dh.exchange.fingerprint (dh.exchange.shared gA b)))
        (some (.acceptKey e (dh.exchange.power b)
          (dh.exchange.fingerprint (dh.exchange.shared gA b))))) peer := by
  refine h.answer _ hnew hworking hm hpk nofun nofun rfl (fun e' k hacceptor => ?_) ?_
  · grind [accepted_keyId, pending_accepted]
  · rw [pending_accepted hne]
    exact .accept gA b hle hnotAcceptor

theorem Joint.finish_requestKey {config : Bool} {b : Data} {loaded : EncryptedData} {gA : Data}
    (h : Joint dh c peer) (hu : c.unfinished = some (.requestKey loaded e gA))
    (hcomposes : composes c.peerLayer = true) :
    Joint dh (c.finish dh config b (.requestKey loaded e gA)) peer := by
  have hnew : c.newKey = none := by
    unfold Client.newKey
    rw [hu]
    rfl
  have hworking : c.handled < c.processed := h.mine.working (by rw [hu]; nofun)
  obtain ⟨rfl, haccepts, m, hm, hpayload⟩ := h.mine.loaded loaded e gA hu
  have hpk : m.payload.packet = some (.request e gA) := by
    rw [hpayload]
    rfl
  have hagree := h.agree.symm
  rw [toward_cons hnew hm hpk, pending_of_none hnew] at hagree
  have hnotAcceptor : ∀ e' k, c.encryptedData.pending ≠ .acceptor e' k := by
    intro e' k hacceptor
    obtain ⟨hid, hne, hinitiated, -⟩ := pending_acceptor hacceptor
    rcases haccepts with hzero | ⟨htrue, -⟩
    · exact hne (hid.symm.trans hzero)
    · rw [hinitiated] at htrue
      cases htrue
  have hle : ∀ e', c.encryptedData.pending.id? = some e' → e' ≤ e := by
    intro e' hid
    obtain ⟨heq, hne⟩ := pending_id.1 hid
    rcases haccepts with hzero | ⟨-, hle⟩
    · exact absurd (heq.symm.trans hzero) hne
    · exact heq ▸ hle
  have hne : e ≠ 0 := by
    have hrequester := hagree.of_request hle
    unfold Client.pending at hrequester
    split at hrequester
    · exact (pending_id.1 hrequester).2
    · cases hrequester
  unfold Client.finish
  dsimp only
  split
  case isTrue =>
    split
    case isTrue =>
      unfold Client.enqueue
      rw [if_pos hcomposes]
      exact h.accept hnew hworking hm hpk hne hle hnotAcceptor
    case isFalse =>
      rw [abortHandshake_next hcomposes]
      refine h.answer _ hnew hworking hm hpk nofun nofun rfl (h.mine.fingerprint_marked e) ?_
      rw [pending_marked, if_neg hagree.request_ne]
      exact .refuse gA hnotAcceptor
  case isFalse =>
    rw [enqueue_next hcomposes]
    exact h.answer _ hnew hworking hm hpk nofun nofun rfl h.mine.fingerprint
      (.refuse gA hnotAcceptor)

theorem Joint.finish {config : Bool} {b : Data} {u : Unfinished} (h : Joint dh c peer)
    (hu : c.unfinished = some u)
    (hcomposes : ∀ loaded e gA, u = .requestKey loaded e gA → composes c.peerLayer = true) :
    Joint dh (c.finish dh config b u) peer := by
  have hnew : c.newKey = u.newKey := by
    unfold Client.newKey
    rw [hu]
    rfl
  cases u with
  | requestKey loaded e gA => exact h.finish_requestKey hu (hcomposes loaded e gA rfl)
  | acceptKey loaded key keyId seqOut => exact h.installed hnew
  | commitKey loaded seqOut => exact h.installed hnew

/-! ## Messages are received -/

theorem lt_foldl_max {run : List Message} : ∀ {s n : Int},
    n < run.foldl (fun s m => max s m.seqIn) s → n < s ∨ ∃ m ∈ run, n < m.seqIn := by
  induction run with
  | nil => exact .inl
  | cons m run ih =>
    grind

theorem readable_begins (c : Client) (peerSent : List Message) (count : Nat) :
    c.readable peerSent count <+: peerSent.drop c.processed :=
  (List.take_prefix ..).trans (List.takeWhile_prefix _)

theorem receive_keys (run : List Message) (h : Ordered c.keys c.sent.length) :
    ∃ beforeSeqOut, (c.receive run).keys = discardEncryptionKeys c.keys beforeSeqOut ∧
      ((newest c.keys).firstSeqOut < beforeSeqOut →
        ∃ m ∈ run, (newest c.keys).firstSeqOut < (m.seqIn : Int)) := by
  have hnonneg : 0 ≤ (newest c.keys).firstSeqOut := h.nonneg _ (newest_mem h.nonempty)
  unfold Client.receive
  dsimp only
  split
  case isTrue =>
    refine ⟨_, rfl, fun hlt => ?_⟩
    exact (lt_foldl_max hlt).resolve_left (by omega)
  case isFalse =>
    refine ⟨0, (h.discard_of_le hnonneg).symm, fun hlt => ?_⟩
    omega

theorem discard_subset {keys : List (KeyData Data)} {n : Int} :
    ids (discardEncryptionKeys keys n) ⊆ ids keys := by
  refine List.map_subset _ ?_
  unfold discardEncryptionKeys
  split
  · exact List.filter_subset_self _
  · exact List.Subset.refl _

theorem getElem?_of_begins {run sent : List Message} {n : Nat} (h : run <+: sent.drop n)
    {m : Message} (hm : m ∈ run) : ∃ i, n ≤ i ∧ i < n + run.length ∧ sent[i]? = some m := by
  obtain ⟨j, hj⟩ := List.getElem?_of_mem hm
  obtain ⟨rest, hrest⟩ := h
  have hlt := (List.getElem?_eq_some_iff.1 hj).1
  refine ⟨n + j, by omega, by omega, ?_⟩
  rw [← List.getElem?_drop, ← hrest, List.getElem?_append_left hlt]
  exact hj

theorem Joint.receive (h : Joint dh c peer) (hfree : c.Free) (count : Nat) :
    Joint dh (c.receive (c.readable peer.sent count)) peer := by
  have hbegins := readable_begins c peer.sent count
  generalize c.readable peer.sent count = run at hbegins ⊢
  have hnew : c.newKey = none := newKey_of_unfinished hfree.2
  have hnew' : (c.receive run).newKey = none := newKey_of_unfinished hfree.2
  have hordered : Ordered c.keys c.sent.length := by
    have hordered := h.mine.ordered
    rw [allKeys_of_none hnew] at hordered
    exact hordered
  obtain ⟨n, hkeys, hbefore⟩ := receive_keys run hordered
  have hall : (c.receive run).allKeys = discardEncryptionKeys c.keys n := by
    rw [allKeys_of_none hnew', hkeys]
  have hnewest : newest (c.receive run).allKeys = newest c.allKeys := by
    rw [hall, hordered.newest_discard n, allKeys_of_none hnew]
  have hnewest' : newest (c.receive run).keys = newest c.keys := by
    rw [hkeys, hordered.newest_discard n]
  have htaken : (c.receive run).taken = c.taken := by
    rw [taken_of_none hnew, taken_of_none hnew']
    rfl
  have hpending : (c.receive run).pending = c.pending := by
    rw [pending_of_none hnew, pending_of_none hnew']
    rfl
  have htheirs : toward peer (c.receive run) = toward peer c := by
    unfold toward
    rw [htaken]
  have hlength := hbegins.length_le
  rw [List.length_drop] at hlength
  have hprocessed := h.mine.processed_le
  exact
    { agree := by
        rw [hpending, htheirs]
        exact h.agree
      mine :=
        { handled_le := Nat.le_trans h.mine.handled_le (Nat.le_add_right ..)
          working := fun hu => absurd hfree.2 hu
          processed_le := by
            change c.processed + run.length ≤ peer.sent.length
            omega
          seqIn_le := fun m hm => Nat.le_trans (h.mine.seqIn_le m hm) (Nat.le_add_right ..)
          blocks := h.mine.blocks
          loaded := h.mine.loaded
          fingerprint := h.mine.fingerprint
          nonempty := by
            rw [hkeys]
            exact (hordered.discard n).nonempty
          ordered := by
            rw [hall]
            exact hordered.discard n
          freshNew := by
            rw [hnew']
            exact nofun
          freshComing := by
            rw [htheirs, hkeys]
            intro e f hmem
            obtain ⟨hne, hfresh⟩ := h.mine.freshComing e f hmem
            exact ⟨hne, fun hf => hfresh (discard_subset hf)⟩
          channel := h.mine.channel
          current := by
            have hcurrent := h.mine.current
            unfold Client.Switching at hcurrent ⊢
            rw [hnew] at hcurrent
            rw [htheirs, hnewest', hnew']
            exact hcurrent }
      theirs :=
        { h.theirs with
          channel := by
            have hchannel := h.theirs.channel
            rw [allKeys_of_none hnew] at hchannel
            rw [hall, htaken]
            refine hchannel.receive hordered (Nat.le_add_right ..) fun hlt => ?_
            obtain ⟨m, hm, hlate⟩ := hbefore hlt
            obtain ⟨i, hi, hi', hsent⟩ := getElem?_of_begins hbegins hm
            exact ⟨i, m, hi, hi', hsent, hlate⟩
          current := by
            unfold Current
            rw [hnewest, htaken]
            exact h.theirs.current }
      same := by
        rw [hnewest, htheirs]
        exact h.same
      coming := by
        rw [hnewest]
        exact h.coming
      coming' := by
        rw [htheirs, hpending]
        exact h.coming' }

/-- The invariant is about the record, the keys and the messages. -/
theorem Joint.of_same {layer blocks : Nat} {chosen : List Int} (h : Joint dh c peer)
    (hblocks : c.unfinished ≠ none → blocks = 0) :
    Joint dh { c with peerLayer := layer, rekeyBlocks := blocks, chosen := chosen } peer where
  agree := h.agree
  mine := { h.mine with blocks := hblocks }
  theirs := { h.theirs with }
  same := h.same
  coming := h.coming
  coming' := h.coming'

/-- The packets on their way to the other client, with one more. -/
theorem toward_store {payload : Payload} (h : Joint dh c peer) :
    toward (c.store keyId payload) peer = toward c peer ++ payload.packet.toList :=
  packets_drop_concat (Nat.le_trans h.theirs.taken_le h.theirs.processed_le)

theorem Joint.enqueue {index : Nat} (h : Joint dh c peer) (htimely : Timely c peer keyId) :
    Joint dh ({ c with chosen := c.chosen.eraseIdx index }.store keyId .ordinary) peer := by
  have hchosen : Joint dh { c with chosen := c.chosen.eraseIdx index } peer :=
    h.of_same h.mine.blocks
  exact hchosen.store htimely rfl

theorem not_abort_mem {c' : Client} (h : ∀ m ∈ c'.sent, m.payload.exchangeId ≠ e) :
    .abort e ∉ toward c' c := by
  intro hmem
  obtain ⟨m, hm, hpacket⟩ := List.mem_filterMap.1 hmem
  refine h m (List.mem_of_mem_drop hm) ?_
  revert hpacket
  cases m.payload with
  | abortKey e' =>
    intro hpacket
    cases hpacket
    rfl
  | _ => exact nofun

/-- The record of an initiator. -/
def EncryptedData.started (d : EncryptedData) (exchangeId : Int) (a : Data) : EncryptedData :=
  { d with
    currentRekeyExchangeId := exchangeId
    currentRekeyIsInitiatedByLocalClient := true
    currentRekeyNumber := a }

theorem pending_started {a : Data} (hne : e ≠ 0) :
    (d.started e a).pending = .initiator e a := if_neg hne

/-- An exchange is started. -/
theorem Joint.start (a : Data) (h : Joint dh c peer) (hu : c.unfinished = none)
    (hidle : c.encryptedData.currentRekeyExchangeId = 0) (hfresh : Fresh c peer e) :
    Joint dh { c.store c.newestKeyId (.requestKey e (dh.exchange.power a)) with
      encryptedData := c.encryptedData.started e a } peer := by
  obtain ⟨hne, hother, hmessages⟩ := hfresh
  let stored : Client := c.store c.newestKeyId (.requestKey e (dh.exchange.power a))
  let started : Client := { stored with encryptedData := c.encryptedData.started e a }
  change Joint dh started peer
  have hnew : c.newKey = none := newKey_of_unfinished hu
  have hpending : c.pending = .idle := by
    rw [pending_of_none hnew]
    exact if_pos hidle
  have hnew' : started.newKey = none := newKey_of_unfinished hu
  have hpending' : started.pending = .initiator e a := by
    rw [pending_of_none hnew']
    exact pending_started hne
  have hmine : toward started peer = toward c peer ++ [Packet.request e (dh.exchange.power a)] :=
    toward_store h
  have hnone : ∀ e' f', .commit e' f' ∉ toward peer c := by
    intro e' f' hmem
    obtain ⟨⟨key, hacceptor, -⟩, -⟩ := h.agree.symm.of_commit hmem
    rw [hpending] at hacceptor
    cases hacceptor
  have hcommits : ∀ {e' f'}, .commit e' f' ∈ toward started peer →
      .commit e' f' ∈ toward c peer := by
    intro e' f' hmem
    rw [hmine] at hmem
    refine (List.mem_append.1 hmem).resolve_right fun hlast => ?_
    exact nomatch List.mem_singleton.1 hlast
  have hswitching : ¬ c.Switching peer := by
    rintro (⟨e', f', hmem⟩ | hsome)
    · exact hnone e' f' hmem
    · exact hsome hnew
  have hpeer : peer.pending.id? ≠ some e := by
    unfold Client.pending
    split
    case h_1 => exact fun hid => hother (pending_id.1 hid).1.symm
    case h_2 => exact nofun
  have hstored : Half dh stored peer :=
    h.mine.store h.theirs.ordered.nonempty (h.mine.timely hswitching) _
  have hstored' : Half dh peer stored :=
    h.theirs.store_peer (Nat.le_trans h.theirs.taken_le h.theirs.processed_le) nofun
  exact
    { agree := by
        rw [hpending', hmine]
        have hagree := h.agree.symm
        rw [hpending] at hagree
        exact (hagree.start a hpeer
          (not_abort_mem fun m hm => hmessages m (List.mem_append_right _ hm))
          (not_abort_mem fun m hm => hmessages m (List.mem_append_left _ hm))).symm
      mine :=
        { hstored with
          loaded := fun _ _ _ heq => nomatch hu.symm.trans heq
          fingerprint := by
            rw [pending_started hne]
            exact nofun }
      theirs := { hstored' with }
      same := fun hno hno' => h.same
        (fun e' f' hmem => hno e' f' (by rw [hmine]; exact List.mem_append_left _ hmem)) hno'
      coming := fun e' f' hmem => h.coming e' f' (hcommits hmem)
      coming' := fun e' f' hmem => absurd hmem (hnone e' f') }

theorem Joint.rekey {config : Bool} {a : Data} (h : Joint dh c peer) (hblocks : c.rekeyBlocks ≠ 0)
    (hfresh : Fresh c peer e) (horderly : c.Starts dh config a → composes c.peerLayer = true) :
    Joint dh ({ c with rekeyBlocks := c.rekeyBlocks - 1 }.maybeRekey dh config e a) peer := by
  have hu : c.unfinished = none := by
    by_contra hne
    exact hblocks (h.mine.blocks hne)
  have hless : Joint dh { c with rekeyBlocks := c.rekeyBlocks - 1 } peer :=
    h.of_same fun hne => absurd hu hne
  unfold Client.maybeRekey
  split
  case isFalse => exact hless
  case isTrue hidle =>
    split
    case isFalse => exact hless
    case isTrue hsafe =>
      have hcomposes := horderly ⟨hblocks, hidle.1, hidle.2.1, hidle.2.2, hsafe⟩
      unfold Client.enqueue
      rw [if_pos hcomposes]
      exact hless.start a hu hidle.2.1 hfresh

/-- A step of one client keeps the invariant. -/
theorem Joint.step {action : Action} (h : Joint dh c peer) (hnew : c.NewExchange peer action)
    (horderly : c.Orderly dh peer action) : Joint dh (c.step dh peer.sent action) peer := by
  unfold Client.step
  cases action with
  | outgoingPoll =>
    dsimp only
    split
    case isTrue hfree => exact h.of_same fun hne => absurd hfree.2 hne
    case isFalse => exact h
  | rekey config e a =>
    dsimp only
    split
    case isTrue => exact h
    case isFalse hblocks => exact h.rekey hblocks hnew horderly
  | choose => exact h.of_same h.mine.blocks
  | enqueue index =>
    dsimp only
    split
    case h_1 => exact h
    case h_2 keyId hchosen => exact h.enqueue (horderly keyId hchosen)
  | receive count =>
    dsimp only
    split
    case isTrue hfree => exact h.receive hfree count
    case isFalse => exact h
  | work config =>
    dsimp only
    split
    case isFalse => exact h
    case isTrue hworks =>
      split
      case h_1 => exact h
      case h_2 m hm => exact h.work hworks hm (horderly hworks m hm)
  | finish config b =>
    dsimp only
    split
    case h_1 => exact h
    case h_2 u hu =>
      refine h.finish hu fun loaded e gA heq => ?_
      rw [heq] at hu
      exact horderly loaded e gA hu
  | setPeerLayer layer => exact h.of_same h.mine.blocks

def Chat.Joint (dh : DhConfig) (s : Chat) : Prop :=
  SecretRekey.Joint dh s.creator s.participant

theorem Chat.Joint.step {s : Chat} {event : Party × Action} (h : s.Joint dh)
    (hnew : NewExchange s event) (horderly : Orderly dh s event) : (s.step dh event).Joint dh := by
  obtain ⟨party, action⟩ := event
  cases party with
  | creator => exact SecretRekey.Joint.step h hnew horderly
  | participant => exact (SecretRekey.Joint.step h.symm hnew horderly).symm

theorem half_initial (keyId : Int) (key : Data) (layer peerLayer : Nat) :
    Half dh (Client.initial keyId key layer) (Client.initial keyId key peerLayer) where
  handled_le := Nat.le_refl _
  working := fun hne => absurd rfl hne
  processed_le := Nat.le_refl _
  seqIn_le := nofun
  blocks := fun hne => absurd rfl hne
  loaded := nofun
  fingerprint := nofun
  nonempty := nofun
  ordered :=
    { nonempty := nofun
      sorted := List.pairwise_singleton _ _
      nonneg := fun k hk => by rw [List.mem_singleton.1 hk]
      le := fun k hk => by rw [List.mem_singleton.1 hk]; exact Int.le_refl _ }
  freshNew := nofun
  freshComing := nofun
  channel := ⟨nofun, nofun⟩
  current := fun _ => .inl rfl

theorem joint_initial (keyId : Int) (key : Data) (creatorLayer participantLayer : Nat) :
    (Chat.initial keyId key creatorLayer participantLayer).Joint dh where
  agree := .inl .idle
  mine := half_initial ..
  theirs := half_initial ..
  same := fun _ _ => ⟨rfl, rfl⟩
  coming := nofun
  coming' := nofun

/-! ## What the clients can rely on -/

/-- The client has the key of the next message. -/
def HoldsNextKey (c peer : Client) : Prop :=
  c.Free → ∀ m, peer.sent[c.processed]? = some m → m.keyId ∈ ids c.keys

/-- Everything that was sent has been worked on. -/
def Quiet (c peer : Client) : Prop :=
  c.Free ∧ peer.Free ∧ c.processed = peer.sent.length ∧ peer.processed = c.sent.length

/-- Neither client has an exchange and their newest keys are the same, or both have the same
exchange and one of them is the initiator. -/
def Settled (c peer : Client) : Prop :=
  (c.encryptedData.currentRekeyExchangeId = 0 ∧ peer.encryptedData.currentRekeyExchangeId = 0 ∧
    (newest c.keys).keyId = (newest peer.keys).keyId ∧
      (newest c.keys).key = (newest peer.keys).key) ∨
  (c.encryptedData.currentRekeyExchangeId ≠ 0 ∧
    c.encryptedData.currentRekeyExchangeId = peer.encryptedData.currentRekeyExchangeId ∧
      c.encryptedData.currentRekeyIsInitiatedByLocalClient ≠
        peer.encryptedData.currentRekeyIsInitiatedByLocalClient)

instance (c peer : Client) : Decidable (Quiet c peer) := inferInstanceAs (Decidable (_ ∧ _))

instance (c peer : Client) : Decidable (Settled c peer) := inferInstanceAs (Decidable (_ ∨ _))

theorem Joint.holdsNextKey (h : Joint dh c peer) : HoldsNextKey c peer := by
  intro hfree m hm
  have hnew : c.newKey = none := newKey_of_unfinished hfree.2
  have hheld := h.theirs.channel.held c.processed m (Nat.le_refl _) hm
  rw [allKeys_of_none hnew, taken_of_none hnew, hfree.1] at hheld
  refine hheld.resolve_right ?_
  rintro ⟨i, -, -, hi, hlt, -⟩
  omega

theorem toward_quiet (hfree : peer.Free) (h : peer.processed = c.sent.length) :
    toward c peer = [] := by
  unfold toward
  rw [taken_of_none (newKey_of_unfinished hfree.2), hfree.1, h, List.drop_length]
  rfl

theorem pending_idle (h : d.pending = .idle) :
    d.currentRekeyExchangeId = 0 := by
  unfold EncryptedData.pending at h
  split at h
  case isTrue hzero => exact hzero
  case isFalse =>
    grind

theorem Joint.settled (h : Joint dh c peer) (hquiet : Quiet c peer) : Settled c peer := by
  obtain ⟨hfree, hfree', hprocessed, hprocessed'⟩ := hquiet
  have hnew : c.newKey = none := newKey_of_unfinished hfree.2
  have hnew' : peer.newKey = none := newKey_of_unfinished hfree'.2
  have hmine : toward c peer = [] := toward_quiet hfree' hprocessed'
  have htheirs : toward peer c = [] := toward_quiet hfree hprocessed
  have hagree := h.agree
  have hsame := h.same
  rw [hmine, htheirs, pending_of_none hnew, pending_of_none hnew'] at hagree
  rw [hmine, htheirs, allKeys_of_none hnew, allKeys_of_none hnew'] at hsame
  have hone : ∀ {d d' : EncryptedData} {e : Int} {a k : Data}, d.pending = .initiator e a →
      d'.pending = .acceptor e k → d.currentRekeyExchangeId ≠ 0 ∧
        d.currentRekeyExchangeId = d'.currentRekeyExchangeId ∧
          d.currentRekeyIsInitiatedByLocalClient ≠ d'.currentRekeyIsInitiatedByLocalClient := by
    intro d d' e a k hinitiator hacceptor
    obtain ⟨hid, hne, hinitiated, -⟩ := pending_initiator hinitiator
    obtain ⟨hid', -, hinitiated', -⟩ := pending_acceptor hacceptor
    rw [hid, hid', hinitiated, hinitiated']
    exact ⟨hne, rfl, nofun⟩
  rcases hagree.of_nil with ⟨hidle, hidle'⟩ | ⟨e, a, k, ⟨hinitiator, hacceptor⟩ |
    ⟨hinitiator, hacceptor⟩⟩
  · exact .inl ⟨pending_idle hidle, pending_idle hidle', hsame nofun nofun⟩
  · exact .inr (hone hinitiator hacceptor)
  · obtain ⟨hne, hid, hinitiated⟩ := hone hinitiator hacceptor
    exact .inr ⟨hid ▸ hne, hid.symm, hinitiated.symm⟩

/-- The clients can read each other, and agree when nothing is on its way. -/
structure Agreed (s : Chat) : Prop where
  creator : HoldsNextKey s.creator s.participant
  participant : HoldsNextKey s.participant s.creator
  settled : Quiet s.creator s.participant → Settled s.creator s.participant

theorem Chat.Joint.agreed {s : Chat} (h : s.Joint dh) : Agreed s where
  creator := SecretRekey.Joint.holdsNextKey h
  participant := h.symm.holdsNextKey
  settled := SecretRekey.Joint.settled h

/-- What the clients know of exchanges when the chat is created. -/
theorem known_initial (keyId : Int) (key : Data) (layer : Nat) :
    (Client.initial keyId key layer).Known [0] :=
  ⟨List.mem_singleton.2 rfl, nofun, nofun⟩

/-- In every orderly run, with distinct exchange ids that are not 0, the clients can read each
other, and agree whenever nothing is on its way. -/
theorem rekeying_agrees (dh : DhConfig) (keyId : Int) (key : Data)
    (creatorLayer participantLayer : Nat) (events : List (Party × Action))
    (hids : (0 :: exchangeIds events).Nodup)
    (h : Guarded (Chat.step dh) (Orderly dh)
      (Chat.initial keyId key creatorLayer participantLayer) events) :
    Agreed (run (Chat.step dh) (Chat.initial keyId key creatorLayer participantLayer) events) := by
  have hnew := guarded_newExchange dh events [0]
    (Chat.initial keyId key creatorLayer participantLayer) (List.mem_singleton.2 rfl)
    (known_initial ..) (known_initial ..) hids
  have hstep : ∀ (s : Chat) (event : Party × Action),
      NewExchange s event ∧ Orderly dh s event → s.Joint dh → (s.step dh event).Joint dh :=
    fun _ _ hevent hs => hs.step hevent.1 hevent.2
  exact (guarded_invariant hstep events _ (hnew.and h) (joint_initial ..)).agreed

/-- A small group, with the key as its own hash. -/
def smallGroup : DhConfig := { g := [5], p := [23], sha1 := fun d => d }

/-- The creator asks for a key, the participant accepts, and the creator commits. -/
def committed : List (Party × Action) :=
  [(.creator, .outgoingPoll), (.creator, .rekey true 1 [2]), (.participant, .receive 1),
    (.participant, .work true), (.participant, .finish true [3]), (.creator, .receive 1),
    (.creator, .work true), (.creator, .finish true [])]

/-- The participant takes the commit, and all is worked on. -/
def rekeyed : List (Party × Action) :=
  committed ++ ([(.participant, .receive 1), (.participant, .work true),
    (.participant, .finish true []), (.participant, .receive 1), (.participant, .work true),
    (.creator, .receive 1), (.creator, .work true)] : List (Party × Action))

/-- A rekeying, and a message. -/
theorem one_rekeying :
    Agreed (run (Chat.step smallGroup) (Chat.initial 7 [] 46 46)
      (rekeyed ++ [(.participant, .choose), (.participant, .enqueue 0)])) :=
  rekeying_agrees smallGroup 7 [] 46 46 _ (by decide) (by decide +kernel)

/-- A message under a key that was the newest before the rekeying. -/
def staleRun : List (Party × Action) :=
  (Party.participant, Action.choose) :: rekeyed ++ [(Party.participant, Action.enqueue 0)]

/-- Two messages after the commit has been counted and before its key is stored. -/
def windowRun : List (Party × Action) :=
  committed ++ ([(.participant, .receive 1), (.participant, .choose), (.participant, .enqueue 0),
    (.participant, .choose), (.participant, .enqueue 0), (.creator, .receive 1),
    (.creator, .work true)] : List (Party × Action))

/-- A rekeying with a peer of layer 45. -/
def silentRun : List (Party × Action) :=
  [(.creator, .outgoingPoll), (.creator, .rekey true 1 [2])]

/-- A client without the key of the next message, in two runs; and an exchange of one client
alone while nothing is on its way. -/
theorem rekeying_disturbed :
    ((0 :: exchangeIds staleRun).Nodup ∧
      ¬ HoldsNextKey (run (Chat.step smallGroup) (Chat.initial 7 [] 46 46) staleRun).creator
        (run (Chat.step smallGroup) (Chat.initial 7 [] 46 46) staleRun).participant) ∧
    ((0 :: exchangeIds windowRun).Nodup ∧
      ¬ HoldsNextKey (run (Chat.step smallGroup) (Chat.initial 7 [] 46 46) windowRun).creator
        (run (Chat.step smallGroup) (Chat.initial 7 [] 46 46) windowRun).participant) ∧
    ((0 :: exchangeIds silentRun).Nodup ∧
      Quiet (run (Chat.step smallGroup) (Chat.initial 7 [] 45 46) silentRun).creator
        (run (Chat.step smallGroup) (Chat.initial 7 [] 45 46) silentRun).participant ∧
      ¬ Settled (run (Chat.step smallGroup) (Chat.initial 7 [] 45 46) silentRun).creator
        (run (Chat.step smallGroup) (Chat.initial 7 [] 45 46) silentRun).participant) := by
  refine ⟨⟨by decide, fun h => ?_⟩, ⟨by decide, fun h => ?_⟩, by decide, ?_, ?_⟩
  · have hmem := h (by decide +kernel) { keyId := 7, seqIn := 3, payload := .ordinary }
      (by decide +kernel)
    exact absurd hmem (by decide +kernel)
  · have hmem := h (by decide +kernel) { keyId := 7, seqIn := 2, payload := .ordinary }
      (by decide +kernel)
    exact absurd hmem (by decide +kernel)
  · decide +kernel
  · decide +kernel

end TelegramPub.Ports.SecretRekey
