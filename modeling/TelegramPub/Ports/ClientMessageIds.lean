import TelegramPub.Ports.TransportTransaction
import TelegramPub.Verified.Machine

/-!
# Client message ids and sequence numbers

Every message that `MTProto` sends in a session has an id made from the clock.
Messages of the services get theirs in `transportReadyForTransaction`, where a
clock that has gone back is noticed and ends the session before anything is
sent.  Containers, the time-fix ping and the bind message get theirs from the
same generator, but without the flag, so there a clock that has gone back is
not noticed.

The machine keeps a log of the ids issued in one session, in the order in which
they were generated.  The one-step fact is `Tracks.issue`; the loops of a
transaction are inductions over it.
-/

namespace TelegramPub.Ports.ClientMessageIds

open Verified.Bytes Verified.Machine Ports.MessageTransaction Ports.Session
open Ports.TransportTransaction

/-- An id together with the sequence number that was taken for it. -/
structure Issued where
  messageId : Int
  seqNo : Int
  meaningful : Bool
  deriving DecidableEq

/-- One session: the log of what was issued, and the containers with the ids
that were fresh when they were made.  `ended` is set by `resetSessionInfo`, which
is called when the clock was seen to go back. -/
structure World where
  info : SessionInfo := {}
  log : List Issued := []
  containers : List (Int × List Int) := []
  ended : Bool := false

/-- What the preparation loop issued: the messages that came without an id. -/
def fresh : List OutgoingMessage → List PreparedMessage → List Issued
  | outgoing :: rest, m :: ms =>
    if outgoing.messageId = 0 then
      ⟨m.messageId, m.seqNo, outgoing.requiresConfirmation⟩ :: fresh rest ms
    else fresh rest ms
  | _, _ => []

/-- What the packing loop issued. -/
def issuedContainers (payloads : List Payload) : List Issued :=
  payloads.filterMap fun payload =>
    payload.container.map fun (messageId, seqNo) => ⟨messageId, seqNo, false⟩

/-- The containers, each with those of its messages whose ids are in `ids`. -/
def containersOf (ids : List Int) (payloads : List Payload) : List (Int × List Int) :=
  payloads.filterMap fun payload =>
    payload.container.map fun (messageId, _) =>
      (messageId, (payload.messages.map (·.messageId)).filter (ids.contains ·))

inductive Event where
  | transaction (o : Options) (readings containerReadings : Nat → Int)
      (outgoing : List OutgoingMessage)
  | timeFixPing (reading : Int)
  | bindTempAuthKey (reading : Int)

/-- An id without the flag, and its sequence number. -/
def issueUnchecked (w : World) (reading : Int) (meaningful : Bool) : World :=
  let (messageId, _, info) := generateClientMessageId w.info reading
  let (seqNo, info) := takeSeqNo info meaningful
  { w with info, log := w.log ++ [⟨messageId, seqNo, meaningful⟩] }

def step (w : World) (e : Event) : World :=
  if w.ended then w
  else
    match e with
    | .transaction o readings containerReadings outgoing =>
      let (messages, outcome, info) :=
        transportReadyForTransaction o w.info readings containerReadings outgoing
      let issued := fresh outgoing messages
      match outcome with
      | .monotonityViolated => { w with ended := true }
      | .saltSetEmpty => { w with info, log := w.log ++ issued }
      | .payloads payloads =>
        { w with
          info
          log := w.log ++ issued ++ issuedContainers payloads
          containers := w.containers ++
            containersOf (issued.map (·.messageId)) payloads }
    | .timeFixPing reading => issueUnchecked w reading false
    | .bindTempAuthKey reading => issueUnchecked w reading true

/-- The clock is readable for every message that gets an id. -/
def MessagesReadable : (Nat → Int) → List OutgoingMessage → Prop
  | _, [] => True
  | readings, outgoing :: rest =>
    (outgoing.messageId = 0 → Readable (readings 0)) ∧
      MessagesReadable (fun k => readings (k + 1)) rest

/-- The clock is readable and reads at least the last id. -/
def Forward (info : SessionInfo) (reading : Int) : Prop :=
  Readable reading ∧ info.lastClientMessageId ≤ reading

instance (info : SessionInfo) (reading : Int) : Decidable (Forward info reading) :=
  inferInstanceAs (Decidable (_ ∧ _))

/-- The clock goes forward whenever a container gets its id. -/
def ContainersForward : (Nat → Int) → SessionInfo → List (List PreparedMessage) → Prop
  | _, _, [] => True
  | readings, info, messages :: rest =>
    (messages.length ≠ 1 → Forward info (readings 0)) ∧
      ContainersForward (fun k => readings (k + 1))
        (makePayload info (readings 0) messages).2 rest

/-- The clock is readable whenever an id is generated, and goes forward when one is
generated without the flag.  A transaction comes to its containers unless the flag
was raised or the salts are missing. -/
def ClockForward (w : World) : Event → Prop
  | .transaction o readings containerReadings outgoing =>
    let p := prepareMessages o readings { info := w.info } outgoing
    MessagesReadable readings outgoing ∧
      (p.monotonityViolated = false → (o.useUnauthorizedMode = true ∨ o.messageSalt ≠ 0) →
        ContainersForward containerReadings p.info (groups o (orderMessages o p.messages)))
  | .timeFixPing reading => Forward w.info reading
  | .bindTempAuthKey reading => Forward w.info reading

/-- Twice the number of content-related messages, and one for a content-related
message. -/
def seqNoAfter (log : List Issued) (meaningful : Bool) : Int :=
  2 * (log.countP (·.meaningful) : Nat) + if meaningful then 1 else 0

/-- What the ids and the sequence numbers of a session are to be. -/
structure Regular (w : World) : Prop where
  multiplesOfFour : ∀ issued ∈ w.log, 4 ∣ issued.messageId
  increasing : (w.log.map (·.messageId)).Pairwise (· < ·)
  containerAfterContents : ∀ container ∈ w.containers, ∀ id ∈ container.2, id < container.1
  seqNos : ∀ k issued, w.log[k]? = some issued →
    issued.seqNo = seqNoAfter (w.log.take k) issued.meaningful

/-- The session has issued exactly the log.  Sequence numbers are right up to
the wrap of `int32_t`. -/
structure Tracks (info : SessionInfo) (log : List Issued) : Prop where
  aligned : 4 ∣ info.lastClientMessageId
  bounded : ∀ issued ∈ log, issued.messageId ≤ info.lastClientMessageId
  multiplesOfFour : ∀ issued ∈ log, 4 ∣ issued.messageId
  increasing : (log.map (·.messageId)).Pairwise (· < ·)
  counter : info.seqNo = int32 (seqNoAfter log false)
  seqNos : ∀ k issued, log[k]? = some issued →
    issued.seqNo = int32 (seqNoAfter (log.take k) issued.meaningful)

theorem tracks_start : Tracks {} [] := by
  constructor
  · exact Int.dvd_zero 4
  · intro issued h; cases h
  · intro issued h; cases h
  · exact List.Pairwise.nil
  · decide
  · intro k issued h; simp at h

theorem takeSeqNo_fst (info : SessionInfo) (log : List Issued) (meaningful : Bool)
    (h : info.seqNo = int32 (seqNoAfter log false)) :
    (takeSeqNo info meaningful).1 = int32 (seqNoAfter log meaningful) := by
  cases meaningful with
  | false => exact h
  | true =>
    show int32 (info.seqNo + 1) = _
    rw [h]
    unfold int32
    rw [Int.bmod_add_bmod]
    congr 1

theorem takeSeqNo_counter (info : SessionInfo) (log : List Issued) (issued : Issued)
    (h : info.seqNo = int32 (seqNoAfter log false)) :
    (takeSeqNo info issued.meaningful).2.seqNo =
      int32 (seqNoAfter (log ++ [issued]) false) := by
  unfold takeSeqNo seqNoAfter
  rw [List.countP_append]
  cases hm : issued.meaningful with
  | false =>
    simp only [hm, List.countP_singleton, Bool.false_eq_true, if_false, h, seqNoAfter]
    rfl
  | true =>
    simp only [hm, List.countP_singleton, if_true, h, seqNoAfter]
    unfold int32
    rw [Int.bmod_add_bmod]
    congr 1

theorem takeSeqNo_last (info : SessionInfo) (meaningful : Bool) :
    (takeSeqNo info meaningful).2.lastClientMessageId = info.lastClientMessageId := by
  unfold takeSeqNo
  split <;> rfl

variable {info : SessionInfo} {log : List Issued} {reading : Int}

/-- An id for which the clock had not gone back extends the log. -/
theorem Tracks.issue (h : Tracks info log) (hforward : Forward info reading) (meaningful : Bool) :
    let id := generateClientMessageId info reading
    let seq := takeSeqNo id.2.2 meaningful
    Tracks seq.2 (log ++ [⟨id.1, seq.1, meaningful⟩]) ∧
      ∀ issued ∈ log, issued.messageId < id.1 := by
  intro id seq
  have hlast : seq.2.lastClientMessageId = id.1 := takeSeqNo_last id.2.2 meaningful
  have hlt : info.lastClientMessageId < id.1 :=
    (lt_generateClientMessageId_iff info hforward.1 h.aligned).2 hforward.2
  have hdvd : 4 ∣ id.1 := generateClientMessageId_dvd info reading
  have hbelow : ∀ issued ∈ log, issued.messageId < id.1 := by
    intro issued hissued
    have hle := h.bounded issued hissued
    omega
  refine ⟨?_, hbelow⟩
  constructor
  · rw [hlast]
    exact hdvd
  · grind
  · intro issued hissued
    rcases List.mem_append.1 hissued with hold | hnew
    · exact h.multiplesOfFour issued hold
    · rw [List.mem_singleton.1 hnew]
      exact hdvd
  · rw [List.map_append, List.pairwise_append]
    refine ⟨h.increasing, List.pairwise_singleton _ _, ?_⟩
    intro a ha b hb
    obtain ⟨issued, hissued, rfl⟩ := List.mem_map.1 ha
    rw [List.map_singleton, List.mem_singleton] at hb
    rw [hb]
    exact hbelow issued hissued
  · exact takeSeqNo_counter id.2.2 log ⟨id.1, seq.1, meaningful⟩ h.counter
  · intro k issued hk
    rw [List.getElem?_append] at hk
    split at hk
    next hlt =>
      rw [List.take_append_of_le_length (Nat.le_of_lt hlt)]
      exact h.seqNos k issued hk
    next hge =>
      have hkeq : k = log.length := by
        grind
      subst hkeq
      have hnew : (⟨id.1, seq.1, meaningful⟩ : Issued) = issued := by simpa using hk
      rw [← hnew, List.take_left]
      exact takeSeqNo_fst id.2.2 log meaningful h.counter

/-! ## The loops of a transaction -/

theorem prepareMessage_violated (o : Options) {p : Preparation} (outgoing : OutgoingMessage)
    (reading : Int) (h : p.monotonityViolated = true) :
    (prepareMessage o p outgoing reading).monotonityViolated = true := by
  unfold prepareMessage
  by_cases hzero : outgoing.messageId = 0
  · simp [hzero, h]
  · simp [hzero, h]

theorem prepareMessages_violated (o : Options) :
    ∀ (outgoing : List OutgoingMessage) (readings : Nat → Int) (p : Preparation),
      p.monotonityViolated = true →
      (prepareMessages o readings p outgoing).monotonityViolated = true := by
  intro outgoing
  induction outgoing with
  | nil => intro readings p h; exact h
  | cons outgoing rest ih =>
    intro readings p h
    exact ih _ _ (prepareMessage_violated o outgoing (readings 0) h)

/-- One round of the preparation loop that raised no flag. -/
theorem prepareMessage_tracks (o : Options) {p : Preparation} {outgoing : OutgoingMessage}
    (h : Tracks p.info log) (hreadable : outgoing.messageId = 0 → Readable reading)
    (hquiet : (prepareMessage o p outgoing reading).monotonityViolated = false) :
    ∃ m, (prepareMessage o p outgoing reading).messages = p.messages ++ [m] ∧
      Tracks (prepareMessage o p outgoing reading).info (log ++ fresh [outgoing] [m]) := by
  unfold prepareMessage at hquiet ⊢
  by_cases hzero : outgoing.messageId = 0
  · simp only [if_pos hzero] at hquiet ⊢
    have hforward : Forward p.info reading := by
      have hflag := (Bool.or_eq_false_iff.1 hquiet).2
      rw [generateClientMessageId_flag p.info (hreadable hzero)] at hflag
      exact ⟨hreadable hzero, by simpa using hflag⟩
    have hissue := (h.issue hforward outgoing.requiresConfirmation).1
    rw [hquiet]
    refine ⟨_, rfl, ?_⟩
    simp only [fresh, if_pos hzero]
    exact hissue
  · simp only [if_neg hzero] at hquiet ⊢
    rw [hquiet]
    refine ⟨_, rfl, ?_⟩
    simp only [fresh, if_neg hzero, List.append_nil]
    exact h

theorem fresh_cons (outgoing : OutgoingMessage) (rest : List OutgoingMessage)
    (m : PreparedMessage) (ms : List PreparedMessage) :
    fresh (outgoing :: rest) (m :: ms) = fresh [outgoing] [m] ++ fresh rest ms := by
  by_cases hzero : outgoing.messageId = 0
  · simp [fresh, hzero]
  · simp [fresh, hzero]

theorem prepareMessages_tracks (o : Options) :
    ∀ (outgoing : List OutgoingMessage) (readings : Nat → Int) (p : Preparation)
      (log : List Issued), Tracks p.info log → MessagesReadable readings outgoing →
      (prepareMessages o readings p outgoing).monotonityViolated = false →
      ∃ ms, (prepareMessages o readings p outgoing).messages = p.messages ++ ms ∧
        Tracks (prepareMessages o readings p outgoing).info (log ++ fresh outgoing ms) := by
  intro outgoing
  induction outgoing with
  | nil =>
    intro readings p log h _ _
    refine ⟨[], (List.append_nil _).symm, ?_⟩
    show Tracks p.info (log ++ [])
    rw [List.append_nil]
    exact h
  | cons outgoing rest ih =>
    intro readings p log h hreadable hquiet
    have hfirst : (prepareMessage o p outgoing (readings 0)).monotonityViolated = false := by
      by_contra hflag
      have hlast := prepareMessages_violated o rest (fun k => readings (k + 1)) _
        (by simpa using hflag)
      rw [prepareMessages] at hquiet
      rw [hquiet] at hlast
      exact absurd hlast (by decide)
    obtain ⟨m, hmessages, htracks⟩ := prepareMessage_tracks o h hreadable.1 hfirst
    obtain ⟨ms, hrest, htracks'⟩ := ih _ _ _ htracks hreadable.2 hquiet
    refine ⟨m :: ms, ?_, ?_⟩
    · rw [prepareMessages, hrest, hmessages, List.append_assoc]
      rfl
    · rw [fresh_cons, ← List.append_assoc]
      exact htracks'

/-- Two sessions that agree on the two counters have issued the same ids. -/
theorem Tracks.congr {info' : SessionInfo} (h : Tracks info log)
    (hlast : info'.lastClientMessageId = info.lastClientMessageId)
    (hseqNo : info'.seqNo = info.seqNo) : Tracks info' log := by
  constructor
  · rw [hlast]
    exact h.aligned
  · rw [hlast]
    exact h.bounded
  · exact h.multiplesOfFour
  · exact h.increasing
  · rw [hseqNo]
    exact h.counter
  · exact h.seqNos

theorem makePayload_tracks (h : Tracks info log) {messages : List PreparedMessage}
    (hforward : messages.length ≠ 1 → Forward info reading) :
    Tracks (makePayload info reading messages).2
        (log ++ issuedContainers [(makePayload info reading messages).1]) ∧
      ∀ container, (makePayload info reading messages).1.container = some container →
        ∀ issued ∈ log, issued.messageId < container.1 := by
  unfold makePayload
  split
  · grind [issuedContainers]
  next hmany =>
    have hlength : messages.length ≠ 1 := by
      intro hone
      obtain ⟨m, hm⟩ := List.length_eq_one_iff.1 hone
      exact hmany m hm
    obtain ⟨htracks, hbelow⟩ := h.issue (hforward hlength) false
    dsimp only
    generalize (messages.filter (·.requiresConfirmation)).map (·.messageId) = children
    cases hempty : children.isEmpty with
    | true =>
      refine ⟨htracks, ?_⟩
      intro container hcontainer issued hissued
      rw [← Option.some.inj hcontainer]
      exact hbelow issued hissued
    | false =>
      refine ⟨htracks.congr rfl rfl, ?_⟩
      intro container hcontainer issued hissued
      rw [← Option.some.inj hcontainer]
      exact hbelow issued hissued

theorem issuedContainers_cons (payload : Payload) (payloads : List Payload) :
    issuedContainers (payload :: payloads) =
      issuedContainers [payload] ++ issuedContainers payloads := by
  unfold issuedContainers
  rw [← List.filterMap_append]
  rfl

/-- The packing loop issues the container ids in order, each larger than what
was issued before the loop. -/
theorem makePayloads_tracks :
    ∀ (containers : List (List PreparedMessage)) (readings : Nat → Int)
      (info : SessionInfo) (log : List Issued), Tracks info log →
      ContainersForward readings info containers →
      Tracks (makePayloads readings info containers).2
          (log ++ issuedContainers (makePayloads readings info containers).1) ∧
        ∀ payload ∈ (makePayloads readings info containers).1, ∀ container,
          payload.container = some container → ∀ issued ∈ log, issued.messageId < container.1 := by
  intro containers
  induction containers with
  | nil =>
    intro readings info log h _
    refine ⟨?_, ?_⟩
    · show Tracks info (log ++ [])
      rw [List.append_nil]
      exact h
    · intro payload hpayload
      cases hpayload
  | cons messages rest ih =>
    intro readings info log h hforward
    obtain ⟨htracks, hbelow⟩ := makePayload_tracks h hforward.1
    obtain ⟨htracks', hbelow'⟩ := ih _ _ _ htracks hforward.2
    refine ⟨?_, ?_⟩
    · simp only [makePayloads]
      rw [issuedContainers_cons, ← List.append_assoc]
      exact htracks'
    · intro payload hpayload container hcontainer issued hissued
      simp only [makePayloads, List.mem_cons] at hpayload
      rcases hpayload with rfl | hpayload
      · exact hbelow container hcontainer issued hissued
      · exact hbelow' payload hpayload container hcontainer issued (List.mem_append_left _ hissued)

/-- The log is what the session issued, and every container was issued after
its fresh contents.  Once the session has ended nothing more is issued. -/
structure Inv (w : World) : Prop where
  tracks : ∃ info, Tracks info w.log ∧ (w.ended = false → info = w.info)
  containers : ∀ container ∈ w.containers, ∀ id ∈ container.2, id < container.1

theorem inv_start : Inv {} := by
  constructor
  · exact ⟨{}, tracks_start, fun _ => rfl⟩
  · intro container h
    cases h

theorem containersOf_below {issued : List Issued} {payloads : List Payload}
    (hbelow : ∀ payload ∈ payloads, ∀ container, payload.container = some container →
      ∀ i ∈ log ++ issued, i.messageId < container.1) :
    ∀ container ∈ containersOf (issued.map (·.messageId)) payloads,
      ∀ id ∈ container.2, id < container.1 := by
  intro container hcontainer id hid
  obtain ⟨payload, hpayload, hmap⟩ := List.mem_filterMap.1 hcontainer
  obtain ⟨numbers, hnumbers, heq⟩ := Option.map_eq_some_iff.1 hmap
  rw [← heq] at hid ⊢
  have hfresh : id ∈ issued.map (·.messageId) := by
    simpa using (List.mem_filter.1 hid).2
  obtain ⟨i, hi, hiid⟩ := List.mem_map.1 hfresh
  rw [← hiid]
  exact hbelow payload hpayload numbers hnumbers i (List.mem_append_right _ hi)

theorem transaction_inv {w : World} (h : Inv w) (hopen : w.ended = false) (o : Options)
    (readings containerReadings : Nat → Int) (outgoing : List OutgoingMessage)
    (hforward : ClockForward w (.transaction o readings containerReadings outgoing)) :
    Inv (step w (.transaction o readings containerReadings outgoing)) := by
  obtain ⟨info, htracks, hinfo⟩ := h.tracks
  have hsame := hinfo hopen
  subst hsame
  simp only [step, hopen, Bool.false_eq_true, if_false]
  unfold transportReadyForTransaction
  by_cases hviolated : (prepareMessages o readings { info := w.info }
      outgoing).monotonityViolated = true
  · simp only [hviolated, if_true]
    exact ⟨⟨w.info, htracks, fun hended => absurd hended (by simp)⟩, h.containers⟩
  · obtain ⟨ms, hms, hprepared⟩ := prepareMessages_tracks o outgoing readings
      { info := w.info } w.log htracks hforward.1 (by simpa using hviolated)
    have hmessages : (prepareMessages o readings { info := w.info } outgoing).messages = ms := by
      rw [hms]
      rfl
    simp only [hviolated, Bool.false_eq_true, if_false]
    by_cases hsalt : (!o.useUnauthorizedMode && o.messageSalt == 0) = true
    · simp only [hsalt, if_true]
      rw [hmessages]
      exact ⟨⟨_, hprepared, fun _ => rfl⟩, h.containers⟩
    · simp only [hsalt, Bool.false_eq_true, if_false]
      have hsalted : o.useUnauthorizedMode = true ∨ o.messageSalt ≠ 0 := by
        grind
      obtain ⟨hpacked, hbelow⟩ := makePayloads_tracks _ _ _ _ hprepared
        (hforward.2 (by simpa using hviolated) hsalted)
      rw [← hmessages] at hpacked hbelow
      constructor
      · exact ⟨_, hpacked, fun _ => rfl⟩
      · intro container hcontainer
        rcases List.mem_append.1 hcontainer with hold | hnew
        · exact h.containers container hold
        · exact containersOf_below hbelow container hnew

theorem issueUnchecked_inv {w : World} (h : Inv w) (hopen : w.ended = false)
    (hforward : Forward w.info reading) (meaningful : Bool) :
    Inv (issueUnchecked w reading meaningful) := by
  obtain ⟨info, htracks, hinfo⟩ := h.tracks
  have hsame := hinfo hopen
  subst hsame
  exact ⟨⟨_, (htracks.issue hforward meaningful).1, fun _ => rfl⟩, h.containers⟩

theorem step_inv (w : World) (e : Event) (hforward : ClockForward w e) (h : Inv w) :
    Inv (step w e) := by
  cases hopen : w.ended with
  | true =>
    have hstay : step w e = w := if_pos hopen
    rw [hstay]
    exact h
  | false =>
    cases e with
    | transaction o readings containerReadings outgoing =>
      exact transaction_inv h hopen o readings containerReadings outgoing hforward
    | timeFixPing reading =>
      have heq : step w (.timeFixPing reading) = issueUnchecked w reading false := by
        simp [step, hopen]
      rw [heq]
      exact issueUnchecked_inv h hopen hforward false
    | bindTempAuthKey reading =>
      have heq : step w (.bindTempAuthKey reading) = issueUnchecked w reading true := by
        simp [step, hopen]
      rw [heq]
      exact issueUnchecked_inv h hopen hforward true

/-- If the clock stays readable and never reads less than the last id when an id is
generated without the flag, and fewer than `2^30` content-related messages come before
any message, then the ids and the sequence numbers of the session are regular. -/
theorem session_regular (es : List Event) (hforward : Guarded step ClockForward {} es)
    (hcount : (run step {} es).log.dropLast.countP (·.meaningful) < 2 ^ 30) :
    Regular (run step {} es) := by
  have hinv := guarded_invariant step_inv es {} hforward inv_start
  obtain ⟨info, htracks, _⟩ := hinv.tracks
  constructor
  · exact htracks.multiplesOfFour
  · exact htracks.increasing
  · exact hinv.containers
  · intro k issued hk
    have hklt : k < (run step {} es).log.length := (List.getElem?_eq_some_iff.1 hk).1
    have hbegins : ((run step {} es).log.take k).countP (·.meaningful) ≤
        (run step {} es).log.dropLast.countP (·.meaningful) := by
      apply List.Sublist.countP_le
      rw [List.dropLast_eq_take]
      exact (List.take_prefix_take_left (by omega)).sublist
    rw [htracks.seqNos k issued hk]
    apply int32_of_range
    · unfold seqNoAfter
      split <;> omega
    · unfold seqNoAfter
      split <;> omega

/-- A ping, two messages in a container, a bind message at the reading of that
container, and a transaction that ends the session, as the clock has gone back. -/
theorem session_regular_container :
    Regular (run step {}
      [.timeFixPing 1024,
        .transaction {} (fun k => 1024 + 4 * k) (fun _ => 1032)
          [{ internalId := 0, data := [] }, { internalId := 1, data := [] }],
        .bindTempAuthKey 1036,
        .transaction {} (fun _ => 512) (fun _ => 0) [{ internalId := 2, data := [] }]]) := by
  refine session_regular _ ⟨⟨by decide, by decide⟩, ⟨?_, fun _ _ => ?_⟩, ?_, ⟨?_, ?_⟩, trivial⟩
    (by decide)
  · exact ⟨fun _ => by decide, fun _ => by decide, trivial⟩
  · exact ⟨fun _ => by decide, trivial⟩
  · exact ⟨by decide, by decide⟩
  · exact ⟨fun _ => by decide, trivial⟩
  · intro hquiet
    exact absurd hquiet (by decide)

/-- Two messages are prepared at the readings 1024 and 1028; then the clock is
set back, and their container gets the id 1024 again. -/
theorem container_repeats_id :
    ¬ Regular (run step {}
      [.transaction {} (fun k => 1024 + 4 * k) (fun _ => 1024)
        [{ internalId := 0, data := [] }, { internalId := 1, data := [] }]]) := by
  intro hregular
  have hincreasing := hregular.increasing
  have hlog : (run step {} [.transaction {} (fun k => 1024 + 4 * k) (fun _ => 1024)
        [{ internalId := 0, data := [] }, { internalId := 1, data := [] }]]).log.map
          (·.messageId) = [1024, 1028, 1024] := by decide
  rw [hlog] at hincreasing
  exact absurd hincreasing (by decide)

end TelegramPub.Ports.ClientMessageIds
