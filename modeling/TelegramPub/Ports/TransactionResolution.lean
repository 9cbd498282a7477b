import TelegramPub.Ports.PayloadCustody
import TelegramPub.Ports.InvokeAfter
import TelegramPub.Ports.TransportQueuesSafety

/-!
# Every prepared transaction is resolved

The four pieces of work that have payloads in their hands are the answer of
`MTProto`, its arrival at the transport, the block for the connection and the
completion.  Each keeps the account of `PayloadCustody`, so the account holds in
every reachable state (`resolving_run`, `payloads_accounted`).  When the queues are empty nothing is
on its way any more: no request waits, and the completions that were called are
those of the payloads that were handed over (`transactions_resolved`).
-/

namespace TelegramPub.Ports.TransactionResolution

open Verified.Bytes Verified.Machine Ports.MessageTransaction Ports.RequestMessageService
open Ports.Session Ports.TransportTransaction Ports.TransportQueues Ports.TransactionPayloads
open Ports.WaitingRequests Ports.PayloadCustody
open Ports.PayloadCompletion (Sent numbered noTransaction reportService)

variable {ρ : Type}

/-! ## The messages of an answer -/

theorem mem_numbered {others : List OutgoingMessage} {n : Nat} {m : OutgoingMessage}
    (hmem : m ∈ numbered others n) : n ≤ m.internalId ∧ m.internalId < n + others.length := by
  obtain ⟨⟨other, internalId⟩, hentry, heq⟩ := List.mem_map.1 hmem
  rw [← heq]
  obtain ⟨hle, hlt, _⟩ := List.mem_zipIdx hentry
  exact ⟨hle, by omega⟩

/-- The messages of the service get the numbers that the counter passes over. -/
theorem mem_messagePayload {s : Service ρ} {now : Rat} {m : OutgoingMessage}
    (hmem : m ∈ ((mtProtoMessageTransaction s now).1.getD noTransaction).messagePayload) :
    s.nextMessageInternalId ≤ m.internalId ∧
      m.internalId < (mtProtoMessageTransaction s now).2.nextMessageInternalId := by
  unfold mtProtoMessageTransaction at hmem ⊢
  dsimp only at hmem ⊢
  split at hmem
  · cases hmem
  · rename_i hsome
    rw [if_neg hsome]
    dsimp only [Option.getD_some] at hmem ⊢
    rw [List.length_append, List.length_map, List.length_map, List.length_zipIdx]
    rcases List.mem_append.1 hmem with hrequest | hdrop
    · obtain ⟨⟨request, internalId⟩, hentry, heq⟩ := List.mem_map.1 hrequest
      obtain ⟨hle, hlt, _⟩ := List.mem_zipIdx hentry
      have hid : m.internalId = internalId := by rw [← heq]; rfl
      unfold emittedRequests at hentry ⊢
      rw [List.length_zipIdx]
      omega
    · obtain ⟨⟨drop, internalId⟩, hentry, heq⟩ := List.mem_map.1 hdrop
      obtain ⟨hle, hlt, _⟩ := List.mem_zipIdx hentry
      have hid : m.internalId = internalId := by rw [← heq]; rfl
      omega

theorem transportReady_messages (o : Options) (info : SessionInfo)
    (readings containerReadings : Nat → Int) (outgoing : List OutgoingMessage) :
    (transportReadyForTransaction o info readings containerReadings outgoing).1 =
      (prepareMessages o readings { info } outgoing).messages := by
  unfold transportReadyForTransaction
  dsimp only
  split
  · rfl
  · split <;> rfl

theorem mem_payloadIds {o : Options} {info : SessionInfo}
    {readings containerReadings : Nat → Int} {outgoing : List OutgoingMessage}
    {payloads : List Payload} {id : Nat}
    (h : (transportReadyForTransaction o info readings containerReadings outgoing).2.1 =
      .payloads payloads) (hmem : id ∈ (messageInternalIdsByPayload payloads).flatten) :
    ∃ m ∈ outgoing, m.internalId = id := by
  obtain ⟨ids, hids, hid⟩ := List.mem_flatten.1 hmem
  obtain ⟨payload, hpayload, heq⟩ := List.mem_map.1 hids
  rw [← heq] at hid
  obtain ⟨message, hmessage, hmid⟩ := List.mem_map.1 hid
  have hprepared := (perm_payloads h).mem_iff.1 (List.mem_flatMap.2 ⟨payload, hpayload, hmessage⟩)
  rw [transportReady_messages] at hprepared
  obtain ⟨new, hnew, hbegins, _⟩ :=
    InvokeAfter.prepareMessages_extends o outgoing readings { info }
  rw [hnew, List.nil_append] at hprepared
  have hin := hbegins.subset (List.mem_map_of_mem (f := (·.messageInternalId)) hprepared)
  obtain ⟨m, hm, hmeq⟩ := List.mem_map.1 hin
  exact ⟨m, hm, hmeq.trans hmid⟩

theorem payloadIds_ne_nil {o : Options} {info : SessionInfo}
    {readings containerReadings : Nat → Int} {outgoing : List OutgoingMessage}
    {payloads : List Payload}
    (h : (transportReadyForTransaction o info readings containerReadings outgoing).2.1 =
      .payloads payloads) (hsome : payloads ≠ []) :
    (messageInternalIdsByPayload payloads).flatten ≠ [] := by
  intro hnil
  apply hsome
  have hmessages : payloads.flatMap (·.messages) = [] := by
    rw [List.flatMap_eq_nil_iff]
    intro payload hpayload
    have hids := List.flatten_eq_nil_iff.1 hnil _ (List.mem_map_of_mem hpayload)
    exact List.map_eq_nil_iff.1 hids
  have hperm := perm_payloads h
  rw [hmessages, transportReady_messages] at hperm
  have hnone := List.nil_perm.1 hperm
  unfold transportReadyForTransaction at h
  dsimp only at h
  split at h
  · cases h
  · split at h
    · cases h
    · have heq := Outcome.payloads.inj h
      rw [← heq, hnone, List.perm_nil.1 (perm_orderMessages o [])]
      unfold groups
      split <;> rfl

section Steps

variable {w w' : World ρ} {handed called owed : List (Sent × Nat)}

theorem mem_transactionListOf {sent : Sent} {payload : Sent × Nat}
    (hmem : payload ∈ transactionListOf sent) : payload.1 = sent := by
  obtain ⟨_, _, heq⟩ := List.mem_map.1 hmem
  rw [← heq]

theorem nodup_transactionListOf (sent : Sent) : (transactionListOf sent).Nodup := by
  apply List.Nodup.map _ List.nodup_range
  intro i j heq
  exact congrArg Prod.snd heq

theorem transactionListOf_ne_nil {sent : Sent} (hsome : sent.payloads.flatten ≠ []) :
    (sent, 0) ∈ transactionListOf sent := by
  apply List.mem_map.2
  refine ⟨0, ?_, rfl⟩
  rw [List.mem_range]
  apply List.length_pos_of_ne_nil
  intro hnil
  rw [hnil] at hsome
  exact hsome rfl

/-- The current transport gets an answer with payloads.  The requests that start to
wait are in its transaction, and its messages have new numbers. -/
theorem resolving_answer {T : Nat} (h : Resolving w handed called [])
    (hcurrent : w.transport = some T) {service : Service ρ} {info : SessionInfo} {sent : Sent}
    (hwaiting : ∀ request' ∈ service.requests, isWaiting request' = true →
      (∃ request ∈ w.service.requests, CalmChange request request') ∨
        Concerns (sent, 0) request'.internalId)
    (hcounter : w.service.nextMessageInternalId ≤ service.nextMessageInternalId)
    (hids : ∀ id ∈ sent.payloads.flatten,
      w.service.nextMessageInternalId ≤ id ∧ id < service.nextMessageInternalId)
    (hsome : sent.payloads.flatten ≠ []) :
    Resolving ({ w with service, info }.toTransport
      (.transactionReady T (transactionListOf sent))) (handed ++ transactionListOf sent) called
      [] := by
  have hfirst := transactionListOf_ne_nil hsome
  have hqueue : (({ w with service, info } : World ρ).toTransport
      (.transactionReady T (transactionListOf sent))).transportQueue =
        w.transportQueue ++ [.transactionReady T (transactionListOf sent)] := rfl
  have hready : (w.transportQueue ++
      [TransportBlock.transactionReady T (transactionListOf sent)]).flatMap readyPayloads =
        w.transportQueue.flatMap readyPayloads ++ transactionListOf sent := by
    rw [List.flatMap_append, List.flatMap_singleton]
    rfl
  constructor
  · exact ⟨h.known.transport, h.known.connection⟩
  · intro block hblock hpayloads
    rw [hqueue] at hblock
    rcases List.mem_append.1 hblock with hold | hnew
    · exact h.readies block hold hpayloads
    · rw [List.mem_singleton.1 hnew]
      exact h.known.transport T hcurrent
  · exact h.sends
  · show Kept w.transport _
    rw [hqueue, hcurrent]
    exact kept_answer (hcurrent ▸ h.kept)
  · unfold underway
    rw [hqueue, hready]
    have hbalance := h.balance
    unfold underway at hbalance
    rw [List.nil_append] at hbalance ⊢
    refine (hbalance.append_right _).trans ?_
    rw [List.append_assoc, List.append_assoc, List.append_assoc]
    exact ((List.perm_append_comm).append_left _).append_left _
  · intro request' hrequest' hwaits
    unfold underway
    rw [hqueue, hready]
    rcases hwaiting request' hrequest' hwaits with ⟨request, hrequest, hid, hwaited⟩ | hconcerns
    · obtain ⟨payload, hpayload, hconcerns⟩ := h.covered request hrequest (hwaited hwaits)
      refine ⟨payload, ?_, hid ▸ hconcerns⟩
      unfold underway at hpayload
      simp only [List.nil_append, List.mem_append] at hpayload ⊢
      tauto
    · refine ⟨(sent, 0), ?_, hconcerns⟩
      simp only [List.nil_append, List.mem_append]
      tauto
  · refine List.nodup_append.2 ⟨h.distinct, nodup_transactionListOf sent, ?_⟩
    intro payload hold payload' hnew heq
    subst heq
    obtain ⟨hmessages, hlt⟩ := h.numbered payload hold
    obtain ⟨id, hid⟩ := List.exists_mem_of_ne_nil _ hmessages
    have hnewId : id ∈ sent.payloads.flatten := by
      unfold messageIds at hid
      rw [mem_transactionListOf hnew] at hid
      exact hid
    exact absurd (hlt id hid) (hids id hnewId).1.not_gt
  · intro payload hpayload
    rcases List.mem_append.1 hpayload with hold | hnew
    · obtain ⟨hmessages, hlt⟩ := h.numbered payload hold
      exact ⟨hmessages, fun id hid => (hlt id hid).trans_le hcounter⟩
    · unfold messageIds
      rw [mem_transactionListOf hnew]
      exact ⟨hsome, fun id hid => (hids id hid).2⟩

theorem waiting_handOver {s s' : Service ρ} {t : RequestTransaction}
    {preparedMessages : Nat → Option PreparedMessage} (hrequests : s'.requests = s.requests)
    {request' : Request ρ} (hmem : request' ∈ (prepared s' t preparedMessages).requests) :
    (∃ request ∈ s.requests, CalmChange request request') ∨
      dictionary t.requestInternalIdToMessageInternalId request'.internalId ≠ none := by
  obtain ⟨request, hrequest, hid, hsame⟩ := waiting_prepared hmem
  rw [hrequests] at hrequest
  by_cases hnone : t.messageFor request = none
  · exact .inl ⟨request, hrequest, hsame hnone ▸ CalmChange.refl request⟩
  · right
    rw [hid]
    exact hnone

theorem answered_readyForTransaction (h : Resolving w handed called []) (T : Nat)
    (around : Surroundings) :
    Answered w (readyForTransaction w T around) handed called := by
  unfold readyForTransaction
  split
  · exact h.answered (goes_toTransport rfl)
  rename_i hcurrent
  split
  · exact h.answered (goes_toTransport rfl)
  dsimp only
  have hrequests := RequestLifecycle.mtProtoMessageTransaction_requests w.service
    around.currentTime
  have hemission := calms_emission w.service around.currentTime
  generalize ht : (mtProtoMessageTransaction w.service around.currentTime).1.getD
    noTransaction = t
  have hpayload : ∀ m ∈ t.messagePayload, w.service.nextMessageInternalId ≤ m.internalId ∧
      m.internalId <
        (mtProtoMessageTransaction w.service around.currentTime).2.nextMessageInternalId := by
    intro m hm
    rw [← ht] at hm
    exact mem_messagePayload hm
  generalize (mtProtoMessageTransaction w.service around.currentTime).2 = emitted at *
  have hothers := fun m (hm : m ∈ numbered around.others emitted.nextMessageInternalId) =>
    mem_numbered hm
  have hlength : (numbered around.others emitted.nextMessageInternalId).length =
      around.others.length := by
    unfold numbered
    rw [List.length_map, List.length_zipIdx]
  rw [← hlength] at hothers
  generalize numbered around.others emitted.nextMessageInternalId = others at *
  have hservice : Calms w.service { emitted with
      nextMessageInternalId := emitted.nextMessageInternalId + others.length } :=
    hemission.trans (calms_of_requests rfl (Nat.le_add_right _ _))
  have hcounter := hemission.counter
  have habandoned : ∀ preparedMessages info, Goes w { w with
      service := completion (prepared { emitted with
        nextMessageInternalId := emitted.nextMessageInternalId + others.length } t
          preparedMessages) t (fun _ => none) (fun _ => none) (fun _ => none)
      info } := by
    intro preparedMessages info
    refine goes_of_same rfl rfl rfl rfl rfl rfl ?_
    exact hservice.trans (calms_abandoned _ t preparedMessages)
  generalize hready : transportReadyForTransaction around.options w.info around.readings
    around.containerReadings (others ++ t.messagePayload) = ready
  obtain ⟨preparedMessages, outcome, info⟩ := ready
  dsimp only
  split
  · apply h.answered
    refine Goes.trans ?_ (goes_resetSessionInfo _ around.createsTransport)
    exact (habandoned _ _).trans (goes_toTransport rfl)
  · exact h.answered ((habandoned _ _).trans (goes_toTransport rfl))
  · exact h.answered ((habandoned _ _).trans (goes_toTransport rfl))
  · rename_i payloads hsome
    have hpayloads : (transportReadyForTransaction around.options w.info around.readings
        around.containerReadings (others ++ t.messagePayload)).2.1 = .payloads payloads := by
      rw [hready]
    refine ⟨[.transactionReady T (transactionListOf
      { transaction := t
        preparedMessages
        payloads := messageInternalIdsByPayload payloads
        quickAckIds := around.quickAckIds })], rfl, ?_⟩
    rw [List.flatMap_singleton]
    apply resolving_answer h
    · exact not_not.1 hcurrent
    · intro request' hrequest' _
      exact waiting_handOver hrequests hrequest'
    · exact hcounter.trans (Nat.le_add_right _ _)
    · intro id hid
      obtain ⟨m, hm, hmid⟩ := mem_payloadIds hpayloads hid
      show _ ∧ id < emitted.nextMessageInternalId + others.length
      rcases List.mem_append.1 hm with hother | hown
      · have hbounds := hothers m hother
        omega
      · have hbounds := hpayload m hown
        omega
    · exact payloadIds_ne_nil hpayloads hsome

theorem answered_serviceTransaction (h : Resolving w handed called []) :
    Answered w (readyForServiceTransaction w) handed called := by
  unfold readyForServiceTransaction
  split
  · rename_i T managerQueue hqueue
    split
    · rename_i hcurrent
      refine ⟨[.transactionReady T (transactionListOf
        (serviceSent w.service.nextMessageInternalId))], rfl, ?_⟩
      rw [List.flatMap_singleton]
      have hone : [(serviceSent w.service.nextMessageInternalId, 0)] =
        transactionListOf (serviceSent w.service.nextMessageInternalId) := rfl
      rw [hone]
      refine resolving_answer (h.popManager hqueue rfl) hcurrent ?_ ?_ ?_ ?_
      · intro request hrequest _
        exact .inl ⟨request, hrequest, CalmChange.refl request⟩
      · exact Nat.le_succ _
      · intro id hid
        have heq : id = w.service.nextMessageInternalId := by
          simpa [serviceSent] using hid
        rw [heq]
        exact ⟨Nat.le_refl _, Nat.lt_succ_self _⟩
      · simp [serviceSent]
    · exact h.answered (Goes.refl w)
  · exact h.answered (Goes.refl w)

/-! ## The completion of a payload -/

/-- No request of the transaction waits any more, so its payload is not missed. -/
theorem resolving_payloadCompletion {sent : Sent} {payload : Nat}
    {transactionId : Option TransactionId} {managerQueue : List (ManagerBlock ρ)}
    (h : Resolving w handed called [])
    (hqueue : w.managerQueue = .payloadCompletion sent payload transactionId :: managerQueue) :
    Resolving (payloadCompletion { w with managerQueue } sent payload transactionId) handed
      called [] := by
  constructor
  · exact ⟨h.known.transport, h.known.connection⟩
  · exact h.readies
  · exact h.sends
  · exact h.kept
  · exact h.balance
  · intro request' hrequest' hwaits
    obtain ⟨request, hrequest, ⟨hid, hwaited⟩, hnone⟩ := waiting_report hrequest' hwaits
    obtain ⟨other, hother, hconcerns⟩ := h.covered request hrequest (hwaited hwaits)
    rw [hid]
    refine ⟨other, ?_, hconcerns⟩
    rw [hqueue, List.flatMap_cons] at hother
    rcases List.mem_append.1 hother with hpending | hcompletion
    · exact List.mem_append_left _ hpending
    · rcases List.mem_append.1 hcompletion with hthis | hlater
      · have heq : other = (sent, payload) := List.mem_singleton.1 hthis
        rw [heq] at hconcerns
        exact absurd hnone hconcerns
      · exact List.mem_append_right _ hlater
  · exact h.distinct
  · intro other hother
    obtain ⟨hmessages, hlt⟩ := h.numbered other hother
    refine ⟨hmessages, ?_⟩
    intro id hid
    show id < (reportService w.service sent payload _ transactionId).nextMessageInternalId
    rw [report_counter]
    exact hlt id hid

theorem answered_runManager (h : Resolving w handed called []) (around : Surroundings) :
    Answered w (TransportQueues.step w (.runManager around)) handed called := by
  unfold TransportQueues.step
  dsimp only
  split
  · exact h.answered (Goes.refl w)
  · rename_i block managerQueue hqueue
    cases block with
    | call call => exact (h.popManager hqueue rfl).answered (goes_runCall _ around call)
    | transactionPass =>
      exact (h.popManager hqueue rfl).answered (goes_transactionPass _ around.createsTransport)
    | transportReadyForTransaction T =>
      exact answered_readyForTransaction (h.popManager hqueue rfl) T around
    | payloadCompletion sent payload transactionId =>
      refine ⟨[], (List.append_nil _).symm, ?_⟩
      rw [List.flatMap_nil, List.append_nil]
      exact resolving_payloadCompletion h hqueue
    | transactionsMayHaveFailed transactionIds =>
      exact (h.popManager hqueue rfl).answered
        (goes_serve (calms_transactionsMayHaveFailed _ transactionIds))

/-! ## The answer at the transport -/

theorem reported_accept (connection : Option TransactionId) :
    ∀ (transactionList : List (Sent × Nat)) {w : World ρ} {called : List (Sent × Nat)},
      Resolving w handed called transactionList →
      (∀ c, connection = some c → c < w.connections.length) →
      Reported w (transactionList.foldl (acceptTransaction connection) w) handed called := by
  intro transactionList
  induction transactionList with
  | nil =>
    intro w called h _
    refine ⟨[], (List.append_nil _).symm, ?_⟩
    rw [List.flatMap_nil, List.append_nil]
    exact h
  | cons payload transactionList ih =>
    intro w called h hconnection
    rw [List.foldl_cons]
    cases connection with
    | none =>
      obtain ⟨blocks, hqueue, hlater⟩ := ih (h.complete none) hconnection
      refine ⟨.payloadCompletion payload.1 payload.2 none :: blocks, ?_, ?_⟩
      · exact hqueue.trans (List.append_assoc _ _ _)
      · rw [List.flatMap_cons, ← List.append_assoc]
        exact hlater
    | some c => exact ih (h.send (hconnection c rfl)) hconnection

theorem reported_transactionReady {T : Nat} {t : Transport} {transactionList : List (Sent × Nat)}
    (h : Resolving w handed called transactionList)
    (hconnection : ∀ c, t.connection = some c → c < w.connections.length) (lockExpired : Bool) :
    Reported w (transactionReady w T t transactionList lockExpired) handed called := by
  unfold transactionReady
  have haccepted := reported_accept t.connection transactionList h hconnection
  have hunlocked := haccepted.goes (goes_updateTransport T (f := ({ · with
    isWaitingForTransactionToBecomeReady := false
    requestAnotherTransactionWhenReady := false })) fun _ _ hc => hc)
  split
  · exact hunlocked.goes (goes_requestTransactionFromDelegate _ T lockExpired)
  · exact hunlocked

theorem reported_popTransport {block : TransportBlock} {transportQueue : List TransportBlock}
    (h : Resolving w handed called []) (hqueue : w.transportQueue = block :: transportQueue)
    (hnone : readyPayloads block = []) :
    Reported w { w with transportQueue } handed called := by
  refine ⟨[], (List.append_nil _).symm, ?_⟩
  rw [List.flatMap_nil, List.append_nil]
  have hpop := h.popTransport hqueue
  rw [hnone] at hpop
  exact hpop

theorem reported_runTransport (h : Resolving w handed called []) (timing : Timing) :
    Reported w (TransportQueues.step w (.runTransport timing)) handed called := by
  unfold TransportQueues.step
  dsimp only
  split
  · exact h.reported (Goes.refl w)
  · rename_i block transportQueue hqueue
    split
    · rename_i hmissing
      apply reported_popTransport h hqueue
      by_contra hsome
      have hlt := h.readies block (hqueue ▸ List.mem_cons_self) hsome
      exact absurd hlt (List.getElem?_eq_none_iff.1 hmissing).not_gt
    · rename_i t ht
      have hconnection : ∀ c, t.connection = some c → c < w.connections.length :=
        h.known.connection t (List.mem_of_getElem? ht)
      by_cases hanswer :
        ∃ transactionList, block = .transactionReady block.transport transactionList
      · cases block with
        | transactionReady T transactionList =>
          exact reported_transactionReady (h.popTransport hqueue) hconnection timing.lockExpired
        | _ =>
          obtain ⟨_, heq⟩ := hanswer
          cases heq
      · have hnone : readyPayloads block = [] := by
          cases block with
          | transactionReady T transactionList => exact absurd ⟨transactionList, rfl⟩ hanswer
          | _ => rfl
        apply (reported_popTransport h hqueue hnone).goes
        apply goes_runTransportBlock
        intro transactionList heq
        exact hanswer ⟨transactionList, heq⟩

/-- The dropped answer had no payloads, for its transport was not held. -/
theorem reported_releaseTransport (h : Resolving w handed called []) :
    Reported w (releaseTransport w) handed called := by
  unfold releaseTransport
  split
  · rename_i T transactionList transportQueue hqueue
    split
    · exact h.reported (Goes.refl w)
    · rename_i hheld
      apply reported_popTransport h hqueue
      by_contra hsome
      apply hheld
      have hkept := h.kept
      rw [hqueue] at hkept
      unfold isHeld
      rcases hkept.1 hsome with hcurrent | hstop
      · have hcurrent' : w.transport = some T := hcurrent
        rw [hcurrent', beq_self_eq_true, Bool.true_or]
      · have hstop' : transportQueue.any (isStopOf T) = true := hstop
        rw [hstop', Bool.or_true]
  · exact h.reported (Goes.refl w)

/-! ## The block for the connection -/

theorem reported_popTcp {block : TcpBlock} {tcpQueue : List TcpBlock}
    (h : Resolving w handed called []) (hqueue : w.tcpQueue = block :: tcpQueue)
    (hnone : sendPayloads block = []) : Reported w { w with tcpQueue } handed called := by
  refine ⟨[], (List.append_nil _).symm, ?_⟩
  rw [List.flatMap_nil, List.append_nil]
  have hpop := h.popTcp hqueue
  rw [hnone] at hpop
  exact hpop

theorem reported_runTcp (h : Resolving w handed called []) (connects : Bool) :
    Reported w (TransportQueues.step w (.runTcp connects)) handed called ∧
      AnswersNothing w (TransportQueues.step w (.runTcp connects)) := by
  unfold TransportQueues.step
  dsimp only
  split
  · exact ⟨h.reported (Goes.refl w), (Goes.refl w).answersNothing⟩
  · rename_i block tcpQueue hqueue
    split
    · rename_i hmissing
      refine ⟨reported_popTcp h hqueue ?_, (Goes.refl w).answersNothing⟩
      by_contra hsome
      have hlt := h.sends block (hqueue ▸ List.mem_cons_self) hsome
      exact absurd hlt (List.getElem?_eq_none_iff.1 hmissing).not_gt
    · rename_i k hk
      by_cases hnone : sendPayloads block = []
      · have hgoes : Goes { w with tcpQueue }
            (runTcpBlock { w with tcpQueue } connects block block.connection k) :=
          goes_runTcpBlock connects block.connection k hnone
        exact ⟨(reported_popTcp h hqueue hnone).goes hgoes, hgoes.answersNothing⟩
      · cases block with
        | sendDatas c sent payload =>
          constructor
          · refine ⟨[_], rfl, ?_⟩
            exact (h.popTcp hqueue).complete _
          · exact (Goes.refl w).answersNothing
        | _ => exact absurd rfl hnone

end Steps

theorem resolving_start : Resolving ({} : World ρ) [] [] [] := by
  constructor
  · constructor
    · intro T hT
      cases hT
    · intro t ht
      cases ht
  · intro block hblock
    cases hblock
  · intro block hblock
    cases hblock
  · trivial
  · exact List.Perm.refl []
  · intro request hrequest
    cases hrequest
  · exact List.nodup_nil
  · intro payload hpayload
    cases hpayload

theorem resolving_goes {x : State ρ} {w' : World ρ} (h : Resolving x.world x.handed x.called [])
    (hgoes : Goes x.world w') :
    Resolving w'
      (x.handed ++ (w'.transportQueue.drop x.world.transportQueue.length).flatMap readyPayloads)
      (x.called ++ (w'.managerQueue.drop x.world.managerQueue.length).flatMap completionPayloads)
      [] := by
  have hnone : (w'.transportQueue.drop x.world.transportQueue.length).flatMap readyPayloads = [] :=
    hgoes.answersNothing
  rw [hnone, List.append_nil]
  exact (h.reported hgoes).resolving

theorem resolving_step (decompressGZip : Data → Option Data) (x : State ρ)
    (event : TransactionPayloads.Event ρ)
    (h : Resolving x.world x.handed x.called []) :
    Resolving (step decompressGZip x event).world (step decompressGZip x event).handed
      (step decompressGZip x event).called [] := by
  cases event with
  | queues event =>
    cases event with
    | call call => exact resolving_goes h (goes_toManager rfl)
    | timer T => exact resolving_goes h (goes_toTransport rfl)
    | opens c => exact resolving_goes h (goes_toTcp rfl)
    | closes c => exact resolving_goes h (goes_toTcp rfl)
    | runManager around =>
      have hanswered := (answered_runManager h around).resolving
      rw [← List.append_nil x.called] at hanswered
      exact hanswered
    | runTransport timing =>
      have hreported := (reported_runTransport h timing).resolving
      rw [← List.append_nil x.handed] at hreported
      exact hreported
    | runTcp connects =>
      obtain ⟨hreported, hnone⟩ := reported_runTcp h connects
      have hhanded : (TransactionPayloads.step decompressGZip x
          (.queues (.runTcp connects))).handed = x.handed :=
        (congrArg (x.handed ++ ·) hnone).trans (List.append_nil _)
      rw [hhanded]
      exact hreported.resolving
  | callback callback => exact resolving_goes h (goes_runCallback decompressGZip _ callback)
  | requestTransportTransaction => exact resolving_goes h (goes_requestTransportTransaction _)
  | resetSessionInfo createsTransport =>
    exact resolving_goes h (goes_resetSessionInfo _ createsTransport)
  | sessionChanged info =>
    exact resolving_goes h (goes_of_same rfl rfl rfl rfl rfl rfl (Calms.refl _))
  | stop => exact resolving_goes h (goes_dropTransport _)
  | serviceTransaction =>
    have hanswered := (answered_serviceTransaction h).resolving
    rw [← List.append_nil x.called] at hanswered
    exact hanswered
  | transportReleased =>
    have hreported := (reported_releaseTransport h).resolving
    rw [← List.append_nil x.handed] at hreported
    exact hreported

theorem resolving_run (decompressGZip : Data → Option Data)
    (events : List (TransactionPayloads.Event ρ)) :
    Resolving (run (step decompressGZip) ({} : State ρ) events).world
      (run (step decompressGZip) ({} : State ρ) events).handed
      (run (step decompressGZip) ({} : State ρ) events).called [] := by
  have hrun : ∀ x : State ρ, Resolving x.world x.handed x.called [] →
      Resolving (run (step decompressGZip) x events).world
        (run (step decompressGZip) x events).handed
        (run (step decompressGZip) x events).called [] :=
    run_invariant (resolving_step decompressGZip) events
  exact hrun {} resolving_start

/-- At all times a payload that was handed over is underway once, or its completion was
called once. -/
theorem payloads_accounted (decompressGZip : Data → Option Data)
    (events : List (TransactionPayloads.Event ρ)) :
    let x := run (step decompressGZip) ({} : State ρ) events
    (x.called ++ underway x.world).Nodup ∧ x.handed.Perm (x.called ++ underway x.world) := by
  have h := resolving_run decompressGZip events
  have hbalance := h.balance
  rw [List.nil_append] at hbalance
  exact ⟨hbalance.nodup h.distinct, hbalance⟩

/-- In every reachable state with empty queues no request waits for a message id,
every payload was handed over once, and the completions that were called are those
of the payloads that were handed over. -/
theorem transactions_resolved (decompressGZip : Data → Option Data)
    (events : List (TransactionPayloads.Event ρ))
    (hidle : Idle (run (step decompressGZip) ({} : State ρ) events).world) :
    (∀ request ∈ (run (step decompressGZip) ({} : State ρ) events).world.service.requests,
        isWaiting request = false) ∧
      (run (step decompressGZip) ({} : State ρ) events).handed.Nodup ∧
      (run (step decompressGZip) ({} : State ρ) events).called.Perm
        (run (step decompressGZip) ({} : State ρ) events).handed := by
  have h := resolving_run decompressGZip events
  obtain ⟨hmanager, htransport, htcp⟩ := hidle
  have hunderway : underway (run (step decompressGZip) ({} : State ρ) events).world = [] := by
    unfold underway
    rw [htransport, htcp]
    rfl
  refine ⟨?_, h.distinct, ?_⟩
  · intro request hrequest
    by_contra hwaits
    rw [Bool.not_eq_false] at hwaits
    obtain ⟨payload, hpayload, _⟩ := h.covered request hrequest hwaits
    rw [hunderway, hmanager] at hpayload
    cases hpayload
  · have hbalance := h.balance
    rw [hunderway, List.append_nil, List.append_nil] at hbalance
    exact hbalance.symm

/-- A request is added and its payload handed to the first transport.  The transport
is replaced while its answer waits, and the answer outlives the attempt to release
it. -/
def replacedEvents : List (TransactionPayloads.Event Unit) :=
  (sendEvents.take 10).map .queues ++
    [ .queues (.call .resetTransport), .queues (.runManager sampleAround), .transportReleased,
      .queues (.runTransport sampleTiming), .queues (.runTransport sampleTiming),
      .queues (.runTransport sampleTiming), .queues (.runTransport sampleTiming),
      .queues (.runTcp true), .queues (.runTcp true), .queues (.runTcp true),
      .queues (.runManager sampleAround) ]

/-- No payload of this run is lost. -/
theorem transactions_resolved_replaced :
    Idle (run (TransactionPayloads.step fun _ => none) ({} : State Unit) replacedEvents).world ∧
      (run (TransactionPayloads.step fun _ => none) ({} : State Unit)
        replacedEvents).handed.length = 1 ∧
      (run (TransactionPayloads.step fun _ => none) ({} : State Unit) replacedEvents).called.Perm
        (run (TransactionPayloads.step fun _ => none) ({} : State Unit)
          replacedEvents).handed := by
  have hidle : Idle (run (TransactionPayloads.step fun _ => none) ({} : State Unit)
      replacedEvents).world := ⟨rfl, rfl, rfl⟩
  exact ⟨hidle, rfl, (transactions_resolved _ replacedEvents hidle).2.2⟩

end TelegramPub.Ports.TransactionResolution
