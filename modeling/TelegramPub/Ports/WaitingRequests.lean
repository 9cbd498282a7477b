import TelegramPub.Ports.TransactionPayloads

/-!
# Which requests wait for a message id

A request is marked as waiting by the `prepared` block of a transaction and by
nothing else.  Every other callback of the request service leaves the mark as it
is or clears it (`calms_respond`), and so do the two endings of a transaction:
its `completion` block clears the mark of every request it contains.
-/

namespace TelegramPub.Ports.WaitingRequests

open Verified.Bytes Verified.FirstMatch Ports.MessageTransaction Ports.RequestMessageService
open Ports.TransactionPayloads
open Ports.PayloadCompletion (Sent reportService)

variable {ρ : Type}

/-- A request that a callback made of another one, and that waits only if the
other one did. -/
def CalmChange (request request' : Request ρ) : Prop :=
  request'.internalId = request.internalId ∧
    (isWaiting request' = true → isWaiting request = true)

/-- No request waits that did not wait before, and the messages are numbered on. -/
structure Calms (s s' : Service ρ) : Prop where
  waiting : ∀ request' ∈ s'.requests, isWaiting request' = true →
    ∃ request ∈ s.requests, CalmChange request request'
  counter : s.nextMessageInternalId ≤ s'.nextMessageInternalId

theorem CalmChange.refl (request : Request ρ) : CalmChange request request := ⟨rfl, id⟩

theorem CalmChange.trans {r r' r'' : Request ρ} (h : CalmChange r r') (h' : CalmChange r' r'') :
    CalmChange r r'' :=
  ⟨h'.1.trans h.1, fun hwaits => h.2 (h'.2 hwaits)⟩

theorem Calms.refl (s : Service ρ) : Calms s s :=
  ⟨fun request hmem _ => ⟨request, hmem, CalmChange.refl request⟩, Nat.le_refl _⟩

variable {s s' : Service ρ}

theorem Calms.trans {s'' : Service ρ} (h : Calms s s') (h' : Calms s' s'') :
    Calms s s'' := by
  constructor
  · intro request'' hmem'' hwaits
    obtain ⟨request', hmem', hchange'⟩ := h'.waiting request'' hmem'' hwaits
    obtain ⟨request, hmem, hchange⟩ := h.waiting request' hmem' (hchange'.2 hwaits)
    exact ⟨request, hmem, hchange.trans hchange'⟩
  · exact h.counter.trans h'.counter

/-! ## Shapes of callbacks -/

theorem calms_of_requests (hrequests : s'.requests = s.requests)
    (hcounter : s.nextMessageInternalId ≤ s'.nextMessageInternalId) : Calms s s' := by
  constructor
  · intro request hmem _
    exact ⟨request, hrequests ▸ hmem, CalmChange.refl request⟩
  · exact hcounter

theorem calms_map {f : Request ρ → Request ρ} (hrequests : s'.requests = s.requests.map f)
    (hcounter : s'.nextMessageInternalId = s.nextMessageInternalId)
    (hf : ∀ request, CalmChange request (f request)) : Calms s s' := by
  constructor
  · grind
  · exact hcounter.ge

theorem calms_updateFirst {p : Request ρ → Bool} {f : Request ρ → Option (Request ρ)}
    (hrequests : s'.requests = updateFirst p f s.requests)
    (hcounter : s'.nextMessageInternalId = s.nextMessageInternalId)
    (hf : ∀ request request', f request = some request' → CalmChange request request') :
    Calms s s' := by
  constructor
  · intro request' hmem _
    rw [hrequests] at hmem
    rcases mem_updateFirst hmem with hold | ⟨request, hrequest, heq⟩
    · exact ⟨request', hold, CalmChange.refl request'⟩
    · exact ⟨request, hrequest, hf request request' heq⟩
  · exact hcounter.ge

theorem calms_notice {concerns : Request ρ → Bool} {change : Request ρ → Request ρ}
    (hchange : ∀ request, CalmChange request (change request)) :
    Calms s (noticeRequests s concerns change).1 := by
  refine calms_map rfl rfl ?_
  intro request
  split
  · exact hchange request
  · exact CalmChange.refl request

/-! ## Changes of one request -/

theorem calmChange_forgetContext (request : Request ρ) :
    CalmChange request (forgetContext request) :=
  ⟨rfl, fun hwaits => by cases hwaits⟩

theorem calmChange_stopWaiting (request : Request ρ) :
    CalmChange request (stopWaiting request) := by
  refine ⟨rfl, fun hwaits => ?_⟩
  unfold isWaiting stopWaiting at hwaits
  cases hcontext : request.requestContext with
  | none => simp [hcontext] at hwaits
  | some context => simp [hcontext] at hwaits

/-- A change of the context that leaves the mark alone. -/
theorem calmChange_context {request : Request ρ} {f : RequestContext → RequestContext}
    (hf : ∀ c, (f c).waitingForMessageId = c.waitingForMessageId) :
    CalmChange request { request with requestContext := request.requestContext.map f } := by
  refine ⟨rfl, fun hwaits => ?_⟩
  unfold isWaiting at hwaits ⊢
  cases hcontext : request.requestContext with
  | none => simp [hcontext] at hwaits
  | some context => simpa [hcontext, hf] using hwaits

theorem calmChange_forgetTransaction (request : Request ρ) :
    CalmChange request (forgetTransaction request) :=
  calmChange_context fun _ => rfl

theorem calms_timer (s : Service ρ) (now : Rat) : Calms s (updateRequestsTimer s now).1 := by
  refine calms_map rfl rfl ?_
  intro request
  split
  · exact ⟨rfl, id⟩
  · exact CalmChange.refl request

theorem calms_addRequest {request : Request ρ} (hnew : request.requestContext = none)
    : Calms s (addRequest s request).1 := by
  unfold addRequest
  split
  · exact Calms.refl s
  · constructor
    · intro request' hmem hwaits
      rcases List.mem_append.1 hmem with hold | hadded
      · exact ⟨request', hold, CalmChange.refl request'⟩
      · rw [List.mem_singleton.1 hadded] at hwaits
        simp [isWaiting, hnew] at hwaits
    · exact Nat.le_refl _

theorem calms_removeRequest (s : Service ρ) (internalId : Nat) (ask : Bool) (now : Rat) :
    Calms s (removeRequestByInternalId s internalId ask now).1 := by
  unfold removeRequestByInternalId
  refine Calms.trans ?_ (calms_timer _ now)
  exact calms_updateFirst rfl rfl fun _ _ h => by cases h

theorem calms_answer (s : Service ρ) (requestMessageId timestamp : Int) (now : Rat)
    (request : Request ρ) (answer : Except RpcError ρ) (effect : AnswerEffect) :
    Calms s (answerRequest s requestMessageId timestamp now request answer effect).1 := by
  unfold answerRequest
  refine Calms.trans ?_ (calms_timer _ now)
  refine calms_updateFirst rfl rfl ?_
  intro before after heq
  split at heq
  · rw [← Option.some.inj heq]
    exact ⟨rfl, fun hwaits => by cases hwaits⟩
  · cases heq

theorem calms_rpcResult (decompressGZip : Data → Option Data) (s : Service ρ)
    (requestMessageId : Int) (data : Data) (timestamp : Int) (now : Rat) :
    Calms s (receivedRpcResult decompressGZip s requestMessageId data timestamp now).1 := by
  unfold receivedRpcResult
  split
  · exact Calms.refl s
  · grind [Calms.refl, calms_answer, calms_of_requests, calms_timer]

theorem calms_confirmed (messageIds : List Int) :
    ∀ s : Service ρ, Calms s (messageDeliveryConfirmed s messageIds).1 := by
  induction messageIds with
  | nil => intro s; exact Calms.refl s
  | cons messageId messageIds ih =>
    intro s
    have hfirst : Calms s { s with requests := confirmDelivery s.requests messageId } := by
      refine calms_updateFirst rfl rfl ?_
      intro before after heq
      rw [← Option.some.inj heq]
      exact calmChange_context fun _ => rfl
    exact hfirst.trans (ih _)

theorem calms_failed (s : Service ρ) (messageId : Int) :
    Calms s (messageDeliveryFailed s messageId).1 := by
  refine calms_updateFirst rfl rfl ?_
  intro before after heq
  rw [← Option.some.inj heq]
  exact calmChange_forgetContext before

theorem calms_shouldRequest (s : Service ρ) (responseMessageId messageId : Int)
    (currentTransactionId : TransactionId) :
    Calms s (shouldRequestMessage s responseMessageId messageId currentTransactionId).1 := by
  refine calms_updateFirst rfl rfl ?_
  intro before after heq
  rw [← Option.some.inj heq]
  apply calmChange_context
  intro context
  split <;> rfl

theorem calms_didChangeSession (s : Service ρ) : Calms s (didChangeSession s).1 :=
  calms_map rfl rfl calmChange_forgetContext

theorem calms_transactionsMayHaveFailed (s : Service ρ) (transactionIds : List TransactionId) :
    Calms s (transactionsMayHaveFailed s transactionIds).1 :=
  calms_notice calmChange_forgetTransaction

theorem calms_allTransactionsMayHaveFailed (s : Service ρ) :
    Calms s (allTransactionsMayHaveFailed s).1 :=
  calms_notice calmChange_forgetTransaction

theorem calms_emission (s : Service ρ) (now : Rat) :
    Calms s (mtProtoMessageTransaction s now).2 := by
  apply calms_of_requests (RequestLifecycle.mtProtoMessageTransaction_requests s now)
  unfold mtProtoMessageTransaction
  dsimp only
  split <;> exact Nat.le_add_right _ _

/-- No callback marks a request.  The service knows of no transaction here, so the
blocks of one do nothing. -/
theorem calms_respond (decompressGZip : Data → Option Data) (s : Service ρ)
    (callback : Callback ρ) :
    Calms s (RequestLifecycle.respond decompressGZip { service := s } callback.1).1.service := by
  obtain ⟨event, hnew⟩ := callback
  cases event with
  | addRequest request => exact calms_addRequest (hnew request rfl)
  | removeRequestByInternalId internalId ask now =>
    exact calms_removeRequest s internalId ask now
  | timer now => exact calms_timer s now
  | messageTransaction now => exact calms_emission s now
  | prepared k preparedMessages => exact Calms.refl s
  | failed k => exact Calms.refl s
  | completion k transactionIds preparedMessages quickAckIds => exact Calms.refl s
  | rpcResult requestMessageId data timestamp now =>
    exact calms_rpcResult decompressGZip s requestMessageId data timestamp now
  | quickAck quickAckId => exact Calms.refl s
  | messageDeliveryConfirmed messageIds => exact calms_confirmed messageIds s
  | messageDeliveryFailed messageId => exact calms_failed s messageId
  | transactionsMayHaveFailed transactionIds =>
    exact calms_transactionsMayHaveFailed s transactionIds
  | allTransactionsMayHaveFailed => exact calms_allTransactionsMayHaveFailed s
  | shouldRequestMessage responseMessageId messageId currentTransactionId =>
    exact calms_shouldRequest s responseMessageId messageId currentTransactionId
  | messageResendRequestFailed messageId => exact calms_notice calmChange_forgetContext
  | receiveProgress messageId => exact Calms.refl s
  | didChangeSession => exact calms_didChangeSession s
  | serverDidChangeSession firstValidMessageId otherValidMessageIds =>
    exact calms_notice calmChange_forgetContext
  | authTokenUpdated => exact calms_notice fun _ => ⟨rfl, id⟩
  | contextChanged apiEnvironment force layer password token hash =>
    exact calms_of_requests rfl (Nat.le_refl _)

/-! ## The blocks of a transaction -/

/-- The payload belongs to a transaction that contains the request. -/
def Concerns (payload : Sent × Nat) (internalId : Nat) : Prop :=
  dictionary payload.1.transaction.requestInternalIdToMessageInternalId internalId ≠ none

/-- A request of the transaction does not wait after the `completion` block, and
the block does not touch the others. -/
theorem calmChange_completeRequest (t : RequestTransaction)
    (transactionIds : Nat → Option TransactionId)
    (preparedMessages : Nat → Option PreparedMessage) (quickAckIds : Nat → Option Int)
    (request : Request ρ) :
    CalmChange request (completeRequest t transactionIds preparedMessages quickAckIds request) ∧
      (t.messageFor request ≠ none →
        isWaiting (completeRequest t transactionIds preparedMessages quickAckIds request) =
          false) := by
  unfold completeRequest
  split
  · rename_i hnone
    exact ⟨CalmChange.refl request, fun hsome => absurd hnone hsome⟩
  · split
    · exact ⟨⟨rfl, fun hwaits => by cases hwaits⟩, fun _ => rfl⟩
    · refine ⟨calmChange_stopWaiting request, fun _ => ?_⟩
      unfold isWaiting stopWaiting
      cases request.requestContext <;> rfl

variable {request' : Request ρ}

theorem waiting_completion {t : RequestTransaction} {transactionIds : Nat → Option TransactionId}
    {preparedMessages : Nat → Option PreparedMessage} {quickAckIds : Nat → Option Int}
    (hmem : request' ∈ (completion s t transactionIds preparedMessages quickAckIds).requests)
    (hwaits : isWaiting request' = true) :
    ∃ request ∈ s.requests, CalmChange request request' ∧ t.messageFor request = none := by
  obtain ⟨request, hrequest, heq⟩ := List.mem_map.1 hmem
  have hchange := calmChange_completeRequest t transactionIds preparedMessages quickAckIds
    request
  rw [heq] at hchange
  refine ⟨request, hrequest, hchange.1, ?_⟩
  by_contra hsome
  rw [hchange.2 hsome] at hwaits
  cases hwaits

theorem waiting_report {sent : Sent} {payload : Nat} {ids : List Nat}
    {transactionId : Option TransactionId}
    (hmem : request' ∈ (reportService s sent payload ids transactionId).requests)
    (hwaits : isWaiting request' = true) :
    ∃ request ∈ s.requests, CalmChange request request' ∧
      sent.transaction.messageFor request = none := by
  unfold reportService at hmem
  split at hmem
  · exact waiting_completion hmem hwaits
  · exact waiting_completion hmem hwaits

theorem report_counter (s : Service ρ) (sent : Sent) (payload : Nat) (ids : List Nat)
    (transactionId : Option TransactionId) :
    (reportService s sent payload ids transactionId).nextMessageInternalId =
      s.nextMessageInternalId := by
  unfold reportService
  split <;> rfl

theorem waiting_prepared {t : RequestTransaction} {preparedMessages : Nat → Option PreparedMessage}
    (hmem : request' ∈ (prepared s t preparedMessages).requests) :
    ∃ request ∈ s.requests, request'.internalId = request.internalId ∧
      (t.messageFor request = none → request' = request) := by
  obtain ⟨request, hrequest, hid, hsame, _⟩ := PayloadCompletion.mem_prepared hmem
  exact ⟨request, hrequest, hid.symm, hsame⟩

theorem calms_abandoned (s : Service ρ) (t : RequestTransaction)
    (preparedMessages : Nat → Option PreparedMessage) :
    Calms s (completion (prepared s t preparedMessages) t (fun _ => none) (fun _ => none)
      (fun _ => none)) := by
  constructor
  · intro request'' hmem hwaits
    obtain ⟨request', hmem', hchange, hnone⟩ := waiting_completion hmem hwaits
    obtain ⟨request, hrequest, hid, hsame⟩ := waiting_prepared hmem'
    rw [PayloadCompletion.messageFor_congr t hid] at hnone
    exact ⟨request, hrequest, hsame hnone ▸ hchange⟩
  · exact Nat.le_refl _

end TelegramPub.Ports.WaitingRequests
