import TelegramPub.Ports.RequestMessageService
import TelegramPub.Verified.Machine

/-!
# The life of a request

`MTRequestMessageService` is driven by its owner, by `MTProto` and by the
blocks of the message transactions it handed out.  This module makes one
state machine of them: the state is the service together with the
transactions emitted so far, and an event is one callback, with whatever
arguments it may be called with.  Blocks of an old transaction may be called
at any time, in any order, any number of times and with any dictionaries.

The analysis is done once, in `step_cases`: as far as the list of requests and
the `completed` blocks are concerned, a step does nothing, or adds one request,
or removes one on demand, or answers one.  The statements about whole runs
follow from the balance `run_balance`, which charges every completion to an
addition.
-/

namespace TelegramPub.Ports.RequestLifecycle

open Verified.Bytes Verified.FirstMatch Verified.Machine Ports.InternalMessageParser
open Ports.MessageTransaction Ports.RequestMessageService

variable {ρ : Type}

/-- The callbacks of the service and of its transactions.  A block names its
transaction by the position at which it was emitted. -/
inductive Event (ρ : Type) where
  | addRequest (request : Request ρ)
  | removeRequestByInternalId (internalId : Nat) (askForReconnectionOnDrop : Bool)
      (currentTime : Rat)
  | timer (currentTime : Rat)
  | messageTransaction (currentTime : Rat)
  | prepared (transaction : Nat)
      (messageInternalIdToPreparedMessage : Nat → Option PreparedMessage)
  | failed (transaction : Nat)
  | completion (transaction : Nat)
      (messageInternalIdToTransactionId : Nat → Option TransactionId)
      (messageInternalIdToPreparedMessage : Nat → Option PreparedMessage)
      (messageInternalIdToQuickAckId : Nat → Option Int)
  | rpcResult (requestMessageId : Int) (data : Data) (timestamp : Int)
      (currentTime : Rat)
  | quickAck (quickAckId : Int)
  | messageDeliveryConfirmed (messageIds : List Int)
  | messageDeliveryFailed (messageId : Int)
  | transactionsMayHaveFailed (transactionIds : List TransactionId)
  | allTransactionsMayHaveFailed
  | shouldRequestMessage (responseMessageId messageId : Int)
      (currentTransactionId : TransactionId)
  | messageResendRequestFailed (messageId : Int)
  | receiveProgress (messageId : Int)
  | didChangeSession
  | serverDidChangeSession (firstValidMessageId : Int) (otherValidMessageIds : List Int)
  | authTokenUpdated
  | contextChanged (apiEnvironment : Option ApiEnvironment)
      (forceBackgroundRequests : Bool) (currentLayer : Int)
      (passwordInputRequired requiresAuthToken : Bool)
      (authApiInitializationHash : Option String)

/-- The service and the transactions it has emitted, oldest first. -/
structure World (ρ : Type) where
  service : Service ρ := {}
  transactions : List RequestTransaction := []

/-- A callback that only changes the service. -/
def World.served (w : World ρ) (result : Service ρ × List (Output ρ)) :
    World ρ × List (Output ρ) :=
  ({ w with service := result.1 }, result.2)

/-- A block of the transaction at the given position. -/
def World.block (w : World ρ) (transaction : Nat)
    (run : RequestTransaction → Service ρ) : World ρ × List (Output ρ) :=
  match w.transactions[transaction]? with
  | none => (w, [])
  | some t => ({ w with service := run t }, [])

/-- One callback, with what it does to the outside. -/
def respond (decompressGZip : Data → Option Data) (w : World ρ) :
    Event ρ → World ρ × List (Output ρ)
  | .addRequest request => w.served (addRequest w.service request)
  | .removeRequestByInternalId internalId ask now =>
    w.served (removeRequestByInternalId w.service internalId ask now)
  | .timer now => w.served (updateRequestsTimer w.service now)
  | .messageTransaction now =>
    let emission := mtProtoMessageTransaction w.service now
    ({ service := emission.2
       transactions := w.transactions ++ emission.1.toList }, [])
  | .prepared k preparedMessages =>
    w.block k fun t => prepared w.service t preparedMessages
  | .failed k => w.block k fun t => failed w.service t
  | .completion k transactionIds preparedMessages quickAckIds =>
    w.block k fun t =>
      completion w.service t transactionIds preparedMessages quickAckIds
  | .rpcResult requestMessageId data timestamp now =>
    w.served (receivedRpcResult decompressGZip w.service requestMessageId data
      timestamp now)
  | .quickAck quickAckId => w.served (receivedQuickAck w.service quickAckId)
  | .messageDeliveryConfirmed messageIds =>
    w.served (messageDeliveryConfirmed w.service messageIds)
  | .messageDeliveryFailed messageId =>
    w.served (messageDeliveryFailed w.service messageId)
  | .transactionsMayHaveFailed transactionIds =>
    w.served (transactionsMayHaveFailed w.service transactionIds)
  | .allTransactionsMayHaveFailed => w.served (allTransactionsMayHaveFailed w.service)
  | .shouldRequestMessage responseMessageId messageId currentTransactionId =>
    w.served
      ((shouldRequestMessage w.service responseMessageId messageId
        currentTransactionId).1, [])
  | .messageResendRequestFailed messageId =>
    w.served (messageResendRequestFailed w.service messageId)
  | .receiveProgress messageId => w.served (updateReceiveProgress w.service messageId)
  | .didChangeSession => w.served (didChangeSession w.service)
  | .serverDidChangeSession firstValidMessageId otherValidMessageIds =>
    w.served (serverDidChangeSession w.service firstValidMessageId
      otherValidMessageIds)
  | .authTokenUpdated => w.served (authTokenUpdated w.service)
  | .contextChanged apiEnvironment forceBackgroundRequests currentLayer
      passwordInputRequired requiresAuthToken authApiInitializationHash =>
      w.served ({ w.service with
        apiEnvironment, forceBackgroundRequests, currentLayer, passwordInputRequired
        requiresAuthToken, authApiInitializationHash }, [])

/-- The step function of the machine. -/
def step (decompressGZip : Data → Option Data) (w : World ρ) (e : Event ρ) : World ρ :=
  (respond decompressGZip w e).1

/-- Everything a run does to the outside, in order. -/
def outputs (decompressGZip : Data → Option Data) : World ρ → List (Event ρ) →
    List (Output ρ)
  | _, [] => []
  | w, e :: es =>
    (respond decompressGZip w e).2 ++ outputs decompressGZip (step decompressGZip w e) es

/-- The requests whose `completed` block is called, in order. -/
def completedIds (outs : List (Output ρ)) : List Nat :=
  outs.filterMap fun
    | .completed internalId _ _ _ => some internalId
    | _ => none

theorem completedIds_append (outs outs' : List (Output ρ)) :
    completedIds (outs ++ outs') = completedIds outs ++ completedIds outs' :=
  List.filterMap_append

theorem completedIds_ite (b : Bool) {outs : List (Output ρ)} (h : completedIds outs = []) :
    completedIds (if b then outs else []) = [] := by
  cases b with
  | true => exact h
  | false => rfl

/-- The request an event offers to the service. -/
def addedId : Event ρ → Option Nat
  | .addRequest request => some request.internalId
  | _ => none

/-! ## What each callback does to the list of requests -/

/-- A map that keeps the ids of the requests. -/
theorem ids_map {requests : List (Request ρ)} {f : Request ρ → Request ρ}
    (hf : ∀ request, (f request).internalId = request.internalId) :
    (requests.map f).map (·.internalId) = requests.map (·.internalId) := by
  rw [List.map_map]
  apply List.map_congr_left
  intro request _
  exact hf request

theorem ids_updateFirst {requests : List (Request ρ)} {p : Request ρ → Bool}
    {f : Request ρ → Request ρ}
    (hf : ∀ request, (f request).internalId = request.internalId) :
    (updateFirst p (fun request => some (f request)) requests).map (·.internalId) =
      requests.map (·.internalId) := by
  cases hfind : requests.find? p with
  | none => rw [updateFirst_of_find?_none hfind]
  | some request => exact map_updateFirst_of_some hfind rfl (hf request)

theorem updateRequestsTimer_ids (s : Service ρ) (now : Rat) :
    (updateRequestsTimer s now).1.internalIds = s.internalIds := by
  apply ids_map
  intro request
  by_cases hdue : isDue now request = true
  · simp [hdue, clearExecuteTime]
  · simp [hdue]

theorem updateRequestsTimer_completed (s : Service ρ) (now : Rat) :
    completedIds (updateRequestsTimer s now).2 = [] := by
  unfold updateRequestsTimer
  by_cases hdue : s.requests.any (isDue now) = true
  · simp [hdue, completedIds]
  · simp [hdue, completedIds]

theorem askWhen_completed (changed : Bool) :
    completedIds (askWhen changed : List (Output ρ)) = [] := by
  cases changed <;> rfl

theorem completedIds_filterMap_ite (p : Request ρ → Bool) (o : Request ρ → Output ρ)
    (ho : ∀ request, completedIds [o request] = []) (requests : List (Request ρ)) :
    completedIds (requests.filterMap fun request =>
      if p request then some (o request) else none) = [] := by
  induction requests with
  | nil => rfl
  | cons request requests ih =>
    by_cases hp : p request = true
    · rw [List.filterMap_cons_some (by rw [if_pos hp]), ← List.singleton_append,
        completedIds_append, ho, ih]
      rfl
    · rw [List.filterMap_cons_none (by rw [if_neg hp])]
      exact ih

theorem noticeRequests_ids (s : Service ρ) (concerns : Request ρ → Bool)
    {change : Request ρ → Request ρ}
    (hchange : ∀ request, (change request).internalId = request.internalId) :
    (noticeRequests s concerns change).1.internalIds = s.internalIds := by
  apply ids_map
  intro request
  by_cases hconcerns : concerns request = true
  · simp [hconcerns, hchange]
  · simp [hconcerns]

theorem confirmDelivery_ids (messageIds : List Int) :
    ∀ requests : List (Request ρ),
      (messageIds.foldl confirmDelivery requests).map (·.internalId) =
        requests.map (·.internalId) := by
  induction messageIds with
  | nil => intro requests; rfl
  | cons messageId messageIds ih =>
    intro requests
    rw [List.foldl_cons, ih]
    exact ids_updateFirst (fun _ => rfl)

theorem prepared_ids (s : Service ρ) (t : RequestTransaction)
    (preparedMessages : Nat → Option PreparedMessage) :
    (prepared s t preparedMessages).internalIds = s.internalIds := by
  apply ids_map
  intro request
  split <;> rfl

theorem failed_ids (s : Service ρ) (t : RequestTransaction) :
    (failed s t).internalIds = s.internalIds := by
  apply ids_map
  intro request
  split <;> rfl

theorem completion_ids (s : Service ρ) (t : RequestTransaction)
    (transactionIds : Nat → Option TransactionId)
    (preparedMessages : Nat → Option PreparedMessage)
    (quickAckIds : Nat → Option Int) :
    (completion s t transactionIds preparedMessages quickAckIds).internalIds =
      s.internalIds := by
  apply ids_map
  intro request
  unfold completeRequest
  split
  · rfl
  · split <;> rfl

theorem didChangeSession_ids (s : Service ρ) :
    (didChangeSession s).1.internalIds = s.internalIds :=
  ids_map fun _ => rfl

theorem mtProtoMessageTransaction_requests (s : Service ρ) (now : Rat) :
    (mtProtoMessageTransaction s now).2.requests = s.requests := by
  unfold mtProtoMessageTransaction
  dsimp only
  split <;> rfl

theorem removeRequest_ids (s : Service ρ) (internalId : Nat) (ask : Bool) (now : Rat)
    (hnodup : s.internalIds.Nodup) :
    (removeRequestByInternalId s internalId ask now).1.internalIds =
      s.internalIds.erase internalId := by
  unfold removeRequestByInternalId
  rw [updateRequestsTimer_ids]
  unfold Service.internalIds
  cases hfind : s.requests.find? (fun request => request.internalId == internalId) with
  | none =>
    rw [updateFirst_of_find?_none hfind]
    have habsent : internalId ∉ s.requests.map (·.internalId) := by
      grind
    exact (List.erase_of_not_mem habsent).symm
  | some request =>
    have hid : request.internalId = internalId := by
      simpa using List.find?_some hfind
    rw [map_updateFirst_of_none hnodup hfind rfl, hid]

theorem removeRequest_completed (s : Service ρ) (internalId : Nat) (ask : Bool) (now : Rat) :
    completedIds (removeRequestByInternalId s internalId ask now).2 = [] := by
  unfold removeRequestByInternalId
  rw [completedIds_append, completedIds_append, updateRequestsTimer_completed,
    List.append_nil]
  have hask : completedIds ((if ask then [.requestSecureTransportReset] else []) ++
      [.requestTransportTransaction] : List (Output ρ)) = [] := by
    rw [completedIds_append, completedIds_ite ask rfl]
    rfl
  rw [completedIds_ite _ hask, completedIds_ite _ rfl]
  rfl

/-- What an answer that reaches its request does: the request is restarted and
stays, or it is erased and its `completed` block, if set, is called. -/
theorem answerRequest_cases (s : Service ρ) (requestMessageId timestamp : Int) (now : Rat)
    (request : Request ρ) (answer : Except RpcError ρ) (effect : AnswerEffect)
    (hnodup : s.internalIds.Nodup)
    (hfind : s.requests.find? (isAnswerFor requestMessageId) = some request) :
    let result := answerRequest s requestMessageId timestamp now request answer effect
    (result.1.internalIds = s.internalIds ∧ completedIds result.2 = []) ∨
      (result.1.internalIds = s.internalIds.erase request.internalId ∧
        completedIds result.2 = if request.hasCompleted then [request.internalId] else []) := by
  intro result
  have hids : result.1.internalIds =
      (updateFirst (isAnswerFor requestMessageId)
        (fun request =>
          if effect.restartRequest then
            some { request with requestContext := none, errorContext := effect.errorContext }
          else none) s.requests).map (·.internalId) :=
    updateRequestsTimer_ids _ _
  have hcompleted : completedIds result.2 =
      if !effect.restartRequest && request.hasCompleted then [request.internalId] else [] := by
    show completedIds (answerRequest s requestMessageId timestamp now request answer
      effect).2 = _
    unfold answerRequest
    rw [completedIds_append, completedIds_append, completedIds_append,
      updateRequestsTimer_completed, List.append_nil]
    rw [completedIds_ite effect.authorizationRequired rfl,
      completedIds_ite (List.isEmpty _) rfl, List.nil_append, List.append_nil]
    split
    · cases answer <;> rfl
    · rfl
  rw [hids, hcompleted]
  cases hrestart : effect.restartRequest with
  | true =>
    left
    constructor
    · exact map_updateFirst_of_some hfind rfl rfl
    · rfl
  | false =>
    right
    constructor
    · exact map_updateFirst_of_none hnodup hfind rfl
    · rfl

/-- What an `rpc_result` does: nothing to the list of requests, or it erases a
request that waits for exactly this message id. -/
theorem receivedRpcResult_cases (decompressGZip : Data → Option Data) (s : Service ρ)
    (requestMessageId : Int) (data : Data) (timestamp : Int) (now : Rat)
    (hnodup : s.internalIds.Nodup) :
    let result := receivedRpcResult decompressGZip s requestMessageId data timestamp now
    (result.1.internalIds = s.internalIds ∧ completedIds result.2 = []) ∨
      ∃ request ∈ s.requests,
        request.requestContext.map (·.messageId) = some requestMessageId ∧
        result.1.internalIds = s.internalIds.erase request.internalId ∧
        completedIds result.2 =
          if request.hasCompleted then [request.internalId] else [] := by
  intro result
  show (result.1.internalIds = _ ∧ completedIds result.2 = []) ∨ _
  have hresult : result = receivedRpcResult decompressGZip s requestMessageId data
    timestamp now := rfl
  clear_value result
  unfold receivedRpcResult at hresult
  cases hparse : parseMessage data with
  | error e =>
    rw [hparse] at hresult
    subst hresult
    exact .inl ⟨rfl, rfl⟩
  | ok maybeInternalMessage =>
    rw [hparse] at hresult
    dsimp only at hresult
    split at hresult
    · subst hresult
      exact .inl ⟨rfl, rfl⟩
    · cases hfind : s.requests.find? (isAnswerFor requestMessageId) with
      | none =>
        grind [updateRequestsTimer_completed, updateRequestsTimer_ids]
      | some request =>
        have hmem : request ∈ s.requests := List.mem_of_find?_eq_some hfind
        have hmessage : request.requestContext.map (·.messageId) =
            some requestMessageId := by
          have hanswer := List.find?_some hfind
          unfold isAnswerFor at hanswer
          cases hcontext : request.requestContext with
          | none => simp [hcontext] at hanswer
          | some context => simpa [hcontext] using hanswer
        have hanswered : ∀ answer effect,
            result = answerRequest s requestMessageId timestamp now request answer
              effect →
            (result.1.internalIds = s.internalIds ∧ completedIds result.2 = []) ∨
              ∃ request ∈ s.requests,
                request.requestContext.map (·.messageId) = some requestMessageId ∧
                result.1.internalIds = s.internalIds.erase request.internalId ∧
                completedIds result.2 =
                  if request.hasCompleted then [request.internalId] else [] := by
          intro answer effect heq
          subst heq
          rcases answerRequest_cases s requestMessageId timestamp now request answer
            effect hnodup hfind with hsame | ⟨hids, hcompleted⟩
          · exact .inl hsame
          · exact .inr ⟨request, hmem, hmessage, hids, hcompleted⟩
        rw [hfind] at hresult
        dsimp only at hresult
        split at hresult
        · subst hresult
          exact .inl ⟨rfl, rfl⟩
        · exact hanswered _ _ hresult
        · split at hresult
          · subst hresult
            exact .inl ⟨rfl, rfl⟩
          · exact hanswered _ _ hresult

/-- Everything a step can do to the list of requests and to the `completed`
blocks. -/
inductive StepCase (w : World ρ) (e : Event ρ) (w' : World ρ) (outs : List (Output ρ)) :
    Prop where
  | kept (hids : w'.service.internalIds = w.service.internalIds)
      (hcompleted : completedIds outs = [])
  | added (request : Request ρ) (he : e = .addRequest request)
      (hnew : request.internalId ∉ w.service.internalIds)
      (hids : w'.service.internalIds = w.service.internalIds ++ [request.internalId])
      (hcompleted : completedIds outs = [])
  | removed (internalId : Nat) (ask : Bool) (now : Rat)
      (he : e = .removeRequestByInternalId internalId ask now)
      (hids : w'.service.internalIds = w.service.internalIds.erase internalId)
      (hcompleted : completedIds outs = [])
  | answered (request : Request ρ) (requestMessageId : Int) (data : Data)
      (timestamp : Int) (now : Rat)
      (he : e = .rpcResult requestMessageId data timestamp now)
      (hmem : request ∈ w.service.requests)
      (hmessage : request.requestContext.map (·.messageId) = some requestMessageId)
      (hids : w'.service.internalIds = w.service.internalIds.erase request.internalId)
      (hcompleted : completedIds outs =
        if request.hasCompleted then [request.internalId] else [])

theorem block_case (w : World ρ) (e : Event ρ) (transaction : Nat)
    {run : RequestTransaction → Service ρ}
    (hrun : ∀ t, (run t).internalIds = w.service.internalIds) :
    StepCase w e (w.block transaction run).1 (w.block transaction run).2 := by
  unfold World.block
  split
  · exact .kept rfl rfl
  · exact .kept (hrun _) rfl

theorem step_cases (decompressGZip : Data → Option Data) (w : World ρ) (e : Event ρ)
    (hnodup : w.service.internalIds.Nodup) :
    StepCase w e (respond decompressGZip w e).1 (respond decompressGZip w e).2 := by
  cases e with
  | addRequest request =>
    by_cases hmem : request.internalId ∈ w.service.internalIds
    · have heq : addRequest w.service request = (w.service, []) := if_pos hmem
      simp only [respond, heq]
      exact .kept rfl rfl
    · have heq : addRequest w.service request =
          ({ w.service with requests := w.service.requests ++ [request] },
            [.requestTransportTransaction]) := if_neg hmem
      simp only [respond, heq]
      refine .added request rfl hmem ?_ rfl
      exact List.map_append
  | removeRequestByInternalId internalId ask now =>
    exact .removed internalId ask now rfl
      (removeRequest_ids w.service internalId ask now hnodup)
      (removeRequest_completed w.service internalId ask now)
  | timer now =>
    exact .kept (updateRequestsTimer_ids _ _) (updateRequestsTimer_completed _ _)
  | messageTransaction now =>
    refine .kept ?_ rfl
    show (mtProtoMessageTransaction w.service now).2.requests.map _ = _
    rw [mtProtoMessageTransaction_requests]
    rfl
  | prepared k preparedMessages => exact block_case w _ k fun t => prepared_ids _ t _
  | failed k => exact block_case w _ k fun t => failed_ids _ t
  | completion k transactionIds preparedMessages quickAckIds =>
    exact block_case w _ k fun t => completion_ids _ t _ _ _
  | rpcResult requestMessageId data timestamp now =>
    rcases receivedRpcResult_cases decompressGZip w.service requestMessageId data
      timestamp now hnodup with ⟨hids, hcompleted⟩ |
        ⟨request, hmem, hmessage, hids, hcompleted⟩
    · exact .kept hids hcompleted
    · exact .answered request requestMessageId data timestamp now rfl hmem hmessage hids hcompleted
  | quickAck quickAckId =>
    refine .kept rfl ?_
    exact completedIds_filterMap_ite _ _ (fun _ => rfl) _
  | messageDeliveryConfirmed messageIds =>
    exact .kept (confirmDelivery_ids messageIds w.service.requests) rfl
  | messageDeliveryFailed messageId =>
    exact .kept (ids_updateFirst fun _ => rfl) (askWhen_completed _)
  | transactionsMayHaveFailed transactionIds =>
    exact .kept (noticeRequests_ids _ _ fun _ => rfl) (askWhen_completed _)
  | allTransactionsMayHaveFailed =>
    exact .kept (noticeRequests_ids _ _ fun _ => rfl) (askWhen_completed _)
  | shouldRequestMessage responseMessageId messageId currentTransactionId =>
    exact .kept (ids_updateFirst fun _ => rfl) rfl
  | messageResendRequestFailed messageId =>
    exact .kept (noticeRequests_ids _ _ fun _ => rfl) (askWhen_completed _)
  | receiveProgress messageId =>
    refine .kept rfl ?_
    exact completedIds_filterMap_ite _ _ (fun _ => rfl) _
  | didChangeSession =>
    exact .kept (didChangeSession_ids _) (askWhen_completed _)
  | serverDidChangeSession firstValidMessageId otherValidMessageIds =>
    exact .kept (noticeRequests_ids _ _ fun _ => rfl) (askWhen_completed _)
  | authTokenUpdated =>
    exact .kept (noticeRequests_ids _ _ fun _ => rfl) (askWhen_completed _)
  | contextChanged _ _ _ _ _ _ => exact .kept rfl rfl

/-- No two requests of the service have the same id. -/
def DistinctIds (w : World ρ) : Prop := w.service.internalIds.Nodup

theorem step_distinctIds (decompressGZip : Data → Option Data) (w : World ρ) (e : Event ρ)
    (hnodup : DistinctIds w) : DistinctIds (step decompressGZip w e) := by
  unfold DistinctIds step at *
  cases step_cases decompressGZip w e hnodup with
  | kept hids _ => rw [hids]; exact hnodup
  | added request _ hnew hids _ =>
    rw [hids, ← List.concat_eq_append]
    exact hnodup.concat hnew
  | removed internalId _ _ _ hids _ => rw [hids]; exact hnodup.erase _
  | answered request _ _ _ _ _ _ _ hids _ => rw [hids]; exact hnodup.erase _

/-- How often a run offers the request `id` to the service. -/
def additions (id : Nat) (es : List (Event ρ)) : Nat := (es.filterMap addedId).count id

/-- How often a run calls the `completed` block of the request `id`. -/
def completions (decompressGZip : Data → Option Data) (id : Nat) (w : World ρ)
    (es : List (Event ρ)) : Nat :=
  (completedIds (outputs decompressGZip w es)).count id

/-- The balance of one step: a completion takes the request out of the list,
and only an addition puts it there. -/
theorem step_balance (decompressGZip : Data → Option Data) (id : Nat) (w : World ρ)
    (e : Event ρ) (hnodup : DistinctIds w) :
    (completedIds (respond decompressGZip w e).2).count id +
        (step decompressGZip w e).service.internalIds.count id ≤
      w.service.internalIds.count id + additions id [e] := by
  unfold step
  cases step_cases decompressGZip w e hnodup with
  | kept hids hcompleted => simp [hids, hcompleted]
  | added request he _ hids hcompleted =>
    subst he
    simp only [hids, hcompleted, additions, addedId, List.count_append, List.count_nil,
      List.filterMap_cons, List.filterMap_nil]
    omega
  | removed internalId _ _ _ hids hcompleted =>
    grind
  | answered request _ _ _ _ _ hmem _ hids hcompleted =>
    have hin : request.internalId ∈ w.service.internalIds := List.mem_map_of_mem hmem
    by_cases hid : request.internalId = id
    · grind
    · grind

theorem run_balance (decompressGZip : Data → Option Data) (id : Nat) :
    ∀ (es : List (Event ρ)) (w : World ρ), DistinctIds w →
      completions decompressGZip id w es +
          (run (step decompressGZip) w es).service.internalIds.count id ≤
        w.service.internalIds.count id + additions id es := by
  intro es
  induction es with
  | nil =>
    intro w _
    simp [completions, outputs, completedIds, additions]
  | cons e es ih =>
    intro w hnodup
    have hstep := step_balance decompressGZip id w e hnodup
    have hrest := ih (step decompressGZip w e) (step_distinctIds decompressGZip w e hnodup)
    have hadd : additions id (e :: es) = additions id [e] + additions id es := by
      grind [additions]
    have hout : completions decompressGZip id w (e :: es) =
        (completedIds (respond decompressGZip w e).2).count id +
          completions decompressGZip id (step decompressGZip w e) es := by
      unfold completions
      rw [outputs, completedIds_append, List.count_append]
    rw [run_cons, hadd, hout]
    omega

theorem step_onlyByAnswer (decompressGZip : Data → Option Data) (w : World ρ) (e : Event ρ)
    (hnodup : DistinctIds w) (id : Nat)
    (hcompletes : id ∈ completedIds (respond decompressGZip w e).2) :
    ∃ requestMessageId data timestamp now,
      e = .rpcResult requestMessageId data timestamp now ∧
      ∃ request ∈ w.service.requests, request.internalId = id ∧
        request.requestContext.map (·.messageId) = some requestMessageId := by
  cases step_cases decompressGZip w e hnodup with
  | kept _ hcompleted => simp [hcompleted] at hcompletes
  | added _ _ _ _ hcompleted => simp [hcompleted] at hcompletes
  | removed _ _ _ _ _ hcompleted => simp [hcompleted] at hcompletes
  | answered request requestMessageId data timestamp now he hmem hmessage _ hcompleted =>
    grind

theorem step_gone (decompressGZip : Data → Option Data) (w : World ρ) (e : Event ρ)
    (hnodup : DistinctIds w) (id : Nat)
    (hgone : (∃ ask now, e = .removeRequestByInternalId id ask now) ∨
      id ∈ completedIds (respond decompressGZip w e).2) :
    (step decompressGZip w e).service.internalIds.count id = 0 := by
  rcases hgone with ⟨ask, now, rfl⟩ | hcompletes
  · show (removeRequestByInternalId w.service id ask now).1.internalIds.count id = 0
    rw [removeRequest_ids w.service id ask now hnodup, List.count_eq_zero]
    exact List.Nodup.not_mem_erase hnodup
  · have hnoAdd : additions id [e] = 0 := by
      obtain ⟨_, _, _, _, he, _⟩ :=
        step_onlyByAnswer decompressGZip w e hnodup id hcompletes
      subst he
      rfl
    have hbalance := step_balance decompressGZip id w e hnodup
    have hone : w.service.internalIds.count id ≤ 1 := List.nodup_iff_count_le_one.1 hnodup id
    have hpos : 0 < (completedIds (respond decompressGZip w e).2).count id :=
      List.count_pos_iff.2 hcompletes
    omega

/-- The ways out of the list. -/
theorem step_leaves (decompressGZip : Data → Option Data) (w : World ρ) (e : Event ρ)
    (hnodup : DistinctIds w) (request : Request ρ) (hmem : request ∈ w.service.requests)
    (hgone : request.internalId ∉ (step decompressGZip w e).service.internalIds) :
    (∃ ask now, e = .removeRequestByInternalId request.internalId ask now) ∨
      ∃ requestMessageId data timestamp now,
        e = .rpcResult requestMessageId data timestamp now ∧
        request.requestContext.map (·.messageId) = some requestMessageId ∧
        (request.hasCompleted = true →
          request.internalId ∈ completedIds (respond decompressGZip w e).2) := by
  have hin : request.internalId ∈ w.service.internalIds := List.mem_map_of_mem hmem
  unfold step at hgone
  cases step_cases decompressGZip w e hnodup with
  | kept hids _ =>
    rw [hids] at hgone
    exact absurd hin hgone
  | added _ _ _ hids _ =>
    rw [hids] at hgone
    exact absurd (List.mem_append_left _ hin) hgone
  | removed internalId ask now he hids _ =>
    grind
  | answered answeredRequest requestMessageId data timestamp now he hmem' hmessage hids
        hcompleted =>
      right
      have hid : request.internalId = answeredRequest.internalId := by
        grind
      have hsame : request = answeredRequest :=
        List.inj_on_of_nodup_map hnodup hmem hmem' hid
      subst hsame
      refine ⟨requestMessageId, data, timestamp, now, he, hmessage, ?_⟩
      intro hblock
      rw [hcompleted, hblock]
      simp

/-- The life of the requests over one run from the empty service.  An event is
read in the state that the events before it lead to. -/
structure Lifecycle (decompressGZip : Data → Option Data) (es : List (Event ρ)) : Prop where
  /-- Each addition is completed at most once. -/
  atMostOnce : ∀ id, completions decompressGZip id {} es ≤ additions id es
  /-- After a removal on demand, and likewise after a completion, the block is
  not called again before the request is added again. -/
  neverAfter : ∀ es₁ e es₂ id, es = es₁ ++ e :: es₂ →
    (∃ ask now, e = .removeRequestByInternalId id ask now) ∨
      id ∈ completedIds (respond decompressGZip (run (step decompressGZip) {} es₁) e).2 →
    ∀ es₃, es₃ <+: es₂ → additions id es₃ = 0 →
      completions decompressGZip id (run (step decompressGZip) {} (es₁ ++ [e])) es₃ = 0
  /-- The block is called only by an answer to the message of the request's
  current context. -/
  onlyByAnswer : ∀ es₁ e es₂ id, es = es₁ ++ e :: es₂ →
    id ∈ completedIds (respond decompressGZip (run (step decompressGZip) {} es₁) e).2 →
    ∃ requestMessageId data timestamp now,
      e = .rpcResult requestMessageId data timestamp now ∧
      ∃ request ∈ (run (step decompressGZip) {} es₁).service.requests,
        request.internalId = id ∧
        request.requestContext.map (·.messageId) = some requestMessageId
  /-- A request that is in the list before a step and not after it was removed
  on demand, or was answered, and then its block, if set, was called. -/
  leaves : ∀ es₁ e es₂, es = es₁ ++ e :: es₂ →
    ∀ request ∈ (run (step decompressGZip) {} es₁).service.requests,
      request.internalId ∉
        (step decompressGZip (run (step decompressGZip) {} es₁) e).service.internalIds →
      (∃ ask now, e = .removeRequestByInternalId request.internalId ask now) ∨
        ∃ requestMessageId data timestamp now,
          e = .rpcResult requestMessageId data timestamp now ∧
          request.requestContext.map (·.messageId) = some requestMessageId ∧
          (request.hasCompleted = true → request.internalId ∈ completedIds
            (respond decompressGZip (run (step decompressGZip) {} es₁) e).2)

/-- Every run keeps the life cycle. -/
theorem request_lifecycle (decompressGZip : Data → Option Data) (es : List (Event ρ)) :
    Lifecycle decompressGZip es := by
  have hstart : DistinctIds ({} : World ρ) := List.nodup_nil
  have hreach : ∀ es₁ : List (Event ρ), DistinctIds (run (step decompressGZip) {} es₁) := by
    intro es₁
    exact run_invariant (step_distinctIds decompressGZip) es₁ _ hstart
  constructor
  case atMostOnce =>
    intro id
    have hbalance := run_balance decompressGZip id es {} hstart
    have hnone : ({} : World ρ).service.internalIds.count id = 0 := rfl
    omega
  case neverAfter =>
    intro es₁ e es₂ id _ hgone es₃ _ hnoAdd
    have habsent := step_gone decompressGZip _ e (hreach es₁) id hgone
    have hbalance := run_balance decompressGZip id es₃ _
      (step_distinctIds decompressGZip _ e (hreach es₁))
    rw [run_append, run_cons, run_nil]
    omega
  case onlyByAnswer =>
    intro es₁ e es₂ id _ hcompletes
    exact step_onlyByAnswer decompressGZip _ e (hreach es₁) id hcompletes
  case leaves =>
    intro es₁ e es₂ _ request hmem hgone
    exact step_leaves decompressGZip _ e (hreach es₁) request hmem hgone

end TelegramPub.Ports.RequestLifecycle
