import TelegramPub.Ports.RequestMessageService
import TelegramPub.Ports.Session

/-!
# new_session_created

When the server has lost the session it sends `new_session_created` with the
first message id it knows.  `MTProto` passes the notice on to its message
services, so that whatever waits for an answer to an older message is sent
again or given up.

A service is notified only if it implements the selector that `MTProto` sends.
`MTTimeSyncMessageService` implements the notice under another selector, so it
never hears of it.  `newSessionCreated_settles_iff` shows that this is the
only way in which a service is left waiting.
-/

namespace TelegramPub.Ports.NewSessionCreated

open Ports.MessageTransaction Ports.RequestMessageService Ports.Session

variable {ρ : Type}

/-- `MTTimeSyncMessageService`, as far as its outstanding query is concerned. -/
structure TimeSyncService where
  currentMessageId : Int := 0
  currentTransactionId : Option TransactionId := none
  currentSampleAbsoluteStartTime : Rat := 0
  deriving DecidableEq

/-- The time-sync service answers a transaction request with a new query. -/
def TimeSyncService.sendsAgain (s : TimeSyncService) : Bool :=
  s.currentTransactionId.isNone

/-- `MTResendMessageService`: it asks the server to send `messageId` again. -/
structure ResendService where
  messageId : Int
  currentRequestMessageId : Int := 0
  currentRequestTransactionId : Option TransactionId := none
  deriving DecidableEq

/-- The resend service answers a transaction request with a new query. -/
def ResendService.sendsAgain (s : ResendService) : Bool :=
  s.currentRequestMessageId == 0 || s.currentRequestTransactionId.isNone

/-- The message services that wait for answers. -/
inductive MessageService (ρ : Type) where
  | request (service : Service ρ)
  | resend (service : ResendService)
  | timeSync (service : TimeSyncService)

/-- The selectors under which the notice of a server session change is
implemented in the source. -/
inductive Selector where
  | otherValidMessageIds
  | messageIdsInFirstValidContainer
  deriving DecidableEq

/-- The selector each class implements. -/
def MessageService.selector : MessageService ρ → Selector
  | .request _ => .otherValidMessageIds
  | .resend _ => .otherValidMessageIds
  | .timeSync _ => .messageIdsInFirstValidContainer

/-- Whether the session change makes the message id invalid.  Zero stands for
no message. -/
def isLost (firstValidMessageId : Int) (validMessageIds : List Int) (messageId : Int) :
    Bool :=
  messageId != 0 && decide (messageId < firstValidMessageId) &&
    !validMessageIds.contains messageId

/-- The implementation of the notice in each class.  A resend service whose
query is lost reports to `MTProto`, which removes it. -/
def MessageService.changedSession (firstValidMessageId : Int)
    (validMessageIds : List Int) : MessageService ρ → Option (MessageService ρ)
  | .request service =>
    some (.request
      (serverDidChangeSession service firstValidMessageId validMessageIds).1)
  | .resend service =>
    if isLost firstValidMessageId validMessageIds service.currentRequestMessageId then none
    else some (.resend service)
  | .timeSync service =>
    if isLost firstValidMessageId validMessageIds service.currentMessageId then
      some (.timeSync { currentMessageId := 0, currentTransactionId := none,
                        currentSampleAbsoluteStartTime := 0 })
    else some (.timeSync service)

/-- The message `MTProto` sends to one service, if the service responds to its
selector. -/
def notify (firstValidMessageId : Int) (otherValidMessageIds : List Int)
    (service : MessageService ρ) : Option (MessageService ρ) :=
  if service.selector = .otherValidMessageIds then
    service.changedSession firstValidMessageId otherValidMessageIds
  else some service

/-- The branch of `_processIncomingMessage:` for `MTNewSessionCreatedMessage`.
The loop runs downwards, so a service that is removed disturbs no other. -/
def processNewSessionCreated (sessionInfo : SessionInfo) (services : List (MessageService ρ))
    (firstValidMessageId : Int) : List (MessageService ρ) :=
  services.filterMap (notify firstValidMessageId
    (messageIdsInContainersAfterMessageId sessionInfo firstValidMessageId))

/-- The service has sent the message, waits for its answer and will not send it
again by itself.  Drop requests are sent with every transaction, so they never
wait. -/
def WaitsFor (messageId : Int) : MessageService ρ → Prop
  | .request service => ∃ request ∈ service.requests, ∃ context,
      request.requestContext = some context ∧ context.messageId = messageId ∧
        needsSending request = false
  | .resend service =>
    service.currentRequestMessageId = messageId ∧ messageId ≠ 0 ∧
      service.sendsAgain = false
  | .timeSync service =>
    service.currentMessageId = messageId ∧ messageId ≠ 0 ∧ service.sendsAgain = false

/-- No answer is awaited to a message that the server has lost. -/
def Settled (firstValidMessageId : Int) (otherValidMessageIds : List Int)
    (service : MessageService ρ) : Prop :=
  ∀ messageId, WaitsFor messageId service → messageId < firstValidMessageId →
    messageId ∈ otherValidMessageIds

theorem not_isLost {firstValidMessageId : Int} {validMessageIds : List Int} {messageId : Int}
    (hnotLost : isLost firstValidMessageId validMessageIds messageId = false)
    (hzero : messageId ≠ 0) (hold : messageId < firstValidMessageId) :
    messageId ∈ validMessageIds := by
  by_contra hmem
  have hlost : isLost firstValidMessageId validMessageIds messageId = true := by
    simp [isLost, hzero, hold, hmem]
  rw [hlost] at hnotLost
  exact absurd hnotLost (by decide)

/-- The request service forgets the context of every lost message. -/
theorem request_settled (service : Service ρ) (firstValidMessageId : Int)
    (validMessageIds : List Int) :
    Settled firstValidMessageId validMessageIds (.request
      (serverDidChangeSession service firstValidMessageId validMessageIds).1) := by
  rintro messageId ⟨request, hrequest, context, hcontext, hid, _⟩ hold
  obtain ⟨before, _, hbefore⟩ := List.mem_map.1 hrequest
  by_cases hinvalid : isInvalidated firstValidMessageId validMessageIds before = true
  · rw [if_pos hinvalid] at hbefore
    rw [← hbefore] at hcontext
    simp [forgetContext] at hcontext
  · rw [if_neg hinvalid] at hbefore
    rw [← hbefore] at hcontext
    by_contra hmem
    apply hinvalid
    simp [isInvalidated, hcontext, hid, hold, hmem]

theorem notify_settled {firstValidMessageId : Int} {otherValidMessageIds : List Int}
    {service service' : MessageService ρ}
    (hselector : service.selector = .otherValidMessageIds)
    (hnotify : notify firstValidMessageId otherValidMessageIds service = some service') :
    Settled firstValidMessageId otherValidMessageIds service' := by
  unfold notify at hnotify
  rw [if_pos hselector] at hnotify
  cases service with
  | request service =>
    have heq := Option.some.inj hnotify
    rw [← heq]
    exact request_settled service firstValidMessageId otherValidMessageIds
  | resend service =>
    simp only [MessageService.changedSession] at hnotify
    split at hnotify
    · cases hnotify
    next hnotLost =>
      have heq := Option.some.inj hnotify
      rw [← heq]
      rintro messageId ⟨hid, hzero, _⟩ hold
      rw [hid] at hnotLost
      exact not_isLost (by simpa using hnotLost) hzero hold
  | timeSync service => exact absurd hselector (by simp [MessageService.selector])

/-- After `new_session_created` no service waits for an answer to a lost
message, exactly when no time-sync service waited for one before. -/
theorem newSessionCreated_settles_iff (sessionInfo : SessionInfo)
    (services : List (MessageService ρ)) (firstValidMessageId : Int) :
    (∀ service ∈ processNewSessionCreated sessionInfo services firstValidMessageId,
        Settled firstValidMessageId
          (messageIdsInContainersAfterMessageId sessionInfo firstValidMessageId) service) ↔
      ∀ timeSync, .timeSync timeSync ∈ services →
        Settled firstValidMessageId
          (messageIdsInContainersAfterMessageId sessionInfo firstValidMessageId)
          (.timeSync timeSync : MessageService ρ) := by
  constructor
  · intro hsettled timeSync hmem
    apply hsettled
    exact List.mem_filterMap.2 ⟨.timeSync timeSync, hmem, rfl⟩
  · intro htimeSync service' hmem
    obtain ⟨service, hservice, hnotify⟩ := List.mem_filterMap.1 hmem
    by_cases hselector : service.selector = .otherValidMessageIds
    · exact notify_settled hselector hnotify
    · have hsame : service = service' := by
        unfold notify at hnotify
        rw [if_neg hselector] at hnotify
        exact Option.some.inj hnotify
      subst hsame
      cases service with
      | request service => exact absurd rfl hselector
      | resend service => exact absurd rfl hselector
      | timeSync service => exact htimeSync service hservice

/-- A time-sync query sent as message 4 is not known to the server after a
`new_session_created` that starts at 8. -/
theorem timeSync_left_waiting :
    ¬ ∀ service ∈ processNewSessionCreated {}
        ([.timeSync ⟨4, some 0, 0⟩] : List (MessageService Unit)) 8,
      Settled 8 (messageIdsInContainersAfterMessageId {} 8) service := by
  intro hsettled
  have hmem := hsettled (.timeSync ⟨4, some 0, 0⟩) (List.mem_singleton.2 rfl) 4
    ⟨rfl, by decide, rfl⟩ (by decide)
  exact absurd hmem (by decide)

end TelegramPub.Ports.NewSessionCreated
