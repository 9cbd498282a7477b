import TelegramPub.Ports.Session
import TelegramPub.Verified.Machine
import Mathlib.Data.List.Nodup

/-!
# Incoming messages and their confirmations

A received message is passed to the services once, and a content-related one
has to be confirmed to the server in a `msgs_ack`.  The ids to confirm are a
list of the session.  They are put into every transaction that carries
confirmations; when the transport has taken the transaction they are marked with
its connection, and the next packet that arrives on this connection removes
them.

The machine carries three history variables beside the state of the source:
the ids dispatched to the services, which ids were carried by which
connection, and the content-related ids that no successful connection has
carried yet.  All of them are of the current session.
-/

namespace TelegramPub.Ports.IncomingConfirmations

open Verified.Machine Ports.MessageTransaction Ports.Session

/-- The bodies that `_processIncomingMessage` treats in different ways here. -/
inductive Body where
  | badMsgNotification (errorCode : Int)
  | badServerSalt
  | msgDetailedInfo (responseMessageId responseLength : Int)
  | msgDetailedResponseInfo (requestMessageId responseMessageId responseLength : Int)
  | other
  deriving DecidableEq

/-- `MTIncomingMessage`. -/
structure IncomingMessage where
  messageId : Int
  seqNo : Int
  size : Int
  body : Body := .other
  deriving DecidableEq

/-- The `msgs_ack` of a transaction, as its completion block captures it. -/
structure AckTransaction where
  session : Nat
  messageIds : List Int
  deriving DecidableEq

structure World where
  info : SessionInfo := {}
  session : Nat := 0
  acks : List AckTransaction := []
  dispatched : List Int := []
  carried : List (TransactionId × Int) := []
  owed : List Int := []

/-- `MTMaxUnacknowledgedMessageSize`. -/
def maxUnacknowledgedMessageSize : Int := 1 * 1024 * 1024

/-- `MTMaxUnacknowledgedMessageCount`. -/
def maxUnacknowledgedMessageCount : Nat := 64

/-- `resetSessionInfo`. -/
def resetSessionInfo (w : World) : World :=
  { info := {}
    session := w.session + 1
    acks := w.acks
    dispatched := []
    carried := []
    owed := [] }

/-- The part of `_processIncomingMessage` after the duplicate check that depends
on the body.  `wanted` says whether some service wants the answer to the given
request to be sent again. -/
def processBody (useUnauthorizedMode : Bool) (wanted : Int → Bool) (w : World) :
    Body → World
  | .badMsgNotification errorCode =>
    if !useUnauthorizedMode && (errorCode == 32 || errorCode == 33) then resetSessionInfo w
    else w
  | .badServerSalt => w
  | .msgDetailedInfo _ _ => w
  | .msgDetailedResponseInfo requestMessageId responseMessageId responseLength =>
    if wanted requestMessageId then w
    else
      { w with info := scheduleMessageConfirmation w.info responseMessageId responseLength }
  | .other => w

/-- `seqNo % 2 != 0`. -/
def isContentRelated (m : IncomingMessage) : Bool := m.seqNo % 2 != 0

/-- `_processIncomingMessage:withTransactionId:`. -/
def processIncomingMessage (useUnauthorizedMode : Bool) (wanted : Int → Bool) (w : World)
    (m : IncomingMessage) : World :=
  if messageProcessed w.info m.messageId then
    { w with info := scheduleMessageConfirmation w.info m.messageId m.size }
  else
    let info := setMessageProcessed w.info m.messageId
    let info :=
      if !useUnauthorizedMode && isContentRelated m then
        scheduleMessageConfirmation info m.messageId m.size
      else info
    processBody useUnauthorizedMode wanted
      { w with
        info
        dispatched := w.dispatched ++ [m.messageId]
        owed := if isContentRelated m then w.owed ++ [m.messageId] else w.owed }
      m.body

/-- `transportTransactionsSucceeded:`. -/
def transactionsSucceeded (w : World) (transactionIds : List TransactionId) : World :=
  { w with
    info := removeScheduledMessageConfirmations w.info transactionIds
    owed := w.owed.filter fun id =>
      !transactionIds.any fun transactionId => w.carried.contains (transactionId, id) }

inductive Event where
  /-- A packet that could be parsed, with the messages in it. -/
  | packet (transactionId : TransactionId) (messages : List IncomingMessage)
      (wanted : Int → Bool)
  | parseError
  | readyForTransaction (forceConfirmations anyHighPriority : Bool)
  /-- The completion block of a `msgs_ack`, called for a payload that carried it on
  a connection, or for one that did not. -/
  | ackCompleted (ack : Nat) (transactionId : Option TransactionId)
  | sessionReset

/-- The condition under which a transaction carries confirmations. -/
def sendsConfirmations (info : SessionInfo) (forceConfirmations anyHighPriority : Bool) :
    Bool :=
  (forceConfirmations || !anyHighPriority ||
    scheduledMessageConfirmationsExceed info maxUnacknowledgedMessageSize
      maxUnacknowledgedMessageCount) && !(scheduledIds info).isEmpty

/-- A step.  A block of an earlier session works on the session it has captured. -/
def step (useUnauthorizedMode : Bool) (w : World) : Event → World
  | .packet transactionId messages wanted =>
    messages.foldl (processIncomingMessage useUnauthorizedMode wanted)
      (transactionsSucceeded w [transactionId])
  | .parseError => resetSessionInfo w
  | .readyForTransaction forceConfirmations anyHighPriority =>
    if sendsConfirmations w.info forceConfirmations anyHighPriority then
      { w with acks := w.acks ++ [⟨w.session, scheduledIds w.info⟩] }
    else w
  | .ackCompleted k transactionId =>
    match w.acks[k]?, transactionId with
    | some ack, some transactionId =>
      if ack.session = w.session then
        { w with
          info := assignTransactionId w.info transactionId ack.messageIds
          carried := w.carried ++ ack.messageIds.map (transactionId, ·) }
      else w
    | _, _ => w
  | .sessionReset => resetSessionInfo w

/-- What holds of the bookkeeping of a session. -/
structure Bookkeeping (useUnauthorizedMode : Bool) (w : World) : Prop where
  dispatchedOnce : w.dispatched.Nodup
  scheduledOnce : (scheduledIds w.info).Nodup
  owedScheduled : useUnauthorizedMode = false → ∀ id ∈ w.owed, id ∈ scheduledIds w.info

/-! ## The lists of the session -/

theorem mem_scheduled_schedule (info : SessionInfo) (messageId size : Int) (id : Int) :
    id ∈ scheduledIds (scheduleMessageConfirmation info messageId size) ↔
      id ∈ scheduledIds info ∨ id = messageId := by
  unfold scheduleMessageConfirmation scheduledIds
  split
  next hany =>
    have hin : messageId ∈ info.scheduledMessageConfirmations.map (·.messageId) := by
      simpa using hany
    constructor
    · exact .inl
    · rintro (hold | rfl)
      · exact hold
      · exact hin
  · simp

theorem nodup_scheduled_schedule {info : SessionInfo} (h : (scheduledIds info).Nodup)
    (messageId size : Int) :
    (scheduledIds (scheduleMessageConfirmation info messageId size)).Nodup := by
  unfold scheduleMessageConfirmation
  split
  · exact h
  next hany =>
    unfold scheduledIds at h ⊢
    rw [List.map_append, List.map_singleton, ← List.concat_eq_append]
    apply h.concat
    simpa using hany

theorem scheduled_assign (info : SessionInfo) (transactionId : TransactionId)
    (messageIds : List Int) :
    scheduledIds (assignTransactionId info transactionId messageIds) = scheduledIds info := by
  unfold scheduledIds assignTransactionId ScheduledMessageConfirmation.addTransactionId
  rw [List.map_map]
  apply List.map_congr_left
  intro c _
  simp only [Function.comp]
  split
  · split <;> rfl
  · rfl

/-- `Bookkeeping` with what makes it inductive: what was dispatched is marked as
processed, and a confirmation is marked with a connection only if that
connection carried it. -/
structure Inv (useUnauthorizedMode : Bool) (w : World) : Prop where
  bookkeeping : Bookkeeping useUnauthorizedMode w
  processed : ∀ id ∈ w.dispatched, messageProcessed w.info id = true
  marked : ∀ c ∈ w.info.scheduledMessageConfirmations, ∀ transactionId ∈ c.transactionIds,
    (transactionId, c.messageId) ∈ w.carried

theorem inv_fresh (useUnauthorizedMode : Bool) (session : Nat) (acks : List AckTransaction) :
    Inv useUnauthorizedMode { session, acks } := by
  constructor
  · constructor
    · exact List.nodup_nil
    · exact List.nodup_nil
    · intro _ id hid
      cases hid
  · intro id hid
    cases hid
  · intro c hc
    cases hc

variable {useUnauthorizedMode : Bool} {w : World}

theorem resetSessionInfo_inv (useUnauthorizedMode : Bool) (w : World) :
    Inv useUnauthorizedMode (resetSessionInfo w) :=
  inv_fresh useUnauthorizedMode (w.session + 1) w.acks

/-- Scheduling one more confirmation. -/
theorem schedule_inv (h : Inv useUnauthorizedMode w) (messageId size : Int) :
    Inv useUnauthorizedMode
      { w with info := scheduleMessageConfirmation w.info messageId size } := by
  constructor
  · constructor
    · exact h.bookkeeping.dispatchedOnce
    · exact nodup_scheduled_schedule h.bookkeeping.scheduledOnce messageId size
    · intro hmode id hid
      rw [mem_scheduled_schedule]
      exact .inl (h.bookkeeping.owedScheduled hmode id hid)
  · intro id hid
    have hsame : messageProcessed (scheduleMessageConfirmation w.info messageId size) id =
        messageProcessed w.info id := by
      unfold scheduleMessageConfirmation
      split <;> rfl
    rw [hsame]
    exact h.processed id hid
  · intro c hc
    unfold scheduleMessageConfirmation at hc
    split at hc
    · exact h.marked c hc
    · rcases List.mem_append.1 hc with hold | hnew
      · exact h.marked c hold
      · intro transactionId htransaction
        rw [List.mem_singleton.1 hnew] at htransaction
        cases htransaction

/-- Passing a new message on to the services, without its confirmation. -/
theorem dispatch_inv (h : Inv useUnauthorizedMode w) {messageId : Int}
    (hnew : messageProcessed w.info messageId = false) :
    Inv useUnauthorizedMode
      { w with
        info := setMessageProcessed w.info messageId
        dispatched := w.dispatched ++ [messageId] } := by
  have hprocessed : ∀ id, messageProcessed (setMessageProcessed w.info messageId) id = true ↔
      id = messageId ∨ messageProcessed w.info id = true := by
    intro id
    simp [messageProcessed, setMessageProcessed]
  constructor
  · constructor
    · have hnotDispatched : messageId ∉ w.dispatched := by
        intro hmem
        rw [h.processed messageId hmem] at hnew
        exact absurd hnew (by decide)
      rw [← List.concat_eq_append]
      exact h.bookkeeping.dispatchedOnce.concat hnotDispatched
    · exact h.bookkeeping.scheduledOnce
    · exact h.bookkeeping.owedScheduled
  · intro id hid
    rw [hprocessed]
    rcases List.mem_append.1 hid with hold | hsame
    · exact .inr (h.processed id hold)
    · exact .inl (List.mem_singleton.1 hsame)
  · exact h.marked

theorem owe_inv (h : Inv useUnauthorizedMode w) {messageId : Int}
    (hscheduled : useUnauthorizedMode = false → messageId ∈ scheduledIds w.info) :
    Inv useUnauthorizedMode { w with owed := w.owed ++ [messageId] } := by
  refine ⟨⟨h.bookkeeping.dispatchedOnce, h.bookkeeping.scheduledOnce, ?_⟩, h.processed,
    h.marked⟩
  intro hmode id hid
  rcases List.mem_append.1 hid with hold | hnew
  · exact h.bookkeeping.owedScheduled hmode id hold
  · rw [List.mem_singleton.1 hnew]
    exact hscheduled hmode

theorem processBody_inv (h : Inv useUnauthorizedMode w) (wanted : Int → Bool) (body : Body) :
    Inv useUnauthorizedMode (processBody useUnauthorizedMode wanted w body) := by
  cases body with
  | badMsgNotification errorCode =>
    grind [processBody, resetSessionInfo_inv]
  | badServerSalt => exact h
  | msgDetailedInfo _ _ => exact h
  | msgDetailedResponseInfo requestMessageId responseMessageId responseLength =>
    simp only [processBody]
    split
    · exact h
    · exact schedule_inv h _ _
  | other => exact h

theorem processIncomingMessage_inv (h : Inv useUnauthorizedMode w) (wanted : Int → Bool)
    (m : IncomingMessage) :
    Inv useUnauthorizedMode (processIncomingMessage useUnauthorizedMode wanted w m) := by
  unfold processIncomingMessage
  split
  · exact schedule_inv h _ _
  next hnew =>
    apply processBody_inv
    have hdispatch := dispatch_inv h (by simpa using hnew)
    cases hrelated : isContentRelated m with
    | false =>
      simp only [Bool.and_false, Bool.false_eq_true, if_false]
      exact hdispatch
    | true =>
      cases hmode : useUnauthorizedMode with
      | false =>
        subst hmode
        simp only [Bool.not_false, Bool.and_self, if_true]
        have hscheduled := schedule_inv hdispatch m.messageId m.size
        refine owe_inv hscheduled ?_
        intro _
        exact (mem_scheduled_schedule _ _ _ _).2 (.inr rfl)
      | true =>
        subst hmode
        simp only [Bool.not_true, Bool.false_and, Bool.false_eq_true, if_false, if_true]
        exact owe_inv hdispatch (fun hmode => absurd hmode (by decide))

theorem processMessages_inv (wanted : Int → Bool) :
    ∀ (messages : List IncomingMessage) (w : World), Inv useUnauthorizedMode w →
      Inv useUnauthorizedMode
        (messages.foldl (processIncomingMessage useUnauthorizedMode wanted) w) := by
  intro messages
  induction messages with
  | nil => intro w h; exact h
  | cons m rest ih => intro w h; exact ih _ (processIncomingMessage_inv h wanted m)

/-- A success removes only confirmations that its connection carried. -/
theorem transactionsSucceeded_inv (h : Inv useUnauthorizedMode w)
    (transactionIds : List TransactionId) :
    Inv useUnauthorizedMode (transactionsSucceeded w transactionIds) := by
  constructor
  · constructor
    · exact h.bookkeeping.dispatchedOnce
    · exact List.Nodup.sublist (List.filter_sublist.map _) h.bookkeeping.scheduledOnce
    · intro hmode id hid
      obtain ⟨howed, hnotCarried⟩ := List.mem_filter.1 hid
      have hbefore := h.bookkeeping.owedScheduled hmode id howed
      obtain ⟨c, hc, hcid⟩ := List.mem_map.1 hbefore
      refine List.mem_map.2 ⟨c, List.mem_filter.2 ⟨hc, ?_⟩, hcid⟩
      rw [Bool.not_eq_true', List.any_eq_false] at hnotCarried ⊢
      intro transactionId htransaction hmarked
      have hcarried := h.marked c hc transactionId (by simpa using hmarked)
      apply hnotCarried transactionId htransaction
      rw [hcid] at hcarried
      simpa using hcarried
  · exact h.processed
  · intro c hc
    exact h.marked c (List.mem_filter.1 hc).1

theorem ackCompleted_inv (h : Inv useUnauthorizedMode w) (transactionId : TransactionId)
    (messageIds : List Int) :
    Inv useUnauthorizedMode
      { w with
        info := assignTransactionId w.info transactionId messageIds
        carried := w.carried ++ messageIds.map (transactionId, ·) } := by
  constructor
  · constructor
    · exact h.bookkeeping.dispatchedOnce
    · rw [scheduled_assign]
      exact h.bookkeeping.scheduledOnce
    · intro hmode id hid
      rw [scheduled_assign]
      exact h.bookkeeping.owedScheduled hmode id hid
  · exact h.processed
  · intro c hc other hother
    obtain ⟨before, hbefore, heq⟩ := List.mem_map.1 hc
    have hold : ∀ t ∈ before.transactionIds, (t, before.messageId) ∈
        w.carried ++ messageIds.map (transactionId, ·) := by
      intro t ht
      exact List.mem_append_left _ (h.marked before hbefore t ht)
    split at heq
    next hcontains =>
      unfold ScheduledMessageConfirmation.addTransactionId at heq
      split at heq
      · rw [← heq] at hother ⊢
        exact hold other hother
      · grind
    · rw [← heq] at hother ⊢
      exact hold other hother

theorem step_inv (w : World) (e : Event) (h : Inv useUnauthorizedMode w) :
    Inv useUnauthorizedMode (step useUnauthorizedMode w e) := by
  cases e with
  | packet transactionId messages wanted =>
    exact processMessages_inv wanted messages _ (transactionsSucceeded_inv h _)
  | parseError => exact resetSessionInfo_inv useUnauthorizedMode w
  | readyForTransaction forceConfirmations anyHighPriority =>
    simp only [step]
    split
    · exact ⟨⟨h.bookkeeping.dispatchedOnce, h.bookkeeping.scheduledOnce,
        h.bookkeeping.owedScheduled⟩, h.processed, h.marked⟩
    · exact h
  | ackCompleted k transactionId =>
    simp only [step]
    split
    · split
      · exact ackCompleted_inv h _ _
      · exact h
    · exact h
  | sessionReset => exact resetSessionInfo_inv useUnauthorizedMode w

/-- In every run a message is dispatched at most once in its session and no
confirmation is scheduled twice; and in a session that is not in unauthorized
mode, a content-related message stays scheduled until a connection that carried
its confirmation has been successful. -/
theorem bookkeeping_run (useUnauthorizedMode : Bool) (es : List Event) :
    Bookkeeping useUnauthorizedMode (run (step useUnauthorizedMode) {} es) :=
  (run_invariant step_inv es {} (inv_fresh useUnauthorizedMode 0 [])).bookkeeping

/-- In unauthorized mode a content-related message is dispatched, but its
confirmation is never scheduled. -/
theorem unauthorized_not_scheduled :
    ¬ ∀ id ∈ (run (step true) {} [.packet 0 [⟨5, 1, 16, .other⟩] (fun _ => false)]).owed,
      id ∈ scheduledIds
        (run (step true) {} [.packet 0 [⟨5, 1, 16, .other⟩] (fun _ => false)]).info := by
  decide

end TelegramPub.Ports.IncomingConfirmations
