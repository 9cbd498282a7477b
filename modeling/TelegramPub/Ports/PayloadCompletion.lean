import TelegramPub.Ports.RequestLifecycle
import TelegramPub.Ports.TransportTransaction

/-!
# Payload reports

One message transaction of the request service may be cut into several
payloads.  The transport reports each payload on its own, and each report
calls the `completion` block of the whole message transaction.  The block
clears `waitingForMessageId` of every request of the transaction, also of those
whose message is in a payload that is still on its way, and such a request is
put into the next transaction again.

The machine of this module has the request service and the transactions in
flight.  `resend_free` gives the condition on a run under which no request is
emitted while its message is outstanding, and `second_copy` is the run in which
a request is.
-/

namespace TelegramPub.Ports.PayloadCompletion

open Verified.Machine Ports.MessageTransaction Ports.RequestMessageService
open Ports.RequestLifecycle (prepared_ids completion_ids didChangeSession_ids
  mtProtoMessageTransaction_requests)
open Ports.Session Ports.TransportTransaction

variable {ρ : Type}

/-- A transaction whose payloads were handed to the transport.

`payloads` is `messageInternalIdsByPayload`, and `reported` the positions of the
payloads whose completion handler was called.  `live` is cleared when the
session, and with it the connection, is given up.  `reportsSince` remembers the
transactions of which a payload was reported after this one was made. -/
structure Sent where
  transaction : RequestTransaction
  preparedMessages : List PreparedMessage
  payloads : List (List Nat)
  quickAckIds : Nat → Int
  reported : List Nat := []
  live : Bool := true
  reportsSince : List Nat := []

structure World (ρ : Type) where
  service : Service ρ := {}
  info : SessionInfo := {}
  sent : List Sent := []

inductive Event (ρ : Type) where
  | addRequest (request : Request ρ)
  /-- The transport is ready for a transaction.  `others` are the messages of the
  transport and of the other services, `quickAckIds` the hashes of the payloads. -/
  | readyForTransaction (o : Options) (currentTime : Rat)
      (readings containerReadings : Nat → Int) (others : List OutgoingMessage)
      (quickAckIds : Nat → Int)
  /-- The completion handler of a payload; the transaction id of a success. -/
  | payloadReported (transaction payload : Nat) (transactionId : Option TransactionId)

/-- The other messages, with internal ids of their own: the counter of internal
ids is global. -/
def numbered (others : List OutgoingMessage) (nextMessageInternalId : Nat) :
    List OutgoingMessage :=
  (others.zipIdx nextMessageInternalId).map fun (message, internalId) =>
    { message with internalId }

/-- The request service has nothing to send. -/
def noTransaction : RequestTransaction := ⟨[], [], [], false⟩

/-- `transportReadyForTransaction` on the transaction of the request service.  A violated
order of ids resets the session, which tells the services and replaces the connection. -/
def handOver (w : World ρ) (t : RequestTransaction) (o : Options)
    (readings containerReadings : Nat → Int) (others : List OutgoingMessage)
    (quickAckIds : Nat → Int) : World ρ :=
  let others := numbered others w.service.nextMessageInternalId
  let service := { w.service with
    nextMessageInternalId := w.service.nextMessageInternalId + others.length }
  let (preparedMessages, outcome, info) := transportReadyForTransaction o w.info readings
    containerReadings (others ++ t.messagePayload)
  let service := prepared service t (preparedDictionary preparedMessages)
  let abandoned := completion service t (fun _ => none) (fun _ => none) (fun _ => none)
  match outcome with
  | .monotonityViolated =>
    { service := (didChangeSession abandoned).1
      info := {}
      sent := w.sent.map ({ · with live := false }) }
  | .saltSetEmpty => { w with service := abandoned, info }
  | .payloads [] => { w with service := abandoned, info }
  | .payloads payloads =>
    { service
      info
      sent := w.sent ++
        [{ transaction := t
           preparedMessages
           payloads := payloads.map (·.messages.map (·.messageInternalId))
           quickAckIds }] }

/-- The dictionaries a successful report passes to the completion blocks. -/
def reportService (s : Service ρ) (sent : Sent) (payload : Nat) (ids : List Nat)
    (transactionId : Option TransactionId) : Service ρ :=
  match transactionId with
  | none => completion s sent.transaction (fun _ => none) (fun _ => none) (fun _ => none)
  | some transactionId =>
    completion s sent.transaction
      (fun id => if ids.contains id then some transactionId else none)
      (fun id => if ids.contains id then preparedDictionary sent.preparedMessages id
        else none)
      (fun id => if ids.contains id then some (sent.quickAckIds payload) else none)

/-- The transactions after a report of one of them. -/
def markReported (sents : List Sent) (k : Nat) (reported : List Nat) : List Sent :=
  (sents.modify k ({ · with reported })).map
    fun other => { other with reportsSince := other.reportsSince ++ [k] }

def step (w : World ρ) : Event ρ → World ρ
  | .addRequest request => { w with service := (addRequest w.service request).1 }
  | .readyForTransaction o now readings containerReadings others quickAckIds =>
    let emission := mtProtoMessageTransaction w.service now
    handOver { w with service := emission.2 } (emission.1.getD noTransaction) o readings
      containerReadings others quickAckIds
  | .payloadReported k j transactionId =>
    match w.sent[k]? with
    | none => w
    | some sent =>
      match sent.payloads[j]? with
      | none => w
      | some ids =>
        if sent.reported.contains j then w
        else
          { w with
            service := reportService w.service sent j ids transactionId
            sent := markReported w.sent k (sent.reported ++ [j]) }

/-- A message of the request is in a payload of the transaction that has not been
reported. -/
def InFlight (sent : Sent) (request : Request ρ) : Prop :=
  sent.live = true ∧ ∃ j ids, sent.payloads[j]? = some ids ∧ j ∉ sent.reported ∧
    ∃ id ∈ ids, sent.transaction.messageFor request = some id

/-- No request is emitted while its message is outstanding. -/
def NoSecondCopy (w : World ρ) : Event ρ → Prop
  | .readyForTransaction _ now _ _ _ _ =>
    ∀ sent ∈ w.sent, ∀ request ∈ w.service.requests, InFlight sent request →
      ∀ t, (mtProtoMessageTransaction w.service now).1 = some t →
        t.messageFor request = none
  | _ => True

/-- A transaction is asked for only when, for every request with an outstanding
message, no payload of a transaction with this request was reported since the
message was handed over, unless the request is held back anyway. -/
def ReportsTogether (w : World ρ) : Event ρ → Prop
  | .readyForTransaction _ now _ _ _ _ =>
    ∀ sent ∈ w.sent, ∀ request ∈ w.service.requests, InFlight sent request →
      isHeldBack w.service now request = true ∨
        ∀ k ∈ sent.reportsSince, ∀ other, w.sent[k]? = some other →
          other.transaction.messageFor request = none
  | _ => True

/-! ## Which requests a transaction contains -/

variable {request : Request ρ}

theorem messageFor_congr (t : RequestTransaction) {request' : Request ρ}
    (hid : request.internalId = request'.internalId) :
    t.messageFor request = t.messageFor request' := by
  unfold RequestTransaction.messageFor
  rw [hid]

variable {sent : Sent}

theorem InFlight.congr {request' : Request ρ} (hid : request.internalId = request'.internalId)
    (h : InFlight sent request) :
    InFlight sent request' := by
  unfold InFlight at h ⊢
  rw [← messageFor_congr sent.transaction hid]
  exact h

variable {s : Service ρ} {now : Rat}

/-- The requests of a new transaction are the emitted ones. -/
theorem messageFor_emission
    (h : ((mtProtoMessageTransaction s now).1.getD noTransaction).messageFor request ≠ none) :
    ∃ emitted ∈ s.requests, isEmitted s now emitted = true ∧
      emitted.internalId = request.internalId := by
  by_contra hno
  apply h
  unfold mtProtoMessageTransaction
  dsimp only
  split
  · rfl
  · apply dictionary_eq_none_iff.2
    intro entry hentry heq
    obtain ⟨⟨emitted, messageInternalId⟩, hmem, hentry⟩ := List.mem_map.1 hentry
    have hfilter : emitted ∈ s.requests.filter (isEmitted s now) :=
      (List.mem_zipIdx hmem).2.2 ▸ List.getElem_mem _
    obtain ⟨hrequest, hemitted⟩ := List.mem_filter.1 hfilter
    apply hno
    refine ⟨emitted, hrequest, hemitted, ?_⟩
    rw [← heq, ← hentry]

theorem messageFor_of_not_emitted (hnodup : s.internalIds.Nodup) (hmem : request ∈ s.requests)
    (hemitted : isEmitted s now request = false) :
    ((mtProtoMessageTransaction s now).1.getD noTransaction).messageFor request = none := by
  by_contra hsome
  obtain ⟨emitted, hmem', hemitted', hid⟩ := messageFor_emission hsome
  have hsame : emitted = request := List.inj_on_of_nodup_map hnodup hmem' hmem hid
  rw [hsame, hemitted] at hemitted'
  exact absurd hemitted' (by decide)

theorem completeRequest_of_none {t : RequestTransaction} (h : t.messageFor request = none)
    (transactionIds : Nat → Option TransactionId) (preparedMessages : Nat → Option PreparedMessage)
    (quickAckIds : Nat → Option Int) :
    completeRequest t transactionIds preparedMessages quickAckIds request = request := by
  unfold completeRequest
  rw [h]

theorem completeRequest_id (t : RequestTransaction) (request : Request ρ)
    (transactionIds : Nat → Option TransactionId)
    (preparedMessages : Nat → Option PreparedMessage) (quickAckIds : Nat → Option Int) :
    (completeRequest t transactionIds preparedMessages quickAckIds request).internalId =
      request.internalId := by
  unfold completeRequest
  split
  · rfl
  · split <;> rfl

theorem mem_prepared {t : RequestTransaction} {preparedMessages : Nat → Option PreparedMessage}
    (hmem : request ∈ (prepared s t preparedMessages).requests) :
    ∃ before ∈ s.requests, before.internalId = request.internalId ∧
      (t.messageFor before = none → request = before) ∧
      ∀ id, t.messageFor before = some id → preparedMessages id ≠ none →
        ∃ context, request.requestContext = some context ∧
          context.waitingForMessageId = true := by
  obtain ⟨before, hbefore, heq⟩ := List.mem_map.1 hmem
  refine ⟨before, hbefore, ?_, ?_, ?_⟩
  · rw [← heq]
    split <;> rfl
  · intro hnone
    rw [hnone] at heq
    exact heq.symm
  · grind

theorem preparedDictionary_of_mem {messages : List PreparedMessage} {m : PreparedMessage}
    (hmem : m ∈ messages) : preparedDictionary messages m.messageInternalId ≠ none := by
  unfold preparedDictionary
  rw [Ne, dictionary_eq_none_iff]
  intro hnone
  exact hnone _ (List.mem_map_of_mem hmem) rfl

/-- No payload of a transaction with this request was reported since. -/
def Undisturbed (w : World ρ) (sent : Sent) (request : Request ρ) : Prop :=
  ∀ k ∈ sent.reportsSince, ∀ other, w.sent[k]? = some other →
    other.transaction.messageFor request = none

/-- An outstanding request of which nothing was reported is marked as waiting. -/
structure Waiting (w : World ρ) : Prop where
  distinct : w.service.internalIds.Nodup
  known : ∀ sent ∈ w.sent, ∀ request : Request ρ,
    sent.transaction.messageFor request ≠ none → request.internalId ∈ w.service.internalIds
  waits : ∀ sent ∈ w.sent, ∀ request ∈ w.service.requests, InFlight sent request →
    Undisturbed w sent request →
      ∃ context, request.requestContext = some context ∧ context.waitingForMessageId = true

theorem waiting_start : Waiting ({} : World ρ) := by
  constructor
  · exact List.nodup_nil
  · intro sent hsent
    cases hsent
  · intro sent hsent
    cases hsent

theorem not_emitted_of_waiting {context : RequestContext}
    (hcontext : request.requestContext = some context)
    (hwaiting : context.waitingForMessageId = true) : isEmitted s now request = false := by
  simp [isEmitted, needsSending, hcontext, hwaiting]

/-- What the guard is for: a request with an outstanding message is not emitted. -/
theorem not_emitted {w : World ρ} (hw : Waiting w) (hsent : sent ∈ w.sent)
    (hmem : request ∈ w.service.requests) (hflight : InFlight sent request)
    (hguard : isHeldBack w.service now request = true ∨ Undisturbed w sent request) :
    isEmitted w.service now request = false := by
  rcases hguard with hheld | hundisturbed
  · simp [isEmitted, hheld]
  · obtain ⟨context, hcontext, hwaiting⟩ := hw.waits sent hsent request hmem hflight hundisturbed
    exact not_emitted_of_waiting hcontext hwaiting

theorem addRequest_waiting {w : World ρ} (hw : Waiting w) (request : Request ρ) :
    Waiting { w with service := (addRequest w.service request).1 } := by
  by_cases hold : request.internalId ∈ w.service.internalIds
  · have heq : addRequest w.service request = (w.service, []) := if_pos hold
    rw [heq]
    exact hw
  · have heq : (addRequest w.service request).1 =
        { w.service with requests := w.service.requests ++ [request] } := by
      unfold addRequest
      rw [if_neg hold]
    rw [heq]
    have hids : ({ w.service with requests := w.service.requests ++ [request] } :
        Service ρ).internalIds = w.service.internalIds ++ [request.internalId] :=
      List.map_append
    constructor
    · rw [hids, ← List.concat_eq_append]
      exact hw.distinct.concat hold
    · intro sent hsent other hother
      rw [hids]
      exact List.mem_append_left _ (hw.known sent hsent other hother)
    · intro sent hsent other hother hflight hundisturbed
      rcases List.mem_append.1 hother with hother | hnew
      · exact hw.waits sent hsent other hother hflight hundisturbed
      · obtain ⟨_, _, _, _, _, id, _, hid⟩ := hflight
        rw [List.mem_singleton.1 hnew] at hid
        have hin := hw.known sent hsent request (by rw [hid]; exact Option.some_ne_none id)
        exact absurd hin hold

/-- The service after a transaction that came to nothing: other transactions'
requests are as they were. -/
theorem mem_abandoned {t : RequestTransaction} {preparedMessages : Nat → Option PreparedMessage}
    (hmem : request ∈ (completion (prepared s t preparedMessages) t (fun _ => none)
      (fun _ => none) (fun _ => none)).requests) :
    ∃ before ∈ s.requests, before.internalId = request.internalId ∧
      (t.messageFor before = none → request = before) := by
  obtain ⟨middle, hmiddle, heq⟩ := List.mem_map.1 hmem
  obtain ⟨before, hbefore, hid, hnone, _⟩ := mem_prepared hmiddle
  have hid' : middle.internalId = request.internalId := by
    rw [← heq, completeRequest_id]
  refine ⟨before, hbefore, hid.trans hid', ?_⟩
  intro hmessage
  have hsame := hnone hmessage
  rw [← heq, hsame, completeRequest_of_none hmessage]

section HandOver

variable {w : World ρ} (hw : Waiting w) {t : RequestTransaction}
  (hfree : ∀ sent ∈ w.sent, ∀ request ∈ w.service.requests, InFlight sent request →
    t.messageFor request = none)
  (hknown : ∀ request : Request ρ, t.messageFor request ≠ none →
    request.internalId ∈ w.service.internalIds)

include hw hfree in
/-- An outstanding request of an older transaction, after the blocks of the new
one have run. -/
theorem waits_older {sent : Sent} (hsent : sent ∈ w.sent) {request before : Request ρ}
    (hbefore : before ∈ w.service.requests)
    (hid : before.internalId = request.internalId)
    (hsame : t.messageFor before = none → request = before)
    (hflight : InFlight sent request) (hundisturbed : Undisturbed w sent request) :
    ∃ context, request.requestContext = some context ∧
      context.waitingForMessageId = true := by
  have hflight' : InFlight sent before := hflight.congr hid.symm
  have heq : request = before := hsame (hfree sent hsent before hbefore hflight')
  subst heq
  exact hw.waits sent hsent request hbefore hflight hundisturbed

include hw hfree in
/-- A transaction that came to nothing. -/
theorem abandoned_waiting {s : Service ρ} (hs : s.requests = w.service.requests)
    (preparedMessages : Nat → Option PreparedMessage) (info : SessionInfo) :
    Waiting { w with
      service := completion (prepared s t preparedMessages) t (fun _ => none)
        (fun _ => none) (fun _ => none)
      info } := by
  have hids : (completion (prepared s t preparedMessages) t (fun _ => none)
      (fun _ => none) (fun _ => none)).internalIds = w.service.internalIds := by
    rw [completion_ids, prepared_ids]
    unfold Service.internalIds
    rw [hs]
  constructor
  · rw [hids]
    exact hw.distinct
  · intro sent hsent request hrequest
    rw [hids]
    exact hw.known sent hsent request hrequest
  · intro sent hsent request hmem hflight hundisturbed
    obtain ⟨before, hbefore, hid, hsame⟩ := mem_abandoned hmem
    rw [hs] at hbefore
    exact waits_older hw hfree hsent hbefore hid hsame hflight hundisturbed

include hw hfree hknown in
theorem handOver_waiting (o : Options) (readings containerReadings : Nat → Int)
    (others : List OutgoingMessage) (quickAckIds : Nat → Int) :
    Waiting (handOver w t o readings containerReadings others quickAckIds) := by
  unfold handOver
  dsimp only
  generalize hnumbered : numbered others w.service.nextMessageInternalId = numberedOthers
  generalize hs : ({ w.service with
    nextMessageInternalId := w.service.nextMessageInternalId + numberedOthers.length } :
      Service ρ) = s
  have hrequests : s.requests = w.service.requests := by rw [← hs]
  generalize hready : transportReadyForTransaction o w.info readings containerReadings
    (numberedOthers ++ t.messagePayload) = ready
  split
  · have habandoned := abandoned_waiting hw hfree hrequests (preparedDictionary ready.1) ready.2.2
    constructor
    · rw [didChangeSession_ids]
      exact habandoned.distinct
    · intro sent hsent request hrequest
      obtain ⟨before, hbefore, heq⟩ := List.mem_map.1 hsent
      rw [didChangeSession_ids]
      rw [← heq] at hrequest
      exact habandoned.known before hbefore request hrequest
    · intro sent hsent request _ hflight
      obtain ⟨before, _, heq⟩ := List.mem_map.1 hsent
      rw [← heq] at hflight
      exact absurd hflight.1 (by simp)
  · exact abandoned_waiting hw hfree hrequests _ _
  · exact abandoned_waiting hw hfree hrequests _ _
  · rename_i payloads _ houtcome
    have hids : (prepared s t (preparedDictionary ready.1)).internalIds =
        w.service.internalIds := by
      rw [prepared_ids]
      unfold Service.internalIds
      rw [hrequests]
    constructor
    · rw [hids]
      exact hw.distinct
    · intro sent hsent request hrequest
      rw [hids]
      rcases List.mem_append.1 hsent with hsent | hnew
      · exact hw.known sent hsent request hrequest
      · rw [List.mem_singleton.1 hnew] at hrequest
        exact hknown request hrequest
    · intro sent hsent request hmem hflight hundisturbed
      obtain ⟨before, hbefore, hid, hsame, hprepared⟩ := mem_prepared hmem
      rw [hrequests] at hbefore
      rcases List.mem_append.1 hsent with hsent | hnew
      · refine waits_older hw hfree hsent hbefore hid hsame hflight ?_
        intro k hk other hother
        exact hundisturbed k hk other
          (by rw [List.getElem?_append_left (List.getElem?_eq_some_iff.1 hother).1]; exact hother)
      · rw [List.mem_singleton.1 hnew] at hflight
        obtain ⟨_, j, ids, hids', _, id, hidmem, hmessage⟩ := hflight
        have hpayload : ∃ m ∈ ready.1, m.messageInternalId = id := by
          rw [List.getElem?_map] at hids'
          obtain ⟨payload, hpayload, heq⟩ := Option.map_eq_some_iff.1 hids'
          rw [← heq] at hidmem
          obtain ⟨m, hm, hmid⟩ := List.mem_map.1 hidmem
          have hperm := perm_payloads (o := o) (by rw [hready]; exact houtcome)
          rw [hready] at hperm
          exact ⟨m, hperm.mem_iff.1 (List.mem_flatMap.2
            ⟨payload, List.mem_of_getElem? hpayload, hm⟩), hmid⟩
        obtain ⟨m, hm, hmid⟩ := hpayload
        apply hprepared id
        · rw [messageFor_congr t hid]
          exact hmessage
        · rw [← hmid]
          exact preparedDictionary_of_mem hm

end HandOver

theorem reportService_ids (s : Service ρ) (sent : Sent) (j : Nat) (ids : List Nat)
    (transactionId : Option TransactionId) :
    (reportService s sent j ids transactionId).internalIds = s.internalIds := by
  unfold reportService
  split <;> exact completion_ids _ _ _ _ _

theorem mem_reportService {j : Nat} {ids : List Nat} {transactionId : Option TransactionId}
    (hmem : request ∈ (reportService s sent j ids transactionId).requests) :
    ∃ before ∈ s.requests, before.internalId = request.internalId ∧
      (sent.transaction.messageFor before = none → request = before) := by
  unfold reportService at hmem
  split at hmem
  · obtain ⟨before, hbefore, heq⟩ := List.mem_map.1 hmem
    refine ⟨before, hbefore, ?_, ?_⟩
    · rw [← heq, completeRequest_id]
    · intro hnone
      rw [← heq, completeRequest_of_none hnone]
  · obtain ⟨before, hbefore, heq⟩ := List.mem_map.1 hmem
    refine ⟨before, hbefore, ?_, ?_⟩
    · rw [← heq, completeRequest_id]
    · intro hnone
      rw [← heq, completeRequest_of_none hnone]

theorem getElem?_markReported (sents : List Sent) (k : Nat) (reported : List Nat) (i : Nat) :
    (markReported sents k reported)[i]? = sents[i]?.map fun sent =>
      { sent with
        reported := if k = i then reported else sent.reported
        reportsSince := sent.reportsSince ++ [k] } := by
  unfold markReported
  rw [List.getElem?_map, List.getElem?_modify]
  cases sents[i]? with
  | none => rfl
  | some sent =>
    by_cases hi : k = i
    · simp [hi]
    · simp [hi]

theorem payloadReported_waiting {w : World ρ} (hw : Waiting w) {k j : Nat} {ids : List Nat}
    (hget : w.sent[k]? = some sent) (transactionId : Option TransactionId) :
    Waiting { w with
      service := reportService w.service sent j ids transactionId
      sent := markReported w.sent k (sent.reported ++ [j]) } := by
  have hmark := getElem?_markReported w.sent k (sent.reported ++ [j])
  constructor
  · rw [reportService_ids]
    exact hw.distinct
  · intro later hlater request hrequest
    rw [reportService_ids]
    obtain ⟨i, hi⟩ := List.getElem?_of_mem hlater
    rw [hmark] at hi
    obtain ⟨earlier, hearlier, heq⟩ := Option.map_eq_some_iff.1 hi
    rw [← heq] at hrequest
    exact hw.known earlier (List.mem_of_getElem? hearlier) request hrequest
  · intro later hlater request hmem hflight hundisturbed
    obtain ⟨i, hi⟩ := List.getElem?_of_mem hlater
    rw [hmark] at hi
    obtain ⟨earlier, hearlier, heq⟩ := Option.map_eq_some_iff.1 hi
    obtain ⟨before, hbefore, hid, hsame⟩ := mem_reportService hmem
    have hreported : sent.transaction.messageFor request = none := by
      refine hundisturbed k ?_
        { sent with
          reported := if k = k then sent.reported ++ [j] else sent.reported
          reportsSince := sent.reportsSince ++ [k] } ?_
      · rw [← heq]
        exact List.mem_append_right _ (List.mem_singleton.2 rfl)
      · show (markReported w.sent k (sent.reported ++ [j]))[k]? = _
        rw [hmark, hget]
        rfl
    have hunchanged : request = before := by
      apply hsame
      rw [messageFor_congr sent.transaction hid]
      exact hreported
    subst hunchanged
    apply hw.waits earlier (List.mem_of_getElem? hearlier) request hbefore
    · obtain ⟨hlive, n, payloadIds, hpayload, hunreported, hmessage⟩ := hflight
      rw [← heq] at hlive hpayload hunreported hmessage
      refine ⟨hlive, n, payloadIds, hpayload, ?_, hmessage⟩
      intro hreportedBefore
      apply hunreported
      by_cases hki : k = i
      · subst hki
        have hsameSent : earlier = sent := Option.some.inj (hearlier ▸ hget)
        simp [hsameSent ▸ hreportedBefore]
      · simpa [hki] using hreportedBefore
    · intro l hl other hother
      refine hundisturbed l ?_
        { other with
          reported := if k = l then sent.reported ++ [j] else other.reported
          reportsSince := other.reportsSince ++ [k] } ?_
      · rw [← heq]
        exact List.mem_append_left _ hl
      · show (markReported w.sent k (sent.reported ++ [j]))[l]? = _
        rw [hmark, hother]
        rfl

theorem step_resend_free (w : World ρ) (e : Event ρ) (hw : Waiting w)
    (hguard : ReportsTogether w e) : NoSecondCopy w e ∧ Waiting (step w e) := by
  cases e with
  | addRequest request => exact ⟨trivial, addRequest_waiting hw request⟩
  | readyForTransaction o now readings containerReadings others quickAckIds =>
    have hfree : ∀ sent ∈ w.sent, ∀ request ∈ w.service.requests, InFlight sent request →
        ((mtProtoMessageTransaction w.service now).1.getD noTransaction).messageFor
          request = none := by
      intro sent hsent request hmem hflight
      apply messageFor_of_not_emitted hw.distinct hmem
      exact not_emitted hw hsent hmem hflight (hguard sent hsent request hmem hflight)
    constructor
    · intro sent hsent request hmem hflight t ht
      have hnone := hfree sent hsent request hmem hflight
      rw [ht] at hnone
      exact hnone
    · have hsame := mtProtoMessageTransaction_requests w.service now
      have hids : (mtProtoMessageTransaction w.service now).2.internalIds =
          w.service.internalIds := by
        unfold Service.internalIds
        rw [hsame]
      have hw' : Waiting { w with service := (mtProtoMessageTransaction w.service now).2 } := by
        constructor
        · rw [hids]
          exact hw.distinct
        · intro sent hsent request hrequest
          rw [hids]
          exact hw.known sent hsent request hrequest
        · intro sent hsent request hmem
          dsimp only at hmem
          rw [hsame] at hmem
          exact hw.waits sent hsent request hmem
      apply handOver_waiting hw'
      · intro sent hsent request hmem
        dsimp only at hmem
        rw [hsame] at hmem
        exact hfree sent hsent request hmem
      · intro request hrequest
        obtain ⟨emitted, hmem, _, hid⟩ := messageFor_emission hrequest
        rw [hids, ← hid]
        exact List.mem_map_of_mem hmem
  | payloadReported k j transactionId =>
    refine ⟨trivial, ?_⟩
    show Waiting (step w (.payloadReported k j transactionId))
    simp only [step]
    split
    · exact hw
    next sent hget =>
      split
      · exact hw
      · split
        · exact hw
        · exact payloadReported_waiting hw hget transactionId

/-- In a run that asks for a transaction only while the reports are together, no
request is emitted as long as its message is in a payload that is neither
reported sent nor failed. -/
theorem resend_free (es : List (Event ρ)) (h : Guarded step ReportsTogether ({} : World ρ) es) :
    Guarded step NoSecondCopy ({} : World ρ) es :=
  guarded_mono step_resend_free es {} waiting_start h

/-- A request with a short payload. -/
def sampleRequest (internalId : Nat) (hasHighPriority : Bool) : Request Unit :=
  { internalId, payload := [1, 2, 3, 4], responseParser := fun _ => some ()
    hasHighPriority }

/-- The transport is ready while the clock runs from `first` on. -/
def sampleReady (first : Int) : Event Unit :=
  .readyForTransaction {} 0 (fun k => first + 4 * k) (fun k => first + 400 + 4 * k) []
    (fun _ => 0)

/-- The condition holds for a transaction whose payloads are all reported, and for one with
requests that are in no transaction reported since. -/
theorem reportsTogether_of_apart {w : World ρ} {e : Event ρ}
    (h : ∀ sent ∈ w.sent, ∀ request ∈ w.service.requests,
      sent.transaction.messageFor request = none ∨
        (∀ j < sent.payloads.length, j ∈ sent.reported) ∨
        ∀ k ∈ sent.reportsSince, ∀ other ∈ w.sent[k]?,
          other.transaction.messageFor request = none) :
    ReportsTogether w e := by
  cases e with
  | addRequest request => trivial
  | payloadReported k j transactionId => trivial
  | readyForTransaction o now readings containerReadings others quickAckIds =>
    rintro sent hsent request hrequest ⟨_, j, ids, hids, hunreported, id, _, hid⟩
    rcases h sent hsent request hrequest with hnone | hall | hapart
    · rw [hnone] at hid
      cases hid
    · exact absurd (hall j (List.getElem?_eq_some_iff.1 hids).1) hunreported
    · exact .inr hapart

/-- Two requests are cut into two payloads, and a third one is sent and reported while both are
on their way. -/
def twoPayloads : List (Event Unit) :=
  [.addRequest (sampleRequest 1 true), .addRequest (sampleRequest 2 false), sampleReady 1000,
    .addRequest (sampleRequest 3 false), sampleReady 2000, .payloadReported 1 0 (some 8)]

/-- Both are on their way when the transport is ready again, and it takes nothing. -/
theorem resend_free_two_payloads :
    (∃ sent ∈ (run step {} twoPayloads).sent, InFlight sent (sampleRequest 1 true) ∧
      InFlight sent (sampleRequest 2 false)) ∧
    Guarded step NoSecondCopy ({} : World Unit) (twoPayloads ++ [sampleReady 3000]) := by
  constructor
  · exact ⟨_, List.mem_cons_self, ⟨rfl, 0, [0], rfl, by decide, 0, by decide, rfl⟩,
      ⟨rfl, 1, [1], rfl, by decide, 1, by decide, rfl⟩⟩
  · apply resend_free
    exact ⟨trivial, trivial, reportsTogether_of_apart (by decide), trivial,
      reportsTogether_of_apart (by decide), trivial, reportsTogether_of_apart (by decide), trivial⟩

/-- A high-priority request and another one are cut into two payloads.  The
report of the first payload makes the second request go out again. -/
theorem second_copy :
    ¬ Guarded step NoSecondCopy ({} : World Unit)
      [.addRequest (sampleRequest 1 true), .addRequest (sampleRequest 2 false),
        sampleReady 1000, .payloadReported 0 0 (some 7), sampleReady 2000] := by
  intro hrun
  have hlast := hrun.2.2.2.2.1
  have hflight := hlast _ (List.mem_singleton.2 rfl) _
    (.tail _ (List.mem_singleton.2 rfl))
  have hnone := hflight ⟨rfl, 1, [1], rfl, by decide, 1, by decide, rfl⟩ _ rfl
  exact absurd hnone (by decide)

end TelegramPub.Ports.PayloadCompletion
