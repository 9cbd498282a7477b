import TelegramPub.Ports.RequestLifecycle
import TelegramPub.Ports.TransportTransaction

/-!
# invokeAfterMsg

A request may ask, with `shouldDependOnRequest`, to be executed after the
nearest earlier request of a kind.  The service wraps its body in
`invokeAfterMsg` with the message id of that request: right away if the
request has a context, and otherwise through a block that `MTProto` calls
while it prepares the messages of the same transaction.

The block finds nothing when the earlier request has no context and is held
back, by a flood wait, a password or a token export.  The later request is
then sent without its wrapper.
-/

namespace TelegramPub.Ports.InvokeAfter

open Verified.Bytes Verified.Machine Ports.MessageTransaction Ports.RequestMessageService
open Ports.RequestLifecycle Ports.Session Ports.TransportTransaction

variable {ρ : Type}

/-! ## The dependency of a request -/

/-- The pending requests before `request`. -/
def earlierRequests (s : Service ρ) (request : Request ρ) : List (Request ρ) :=
  s.requests.takeWhile (·.internalId != request.internalId)

/-- The nearest earlier request that `shouldDependOnRequest` holds of. -/
def nearestDependency (s : Service ρ) (request : Request ρ) : Option (Request ρ) :=
  request.shouldDependOnRequest.bind fun shouldDepend =>
    (earlierRequests s request).reverse.find? fun other => shouldDepend other.internalId

/-- The body of a request as it is sent when nothing has to come before it. -/
def plainData (s : Service ρ) (request : Request ρ) (initializeApi : Bool) : Data :=
  (decorateRequestData s { request with shouldDependOnRequest := none } initializeApi).1

def invokeAfterMsg (messageId : Int) (data : Data) : Data :=
  int32Bytes 0xcb9f372d ++ int64Bytes messageId ++ data

theorem decorateRequestData_eq (s : Service ρ) (request : Request ρ) (initializeApi : Bool) :
    decorateRequestData s request initializeApi =
      match nearestDependency s request with
      | none => (plainData s request initializeApi, none)
      | some other =>
        match other.requestContext with
        | some context =>
          (invokeAfterMsg context.messageId (plainData s request initializeApi), none)
        | none => (plainData s request initializeApi, some other.internalId) := by
  unfold nearestDependency plainData decorateRequestData earlierRequests
  cases hdepend : request.shouldDependOnRequest with
  | none => rfl
  | some shouldDepend => rfl

/-! ## Preparing a list of messages -/

/-- Nothing more is prepared: the clock went back, and the connection has a
key. -/
def isBlocked (o : Options) (p : Preparation) : Bool :=
  p.monotonityViolated && !o.useUnauthorizedMode

theorem prepareMessages_append (o : Options) :
    ∀ (xs ys : List OutgoingMessage) (readings : Nat → Int) (p : Preparation),
      prepareMessages o readings p (xs ++ ys) =
        prepareMessages o (fun k => readings (k + xs.length))
          (prepareMessages o readings p xs) ys := by
  intro xs
  induction xs with
  | nil => intro ys readings p; rfl
  | cons x xs ih =>
    intro ys readings p
    simp only [List.cons_append, prepareMessages, ih, List.length_cons]
    congr 1

/-- One round prepares the message, or the loop is blocked after it. -/
theorem prepareMessage_cases (o : Options) (p : Preparation) (outgoing : OutgoingMessage)
    (reading : Int) :
    (isBlocked o (prepareMessage o p outgoing reading) = false ∧
        isBlocked o p = false ∧
        ∃ messageId seqNo, (prepareMessage o p outgoing reading).messages =
          p.messages ++ [preparedMessage o p outgoing messageId seqNo]) ∨
      (isBlocked o (prepareMessage o p outgoing reading) = true ∧
        (prepareMessage o p outgoing reading).messages = p.messages) := by
  unfold prepareMessage isBlocked
  by_cases hid : outgoing.messageId = 0
  · grind
  · grind

/-- What the loop adds to the prepared messages: nothing once it is blocked,
and otherwise messages whose internal ids are a prefix of the list's. -/
theorem prepareMessages_extends (o : Options) :
    ∀ (outgoing : List OutgoingMessage) (readings : Nat → Int) (p : Preparation),
      ∃ new, (prepareMessages o readings p outgoing).messages = p.messages ++ new ∧
        new.map (·.messageInternalId) <+: outgoing.map (·.internalId) ∧
        (isBlocked o p = true →
          new = [] ∧ isBlocked o (prepareMessages o readings p outgoing) = true) ∧
        (isBlocked o (prepareMessages o readings p outgoing) = false →
          new.map (·.messageInternalId) = outgoing.map (·.internalId)) := by
  intro outgoing
  induction outgoing with
  | nil => intro readings p; exact ⟨[], by simp [prepareMessages]⟩
  | cons m rest ih =>
    intro readings p
    obtain ⟨new, hnew, hbegins, hblocked, hall⟩ :=
      ih (fun k => readings (k + 1)) (prepareMessage o p m (readings 0))
    rcases prepareMessage_cases o p m (readings 0) with
      ⟨hfree, hbefore, messageId, seqNo, hone⟩ | ⟨hstop, hone⟩
    · refine ⟨preparedMessage o p m messageId seqNo :: new, ?_, ?_, ?_, ?_⟩
      · rw [prepareMessages, hnew, hone, List.append_assoc]
        rfl
      · exact List.prefix_cons_inj _ |>.2 hbegins
      · intro hp
        rw [hbefore] at hp
        cases hp
      · intro hend
        rw [List.map_cons, List.map_cons, hall hend]
        rfl
    · obtain ⟨hnil, hstays⟩ := hblocked hstop
      refine ⟨[], ?_, List.nil_prefix, fun _ => ⟨rfl, hstays⟩, ?_⟩
      · rw [prepareMessages, hnew, hone, hnil]
      · intro hend
        rw [prepareMessages, hstays] at hend
        cases hend

/-- The prepared messages of a list that is cut at one message: either the
loop was blocked before it got there, or everything before it was prepared and
the message was decorated with exactly that. -/
theorem prepareMessages_cut (o : Options) (readings : Nat → Int) (p : Preparation)
    (xs ys : List OutgoingMessage) (m : OutgoingMessage) :
    (∃ before, (prepareMessages o readings p (xs ++ m :: ys)).messages =
        p.messages ++ before ∧
        before.map (·.messageInternalId) <+: xs.map (·.internalId)) ∨
      ∃ before messageId seqNo after,
        (prepareMessages o readings p (xs ++ m :: ys)).messages =
          p.messages ++ before ++
            preparedMessage o (prepareMessages o readings p xs) m messageId seqNo :: after ∧
        (prepareMessages o readings p xs).messages = p.messages ++ before ∧
        before.map (·.messageInternalId) = xs.map (·.internalId) ∧
        after.map (·.messageInternalId) <+: ys.map (·.internalId) := by
  rw [prepareMessages_append, prepareMessages]
  obtain ⟨before, hbefore, hbegins, _, hall⟩ := prepareMessages_extends o xs readings p
  obtain ⟨after, hafter, hafterIds, hstopped, _⟩ := prepareMessages_extends o ys
    (fun k => readings (k + 1 + xs.length))
    (prepareMessage o (prepareMessages o readings p xs) m (readings (0 + xs.length)))
  rcases prepareMessage_cases o (prepareMessages o readings p xs) m
    (readings (0 + xs.length)) with ⟨hfree, hopen, messageId, seqNo, hone⟩ | ⟨hstop, hone⟩
  · grind
  · grind

theorem prepareMessages_of_mem {o : Options} {readings : Nat → Int} {info : SessionInfo}
    {xs ys : List OutgoingMessage} {m : OutgoingMessage} {message : PreparedMessage}
    (hids : ((xs ++ m :: ys).map (·.internalId)).Nodup)
    (hmessage : message ∈ (prepareMessages o readings { info } (xs ++ m :: ys)).messages)
    (hid : message.messageInternalId = m.internalId) :
    ∃ p messageId seqNo later,
      message = preparedMessage o p m messageId seqNo ∧
      (prepareMessages o readings { info } (xs ++ m :: ys)).messages =
        p.messages ++ message :: later ∧
      p.messages.map (·.messageInternalId) = xs.map (·.internalId) ∧
      later.map (·.messageInternalId) <+: ys.map (·.internalId) := by
  rw [List.map_append, List.map_cons] at hids
  obtain ⟨_, hright, hdisjoint⟩ := List.nodup_append.1 hids
  have hnotAfter : m.internalId ∉ ys.map (·.internalId) := (List.nodup_cons.1 hright).1
  have hnotBefore : m.internalId ∉ xs.map (·.internalId) := fun hin =>
    hdisjoint _ hin _ (.head _) rfl
  rcases prepareMessages_cut o readings { info } xs ys m with
    ⟨before, hall, hbefore⟩ | ⟨before, messageId, seqNo, after, hall, hp, hbefore, hafter⟩
  · rw [hall, List.nil_append] at hmessage
    have hin := hbefore.subset (List.mem_map_of_mem hmessage)
    rw [hid] at hin
    exact absurd hin hnotBefore
  · have heq : message = preparedMessage o (prepareMessages o readings { info } xs) m
        messageId seqNo := by
      rw [hall, List.nil_append] at hmessage
      rcases List.mem_append.1 hmessage with hin | hin
      · grind
      · rcases List.mem_cons.1 hin with heq | hin
        · exact heq
        · have hin := hafter.subset (List.mem_map_of_mem hin)
          rw [hid] at hin
          exact absurd hin hnotAfter
    refine ⟨_, messageId, seqNo, after, heq, ?_, ?_, hafter⟩
    · rw [hall, hp, ← heq]
    · rw [hp, List.nil_append, hbefore]

theorem dictionary_append {κ υ : Type} [BEq κ] (xs ys : List (κ × υ)) (key : κ) :
    dictionary (xs ++ ys) key = (dictionary ys key).or (dictionary xs key) := by
  unfold dictionary
  rw [List.reverse_append, List.lookup_append]

theorem dictionary_of_mem {κ υ : Type} [BEq κ] [LawfulBEq κ] {entries : List (κ × υ)}
    {key : κ} {value : υ} (hnodup : (entries.map Prod.fst).Nodup)
    (hmem : (key, value) ∈ entries) : dictionary entries key = some value := by
  obtain ⟨xs, ys, rfl⟩ := List.append_of_mem hmem
  rw [List.map_append, List.map_cons] at hnodup
  have hys : dictionary ys key = none := by
    rw [dictionary_eq_none_iff]
    intro entry hentry heq
    have hright := (List.nodup_append.1 hnodup).2.1
    exact (List.nodup_cons.1 hright).1 (List.mem_map.2 ⟨entry, hentry, heq⟩)
  have hone : dictionary [(key, value)] key = some value := by
    simp [dictionary]
  rw [← List.singleton_append, dictionary_append, dictionary_append, hys, hone]
  rfl

theorem preparedDictionary_isSome {messages : List PreparedMessage} {internalId : Nat}
    (hmem : internalId ∈ messages.map (·.messageInternalId)) :
    ∃ message, preparedDictionary messages internalId = some message := by
  obtain ⟨message, hmessage, heq⟩ := List.mem_map.1 hmem
  cases hfound : preparedDictionary messages internalId with
  | some found => exact ⟨found, rfl⟩
  | none =>
    have hne := dictionary_eq_none_iff.1 hfound (message.messageInternalId, message)
      (List.mem_map.2 ⟨message, hmessage, rfl⟩)
    exact absurd heq hne

theorem preparedDictionary_append {xs ys : List PreparedMessage} {internalId : Nat}
    (hys : internalId ∉ ys.map (·.messageInternalId)) :
    preparedDictionary (xs ++ ys) internalId = preparedDictionary xs internalId := by
  unfold preparedDictionary
  have hnone : dictionary (ys.map fun m => (m.messageInternalId, m)) internalId = none := by
    rw [dictionary_eq_none_iff]
    intro entry hentry heq
    obtain ⟨message, hmessage, rfl⟩ := List.mem_map.1 hentry
    exact hys (List.mem_map.2 ⟨message, hmessage, heq⟩)
  rw [List.map_append, dictionary_append, hnone]
  rfl

/-! ## The transaction of the service -/

variable {s : Service ρ} {now : Rat} {t : RequestTransaction}

theorem transaction_ids (h : (mtProtoMessageTransaction s now).1 = some t) :
    t.requestInternalIdToMessageInternalId =
      (emittedRequests s now).map fun e => (e.1.internalId, e.2) := by
  unfold mtProtoMessageTransaction at h
  dsimp only at h
  split at h
  · cases h
  · cases h
    rfl

theorem transaction_willInitializeApi (h : (mtProtoMessageTransaction s now).1 = some t) :
    t.requestsWillInitializeApi = willInitializeApi s := by
  unfold mtProtoMessageTransaction at h
  dsimp only at h
  split at h
  · cases h
  · cases h
    rfl

theorem transaction_messages (h : (mtProtoMessageTransaction s now).1 = some t) :
    t.messagePayload =
      (emittedRequests s now).map (fun e => requestMessage s (willInitializeApi s)
        t.requestInternalIdToMessageInternalId e.1 e.2) ++
      (s.dropReponseContexts.zipIdx
        (s.nextMessageInternalId + (emittedRequests s now).length)).map
          (fun e => dropMessage e.1 e.2) := by
  unfold mtProtoMessageTransaction at h
  dsimp only at h
  split at h
  · cases h
  · cases h
    rfl

variable {e : Request ρ × Nat}

theorem transaction_isSome (hmem : e ∈ emittedRequests s now) :
    ∃ t, (mtProtoMessageTransaction s now).1 = some t := by
  unfold mtProtoMessageTransaction
  dsimp only
  split
  · simp_all
  · exact ⟨_, rfl⟩

theorem emittedRequests_snd (s : Service ρ) (now : Rat) :
    (emittedRequests s now).map Prod.snd =
      List.range' s.nextMessageInternalId (emittedRequests s now).length := by
  unfold emittedRequests
  rw [List.zipIdx_map_snd, List.length_zipIdx]

theorem transaction_nodup (h : (mtProtoMessageTransaction s now).1 = some t) :
    (t.messagePayload.map (·.internalId)).Nodup := by
  have hids : t.messagePayload.map (·.internalId) =
      List.range' s.nextMessageInternalId
        ((emittedRequests s now).length + s.dropReponseContexts.length) := by
    rw [transaction_messages h, List.map_append, List.map_map, List.map_map]
    have hrequests : (emittedRequests s now).map
        ((·.internalId) ∘ fun e => requestMessage s (willInitializeApi s)
          t.requestInternalIdToMessageInternalId e.1 e.2) =
        (emittedRequests s now).map Prod.snd := rfl
    have hdrops : (s.dropReponseContexts.zipIdx
          (s.nextMessageInternalId + (emittedRequests s now).length)).map
        ((·.internalId) ∘ fun e => dropMessage e.1 e.2) =
        (s.dropReponseContexts.zipIdx
          (s.nextMessageInternalId + (emittedRequests s now).length)).map Prod.snd := rfl
    rw [hrequests, hdrops, emittedRequests_snd, List.zipIdx_map_snd,
      List.range'_append_1]
  rw [hids]
  exact List.nodup_range'

variable {request other : Request ρ}

theorem requests_split (hnodup : s.internalIds.Nodup) (hmem : request ∈ s.requests) :
    ∃ later, s.requests = earlierRequests s request ++ request :: later := by
  obtain ⟨xs, ys, hsplit⟩ := List.append_of_mem hmem
  refine ⟨ys, ?_⟩
  unfold Service.internalIds at hnodup
  unfold earlierRequests
  rw [hsplit] at hnodup ⊢
  rw [List.map_append, List.map_cons] at hnodup
  have hdiffer : ∀ other ∈ xs, (other.internalId != request.internalId) = true := by
    grind
  rw [List.takeWhile_append_of_pos hdiffer, List.takeWhile_cons_of_neg (by simp),
    List.append_nil]

theorem emittedRequests_split (hnodup : s.internalIds.Nodup) (hmem : request ∈ s.requests)
    (hemitted : isEmitted s now request = true) :
    ∃ later, emittedRequests s now =
      ((earlierRequests s request).filter (isEmitted s now)).zipIdx s.nextMessageInternalId ++
        (request, s.nextMessageInternalId +
          ((earlierRequests s request).filter (isEmitted s now)).length) :: later := by
  obtain ⟨later, hsplit⟩ := requests_split hnodup hmem
  refine ⟨(later.filter (isEmitted s now)).zipIdx (s.nextMessageInternalId +
    ((earlierRequests s request).filter (isEmitted s now)).length + 1), ?_⟩
  have hfilter : s.requests.filter (isEmitted s now) =
      (earlierRequests s request).filter (isEmitted s now) ++
        request :: later.filter (isEmitted s now) := by
    conv_lhs => rw [hsplit]
    rw [List.filter_append, List.filter_cons_of_pos hemitted]
  unfold emittedRequests
  rw [hfilter, List.zipIdx_append, List.zipIdx_cons]

theorem emittedRequests_mem (hmem : e ∈ emittedRequests s now) :
    e.1 ∈ s.requests ∧ isEmitted s now e.1 = true := by
  have hfst : e.1 ∈ (emittedRequests s now).map Prod.fst := List.mem_map.2 ⟨e, hmem, rfl⟩
  unfold emittedRequests at hfst
  rw [List.zipIdx_map_fst] at hfst
  exact List.mem_filter.1 hfst

theorem transaction_ids_nodup (hnodup : s.internalIds.Nodup)
    (h : (mtProtoMessageTransaction s now).1 = some t) :
    (t.requestInternalIdToMessageInternalId.map Prod.fst).Nodup := by
  have hkeys : t.requestInternalIdToMessageInternalId.map Prod.fst =
      (s.requests.filter (isEmitted s now)).map (·.internalId) := by
    rw [transaction_ids h, List.map_map]
    have hfst := congrArg (List.map (·.internalId))
      (List.zipIdx_map_fst s.nextMessageInternalId (s.requests.filter (isEmitted s now)))
    rw [List.map_map] at hfst
    exact hfst
  rw [hkeys]
  exact hnodup.sublist (List.filter_sublist.map _)

theorem messageFor_emitted {messageInternalId : Nat} (hnodup : s.internalIds.Nodup)
    (h : (mtProtoMessageTransaction s now).1 = some t)
    (hmem : (request, messageInternalId) ∈ emittedRequests s now) :
    t.messageFor request = some messageInternalId := by
  apply dictionary_of_mem (transaction_ids_nodup hnodup h)
  rw [transaction_ids h]
  exact List.mem_map.2 ⟨_, hmem, rfl⟩

/-- A request that is held back, or needs no sending, gets no message. -/
theorem messageFor_eq_none (hnodup : s.internalIds.Nodup)
    (h : (mtProtoMessageTransaction s now).1 = some t) (hmem : request ∈ s.requests)
    (hnot : isEmitted s now request = false) : t.messageFor request = none := by
  unfold RequestTransaction.messageFor
  rw [transaction_ids h, dictionary_eq_none_iff]
  intro entry hentry heq
  obtain ⟨e, he, rfl⟩ := List.mem_map.1 hentry
  obtain ⟨hrequest, hemitted⟩ := emittedRequests_mem he
  have hsame : e.1 = request := List.inj_on_of_nodup_map hnodup hrequest hmem heq
  rw [hsame, hnot] at hemitted
  cases hemitted

/-! ## The order of one emission -/

/-- What `MTProto` prepares of a transaction, whose messages stand between
those of the other services.  The payloads that are sent carry exactly the
prepared messages (`perm_payloads`). -/
def preparedMessages (o : Options) (info : SessionInfo) (readings containerReadings : Nat → Int)
    (before after : List OutgoingMessage) (t : RequestTransaction) : List PreparedMessage :=
  (transportReadyForTransaction o info readings containerReadings
    (before ++ t.messagePayload ++ after)).1

/-- The message id a request goes by: that of its context, or, if it has none,
that of the message the transaction has made for it. -/
def currentMessageId (t : RequestTransaction) (messages : List PreparedMessage)
    (other : Request ρ) : Option Int :=
  match other.requestContext with
  | some context => some context.messageId
  | none => ((t.messageFor other).bind (preparedDictionary messages)).map (·.messageId)

/-- However the emission at time `now` is prepared, the message of every
request with an earlier dependency is the body of the request wrapped in
`invokeAfterMsg` with the current message id of the nearest dependency.
Internal ids are objects, so those of different messages differ. -/
def EmissionOrdered (s : Service ρ) (now : Rat) : Prop :=
  ∀ t, (mtProtoMessageTransaction s now).1 = some t →
  ∀ o info readings containerReadings before after,
    ((before ++ t.messagePayload ++ after).map (·.internalId)).Nodup →
  ∀ request ∈ s.requests, ∀ other ∈ nearestDependency s request,
  ∀ message ∈ preparedMessages o info readings containerReadings before after t,
    t.messageFor request = some message.messageInternalId →
    ∃ messageId,
      currentMessageId t (preparedMessages o info readings containerReadings before after t)
        other = some messageId ∧
      message.data =
        invokeAfterMsg messageId (plainData s request t.requestsWillInitializeApi)

/-- The nearest dependency of every request that is about to be emitted has a
context or is not held back. -/
def DependenciesSent (s : Service ρ) (now : Rat) : Prop :=
  ∀ request ∈ s.requests, isEmitted s now request = true →
    ∀ other ∈ nearestDependency s request,
      other.requestContext.isSome = true ∨ isHeldBack s now other = false

instance (s : Service ρ) (now : Rat) : Decidable (DependenciesSent s now) :=
  inferInstanceAs (Decidable (∀ request ∈ s.requests, isEmitted s now request = true →
    ∀ other ∈ nearestDependency s request,
      other.requestContext.isSome = true ∨ isHeldBack s now other = false))

theorem preparedMessages_eq (o : Options) (info : SessionInfo)
    (readings containerReadings : Nat → Int) (before after : List OutgoingMessage)
    (t : RequestTransaction) :
    preparedMessages o info readings containerReadings before after t =
      (prepareMessages o readings { info } (before ++ t.messagePayload ++ after)).messages := by
  unfold preparedMessages transportReadyForTransaction
  dsimp only
  split
  · rfl
  · split <;> rfl

theorem nearestDependency_mem (h : other ∈ nearestDependency s request)
    : other ∈ earlierRequests s request := by
  unfold nearestDependency at h
  obtain ⟨shouldDepend, _, hfind⟩ := Option.bind_eq_some_iff.1 h
  exact List.mem_reverse.1 (List.mem_of_find?_eq_some hfind)

theorem earlierRequests_subset (h : other ∈ earlierRequests s request) : other ∈ s.requests :=
  (List.takeWhile_sublist _).subset h

/-- The requests emitted before `request`, with the internal ids of their
messages. -/
def emittedBefore (s : Service ρ) (now : Rat) (request : Request ρ) : List (Request ρ × Nat) :=
  ((earlierRequests s request).filter (isEmitted s now)).zipIdx s.nextMessageInternalId

/-- How a prepared message of an emitted request came about: everything the
service put before it was prepared when it was decorated, and what was prepared
later has other ids. -/
theorem prepared_cut (hnodup : s.internalIds.Nodup)
    (h : (mtProtoMessageTransaction s now).1 = some t) (o : Options) (info : SessionInfo)
    (readings containerReadings : Nat → Int) (before after : List OutgoingMessage)
    (hids : ((before ++ t.messagePayload ++ after).map (·.internalId)).Nodup)
    (hmem : request ∈ s.requests) {message : PreparedMessage}
    (hmessage : message ∈ preparedMessages o info readings containerReadings before after t)
    (hfor : t.messageFor request = some message.messageInternalId) :
    ∃ p messageId seqNo later,
      message = preparedMessage o p (requestMessage s (willInitializeApi s)
        t.requestInternalIdToMessageInternalId request message.messageInternalId)
        messageId seqNo ∧
      preparedMessages o info readings containerReadings before after t =
        p.messages ++ message :: later ∧
      ∀ e ∈ emittedBefore s now request,
        e.2 ∈ p.messages.map (·.messageInternalId) ∧
          e.2 ∉ (message :: later).map (·.messageInternalId) := by
  have hemitted : isEmitted s now request = true := by
    grind [messageFor_eq_none]
  obtain ⟨laterRequests, hsplit⟩ := emittedRequests_split hnodup hmem hemitted
  have hposition : s.nextMessageInternalId +
      ((earlierRequests s request).filter (isEmitted s now)).length =
        message.messageInternalId := by
    have hown := messageFor_emitted hnodup h
      (hsplit ▸ List.mem_append_right _ (.head _))
    rw [hfor] at hown
    exact (Option.some.inj hown).symm
  rw [hposition] at hsplit
  let messageOf : Request ρ × Nat → OutgoingMessage := fun e =>
    requestMessage s (willInitializeApi s) t.requestInternalIdToMessageInternalId e.1 e.2
  obtain ⟨drops, hpayload⟩ : ∃ drops,
      t.messagePayload = (emittedRequests s now).map messageOf ++ drops :=
    ⟨_, transaction_messages h⟩
  have hlist : before ++ t.messagePayload ++ after =
      (before ++ (emittedBefore s now request).map messageOf) ++
        messageOf (request, message.messageInternalId) ::
          (laterRequests.map messageOf ++ drops ++ after) := by
    rw [hpayload, hsplit, emittedBefore]
    simp only [List.map_append, List.map_cons, List.append_assoc, List.cons_append]
  rw [preparedMessages_eq] at hmessage ⊢
  rw [hlist] at hids hmessage ⊢
  obtain ⟨p, messageId, seqNo, later, heq, hall, hp, hlater⟩ :=
    prepareMessages_of_mem hids hmessage rfl
  refine ⟨p, messageId, seqNo, later, heq, hall, ?_⟩
  intro e he
  have hin : e.2 ∈ (before ++ (emittedBefore s now request).map messageOf).map (·.internalId) := by
    rw [List.map_append, List.map_map]
    exact List.mem_append_right _ (List.mem_map.2 ⟨e, he, rfl⟩)
  rw [List.map_append, List.map_cons] at hids
  have hdisjoint := (List.nodup_append.1 hids).2.2
  constructor
  · rw [hp]
    exact hin
  · intro hafter
    rcases List.mem_cons.1 hafter with hafter | hafter
    · exact hdisjoint _ hin _ (.head _) hafter
    · exact hdisjoint _ hin _ (.tail _ (hlater.subset hafter)) rfl

theorem emittedBefore_of_dependency (hother : other ∈ earlierRequests s request)
    (hcontext : other.requestContext = none) (hheld : isHeldBack s now other = false) :
    ∃ messageInternalId, (other, messageInternalId) ∈ emittedBefore s now request := by
  have hemitted : isEmitted s now other = true := by
    unfold isEmitted needsSending
    rw [hheld, hcontext]
    rfl
  have hfst : other ∈ (emittedBefore s now request).map Prod.fst := by
    unfold emittedBefore
    rw [List.zipIdx_map_fst]
    exact List.mem_filter.2 ⟨hother, hemitted⟩
  obtain ⟨e, he, heq⟩ := List.mem_map.1 hfst
  exact ⟨e.2, heq ▸ he⟩

theorem emittedBefore_subset (hnodup : s.internalIds.Nodup) (hmem : request ∈ s.requests)
    (hemitted : isEmitted s now request = true) (he : e ∈ emittedBefore s now request)
    : e ∈ emittedRequests s now := by
  obtain ⟨later, hsplit⟩ := emittedRequests_split hnodup hmem hemitted
  rw [hsplit]
  exact List.mem_append_left _ he

theorem preparedMessage_data (o : Options) (p : Preparation) (s : Service ρ)
    (initializeApi : Bool) (ids : List (Nat × Nat)) (request : Request ρ)
    (messageInternalId : Nat) (messageId seqNo : Int) :
    (preparedMessage o p (requestMessage s initializeApi ids request messageInternalId)
      messageId seqNo).data =
      match (decorateRequestData s request initializeApi).2 with
      | some unresolved =>
        dependencyDecorator ids unresolved (decorateRequestData s request initializeApi).1
          (preparedDictionary p.messages)
      | none => (decorateRequestData s request initializeApi).1 := by
  unfold preparedMessage requestMessage
  cases hdata : decorateRequestData s request initializeApi with
  | mk data unresolved =>
    grind

theorem emissionOrdered_of_dependenciesSent (hnodup : s.internalIds.Nodup)
    (hsent : DependenciesSent s now) :
    EmissionOrdered s now := by
  intro t h o info readings containerReadings before after hids request hmem other hother
    message hmessage hfor
  have hemitted : isEmitted s now request = true := by
    grind [messageFor_eq_none]
  obtain ⟨p, messageId, seqNo, later, heq, hall, hbefore⟩ :=
    prepared_cut hnodup h o info readings containerReadings before after hids hmem hmessage
      hfor
  have hdata := congrArg PreparedMessage.data heq
  have hnearest : nearestDependency s request = some other := hother
  rw [preparedMessage_data, decorateRequestData_eq, hnearest] at hdata
  dsimp only at hdata
  unfold currentMessageId
  rw [transaction_willInitializeApi h]
  cases hcontext : other.requestContext with
  | some context =>
    rw [hcontext] at hdata
    exact ⟨context.messageId, rfl, hdata⟩
  | none =>
    rw [hcontext] at hdata
    have hheld : isHeldBack s now other = false := by
      rcases hsent request hmem hemitted other hother with hsome | hheld
      · rw [hcontext] at hsome
        cases hsome
      · exact hheld
    obtain ⟨messageInternalId, he⟩ :=
      emittedBefore_of_dependency (nearestDependency_mem hother) hcontext hheld
    have hmessageFor : t.messageFor other = some messageInternalId :=
      messageFor_emitted hnodup h (emittedBefore_subset hnodup hmem hemitted he)
    obtain ⟨hprepared, hlater⟩ := hbefore _ he
    obtain ⟨found, hfound⟩ := preparedDictionary_isSome hprepared
    have hfinal : preparedDictionary
        (preparedMessages o info readings containerReadings before after t)
          messageInternalId = some found := by
      rw [hall, preparedDictionary_append hlater, hfound]
    refine ⟨found.messageId, ?_, ?_⟩
    · grind
    · rw [hdata]
      show dependencyDecorator _ other.internalId _ _ = _
      unfold dependencyDecorator
      have hlookup : dictionary t.requestInternalIdToMessageInternalId other.internalId =
          some messageInternalId := hmessageFor
      rw [hlookup, Option.bind_some, hfound]
      rfl

theorem preparedMessages_unauthorized (t : RequestTransaction) (info : SessionInfo)
    (readings : Nat → Int) :
    (preparedMessages { useUnauthorizedMode := true } info readings readings [] [] t).map
      (·.messageInternalId) = t.messagePayload.map (·.internalId) := by
  rw [preparedMessages_eq, List.nil_append, List.append_nil]
  obtain ⟨new, hnew, _, _, hall⟩ := prepareMessages_extends { useUnauthorizedMode := true }
    t.messagePayload readings { info }
  rw [hnew, List.nil_append]
  apply hall
  unfold isBlocked
  rw [Bool.not_true, Bool.and_false]

theorem dependenciesSent_of_emissionOrdered (hnodup : s.internalIds.Nodup)
    (hordered : EmissionOrdered s now) :
    DependenciesSent s now := by
  intro request hmem hemitted other hother
  by_cases hsome : other.requestContext.isSome = true
  · exact .inl hsome
  right
  cases hheld : isHeldBack s now other with
  | false => rfl
  | true =>
    exfalso
    have hcontext : other.requestContext = none := by simpa using hsome
    obtain ⟨later, hsplit⟩ := emittedRequests_split hnodup hmem hemitted
    have he : (request, s.nextMessageInternalId +
        ((earlierRequests s request).filter (isEmitted s now)).length) ∈
        emittedRequests s now :=
      hsplit ▸ List.mem_append_right _ (.head _)
    obtain ⟨t, ht⟩ := transaction_isSome he
    have hin : s.nextMessageInternalId +
        ((earlierRequests s request).filter (isEmitted s now)).length ∈
        (preparedMessages { useUnauthorizedMode := true } {} (fun _ => 1) (fun _ => 1)
          [] [] t).map (·.messageInternalId) := by
      rw [preparedMessages_unauthorized, transaction_messages ht, List.map_append,
        List.map_map]
      exact List.mem_append_left _ (List.mem_map.2 ⟨_, he, rfl⟩)
    obtain ⟨message, hmessage, hid⟩ := List.mem_map.1 hin
    have hids : (([] ++ t.messagePayload ++ []).map OutgoingMessage.internalId).Nodup := by
      rw [List.nil_append, List.append_nil]
      exact transaction_nodup ht
    obtain ⟨messageId, hcurrent, _⟩ := hordered t ht _ _ _ _ [] [] hids request hmem other
      hother message hmessage (hid ▸ messageFor_emitted hnodup ht he)
    have hnone : t.messageFor other = none := by
      apply messageFor_eq_none hnodup ht
      · exact earlierRequests_subset (nearestDependency_mem hother)
      · unfold isEmitted
        rw [hheld]
        rfl
    unfold currentMessageId at hcurrent
    rw [hcontext, hnone] at hcurrent
    cases hcurrent

/-- The order of an emission is lost exactly when a dependency that was never
sent is held back. -/
theorem emission_ordered_iff (hnodup : s.internalIds.Nodup) :
    EmissionOrdered s now ↔ DependenciesSent s now :=
  ⟨dependenciesSent_of_emissionOrdered hnodup, emissionOrdered_of_dependenciesSent hnodup⟩

/-- A property of the service at each of its emissions. -/
def AtEmission (P : Service ρ → Rat → Prop) (w : World ρ) : Event ρ → Prop
  | .messageTransaction now => P w.service now
  | _ => True

/-- In every run, from any list of pending requests, every emission respects
the dependencies exactly when no emission finds a dependency that was never
sent held back. -/
theorem run_emissions_ordered_iff (decompressGZip : Data → Option Data) (w : World ρ)
    (hw : DistinctIds w) (es : List (Event ρ)) :
    Guarded (step decompressGZip) (AtEmission EmissionOrdered) w es ↔
      Guarded (step decompressGZip) (AtEmission DependenciesSent) w es := by
  have hstep : ∀ (w : World ρ) (e : Event ρ), DistinctIds w →
      DistinctIds (step decompressGZip w e) :=
    fun w e hw => step_distinctIds decompressGZip w e hw
  apply guarded_congr hstep
  · intro w e hw
    cases e <;> first | exact emission_ordered_iff hw | exact Iff.rfl
  · exact hw

/-- A message request that is sent, and answered with a flood wait of ten
seconds; a second one that has to follow it is added and emitted meanwhile. -/
def floodWaitRun : List (Event Unit) :=
  [.addRequest { internalId := 0, payload := [1], responseParser := fun _ => none },
    .messageTransaction 0,
    .prepared 0 fun _ => some
      { messageInternalId := 0, data := [1], messageId := 4, seqNo := 1, salt := 1
        requiresConfirmation := true, hasHighPriority := false, inResponseToMessageId := 0 },
    .rpcResult 4 (int32Bytes 0x2144ca19 ++ int32Bytes 420 ++
      TLBuffer.tlString "FLOOD_WAIT_10") 0 1,
    .addRequest
      { internalId := 1, payload := [2], responseParser := fun _ => none
        shouldDependOnRequest := some (· == 0) },
    .messageTransaction 5]

/-- The second request of `floodWaitRun` is emitted plain. -/
theorem floodWaitRun_not_ordered :
    ¬ Guarded (step fun _ => none) (AtEmission EmissionOrdered) {} floodWaitRun := by
  intro h
  have hlast := h.2.2.2.2.2.1
  have hsent := dependenciesSent_of_emissionOrdered (by decide +kernel) hlast
  revert hsent
  decide +kernel

/-- Without the flood answer the same two requests are emitted in order. -/
theorem floodWaitRun_ordered_without_answer :
    Guarded (step fun _ => none) (AtEmission EmissionOrdered) {}
      (floodWaitRun.eraseIdx 3) := by
  apply (run_emissions_ordered_iff (fun _ => none) {} List.nodup_nil _).2
  refine ⟨trivial, ?_, trivial, trivial, ?_, trivial⟩
  · show DependenciesSent _ _
    decide +kernel
  · show DependenciesSent _ _
    decide +kernel

end TelegramPub.Ports.InvokeAfter
