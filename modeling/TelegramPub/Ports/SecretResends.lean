import TelegramPub.Ports.SecretOutgoing

/-!
# What is sent again

A request of the peer copies the stored actions of a range of numbers to the second table,
and each copy stays there until its own request has been completed.  Three things can keep a
copy from being sent as it was sent first.  The ids of the two tables are held against one
set of ids, in which they are not told apart.  The key may have been discarded since.  And
the text of a message is replaced by its deletion unless an actor waits for its id, where
the id of a copy is one of the second table.

`resends_served` is about the runs in which none of the three happens, `numbers_unique`
about all runs.
-/

namespace TelegramPub.Ports.SecretResends

open Verified Verified.Machine Ports.SecretKeys Ports.SecretOutgoing

variable {δ κ : Type}

/-- There is a request of an action of one of the two tables. -/
def Requested (requests : List (Request δ κ)) (isResend : Bool) (actionId : Nat) : Prop :=
  ∃ q ∈ requests, q.isResend = isResend ∧ q.actionId = actionId

instance (requests : List (Request δ κ)) (isResend : Bool) (actionId : Nat) :
    Decidable (Requested requests isResend actionId) :=
  inferInstanceAs (Decidable (∃ q ∈ requests, q.isResend = isResend ∧ q.actionId = actionId))

theorem Requested.mono {requests requests' : List (Request δ κ)} {isResend : Bool}
    {actionId : Nat} (h : Requested requests isResend actionId) (hsub : requests ⊆ requests') :
    Requested requests' isResend actionId := by
  obtain ⟨q, hq, hkind, hid⟩ := h
  exact ⟨q, hsub hq, hkind, hid⟩

/-- Every copy has been requested, or it is in the table and has not been read by a poll that
has ended. -/
def AllServed (s : Client δ κ) : Prop :=
  ∀ c ∈ s.copied.rows, Requested s.requests true c.id ∨
    (c ∈ s.db.outgoingResend.rows ∧ ∀ d ∈ s.worked, c ∉ d.resendActions)

/-- The first request of the numbered action with a number. -/
def firstTime (requests : List (Request δ κ)) (seqOut : Int) : Option (Request δ κ) :=
  requests.find? fun q => !q.isResend && decide (17 ≤ q.layer) && q.seqOut == seqOut

/-- The request sends a numbered action again, as it was sent first. -/
structure SentAgain (s s' : Client δ κ) (q : Request δ κ) : Prop where
  numbers : ∃ r, s.numbered[q.seqOut.toNat]? = some r ∧ r.value.seqOut = q.seqOut ∧
    r.value.seqIn = q.seqIn
  key : ∃ k ∈ s.keys, q.key = some k
  text : ∀ q₀, firstTime s'.requests q.seqOut = some q₀ → q.actionData = q₀.actionData

section Steps

variable (deleteMessages : Nat → Int → Option δ)

/-- What a step does for the copies: a numbered action that is asked for is copied, a copy
stays until its request is completed, and a poll has a request for each action that it has
read, and sends a copy as the action was sent first. -/
structure ServedStep (s : Client δ κ) (e : Event δ κ) : Prop where
  copied : ∀ fromSeq toSeq, e = .resendRequested fromSeq toSeq → ∀ r ∈ s.db.outgoing.rows,
    17 ≤ r.value.action.layer → fromSeq ≤ r.value.seqOut → r.value.seqOut ≤ toSeq →
      ∃ c ∈ (step deleteMessages s e).copied.rows, c.value = r.value ∧ s.copied.lastId < c.id
  kept : ∀ c ∈ s.db.outgoingResend.rows, c ∈ (step deleteMessages s e).db.outgoingResend.rows ∨
    ∃ index q, e = .completed index ∧ s.inFlight[index]? = some q ∧ q.isResend = true ∧
      q.actionId = c.id
  polled : ∀ waitsForActionWithId, e = .poll waitsForActionWithId → ∀ d ∈ s.waiting.head?,
    (∀ r ∈ d.actions, Requested (step deleteMessages s e).outstanding false r.id) ∧
    (∀ r ∈ d.resendActions, Requested (step deleteMessages s e).outstanding true r.id) ∧
    ∀ q ∈ s.newRequests deleteMessages waitsForActionWithId d, q.isResend = true →
      17 ≤ q.layer → SentAgain s (step deleteMessages s e) q

/-- An action whose id is one of an outstanding request of the other table has such a request
itself. -/
structure IdsApart (s : Client δ κ) (d : Dequeued δ) : Prop where
  actions : ∀ r ∈ d.actions, Requested s.outstanding true r.id →
    Requested s.outstanding false r.id
  resendActions : ∀ r ∈ d.resendActions, Requested s.outstanding false r.id →
    Requested s.outstanding true r.id

/-- An actor waits for the copy of a message if and only if one waited, or one waits now, for
the message. -/
structure TextKept (s : Client δ κ) (waitsForActionWithId : Nat → Bool) (d : Dequeued δ)
    (r : Row (OutgoingRow δ)) : Prop where
  before : ∀ q₀, firstTime s.requests r.value.seqOut = some q₀ →
    q₀.waited = waitsForActionWithId r.id
  now : firstTime s.requests r.value.seqOut = none → ∀ r₀ ∈ d.actions,
    17 ≤ r₀.value.action.layer → r₀.value.seqOut = r.value.seqOut →
      r₀.id ∉ s.executingRequestsActionIds →
        waitsForActionWithId r₀.id = waitsForActionWithId r.id

/-- The condition on one step. -/
def Undisturbed (s : Client δ κ) : Event δ κ → Prop
  | .poll waitsForActionWithId => ∀ d ∈ s.waiting.head?, IdsApart s d ∧
      ∀ r ∈ d.resendActions, 17 ≤ r.value.action.layer →
        r.id ∉ s.executingRequestsActionIds →
          encryptionKeyForConversationId s.keys r.value.action.keyId ≠ none ∧
          (r.value.action.kind = .message →
            deleteMessages r.value.action.layer r.value.action.randomId ≠
              some r.value.action.data →
            TextKept s waitsForActionWithId d r)
  | _ => True

variable {deleteMessages}

theorem mem_of_encryptionKeyForConversationId {keys : List (KeyData κ)} {fingerprint : Int}
    {k : KeyData κ} (h : encryptionKeyForConversationId keys fingerprint = some k) :
    k ∈ keys := by
  unfold encryptionKeyForConversationId at h
  split at h
  · exact List.mem_of_getLast? h
  · exact List.mem_reverse.1 (List.mem_of_find?_eq_some h)

variable {r : Row (OutgoingRow δ)}

/-- Two requests of one action have one text, if an actor waits for both or for none. -/
theorem actionData_eq {keys keys' : List (KeyData κ)} {waits waits' : Nat → Bool}
    {r' : Row (OutgoingRow δ)} {isResend isResend' : Bool} (hvalue : r.value = r'.value)
    (hwaits : r.value.action.kind = .message →
      deleteMessages r.value.action.layer r.value.action.randomId ≠ some r.value.action.data →
      waits r.id = waits' r'.id) :
    (requestForAction deleteMessages keys waits r isResend).actionData =
      (requestForAction deleteMessages keys' waits' r' isResend').actionData := by
  unfold requestForAction
  rw [← hvalue]
  cases hkind : r.value.action.kind with
  | serviceMessage => rfl
  | message =>
    grind

/-! ## What holds in every run -/

/-- The copies are copies of numbered actions, the requests are made of what is known or
copied, and an id is being executed only for an outstanding request. -/
structure Recorded (deleteMessages : Nat → Int → Option δ) (s : Client δ κ) : Prop where
  wellNumbered : WellNumbered s
  executing : ∀ id ∈ s.executingRequestsActionIds, ∃ q ∈ s.outstanding, q.actionId = id
  outstanding : s.outstanding ⊆ s.requests
  inFlight : s.inFlight ⊆ s.requests
  lastId : s.db.outgoingResend.lastId = s.copied.lastId
  stored : s.db.outgoingResend.rows ⊆ s.copied.rows
  read : ∀ d ∈ s.waiting, d.resendActions ⊆ s.copied.rows
  worked : ∀ d ∈ s.worked, d.resendActions ⊆ s.copied.rows
  copies : ∀ c ∈ s.copied.rows, 17 ≤ c.value.action.layer →
    ∃ r, s.numbered[c.value.seqOut.toNat]? = some r ∧ r.value = c.value
  requested : ∀ q ∈ s.requests, q.isResend = false → ∃ keys waits r,
    q = requestForAction deleteMessages keys waits r false ∧ Known s r

theorem recorded_initial : Recorded deleteMessages (Client.initial : Client δ κ) where
  wellNumbered := wellNumbered_initial
  executing := fun _ hid => absurd hid List.not_mem_nil
  outstanding := List.Subset.refl _
  inFlight := List.Subset.refl _
  lastId := rfl
  stored := List.Subset.refl _
  read := fun _ hd => absurd hd List.not_mem_nil
  worked := fun _ hd => absurd hd List.not_mem_nil
  copies := fun _ hc => absurd hc List.not_mem_nil
  requested := fun _ hq => absurd hq List.not_mem_nil

variable {s s' : Client δ κ}

theorem numbered_mono (he : Extends s s') {n : Nat} (h : s.numbered[n]? = some r)
    : s'.numbered[n]? = some r := by
  obtain ⟨rest, hrest⟩ := he.numbered
  rw [← hrest, List.getElem?_append_left (List.getElem?_eq_some_iff.1 h).1]
  exact h

/-- No step takes rows or numbers back. -/
theorem extends_step (s : Client δ κ) (e : Event δ κ) : Extends s (step deleteMessages s e) := by
  have hsame : Extends s s := extends_of_subset rfl (List.Subset.refl _) rfl
  cases e with
  | enqueue action => exact extends_enqueue s action
  | resendRequested => exact extends_of_subset rfl (List.Subset.refl _) rfl
  | dequeue => exact extends_of_subset rfl (List.Subset.refl _) rfl
  | poll =>
    unfold step
    dsimp only
    split
    · exact hsame
    · exact extends_of_subset rfl (List.Subset.refl _) rfl
  | completed index =>
    unfold step
    dsimp only
    split
    case h_1 => exact hsame
    case h_2 q _ =>
      obtain ⟨hlastId, hrows, -⟩ := completed_rows s index q
      exact extends_of_subset hlastId hrows rfl
  | failed =>
    unfold step
    dsimp only
    split
    · exact hsame
    · exact extends_of_subset rfl (List.Subset.refl _) rfl
  | restart => exact extends_of_subset rfl (List.Subset.refl _) rfl
  | setPeerLayer => exact extends_of_subset rfl (List.Subset.refl _) rfl
  | setKeys => exact extends_of_subset rfl (List.Subset.refl _) rfl
  | applySeqIn => exact extends_of_subset rfl (List.Subset.refl _) rfl
  | confirm =>
    unfold step
    dsimp only
    split
    · exact extends_of_subset rfl (fun r hr => (RowTable.mem_deleteWhere.1 hr).1) rfl
    · exact hsame

/-- Steps that copy, read and request nothing. -/
theorem Recorded.of_same (h : Recorded deleteMessages s) (hwell : WellNumbered s')
    (he : Extends s s') (hcopied : s'.copied = s.copied)
    (hlastId : s'.db.outgoingResend.lastId = s.db.outgoingResend.lastId)
    (hrows : s'.db.outgoingResend.rows ⊆ s.db.outgoingResend.rows)
    (hwaiting : s'.waiting ⊆ s.waiting) (hworked : s'.worked = s.worked)
    (hrequests : s'.requests = s.requests) (hinFlight : s'.inFlight ⊆ s.inFlight)
    (houtstanding : s'.outstanding ⊆ s.outstanding)
    (hexecuting : ∀ id ∈ s'.executingRequestsActionIds, ∃ q ∈ s'.outstanding, q.actionId = id) :
    Recorded deleteMessages s' where
  wellNumbered := hwell
  executing := hexecuting
  outstanding := fun q hq => hrequests ▸ h.outstanding (houtstanding hq)
  inFlight := fun q hq => hrequests ▸ h.inFlight (hinFlight hq)
  lastId := by rw [hlastId, hcopied, h.lastId]
  stored := fun c hc => hcopied ▸ h.stored (hrows hc)
  read := fun d hd => hcopied ▸ h.read d (hwaiting hd)
  worked := fun d hd => hcopied ▸ h.worked d (hworked ▸ hd)
  copies := by
    intro c hc hlayer
    rw [hcopied] at hc
    obtain ⟨r, hr, hvalue⟩ := h.copies c hc hlayer
    exact ⟨r, numbered_mono he hr, hvalue⟩
  requested := by
    intro q hq hkind
    rw [hrequests] at hq
    obtain ⟨keys, waits, r, hmade, hknown⟩ := h.requested q hq hkind
    exact ⟨keys, waits, r, hmade, hknown.mono he⟩

theorem Recorded.resendRequested (h : Recorded deleteMessages s) (fromSeq toSeq : Int) :
    Recorded deleteMessages (step deleteMessages s (.resendRequested fromSeq toSeq)) where
  wellNumbered := h.wellNumbered.step _
  executing := h.executing
  outstanding := h.outstanding
  inFlight := h.inFlight
  lastId := by
    change (s.db.outgoingResend.insertAll _).lastId = (s.copied.insertAll _).lastId
    rw [RowTable.lastId_insertAll, RowTable.lastId_insertAll, h.lastId]
  stored := by
    intro c hc
    change c ∈ (s.db.outgoingResend.insertAll _).rows at hc
    change c ∈ (s.copied.insertAll _).rows
    rw [RowTable.rows_insertAll, List.mem_append] at hc ⊢
    rw [← h.lastId]
    exact hc.imp_left fun hold => h.stored hold
  read := fun d hd c hc => by
    change c ∈ (s.copied.insertAll _).rows
    rw [RowTable.rows_insertAll]
    exact List.mem_append_left _ (h.read d hd hc)
  worked := fun d hd c hc => by
    change c ∈ (s.copied.insertAll _).rows
    rw [RowTable.rows_insertAll]
    exact List.mem_append_left _ (h.worked d hd hc)
  copies := by
    intro c hc hlayer
    change c ∈ (s.copied.insertAll _).rows at hc
    rw [RowTable.rows_insertAll, List.mem_append] at hc
    rcases hc with hold | hnew
    · exact h.copies c hold hlayer
    · have hvalue := (RowTable.of_mem_newRows hnew).2
      unfold Stored.actionsInRange at hvalue
      rw [List.mem_insertionSort] at hvalue
      obtain ⟨r, hr, heq⟩ := List.mem_map.1 (List.mem_filter.1 hvalue).1
      have hknown := h.wellNumbered.stored r hr
      rw [← heq] at hlayer ⊢
      exact ⟨r, (hknown.number hlayer).2, rfl⟩
  requested := by
    intro q hq hkind
    obtain ⟨keys, waits, r, hmade, hknown⟩ := h.requested q hq hkind
    exact ⟨keys, waits, r, hmade, hknown.mono (extends_step s _)⟩

theorem Recorded.dequeue (h : Recorded deleteMessages s) :
    Recorded deleteMessages (step deleteMessages s .dequeue) where
  wellNumbered := h.wellNumbered.step _
  executing := h.executing
  outstanding := h.outstanding
  inFlight := h.inFlight
  lastId := h.lastId
  stored := h.stored
  read := by
    intro d hd
    rcases List.mem_append.1 hd with hold | hnew
    · exact h.read d hold
    · rw [List.mem_singleton.1 hnew]
      exact h.stored
  worked := h.worked
  copies := h.copies
  requested := by
    intro q hq hkind
    obtain ⟨keys, waits, r, hmade, hknown⟩ := h.requested q hq hkind
    exact ⟨keys, waits, r, hmade, hknown.mono (extends_step s .dequeue)⟩

variable {d : Dequeued δ} {rest : List (Dequeued δ)}

theorem Recorded.poll (h : Recorded deleteMessages s) (waitsForActionWithId : Nat → Bool)
    (hwaiting : s.waiting = d :: rest) :
    Recorded deleteMessages (s.poll deleteMessages waitsForActionWithId d rest) where
  wellNumbered := h.wellNumbered.poll waitsForActionWithId hwaiting
  executing := by
    intro id hid
    rcases List.mem_append.1 hid with hold | hnew
    · obtain ⟨q, hq, hqid⟩ := h.executing id hold
      exact ⟨q, List.mem_append_left _ hq, hqid⟩
    · obtain ⟨q, hq, hqid⟩ := List.mem_map.1 hnew
      exact ⟨q, List.mem_append_right _ hq, hqid⟩
  outstanding := fun q hq => List.mem_append.2 ((List.mem_append.1 hq).imp_left fun hold =>
    h.outstanding hold)
  inFlight := fun q hq => List.mem_append.2 ((List.mem_append.1 hq).imp_left fun hold =>
    h.inFlight hold)
  lastId := h.lastId
  stored := h.stored
  read := fun d' hd' => h.read d' (hwaiting ▸ List.mem_cons_of_mem d hd')
  worked := by
    intro d' hd'
    rcases List.mem_append.1 hd' with hold | hnew
    · exact h.worked d' hold
    · rw [List.mem_singleton.1 hnew]
      exact h.read d (hwaiting ▸ List.mem_cons_self ..)
  copies := h.copies
  requested := by
    intro q hq hkind
    have he : Extends s (s.poll deleteMessages waitsForActionWithId d rest) :=
      extends_of_subset rfl (List.Subset.refl _) rfl
    rcases List.mem_append.1 hq with hold | hnew
    · obtain ⟨keys, waits, r, hmade, hknown⟩ := h.requested q hold hkind
      exact ⟨keys, waits, r, hmade, hknown.mono he⟩
    · obtain ⟨r, isResend, hr, -, rfl⟩ := mem_newRequests.1 hnew
      have hfalse : isResend = false := hkind
      subst hfalse
      rcases hr with ⟨hr, -⟩ | ⟨-, htrue⟩
      · have hd : d ∈ s.waiting := hwaiting ▸ List.mem_cons_self ..
        exact ⟨s.keys, waitsForActionWithId, r, rfl, (h.wellNumbered.read d hd r hr).mono he⟩
      · cases htrue

theorem completed_copies (s : Client δ κ) (index : Nat) (q : Request δ κ) :
    (s.completed index q).db.outgoingResend.lastId = s.db.outgoingResend.lastId ∧
      (s.completed index q).db.outgoingResend.rows ⊆ s.db.outgoingResend.rows ∧
      ∀ c ∈ s.db.outgoingResend.rows, c ∈ (s.completed index q).db.outgoingResend.rows ∨
        (q.isResend = true ∧ q.actionId = c.id) := by
  unfold Client.completed Stored.actionCompletedWithId
  split_ifs with hresend hnumbered
  · refine ⟨rfl, fun c hc => (RowTable.mem_deleteIds.1 hc).1, fun c hc => ?_⟩
    by_cases hid : q.actionId = c.id
    · exact .inr ⟨hresend, hid⟩
    · refine .inl (RowTable.mem_deleteIds.2 ⟨hc, fun hmem => hid ?_⟩)
      exact (List.mem_singleton.1 hmem).symm
  · exact ⟨rfl, List.Subset.refl _, fun c hc => .inl hc⟩
  · exact ⟨rfl, List.Subset.refl _, fun c hc => .inl hc⟩

theorem Recorded.completed (h : Recorded deleteMessages s) {index : Nat} {q : Request δ κ}
    : Recorded deleteMessages (s.completed index q) := by
  obtain ⟨hlastId, hrows, -⟩ := completed_copies s index q
  obtain ⟨hlastId', hrows', -⟩ := completed_rows s index q
  exact h.of_same (h.wellNumbered.completed index q) (extends_of_subset hlastId' hrows' rfl) rfl
    hlastId hrows (List.Subset.refl _) rfl rfl (List.eraseIdx_subset ..) (List.Subset.refl _)
    h.executing

theorem Recorded.failed (h : Recorded deleteMessages s) (index : Nat) (q : Request δ κ)
    (hwell : WellNumbered (s.failed index q)) :
    Recorded deleteMessages (s.failed index q) := by
  refine h.of_same hwell (extends_of_subset rfl (List.Subset.refl _) rfl) rfl rfl
    (List.Subset.refl _) (List.Subset.refl _) rfl rfl (List.eraseIdx_subset ..)
    (fun p hp => (List.mem_filter.1 hp).1) ?_
  intro id hid
  obtain ⟨hold, hne⟩ := List.mem_filter.1 hid
  obtain ⟨p, hp, hpid⟩ := h.executing id hold
  refine ⟨p, List.mem_filter.2 ⟨hp, decide_eq_true fun hsame => ?_⟩, hpid⟩
  exact of_decide_eq_true hne (hpid.symm.trans hsame.1)

theorem Recorded.step (h : Recorded deleteMessages s) (e : Event δ κ) :
    Recorded deleteMessages (step deleteMessages s e) := by
  have hwell : WellNumbered (SecretOutgoing.step deleteMessages s e) := h.wellNumbered.step e
  have he : Extends s (SecretOutgoing.step deleteMessages s e) := extends_step s e
  cases e with
  | enqueue action =>
    have hsame : (s.enqueue action).db.outgoingResend = s.db.outgoingResend := by
      unfold Client.enqueue Stored.enqueuePeerOutgoingAction
      split <;> rfl
    exact h.of_same hwell he rfl (congrArg RowTable.lastId hsame)
      (fun c hc => hsame ▸ hc) (List.Subset.refl _) rfl rfl (List.Subset.refl _)
      (List.Subset.refl _) h.executing
  | resendRequested fromSeq toSeq => exact h.resendRequested fromSeq toSeq
  | dequeue => exact h.dequeue
  | poll waitsForActionWithId =>
    unfold SecretOutgoing.step
    dsimp only
    split
    case h_1 => exact h
    case h_2 d rest hwaiting => exact h.poll waitsForActionWithId hwaiting
  | completed index =>
    unfold SecretOutgoing.step
    dsimp only
    split
    case h_1 => exact h
    case h_2 q _ => exact h.completed
  | failed index =>
    unfold SecretOutgoing.step at hwell ⊢
    dsimp only at hwell ⊢
    split at hwell
    case h_1 => exact h
    case h_2 q _ => exact h.failed index q hwell
  | restart =>
    exact h.of_same hwell he rfl rfl (List.Subset.refl _) (List.nil_subset _) rfl rfl
      (List.nil_subset _) (List.nil_subset _) fun _ hid => absurd hid List.not_mem_nil
  | setPeerLayer layer =>
    exact h.of_same hwell he rfl rfl (List.Subset.refl _) (List.Subset.refl _) rfl rfl
      (List.Subset.refl _) (List.Subset.refl _) h.executing
  | setKeys keys =>
    exact h.of_same hwell he rfl rfl (List.Subset.refl _) (List.Subset.refl _) rfl rfl
      (List.Subset.refl _) (List.Subset.refl _) h.executing
  | applySeqIn seqIn =>
    exact h.of_same hwell he rfl rfl (List.Subset.refl _) (List.Subset.refl _) rfl rfl
      (List.Subset.refl _) (List.Subset.refl _) h.executing
  | confirm maxSeqIn =>
    unfold SecretOutgoing.step at hwell he ⊢
    dsimp only at hwell he ⊢
    split
    case isTrue hpositive =>
      rw [if_pos hpositive] at hwell he
      exact h.of_same hwell he rfl rfl (List.Subset.refl _) (List.Subset.refl _) rfl rfl
        (List.Subset.refl _) (List.Subset.refl _) h.executing
    case isFalse => exact h

/-- Whatever a poll has read has a request when it ends. -/
theorem Recorded.requested_poll (h : Recorded deleteMessages s) (waitsForActionWithId : Nat → Bool)
    (rest : List (Dequeued δ)) {isResend : Bool}
    (hr : (r ∈ d.actions ∧ isResend = false) ∨ (r ∈ d.resendActions ∧ isResend = true))
    (hapart : Requested s.outstanding (!isResend) r.id →
      Requested s.outstanding isResend r.id) :
    Requested (s.poll deleteMessages waitsForActionWithId d rest).outstanding isResend r.id := by
  by_cases hexecuting : r.id ∈ s.executingRequestsActionIds
  · obtain ⟨q, hq, hid⟩ := h.executing r.id hexecuting
    have hown : Requested s.outstanding isResend r.id := by
      by_cases hkind : q.isResend = isResend
      · exact ⟨q, hq, hkind, hid⟩
      · exact hapart ⟨q, hq, Bool.eq_not_of_ne hkind, hid⟩
    exact hown.mono (List.subset_append_left _ _)
  · exact ⟨requestForAction deleteMessages s.keys waitsForActionWithId r isResend,
      List.mem_append_right _ (mem_newRequests.2 ⟨r, isResend, hr, hexecuting, rfl⟩), rfl, rfl⟩

theorem firstTime_spec {requests : List (Request δ κ)} {seqOut : Int} {q : Request δ κ}
    (h : firstTime requests seqOut = some q) :
    q ∈ requests ∧ q.isResend = false ∧ 17 ≤ q.layer ∧ q.seqOut = seqOut := by
  have hfirst := List.find?_some h
  simp only [Bool.and_eq_true, Bool.not_eq_true', decide_eq_true_eq, beq_iff_eq] at hfirst
  exact ⟨List.mem_of_find?_eq_some h, hfirst.1.1, hfirst.1.2, hfirst.2⟩

/-- A copy and a known action with its number have one content. -/
theorem Recorded.value_eq (h : Recorded deleteMessages s) {c : Row (OutgoingRow δ)}
    (hc : c ∈ s.copied.rows) (hlayer : 17 ≤ c.value.action.layer) (hr : Known s r)
    (hlayer' : 17 ≤ r.value.action.layer) (hseqOut : r.value.seqOut = c.value.seqOut)
    : c.value = r.value := by
  obtain ⟨r', hr', hvalue⟩ := h.copies c hc hlayer
  have hnumber := (hr.number hlayer').2
  rw [hseqOut, hr'] at hnumber
  rw [← hvalue, Option.some_inj.1 hnumber]

theorem Recorded.sentAgain (h : Recorded deleteMessages s) {waitsForActionWithId : Nat → Bool}
    (hwaiting : s.waiting = d :: rest) {c : Row (OutgoingRow δ)} (hc : c ∈ d.resendActions)
    (hlayer : 17 ≤ c.value.action.layer)
    (hkey : encryptionKeyForConversationId s.keys c.value.action.keyId ≠ none)
    (htext : c.value.action.kind = .message →
      deleteMessages c.value.action.layer c.value.action.randomId ≠ some c.value.action.data →
      TextKept s waitsForActionWithId d c) :
    SentAgain s (s.poll deleteMessages waitsForActionWithId d rest)
      (requestForAction deleteMessages s.keys waitsForActionWithId c true) := by
  have hd : d ∈ s.waiting := hwaiting ▸ List.mem_cons_self ..
  have hcopied : c ∈ s.copied.rows := h.read d hd hc
  have hseqOut : (requestForAction deleteMessages s.keys waitsForActionWithId c true).seqOut =
      c.value.seqOut := if_pos hlayer
  refine ⟨?_, ?_, ?_⟩
  · obtain ⟨r, hr, hvalue⟩ := h.copies c hcopied hlayer
    rw [hseqOut]
    exact ⟨r, hr, congrArg OutgoingRow.seqOut hvalue, congrArg OutgoingRow.seqIn hvalue⟩
  · obtain ⟨k, hk⟩ := Option.ne_none_iff_exists'.1 hkey
    exact ⟨k, mem_of_encryptionKeyForConversationId hk, hk⟩
  · intro q₀ hfirst
    rw [hseqOut] at hfirst
    change firstTime (s.requests ++ _) _ = _ at hfirst
    unfold firstTime at hfirst
    rw [List.find?_append] at hfirst
    change (firstTime s.requests _).or (firstTime _ _) = _ at hfirst
    cases hbefore : firstTime s.requests c.value.seqOut with
    | some p =>
      rw [hbefore, Option.some_or] at hfirst
      obtain rfl : p = q₀ := Option.some_inj.1 hfirst
      obtain ⟨hp, hkind, hplayer, hpseqOut⟩ := firstTime_spec hbefore
      obtain ⟨keys, waits, r, rfl, hr⟩ := h.requested p hp hkind
      have hrlayer : 17 ≤ r.value.action.layer := hplayer
      have hnumber : r.value.seqOut = c.value.seqOut := by
        rw [← hpseqOut]
        exact (if_pos hrlayer).symm
      refine actionData_eq (h.value_eq hcopied hlayer hr hrlayer hnumber) ?_
      exact fun hmessage hdata => ((htext hmessage hdata).before _ hbefore).symm
    | none =>
      rw [hbefore, Option.none_or] at hfirst
      obtain ⟨hp, hkind, hplayer, hpseqOut⟩ := firstTime_spec hfirst
      obtain ⟨r, isResend, hr, hidle, rfl⟩ := mem_newRequests.1 hp
      have hfalse : isResend = false := hkind
      subst hfalse
      have hactions : r ∈ d.actions := hr.elim (·.1) fun hresend => nomatch hresend.2
      have hrlayer : 17 ≤ r.value.action.layer := hplayer
      have hnumber : r.value.seqOut = c.value.seqOut := by
        rw [← hpseqOut]
        exact (if_pos hrlayer).symm
      have hknown : Known s r := h.wellNumbered.read d hd r hactions
      refine actionData_eq (h.value_eq hcopied hlayer hknown hrlayer hnumber) ?_
      intro hmessage hdata
      exact ((htext hmessage hdata).now hbefore r hactions hrlayer hnumber hidle).symm

/-- A copy stays until its request is completed. -/
theorem kept_step (s : Client δ κ) (e : Event δ κ) :
    ∀ c ∈ s.db.outgoingResend.rows, c ∈ (step deleteMessages s e).db.outgoingResend.rows ∨
      ∃ index q, e = .completed index ∧ s.inFlight[index]? = some q ∧ q.isResend = true ∧
        q.actionId = c.id := by
  intro c hc
  cases e with
  | enqueue action =>
    left
    change c ∈ (s.db.enqueuePeerOutgoingAction action).outgoingResend.rows
    unfold Stored.enqueuePeerOutgoingAction
    split <;> exact hc
  | resendRequested fromSeq toSeq =>
    left
    change c ∈ (s.db.outgoingResend.insertAll _).rows
    rw [RowTable.rows_insertAll]
    exact List.mem_append_left _ hc
  | dequeue => exact .inl hc
  | poll waitsForActionWithId =>
    left
    unfold step
    dsimp only
    split <;> exact hc
  | completed index =>
    unfold step
    dsimp only
    split
    case h_1 => exact .inl hc
    case h_2 q hq =>
      obtain ⟨-, -, hkept⟩ := completed_copies s index q
      exact (hkept c hc).imp_right fun hdone => ⟨index, q, rfl, hq, hdone⟩
  | failed index =>
    left
    unfold step
    dsimp only
    split <;> exact hc
  | restart => exact .inl hc
  | setPeerLayer layer => exact .inl hc
  | setKeys keys => exact .inl hc
  | applySeqIn seqIn => exact .inl hc
  | confirm maxSeqIn =>
    left
    unfold step
    dsimp only
    split <;> exact hc

theorem exists_copy {fromSeq toSeq : Int} (hr : r ∈ s.db.outgoing.rows)
    (hlo : fromSeq ≤ r.value.seqOut) (hhi : r.value.seqOut ≤ toSeq) :
    ∃ c ∈ (step deleteMessages s (.resendRequested fromSeq toSeq)).copied.rows,
      c.value = r.value ∧ s.copied.lastId < c.id := by
  have hrange : r.value ∈ s.db.actionsInRange fromSeq toSeq := by
    unfold Stored.actionsInRange
    rw [List.mem_insertionSort]
    exact List.mem_filter.2 ⟨List.mem_map_of_mem hr, decide_eq_true ⟨hlo, hhi⟩⟩
  obtain ⟨c, hc, hvalue⟩ := RowTable.exists_newRow s.copied.lastId hrange
  refine ⟨c, ?_, hvalue, (RowTable.of_mem_newRows hc).1⟩
  change c ∈ (s.copied.insertAll _).rows
  rw [RowTable.rows_insertAll]
  exact List.mem_append_right _ hc

/-- Steps that copy nothing and end no poll. -/
theorem AllServed.of_same (h : AllServed s) (hcopied : s'.copied = s.copied)
    (hrequests : s'.requests = s.requests) (hworked : s'.worked = s.worked)
    (hkept : ∀ c ∈ s.db.outgoingResend.rows, c ∈ s'.db.outgoingResend.rows ∨
      Requested s.requests true c.id) : AllServed s' := by
  intro c hc
  rw [hcopied] at hc
  rw [hrequests, hworked]
  rcases h c hc with hrequested | ⟨hstored, hunread⟩
  · exact .inl hrequested
  · exact (hkept c hstored).symm.imp_right fun hstays => ⟨hstays, hunread⟩

theorem AllServed.poll (h : AllServed s) {waitsForActionWithId : Nat → Bool}
    (hpolled : ∀ r ∈ d.resendActions,
      Requested (s.poll deleteMessages waitsForActionWithId d rest).requests true r.id) :
    AllServed (s.poll deleteMessages waitsForActionWithId d rest) := by
  intro c hc
  by_cases hread : c ∈ d.resendActions
  · exact .inl (hpolled c hread)
  · rcases h c hc with hrequested | ⟨hstored, hunread⟩
    · exact .inl (hrequested.mono (List.subset_append_left _ _))
    · refine .inr ⟨hstored, fun d' hd' => ?_⟩
      rcases List.mem_append.1 hd' with hold | hnew
      · exact hunread d' hold
      · rw [List.mem_singleton.1 hnew]
        exact hread

theorem AllServed.resendRequested (h : AllServed s) (hrecorded : Recorded deleteMessages s)
    (fromSeq toSeq : Int) :
    AllServed (step deleteMessages s (.resendRequested fromSeq toSeq)) := by
  intro c hc
  change c ∈ (s.copied.insertAll _).rows at hc
  rw [RowTable.rows_insertAll, List.mem_append] at hc
  rcases hc with hold | hnew
  · refine (h c hold).imp_right fun hwaits => ⟨?_, hwaits.2⟩
    change c ∈ (s.db.outgoingResend.insertAll _).rows
    rw [RowTable.rows_insertAll]
    exact List.mem_append_left _ hwaits.1
  · refine .inr ⟨?_, fun d hd hread => ?_⟩
    · change c ∈ (s.db.outgoingResend.insertAll _).rows
      rw [RowTable.rows_insertAll, hrecorded.lastId]
      exact List.mem_append_right _ hnew
    · have hle := s.copied.le_lastId c (hrecorded.worked d hd hread)
      have hlt := (RowTable.of_mem_newRows hnew).1
      omega

theorem AllServed.step {e : Event δ κ} (h : AllServed s) (hrecorded : Recorded deleteMessages s)
    (he : Undisturbed deleteMessages s e) :
    AllServed (step deleteMessages s e) := by
  have hkept : ∀ c ∈ s.db.outgoingResend.rows,
      c ∈ (SecretOutgoing.step deleteMessages s e).db.outgoingResend.rows ∨
        Requested s.requests true c.id := by
    intro c hc
    refine (kept_step s e c hc).imp_right ?_
    rintro ⟨index, q, -, hq, hresend, hid⟩
    exact ⟨q, hrecorded.inFlight (List.mem_of_getElem? hq), hresend, hid⟩
  cases e with
  | enqueue action => exact h.of_same rfl rfl rfl hkept
  | resendRequested fromSeq toSeq => exact h.resendRequested hrecorded fromSeq toSeq
  | dequeue => exact h.of_same rfl rfl rfl hkept
  | poll waitsForActionWithId =>
    unfold SecretOutgoing.step
    dsimp only
    split
    case h_1 => exact h
    case h_2 d rest hwaiting =>
      have hhead : d ∈ s.waiting.head? := by rw [hwaiting]; rfl
      obtain ⟨hapart, -⟩ := he d hhead
      refine h.poll fun r hr => ?_
      have hrequested := hrecorded.requested_poll waitsForActionWithId rest (.inr ⟨hr, rfl⟩)
        (hapart.resendActions r hr)
      exact hrequested.mono (hrecorded.poll waitsForActionWithId hwaiting).outstanding
  | completed index =>
    unfold SecretOutgoing.step at hkept ⊢
    dsimp only at hkept ⊢
    split at hkept
    case h_1 => exact h
    case h_2 => exact h.of_same rfl rfl rfl hkept
  | failed index =>
    unfold SecretOutgoing.step at hkept ⊢
    dsimp only at hkept ⊢
    split at hkept
    case h_1 => exact h
    case h_2 => exact h.of_same rfl rfl rfl hkept
  | restart => exact h.of_same rfl rfl rfl hkept
  | setPeerLayer layer => exact h.of_same rfl rfl rfl hkept
  | setKeys keys => exact h.of_same rfl rfl rfl hkept
  | applySeqIn seqIn => exact h.of_same rfl rfl rfl hkept
  | confirm maxSeqIn =>
    unfold SecretOutgoing.step at hkept ⊢
    dsimp only at hkept ⊢
    split
    case isTrue hpositive =>
      rw [if_pos hpositive] at hkept
      exact h.of_same rfl rfl rfl hkept
    case isFalse => exact h

theorem Recorded.servedStep {e : Event δ κ} (h : Recorded deleteMessages s)
    (he : Undisturbed deleteMessages s e) : ServedStep deleteMessages s e where
  copied := by
    rintro fromSeq toSeq rfl r hr - hlo hhi
    exact exists_copy hr hlo hhi
  kept := kept_step s e
  polled := by
    rintro waitsForActionWithId rfl d hhead
    obtain ⟨rest, hwaiting⟩ : ∃ rest, s.waiting = d :: rest :=
      ⟨s.waiting.tail, List.eq_cons_of_mem_head? hhead⟩
    have hpoll : SecretOutgoing.step deleteMessages s (.poll waitsForActionWithId) =
        s.poll deleteMessages waitsForActionWithId d rest := by
      unfold SecretOutgoing.step
      rw [hwaiting]
    obtain ⟨hapart, hcopies⟩ := he d hhead
    rw [hpoll]
    refine ⟨?_, ?_, ?_⟩
    · exact fun r hr => h.requested_poll _ _ (.inl ⟨hr, rfl⟩) (hapart.actions r hr)
    · exact fun r hr => h.requested_poll _ _ (.inr ⟨hr, rfl⟩) (hapart.resendActions r hr)
    · intro q hq hresend hlayer
      obtain ⟨r, isResend, hr, hidle, rfl⟩ := mem_newRequests.1 hq
      have htrue : isResend = true := hresend
      subst htrue
      have hread : r ∈ d.resendActions := hr.elim (fun haction => nomatch haction.2) (·.1)
      obtain ⟨hkey, htext⟩ := hcopies r hread hlayer hidle
      exact h.sentAgain hwaiting hread hlayer hkey htext

end Steps

/-- In every run numbers are not given again: requests that are made at any two times under
one number are for one action. -/
theorem numbers_unique (deleteMessages : Nat → Int → Option δ) (events later : List (Event δ κ)) :
    let s := run (step deleteMessages) Client.initial events
    let s' := run (step deleteMessages) s later
    s.numbered <+: s'.numbered ∧ ∀ q ∈ s.inFlight, ∀ q' ∈ s'.inFlight,
      q.isResend = false → q'.isResend = false → 17 ≤ q.layer → 17 ≤ q'.layer →
        q.seqOut = q'.seqOut → q.actionId = q'.actionId := by
  intro s s'
  have hrun (events : List (Event δ κ)) {t : Client δ κ} (h : WellNumbered t) :
      WellNumbered (run (step deleteMessages) t events) :=
    run_invariant (fun _ e h => h.step e) events t h
  have hwell : WellNumbered s := hrun events wellNumbered_initial
  have hprefix (t : Client δ κ) (e : Event δ κ) (h : s.numbered <+: t.numbered) :
      s.numbered <+: (step deleteMessages t e).numbered := h.trans (extends_step t e).numbered
  refine ⟨run_invariant hprefix later s List.prefix_rfl,
    fun q hq q' hq' hfirst hfirst' hlayer hlayer' heq => ?_⟩
  obtain ⟨r, hr, hid, hl, hseq⟩ := hwell.sent q hq hfirst
  obtain ⟨r', hr', hid', hl', hseq'⟩ := (hrun later hwell).sent q' hq' hfirst'
  rw [hl] at hlayer
  rw [hl'] at hlayer'
  have hlater : Known s' r :=
    run_invariant (fun t e (h : Known t r) => h.mono (extends_step t e)) later s hr
  rw [hid, hid', hlater.eq_of_seqOut_eq hr' hlayer hlayer'
    ((hseq hlayer).symm.trans (heq.trans (hseq' hlayer')))]

/-- In every undisturbed run each copy is sent or waits for the next poll, every poll has a
request for each action that it has read, and what is sent again is sent as it was sent
first. -/
theorem resends_served (deleteMessages : Nat → Int → Option δ) (events : List (Event δ κ))
    (h : Guarded (step deleteMessages) (Undisturbed deleteMessages) Client.initial events) :
    AllServed (run (step deleteMessages) Client.initial events) ∧
      Guarded (step deleteMessages) (ServedStep deleteMessages) Client.initial events := by
  have hstep : ∀ (s : Client δ κ) (e : Event δ κ), Undisturbed deleteMessages s e →
      Recorded deleteMessages s ∧ AllServed s →
        Recorded deleteMessages (step deleteMessages s e) ∧ AllServed (step deleteMessages s e) :=
    fun _ e he hs => ⟨hs.1.step e, hs.2.step hs.1 he⟩
  have hboth : ∀ (s : Client δ κ) (e : Event δ κ), Recorded deleteMessages s →
      Undisturbed deleteMessages s e →
        ServedStep deleteMessages s e ∧ Recorded deleteMessages (step deleteMessages s e) :=
    fun _ e hs he => ⟨hs.servedStep he, hs.step e⟩
  have hserved : AllServed (Client.initial : Client δ κ) := fun _ hc => absurd hc List.not_mem_nil
  exact ⟨(guarded_invariant hstep events Client.initial h ⟨recorded_initial, hserved⟩).2,
    guarded_mono hboth events Client.initial recorded_initial h⟩

def noDeletion (_ : Nat) (_ : Int) : Option Unit := none

def message : OutgoingAction Unit :=
  { kind := .message, randomId := 7, layer := 46, keyId := 5, data := () }

def firstKey : KeyData Unit := { keyId := 5, key := (), firstSeqOut := 0 }

def secondKey : KeyData Unit := { keyId := 6, key := (), firstSeqOut := 1 }

/-- A poll of what is stored; an actor waits for every action. -/
def polls : List (Event Unit Unit) := [.dequeue, .poll fun _ => true]

/-- A message that has been sent and accepted. -/
def sentOnce : List (Event Unit Unit) :=
  [.setPeerLayer 46, .setKeys [firstKey], .enqueue message] ++ polls ++ [.completed 0]

/-- After a restart the message is sent again. -/
theorem one_message_sent_again :
    AllServed (run (step noDeletion) Client.initial
      (sentOnce ++ [.restart, .resendRequested 0 0] ++ polls)) := by
  refine (resends_served noDeletion _ ?_).1
  refine ⟨trivial, trivial, trivial, trivial, ?_, trivial, trivial, trivial, trivial, ?_, trivial⟩
  · intro d hd
    cases hd
    refine ⟨⟨?_, ?_⟩, ?_⟩
    · rintro r - ⟨q, hq, -⟩
      exact absurd hq List.not_mem_nil
    · intro r hr
      exact absurd hr List.not_mem_nil
    · intro r hr
      exact absurd hr List.not_mem_nil
  · intro d hd
    cases hd
    refine ⟨⟨?_, ?_⟩, ?_⟩
    · intro r hr
      exact absurd hr List.not_mem_nil
    · rintro r - ⟨q, hq, -⟩
      exact absurd hq List.not_mem_nil
    · intro r hr _ _
      cases List.mem_singleton.1 hr
      refine ⟨nofun, fun _ _ => ⟨?_, ?_⟩⟩
      · intro q₀ hq₀
        cases hq₀
        rfl
      · intro hnone
        cases hnone

/-- Without the restart the copy is never sent.  A message of which a copy has the id is not
sent.  The copy of a message for which no actor waits is its deletion.  And a key can be
discarded before the copy is sent. -/
theorem resends_disturbed :
    ¬ AllServed (run (step noDeletion) Client.initial
        (sentOnce ++ [.resendRequested 0 0] ++ polls)) ∧
      ¬ Guarded (step noDeletion) (ServedStep noDeletion) Client.initial
        ((sentOnce ++ [.restart, .resendRequested 0 0, .resendRequested 0 0] ++ polls ++
          [.enqueue message, .dequeue]) ++ [.poll fun _ => true]) ∧
      ¬ Guarded (step noDeletion) (ServedStep noDeletion) Client.initial
        ((sentOnce ++ [.restart, .resendRequested 0 0, .dequeue]) ++ [.poll fun _ => false]) ∧
      ¬ Guarded (step noDeletion) (ServedStep noDeletion) Client.initial
        ((sentOnce ++ [.restart, .setKeys [firstKey, secondKey], .resendRequested 0 0, .confirm 2,
          .dequeue]) ++ [.poll fun _ => true]) := by
  refine ⟨?_, ?_, ?_, ?_⟩
  · intro h
    exact absurd (h _ (List.mem_cons_self ..)) (by decide)
  · intro h
    obtain ⟨hactions, -, -⟩ := ((guarded_append _ _ _ _ _).1 h).2.1.polled _ rfl _ rfl
    exact absurd (hactions _ (List.mem_cons_self ..)) (by decide)
  · intro h
    obtain ⟨-, -, hagain⟩ := ((guarded_append _ _ _ _ _).1 h).2.1.polled _ rfl _ rfl
    cases (hagain _ (List.mem_cons_self ..) rfl (by decide)).text _ rfl
  · intro h
    obtain ⟨-, -, hagain⟩ := ((guarded_append _ _ _ _ _).1 h).2.1.polled _ rfl _ rfl
    obtain ⟨k, -, hkey⟩ := (hagain _ (List.mem_cons_self ..) rfl (by decide)).key
    cases hkey

end TelegramPub.Ports.SecretResends
