import TelegramPub.Ports.SecretIncoming

/-!
# The request to send a gap again

After a run of `_poll` the actions that are left are behind a gap, and the peer is asked to
send the gap again.  Whether to ask is decided by counting the rows of the first table only,
so that nothing is asked for when only late-decrypted actions are left.  And the end of the
gap is the smallest number that the loop has seen: the one of an old action, or of one that
has just been processed, comes before the gap, and the range is inverted.
-/

namespace TelegramPub.Ports.SecretResend

open Verified Verified.Bytes Ports.SecretIncoming

variable {δ ε : Type}

section Requests

variable (isResendAction : IncomingAction δ → Bool) (decrypt : ε → Option (IncomingAction δ))
  (notifiedLayer : IncomingAction δ → Nat) (isCreator : Bool)

/-- The decrypted actions of a chat. -/
def decoded (chat : Chat δ ε) : List (StoredAction δ) :=
  mergedActions decrypt (dequeuePeerIncomingActions chat)

/-- The loop over the actions of a chat. -/
def pollScan (chat : Chat δ ε) : Scan δ :=
  scanActions isResendAction decrypt chat.peerLayer (dequeuePeerIncomingActions chat)

/-- The chat after a run of `_poll`. -/
def polled (chat : Chat δ ε) : Chat δ ε :=
  processActions isResendAction decrypt notifiedLayer chat (dequeuePeerIncomingActions chat)

/-- The request that a run of `_poll` sends. -/
def pollRequest (chat : Chat δ ε) : Option (Int × Int) :=
  (pollScan isResendAction decrypt chat).resendRequest isCreator (dequeuePeerIncomingActions chat)

/-- An action that is left ahead of the chat. -/
def LeftAhead (chat : Chat δ ε) (a : StoredAction δ) : Prop :=
  a ∈ decoded decrypt (polled isResendAction decrypt notifiedLayer chat) ∧
    (polled isResendAction decrypt notifiedLayer chat).seqIn < a.seqOut

/-- The gap in front of the smallest number that is left, in the counting of the peer. -/
def IsGap (chat : Chat δ ε) (request : Int × Int) : Prop :=
  ∃ m : Int, (∃ a, LeftAhead isResendAction decrypt notifiedLayer chat a ∧ a.seqOut = m) ∧
    (∀ a, LeftAhead isResendAction decrypt notifiedLayer chat a → m ≤ a.seqOut) ∧
    request = (((polled isResendAction decrypt notifiedLayer chat).seqIn : Int) * 2 +
        (if isCreator then 0 else 1), (m - 1) * 2 + (if isCreator then 0 else 1))

/-- The request is sent just when actions are left ahead, and for the gap in front of them. -/
def RequestExact (chat : Chat δ ε) : Prop :=
  ((pollRequest isResendAction decrypt isCreator chat).isSome = true ↔
      ∃ a, LeftAhead isResendAction decrypt notifiedLayer chat a) ∧
    ∀ request, pollRequest isResendAction decrypt isCreator chat = some request →
      IsGap isResendAction decrypt notifiedLayer isCreator chat request

/-- All numbers between two are there. -/
def GapFree (l : List (StoredAction δ)) (first last : Int) : Prop :=
  ∀ j, first ≤ j → j ≤ last → ∃ a ∈ l, a.seqOut = j

/-- Every action that waits can be processed. -/
def NothingAhead (chat : Chat δ ε) : Prop :=
  ∀ a ∈ decoded decrypt chat, isResendAction a.action = false →
    GapFree (decoded decrypt chat) chat.seqIn a.seqOut

/-- All actions are ahead, a message is the first of them, and one was decrypted when it
came. -/
def OnlyAhead (chat : Chat δ ε) : Prop :=
  min chat.peerLayer currentLayer ∈ resendLayers ∧
    (∃ row ∈ chat.incoming.rows, isResendAction row.value = false) ∧
    ∀ a ∈ decoded decrypt chat, chat.seqIn < a.seqOut ∧
      ∃ b ∈ decoded decrypt chat, isResendAction b.action = false ∧ b.seqOut ≤ a.seqOut

variable {isResendAction decrypt notifiedLayer isCreator}

variable {chat : Chat δ ε}

variable (isResendAction decrypt) in
/-- From layer 17 on the loop takes the actions in the order of their numbers. -/
theorem advances_pollScan (hlayer : 17 ≤ chat.peerLayer) :
    Advances isResendAction (decoded decrypt chat)
      { currentPeerLayer := chat.peerLayer, nextExpectedSeqOut := chat.seqIn }
      (pollScan isResendAction decrypt chat) :=
  advances_foldl isResendAction _ _ (pairwise_mergedActions decrypt _) hlayer

theorem seqIn_polled (hlayer : 17 ≤ chat.peerLayer) :
    ((polled isResendAction decrypt notifiedLayer chat).seqIn : Int) =
      (pollScan isResendAction decrypt chat).nextExpectedSeqOut := by
  have hadvances := advances_pollScan isResendAction decrypt hlayer
  have hle : (chat.seqIn : Int) ≤ (pollScan isResendAction decrypt chat).nextExpectedSeqOut :=
    hadvances.le
  change ((pollScan isResendAction decrypt chat).nextExpectedSeqOut.toNat : Int) = _
  exact Int.toNat_of_nonneg (by omega)

variable {a : StoredAction δ}

theorem mem_removedIds_iff (hlayer : 17 ≤ chat.peerLayer) (ha : a ∈ decoded decrypt chat) :
    a.actionId ∈ (pollScan isResendAction decrypt chat).removedIds ↔
      taken isResendAction (pollScan isResendAction decrypt chat).nextExpectedSeqOut a = true := by
  have hadvances := advances_pollScan isResendAction decrypt hlayer
  rw [hadvances.removed.mem_iff, List.mem_append]
  constructor
  · rintro (hnone | hid)
    · exact absurd hnone List.not_mem_nil
    · obtain ⟨b, hb, hsame⟩ := List.mem_map.1 hid
      obtain ⟨hb, htaken⟩ := List.mem_filter.1 hb
      rwa [← eq_of_actionId_eq hb ha hsame]
  · intro htaken
    exact .inr (List.mem_map.2 ⟨a, List.mem_filter.2 ⟨ha, htaken⟩, rfl⟩)

/-- After the run the decrypted actions are those whose row has not been removed. -/
theorem mem_decoded_polled :
    a ∈ decoded decrypt (polled isResendAction decrypt notifiedLayer chat) ↔
      a ∈ decoded decrypt chat ∧
        a.actionId ∉ (pollScan isResendAction decrypt chat).removedIds := by
  unfold decoded
  rw [mem_mergedActions, mem_mergedActions, or_and_right]
  apply or_congr
  · rw [mem_genericActions, mem_genericActions]
    constructor
    · rintro ⟨row, hrow, rfl⟩
      obtain ⟨hrow, hkept⟩ := RowTable.mem_deleteIds.1 hrow
      exact ⟨⟨row, hrow, rfl⟩, fun h => hkept (mem_removeActionIds.2 h)⟩
    · rintro ⟨⟨row, hrow, rfl⟩, hkept⟩
      exact ⟨row, RowTable.mem_deleteIds.2 ⟨hrow, fun h => hkept (mem_removeActionIds.1 h)⟩, rfl⟩
  · rw [mem_addedDecryptedActions, mem_addedDecryptedActions]
    constructor
    · rintro ⟨row, hrow, hvalue, hid⟩
      obtain ⟨hrow, hkept⟩ := RowTable.mem_deleteIds.1 hrow
      exact ⟨⟨row, hrow, hvalue, hid⟩,
        fun h => hkept (mem_removeEncryptedActionIds.2 (hid ▸ h))⟩
    · rintro ⟨⟨row, hrow, hvalue, hid⟩, hkept⟩
      exact ⟨row, RowTable.mem_deleteIds.2 ⟨hrow,
        fun h => hkept (hid ▸ mem_removeEncryptedActionIds.1 h)⟩, hvalue, hid⟩

/-- What is left ahead: the actions behind the next expected number, but for the requests to
send again. -/
theorem leftAhead_iff (hlayer : 17 ≤ chat.peerLayer) :
    LeftAhead isResendAction decrypt notifiedLayer chat a ↔
      a ∈ decoded decrypt chat ∧ isResendAction a.action = false ∧
        (pollScan isResendAction decrypt chat).nextExpectedSeqOut < a.seqOut := by
  unfold LeftAhead
  rw [mem_decoded_polled, seqIn_polled hlayer]
  constructor
  · rintro ⟨⟨ha, hkept⟩, hahead⟩
    rw [mem_removedIds_iff hlayer ha] at hkept
    unfold taken at hkept
    rw [Bool.or_eq_true, not_or, Bool.not_eq_true (isResendAction _)] at hkept
    exact ⟨ha, hkept.2, hahead⟩
  · rintro ⟨ha, hresend, hahead⟩
    refine ⟨⟨ha, ?_⟩, hahead⟩
    rw [mem_removedIds_iff hlayer ha]
    unfold taken
    rw [hresend, Bool.or_false, decide_eq_true_eq]
    omega

/-! ## When a request is sent -/

theorem filterMap_generic (l : List (Row (IncomingAction δ))) (p : StoredAction δ → Bool) :
    (((genericActions l).filter p).map (·.actionId)).filterMap ActionId.generic? =
      (l.filter fun row => p ⟨.generic row.id, row.value⟩).map (·.id) := by
  unfold genericActions
  rw [List.filter_map, List.map_map, List.filterMap_map]
  exact congrFun (List.filterMap_eq_map (f := Row.id)) _

theorem filterMap_generic_added (l : List (Row ε)) (p : StoredAction δ → Bool) :
    (((addedDecryptedActions decrypt l).filter p).map (·.actionId)).filterMap
      ActionId.generic? = [] := by
  rw [List.filterMap_eq_nil_iff]
  intro id hid
  obtain ⟨a, ha, rfl⟩ := List.mem_map.1 hid
  obtain ⟨row, -, -, hrow⟩ := mem_addedDecryptedActions.1 (List.mem_filter.1 ha).1
  rw [hrow]
  rfl

theorem length_removeActionIds (hlayer : 17 ≤ chat.peerLayer) :
    (pollScan isResendAction decrypt chat).removeActionIds.length =
      (chat.incoming.rows.filter fun row => taken isResendAction
        (pollScan isResendAction decrypt chat).nextExpectedSeqOut
        ⟨.generic row.id, row.value⟩).length := by
  have hadvances := advances_pollScan isResendAction decrypt hlayer
  have hperm : (decoded decrypt chat).Perm (genericActions chat.incoming.rows ++
      addedDecryptedActions decrypt chat.incomingEncrypted.rows) := List.perm_insertionSort _ _
  have hids := hadvances.removed.trans
    (List.Perm.append_left _ ((hperm.filter _).map (·.actionId)))
  unfold Scan.removeActionIds
  rw [(hids.filterMap ActionId.generic?).length_eq]
  change ((((_ : List (StoredAction δ)).filter _).map _).filterMap ActionId.generic?).length = _
  rw [List.filter_append, List.map_append, List.filterMap_append, filterMap_generic,
    filterMap_generic_added, List.append_nil, List.length_map]

/-- The rows of the first table are not all removed just when one of them is left ahead. -/
theorem removed_lt_iff (hlayer : 17 ≤ chat.peerLayer) :
    (pollScan isResendAction decrypt chat).removeActionIds.length < chat.incoming.rows.length ↔
      ∃ row ∈ chat.incoming.rows, isResendAction row.value = false ∧
        (pollScan isResendAction decrypt chat).nextExpectedSeqOut < row.value.seqOut.1 := by
  have hadvances := advances_pollScan isResendAction decrypt hlayer
  rw [length_removeActionIds hlayer, List.length_filter_lt_length_iff_exists]
  apply exists_congr
  intro row
  apply and_congr_right
  intro hrow
  have habsent : row.value.seqOut.1 ≠ (pollScan isResendAction decrypt chat).nextExpectedSeqOut :=
    hadvances.absent ⟨.generic row.id, row.value⟩
      (mem_mergedActions.2 (.inl (mem_genericActions.2 ⟨row, hrow, rfl⟩)))
  unfold taken
  rw [Bool.or_eq_true, not_or, Bool.not_eq_true (isResendAction _), decide_eq_true_eq, and_comm]
  apply and_congr_right
  intro _
  change ¬ row.value.seqOut.1 < _ ↔ _
  omega

/-- The request is sent when a row of the first table is left ahead, if the layer has such
a message. -/
theorem isSome_pollRequest (hlayer : 17 ≤ chat.peerLayer) :
    (pollRequest isResendAction decrypt isCreator chat).isSome = true ↔
      (∃ row ∈ chat.incoming.rows, isResendAction row.value = false ∧
        (pollScan isResendAction decrypt chat).nextExpectedSeqOut < row.value.seqOut.1) ∧
      min chat.peerLayer currentLayer ∈ resendLayers := by
  have hadvances := advances_pollScan isResendAction decrypt hlayer
  have hcurrent : (pollScan isResendAction decrypt chat).currentPeerLayer = chat.peerLayer :=
    hadvances.layer
  rw [← removed_lt_iff hlayer, ← hcurrent]
  unfold pollRequest Scan.resendRequest
  change Option.isSome (if _ < chat.incoming.rows.length then _ else _) = true ↔ _
  split
  case isTrue hwaiting =>
    grind
  case isFalse hwaiting =>
    exact ⟨fun h => absurd h Bool.false_ne_true, fun h => absurd h.1 hwaiting⟩

/-! ## What is asked for -/

theorem foldl_min_spec : ∀ (l : List (StoredAction δ)) (m : Int),
    (∀ a ∈ l, l.foldl (fun m a => min m a.seqOut) m ≤ a.seqOut) ∧
      l.foldl (fun m a => min m a.seqOut) m ≤ m ∧
      (l.foldl (fun m a => min m a.seqOut) m = m ∨
        ∃ a ∈ l, a.seqOut = l.foldl (fun m a => min m a.seqOut) m) := by
  intro l
  induction l with
  | nil =>
    intro m
    exact ⟨fun a ha => absurd ha List.not_mem_nil, le_refl _, .inl rfl⟩
  | cons a l ih =>
    grind

variable (isResendAction) in
/-- The end of the range comes from the smallest number of all. -/
theorem minLocalSeqOut_spec (hlayer : 17 ≤ chat.peerLayer) (hne : ∃ a, a ∈ decoded decrypt chat) :
    (∀ a ∈ decoded decrypt chat,
      (pollScan isResendAction decrypt chat).minLocalSeqOut ≤ a.seqOut) ∧
    ∃ a ∈ decoded decrypt chat,
      a.seqOut = (pollScan isResendAction decrypt chat).minLocalSeqOut := by
  have hadvances := advances_pollScan isResendAction decrypt hlayer
  obtain ⟨hall, -, hattained⟩ := foldl_min_spec (decoded decrypt chat) (2 ^ 31 - 1)
  rw [hadvances.least]
  refine ⟨hall, ?_⟩
  rcases hattained with heq | hattained
  · obtain ⟨a, ha⟩ := hne
    have hle := hall a ha
    have hsmall : a.seqOut < 2 ^ 30 := a.action.seqOut.2.2
    omega
  · exact hattained

/-- The range that is asked for. -/
theorem pollRequest_eq (hlayer : 17 ≤ chat.peerLayer) {request : Int × Int}
    (h : pollRequest isResendAction decrypt isCreator chat = some request) :
    request =
      (int32 ((pollScan isResendAction decrypt chat).nextExpectedSeqOut * 2 +
        (if isCreator then 0 else 1)),
      int32 (((pollScan isResendAction decrypt chat).minLocalSeqOut - 1) * 2 +
        (if isCreator then 0 else 1))) := by
  have hsome : (pollRequest isResendAction decrypt isCreator chat).isSome = true := by
    rw [h]
    rfl
  obtain ⟨⟨row, hrow, -, -⟩, hwritten⟩ := (isSome_pollRequest hlayer).1 hsome
  have hne : ∃ a, a ∈ decoded decrypt chat :=
    ⟨_, mem_mergedActions.2 (.inl (mem_genericActions.2 ⟨row, hrow, rfl⟩))⟩
  obtain ⟨-, a, -, hleast⟩ :=
    minLocalSeqOut_spec isResendAction hlayer hne
  have hsmall : a.seqOut < 2 ^ 30 := a.action.seqOut.2.2
  have hsentinel : (pollScan isResendAction decrypt chat).minLocalSeqOut ≠ 2 ^ 31 - 1 := by
    omega
  have hcounted : (pollScan isResendAction decrypt chat).removeActionIds.length <
      (dequeuePeerIncomingActions chat).actions.length :=
    (removed_lt_iff hlayer).2 ((isSome_pollRequest hlayer).1 hsome).1
  have hadvances := advances_pollScan isResendAction decrypt hlayer
  have hcurrent : (pollScan isResendAction decrypt chat).currentPeerLayer = chat.peerLayer :=
    hadvances.layer
  unfold pollRequest Scan.resendRequest at h
  dsimp only at h
  rw [if_pos hcounted, hcurrent, if_pos hwritten, if_neg hsentinel] at h
  exact (Option.some_inj.1 h).symm

theorem nothingAhead_iff (hlayer : 17 ≤ chat.peerLayer) :
    NothingAhead isResendAction decrypt chat ↔
      ¬ ∃ a, LeftAhead isResendAction decrypt notifiedLayer chat a := by
  have hadvances := advances_pollScan isResendAction decrypt hlayer
  constructor
  · rintro hnothing ⟨a, ha⟩
    obtain ⟨ha, hresend, hahead⟩ := (leftAhead_iff hlayer).1 ha
    obtain ⟨b, hb, hnumber⟩ := hnothing a ha hresend _ hadvances.le (le_of_lt hahead)
    exact hadvances.absent b hb hnumber
  · intro hnone a ha hresend j hlo hhi
    apply hadvances.present j hlo
    have hle : a.seqOut ≤ (pollScan isResendAction decrypt chat).nextExpectedSeqOut := by
      by_contra hahead
      exact hnone ⟨a, (leftAhead_iff hlayer).2 ⟨ha, hresend, by omega⟩⟩
    have habsent := hadvances.absent a ha
    omega

theorem requestExact_of_nothingAhead (hlayer : 17 ≤ chat.peerLayer)
    (h : NothingAhead isResendAction decrypt chat) :
    RequestExact isResendAction decrypt notifiedLayer isCreator chat := by
  have hnone : ¬ ∃ a, LeftAhead isResendAction decrypt notifiedLayer chat a :=
    (nothingAhead_iff hlayer).1 h
  have hnotSent : ¬ (pollRequest isResendAction decrypt isCreator chat).isSome = true := by
    intro hsome
    obtain ⟨⟨row, hrow, hresend, hahead⟩, -⟩ := (isSome_pollRequest hlayer).1 hsome
    apply hnone
    exact ⟨⟨.generic row.id, row.value⟩, (leftAhead_iff hlayer).2
      ⟨mem_mergedActions.2 (.inl (mem_genericActions.2 ⟨row, hrow, rfl⟩)), hresend, hahead⟩⟩
  refine ⟨⟨fun hsome => absurd hsome hnotSent, fun hex => absurd hex hnone⟩, ?_⟩
  intro request hrequest
  exact absurd (hrequest ▸ rfl) hnotSent

theorem requestExact_of_onlyAhead (hlayer : 17 ≤ chat.peerLayer)
    (h : OnlyAhead isResendAction decrypt chat) :
    RequestExact isResendAction decrypt notifiedLayer isCreator chat := by
  obtain ⟨hwritten, ⟨row, hrow, hresend⟩, hall⟩ := h
  have hadvances := advances_pollScan isResendAction decrypt hlayer
  have hrowDecoded : ⟨.generic row.id, row.value⟩ ∈ decoded decrypt chat :=
    mem_mergedActions.2 (.inl (mem_genericActions.2 ⟨row, hrow, rfl⟩))
  have hnext : (pollScan isResendAction decrypt chat).nextExpectedSeqOut = chat.seqIn := by
    by_contra hne
    have hle : (chat.seqIn : Int) ≤ (pollScan isResendAction decrypt chat).nextExpectedSeqOut :=
      hadvances.le
    obtain ⟨a, ha, hnumber⟩ := hadvances.present chat.seqIn (le_refl _) (by omega)
    have hahead := (hall a ha).1
    omega
  have hleft : ∀ a, LeftAhead isResendAction decrypt notifiedLayer chat a ↔
      a ∈ decoded decrypt chat ∧ isResendAction a.action = false := by
    intro a
    rw [leftAhead_iff hlayer, hnext]
    exact ⟨fun ha => ⟨ha.1, ha.2.1⟩, fun ha => ⟨ha.1, ha.2, (hall a ha.1).1⟩⟩
  refine ⟨⟨fun _ => ⟨_, (hleft _).2 ⟨hrowDecoded, hresend⟩⟩, fun _ => ?_⟩, ?_⟩
  · refine (isSome_pollRequest hlayer).2 ⟨⟨row, hrow, hresend, ?_⟩, hwritten⟩
    rw [hnext]
    exact (hall _ hrowDecoded).1
  · intro request hrequest
    obtain ⟨hleast, a, ha, hattained⟩ :=
      minLocalSeqOut_spec isResendAction hlayer ⟨_, hrowDecoded⟩
    obtain ⟨hahead, b, hb, hbresend, hle⟩ := hall a ha
    have hsmall : a.seqOut < 2 ^ 30 := a.action.seqOut.2.2
    have hbleast := hleast b hb
    refine ⟨(pollScan isResendAction decrypt chat).minLocalSeqOut,
      ⟨b, (hleft b).2 ⟨hb, hbresend⟩, by omega⟩, fun c hc => hleast c ((hleft c).1 hc).1, ?_⟩
    rw [pollRequest_eq hlayer hrequest, seqIn_polled hlayer, hnext]
    cases isCreator with
    | true => rw [int32_of_range (by simp; omega) (by simp; omega),
        int32_of_range (by simp; omega) (by simp; omega)]
    | false => rw [int32_of_range (by simp; omega) (by simp; omega),
        int32_of_range (by simp; omega) (by simp; omega)]

/-- The conversion of the end of a range keeps the numbers that can be stored apart. -/
theorem eq_of_int32_eq {least m : Int} {parity : Int} (hparity : 0 ≤ parity ∧ parity ≤ 1)
    (hleast : -(2 ^ 30) ≤ least ∧ least < 2 ^ 30) (hm : -(2 ^ 30) < m ∧ m < 2 ^ 30)
    (h : int32 ((least - 1) * 2 + parity) = (m - 1) * 2 + parity) : least = m := by
  rw [int32_eq_ite] at h
  split at h <;> omega

theorem onlyAhead_of_requestExact (hlayer : 17 ≤ chat.peerLayer)
    (h : RequestExact isResendAction decrypt notifiedLayer isCreator chat)
    (hleft : ∃ a, LeftAhead isResendAction decrypt notifiedLayer chat a) :
    OnlyAhead isResendAction decrypt chat := by
  have hsome := h.1.2 hleft
  obtain ⟨request, hrequest⟩ := Option.isSome_iff_exists.1 hsome
  obtain ⟨m, ⟨b, hb, hbm⟩, hmin, hgap⟩ := h.2 request hrequest
  obtain ⟨⟨row, hrow, hresend, -⟩, hwritten⟩ := (isSome_pollRequest hlayer).1 hsome
  obtain ⟨hb, hbresend, hbahead⟩ := (leftAhead_iff hlayer).1 hb
  have hadvances := advances_pollScan isResendAction decrypt hlayer
  have hle : (chat.seqIn : Int) ≤ (pollScan isResendAction decrypt chat).nextExpectedSeqOut :=
    hadvances.le
  obtain ⟨hleast, a, ha, hattained⟩ :=
    minLocalSeqOut_spec isResendAction hlayer ⟨b, hb⟩
  have harange := a.action.seqOut.2
  have hbrange := b.action.seqOut.2
  have hbvalue : b.action.seqOut.1 = m := hbm
  have havalue : a.action.seqOut.1 = (pollScan isResendAction decrypt chat).minLocalSeqOut :=
    hattained
  have hsame : (pollScan isResendAction decrypt chat).minLocalSeqOut = m := by
    have hlast := congrArg Prod.snd ((pollRequest_eq hlayer hrequest).symm.trans hgap)
    apply eq_of_int32_eq _ (by omega) (by omega) hlast
    cases isCreator with
    | true => exact ⟨le_refl _, by decide⟩
    | false => exact ⟨by decide, le_refl _⟩
  refine ⟨hwritten, ⟨row, hrow, hresend⟩, ?_⟩
  intro c hc
  have hcle := hleast c hc
  exact ⟨by omega, b, hb, hbresend, by omega⟩

end Requests

/-- A run of `_poll` sends the right request just when nothing is left behind a gap, or when
nothing but actions behind the gap was stored, one of them decrypted when it came, a message
the first of them, in a layer that has the request. -/
theorem resend_request_exact (isResendAction : IncomingAction δ → Bool)
    (decrypt : ε → Option (IncomingAction δ)) (notifiedLayer : IncomingAction δ → Nat)
    (isCreator : Bool) (chat : Chat δ ε) (hlayer : 17 ≤ chat.peerLayer) :
    RequestExact isResendAction decrypt notifiedLayer isCreator chat ↔
      NothingAhead isResendAction decrypt chat ∨ OnlyAhead isResendAction decrypt chat := by
  constructor
  · intro hexact
    by_cases hleft : ∃ a, LeftAhead isResendAction decrypt notifiedLayer chat a
    · exact .inr (onlyAhead_of_requestExact hlayer hexact hleft)
    · exact .inl ((nothingAhead_iff hlayer).2 hleft)
  · grind [requestExact_of_nothingAhead, requestExact_of_onlyAhead]

theorem zero_bounds : -(2 ^ 30) ≤ (0 : Int) ∧ (0 : Int) < 2 ^ 30 := by decide

/-- An action of layer 46 with a number. -/
def numberedAction (seqOut : SeqNumber) : IncomingAction Unit :=
  { layer := 46, data := (), seqIn := ⟨0, zero_bounds⟩, seqOut }

/-- A chat that has stored actions with these numbers, and expects the number 0. -/
def chatWith (numbers : List SeqNumber) : Chat Unit Unit where
  incoming := numbers.foldl (fun t n => t.insert (numberedAction n)) RowTable.empty
  incomingEncrypted := RowTable.empty
  seqIn := 0
  peerLayer := 46

/-- The number 2 alone: the numbers 0 and 1 are asked for. -/
theorem two_alone_exact :
    RequestExact (fun _ => false) (fun _ => none) (fun _ => 0) true
      (chatWith [⟨2, by decide⟩]) := by
  apply (resend_request_exact (fun _ => false) (fun _ => none) (fun _ => 0) true
    (chatWith [⟨2, by decide⟩]) (by decide)).2
  right
  refine ⟨by decide, ⟨_, List.mem_singleton_self _, rfl⟩, ?_⟩
  intro a ha
  have heq : a = ⟨.generic 1, numberedAction ⟨2, by decide⟩⟩ := List.mem_singleton.1 ha
  rw [heq]
  exact ⟨by decide, _, List.mem_singleton_self _, rfl, le_refl _⟩

/-- The numbers 0 and 2: after 0 has been processed, the peer is asked for the numbers from 1
to -1. -/
theorem zero_and_two_inverted :
    pollRequest (fun _ => false) (fun _ => none) true (chatWith [⟨0, by decide⟩, ⟨2, by decide⟩]) =
        some (1 * 2, -1 * 2) ∧
      ¬ RequestExact (fun _ => false) (fun _ => none) (fun _ => 0) true
        (chatWith [⟨0, by decide⟩, ⟨2, by decide⟩]) := by
  have hrequest : pollRequest (fun _ => false) (fun _ => none) true
      (chatWith [⟨0, by decide⟩, ⟨2, by decide⟩]) = some (1 * 2, -1 * 2) := by decide
  refine ⟨hrequest, fun hexact => ?_⟩
  obtain ⟨m, ⟨a, ha, hm⟩, -, hgap⟩ := hexact.2 _ hrequest
  have hlast : (-1 * 2 : Int) = (m - 1) * 2 + 0 := congrArg Prod.snd hgap
  have hahead := ha.2
  omega

end TelegramPub.Ports.SecretResend
