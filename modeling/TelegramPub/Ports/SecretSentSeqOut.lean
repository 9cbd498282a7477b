import Mathlib.Order.MinMax
import TelegramPub.Ports.SecretOutgoing

/-!
# The number that was sent last

The database keeps one number for all that the server has accepted: the one of the numbered
request that was completed last.  A poll reads what is behind it.  So an action is lost when
a later one is completed first, and an action of a layer below 17, which is stored with the
number 0, is lost as soon as the chat has reached layer 17 and a numbered request has been
completed.

`no_action_lost` is about the runs in which requests are completed in the order of their
numbers, and no action without a number is stored once numbers count.
-/

namespace TelegramPub.Ports.SecretSentSeqOut

open Verified Verified.Machine Ports.SecretKeys Ports.SecretOutgoing

variable {δ κ : Type} {deleteMessages : Nat → Int → Option δ}

/-- Every action that was enqueued has been accepted, or the next read returns it. -/
def NoLoss (s : Client δ κ) : Prop :=
  ∀ id, 1 ≤ id → id ≤ s.db.outgoing.lastId →
    id ∈ s.accepted ∨ ∃ r ∈ s.db.dequeuePeerOutgoingActions.actions, r.id = id

/-- A step does not take the number that was sent last back. -/
def SentGrows (deleteMessages : Nat → Int → Option δ) (s : Client δ κ) (e : Event δ κ) : Prop :=
  s.db.sentSeqOut ≤ (step deleteMessages s e).db.sentSeqOut

/-- No action without a number is stored. -/
def AllNumbered (s : Client δ κ) : Prop :=
  ∀ r ∈ s.db.outgoing.rows, 17 ≤ r.value.action.layer

/-- The condition on one step. -/
def InSequence (s : Client δ κ) : Event δ κ → Prop
  | .enqueue action => 17 ≤ s.db.peerLayer → 0 ≤ s.db.sentSeqOut → 17 ≤ action.layer
  | .completed index => ∀ q, s.inFlight[index]? = some q → q.isResend = false → 17 ≤ q.layer →
      (q.seqOut = s.db.sentSeqOut ∨ q.seqOut = s.db.sentSeqOut + 1) ∧
        (17 ≤ s.db.peerLayer → AllNumbered s)
  | .setPeerLayer layer => 17 ≤ layer → 0 ≤ s.db.sentSeqOut → AllNumbered s
  | .confirm maxSeqIn => ∀ r ∈ s.db.outgoing.rows, r.value.seqOut < maxSeqIn → r.id ∈ s.accepted
  | _ => True

instance (s : Client δ κ) : Decidable (AllNumbered s) :=
  inferInstanceAs (Decidable (∀ r ∈ s.db.outgoing.rows, 17 ≤ r.value.action.layer))

instance (s : Client δ κ) : ∀ e, Decidable (InSequence s e)
  | .enqueue _ => inferInstanceAs (Decidable (_ → _ → _))
  | .completed index => inferInstanceAs (Decidable (∀ q ∈ s.inFlight[index]?, _))
  | .setPeerLayer _ => inferInstanceAs (Decidable (_ → _ → _))
  | .confirm _ => inferInstanceAs (Decidable (∀ r ∈ s.db.outgoing.rows, _))
  | .resendRequested _ _ | .dequeue | .poll _ | .failed _ | .restart | .setKeys _
  | .applySeqIn _ => isTrue trivial

/-- What the runs keep whose steps are in sequence. -/
structure Inv (s : Client δ κ) : Prop where
  wellNumbered : WellNumbered s
  sent : -1 ≤ s.db.sentSeqOut
  sent_lt : s.db.sentSeqOut < s.db.nextSeqOut
  below : ∀ r ∈ s.numbered, r.value.seqOut ≤ s.db.sentSeqOut → r.id ∈ s.accepted
  unnumbered : 17 ≤ s.db.peerLayer → 0 ≤ s.db.sentSeqOut → AllNumbered s
  kept : ∀ id, 1 ≤ id → id ≤ s.db.outgoing.lastId →
    id ∈ s.accepted ∨ ∃ r ∈ s.db.outgoing.rows, r.id = id

theorem inv_initial : Inv (Client.initial : Client δ κ) where
  wellNumbered := wellNumbered_initial
  sent := le_refl _
  sent_lt := show (-1 : Int) < 0 by omega
  below := fun _ hr => absurd hr List.not_mem_nil
  unnumbered := fun _ _ _ hr => absurd hr List.not_mem_nil
  kept := fun id hlo hhi => by
    have hzero : id ≤ 0 := hhi
    omega

variable {s : Client δ κ}

theorem Inv.noLoss (h : Inv s) : NoLoss s := by
  intro id hlo hhi
  rcases h.kept id hlo hhi with haccepted | ⟨r, hr, rfl⟩
  · exact .inl haccepted
  by_cases haccepted : r.id ∈ s.accepted
  · exact .inl haccepted
  right
  refine ⟨r, List.mem_filter.2 ⟨hr, decide_eq_true ?_⟩, rfl⟩
  have hknown := h.wellNumbered.stored r hr
  unfold Stored.readBehind
  by_cases hnumbered : 17 ≤ r.value.action.layer
  · obtain ⟨hnonneg, hnumber⟩ := hknown.number hnumbered
    have hbehind : ¬ r.value.seqOut ≤ s.db.sentSeqOut := fun hle =>
      haccepted (h.below r (List.mem_of_getElem? hnumber) hle)
    split <;> omega
  · have hzero := hknown.zero (by omega)
    split
    · omega
    · by_contra hle
      exact hnumbered (h.unnumbered (by omega) (by omega) r hr)

/-- Steps that change neither the rows nor the numbers. -/
theorem Inv.of_same {s' : Client δ κ} (h : Inv s) (hwell : WellNumbered s')
    (houtgoing : s'.db.outgoing = s.db.outgoing) (hsent : s'.db.sentSeqOut = s.db.sentSeqOut)
    (hnext : s'.db.nextSeqOut = s.db.nextSeqOut) (hlayer : s'.db.peerLayer = s.db.peerLayer)
    (hnumbered : s'.numbered = s.numbered) (haccepted : s'.accepted = s.accepted) : Inv s' where
  wellNumbered := hwell
  sent := hsent ▸ h.sent
  sent_lt := by rw [hsent, hnext]; exact h.sent_lt
  below := by
    rw [hnumbered, hsent, haccepted]
    exact h.below
  unnumbered := by
    unfold AllNumbered
    rw [hlayer, hsent, houtgoing]
    exact h.unnumbered
  kept := by
    rw [houtgoing, haccepted]
    exact h.kept

theorem Inv.enqueue (h : Inv s) {action : OutgoingAction δ}
    (hseq : 17 ≤ s.db.peerLayer → 0 ≤ s.db.sentSeqOut → 17 ≤ action.layer) :
    Inv (s.enqueue action) := by
  have hsent := h.sent_lt
  have hsame : (s.enqueue action).db.sentSeqOut = s.db.sentSeqOut ∧
      (s.enqueue action).db.peerLayer = s.db.peerLayer ∧
      s.db.nextSeqOut ≤ (s.enqueue action).db.nextSeqOut := by
    unfold Client.enqueue Stored.enqueuePeerOutgoingAction
    split
    · exact ⟨rfl, rfl, Int.le_add_one (le_refl _)⟩
    · exact ⟨rfl, rfl, le_refl _⟩
  refine
    { wellNumbered := h.wellNumbered.enqueue action
      sent := hsame.1 ▸ h.sent
      sent_lt := by have hnext := hsame.2.2; omega
      below := ?_
      unnumbered := ?_
      kept := ?_ }
  · intro r hr hle
    rw [hsame.1] at hle
    rw [numbered_enqueue] at hr
    split at hr
    case isTrue hlayer =>
      rcases List.mem_append.1 hr with hold | hnew
      · exact h.below r hold hle
      · have hseqOut : r.value.seqOut = s.db.nextSeqOut := by
          rw [List.mem_singleton.1 hnew]
          unfold Client.newRow
          rw [if_pos hlayer]
        omega
    case isFalse => exact h.below r hr hle
  · rw [hsame.1, hsame.2.1]
    intro hpeer hpositive r hr
    rcases mem_enqueue.1 hr with hold | rfl
    · exact h.unnumbered hpeer hpositive r hold
    · rw [layer_newRow]
      exact hseq hpeer hpositive
  · intro id hlo hhi
    rw [outgoing_enqueue] at hhi
    rcases Nat.lt_or_ge s.db.outgoing.lastId id with hnew | hold
    · right
      refine ⟨s.newRow action, mem_enqueue.2 (.inr rfl), ?_⟩
      exact le_antisymm hnew hhi
    · rcases h.kept id hlo hold with haccepted | ⟨r, hr, hid⟩
      · exact .inl haccepted
      · exact .inr ⟨r, mem_enqueue.2 (.inl hr), hid⟩

variable {q : Request δ κ}

theorem Inv.completedNumbered (h : Inv s) {index : Nat} {r : Row (OutgoingRow δ)}
    (hresend : q.isResend = false) (hr : Known s r) (hmade : MadeOf q r)
    (hlayer : 17 ≤ r.value.action.layer)
    (hturn : q.seqOut = s.db.sentSeqOut ∨ q.seqOut = s.db.sentSeqOut + 1)
    (hall : 17 ≤ s.db.peerLayer → AllNumbered s) : Inv (s.completed index q) := by
  obtain ⟨hid, hqlayer, hqseqOut⟩ := hmade
  obtain ⟨hnonneg, hnumber⟩ := hr.number hlayer
  have hcount := (List.getElem?_eq_some_iff.1 hnumber).1
  have hlength := h.wellNumbered.length
  have hseqOut : q.seqOut = r.value.seqOut := hqseqOut hlayer
  have hdb : s.db.actionCompletedWithId q = s.db.applyPeerSeqOut q.seqOut := by
    unfold Stored.actionCompletedWithId
    rw [hresend, if_neg Bool.false_ne_true, if_pos ⟨by omega, by omega⟩]
  have hsent : (s.completed index q).db.sentSeqOut = q.seqOut := by
    change (s.db.actionCompletedWithId q).sentSeqOut = _
    rw [hdb]
    rfl
  have haccepted : (s.completed index q).accepted = s.accepted ++ [q.actionId] := by
    unfold Client.completed
    rw [hresend]
    rfl
  have hrest : (s.completed index q).db.outgoing = s.db.outgoing ∧
      (s.completed index q).db.nextSeqOut = s.db.nextSeqOut ∧
      (s.completed index q).db.peerLayer = s.db.peerLayer := by
    change (s.db.actionCompletedWithId q).outgoing = _ ∧
      (s.db.actionCompletedWithId q).nextSeqOut = _ ∧ (s.db.actionCompletedWithId q).peerLayer = _
    rw [hdb]
    exact ⟨rfl, rfl, rfl⟩
  refine
    { wellNumbered := h.wellNumbered.completed index q
      sent := by omega
      sent_lt := by omega
      below := ?_
      unnumbered := ?_
      kept := ?_ }
  · intro r' hr' hle
    rw [hsent] at hle
    rw [haccepted, List.mem_append, List.mem_singleton]
    by_cases hold : r'.value.seqOut ≤ s.db.sentSeqOut
    · exact .inl (h.below r' hr' hold)
    · obtain ⟨hlayer', hknown'⟩ := h.wellNumbered.counted r' hr'
      have heq := hknown'.eq_of_seqOut_eq hr hlayer' hlayer (by omega)
      exact .inr (heq ▸ hid.symm)
  · grind [AllNumbered]
  · intro id hlo hhi
    rw [hrest.1] at hhi ⊢
    rw [haccepted]
    exact (h.kept id hlo hhi).imp_left (List.mem_append_left _)

/-- A completed request of an action without a number. -/
theorem Inv.completedUnnumbered (h : Inv s) {index : Nat} (hresend : q.isResend = false)
    (hlayer : q.layer < 17) : Inv (s.completed index q) := by
  have hdb : s.db.actionCompletedWithId q = s.db.deletePeerOutgoingActions [q.actionId] := by
    unfold Stored.actionCompletedWithId
    rw [hresend, if_neg Bool.false_ne_true, if_neg (by omega)]
  have haccepted : (s.completed index q).accepted = s.accepted ++ [q.actionId] := by
    unfold Client.completed
    rw [hresend]
    rfl
  have hrest : (s.completed index q).db.outgoing = s.db.outgoing.deleteIds [q.actionId] ∧
      (s.completed index q).db.nextSeqOut = s.db.nextSeqOut ∧
      (s.completed index q).db.peerLayer = s.db.peerLayer ∧
      (s.completed index q).db.sentSeqOut = s.db.sentSeqOut := by
    change (s.db.actionCompletedWithId q).outgoing = _ ∧
      (s.db.actionCompletedWithId q).nextSeqOut = _ ∧
      (s.db.actionCompletedWithId q).peerLayer = _ ∧ (s.db.actionCompletedWithId q).sentSeqOut = _
    rw [hdb]
    exact ⟨rfl, rfl, rfl, rfl⟩
  obtain ⟨houtgoing, hnext, hpeer, hsent⟩ := hrest
  refine
    { wellNumbered := h.wellNumbered.completed index q
      sent := hsent ▸ h.sent
      sent_lt := by rw [hsent, hnext]; exact h.sent_lt
      below := ?_
      unnumbered := ?_
      kept := ?_ }
  · intro r hr hle
    rw [hsent] at hle
    rw [haccepted]
    exact List.mem_append_left _ (h.below r hr hle)
  · rw [hpeer, hsent]
    intro hlayer' hpositive r hr
    rw [houtgoing] at hr
    exact h.unnumbered hlayer' hpositive r (RowTable.mem_deleteIds.1 hr).1
  · intro id hlo hhi
    rw [houtgoing] at hhi ⊢
    rw [haccepted, List.mem_append, List.mem_singleton]
    by_cases hid : id = q.actionId
    · exact .inl (.inr hid)
    · rcases h.kept id hlo hhi with hold | ⟨r, hr, rfl⟩
      · exact .inl (.inl hold)
      · exact .inr ⟨r, RowTable.mem_deleteIds.2 ⟨hr, by simpa using hid⟩, rfl⟩

theorem Inv.completed (h : Inv s) {index : Nat} (hq : s.inFlight[index]? = some q)
    (hseq : q.isResend = false → 17 ≤ q.layer →
      (q.seqOut = s.db.sentSeqOut ∨ q.seqOut = s.db.sentSeqOut + 1) ∧
        (17 ≤ s.db.peerLayer → AllNumbered s)) : Inv (s.completed index q) := by
  cases hresend : q.isResend with
  | true =>
    have hdb : s.db.actionCompletedWithId q =
        s.db.deletePeerOutgoingResendActions [q.actionId] := by
      unfold Stored.actionCompletedWithId
      rw [hresend, if_pos rfl]
    have haccepted : (s.completed index q).accepted = s.accepted := by
      unfold Client.completed
      rw [hresend]
      rfl
    have hrest : (s.completed index q).db =
        s.db.deletePeerOutgoingResendActions [q.actionId] := hdb
    exact h.of_same (h.wellNumbered.completed index q) (by rw [hrest]; rfl) (by rw [hrest]; rfl)
      (by rw [hrest]; rfl) (by rw [hrest]; rfl) rfl haccepted
  | false =>
    obtain ⟨r, hr, hmade⟩ := h.wellNumbered.sent q (List.mem_of_getElem? hq) hresend
    by_cases hlayer : 17 ≤ r.value.action.layer
    · obtain ⟨hturn, hall⟩ := hseq hresend (by rw [hmade.2.1]; exact hlayer)
      exact h.completedNumbered hresend hr hmade hlayer hturn hall
    · exact h.completedUnnumbered hresend (by rw [hmade.2.1]; omega)

theorem Inv.confirm (h : Inv s) {maxSeqIn : Int} {keys : List (KeyData κ)}
    (hconfirmed : ∀ r ∈ s.db.outgoing.rows, r.value.seqOut < maxSeqIn → r.id ∈ s.accepted)
    (hwell : WellNumbered { s with db := s.db.confirmPeerSeqOut (maxSeqIn - 1), keys := keys }) :
    Inv { s with db := s.db.confirmPeerSeqOut (maxSeqIn - 1), keys := keys } where
  wellNumbered := hwell
  sent := h.sent
  sent_lt := h.sent_lt
  below := h.below
  unnumbered := fun hpeer hpositive r hr =>
    h.unnumbered hpeer hpositive r (RowTable.mem_deleteWhere.1 hr).1
  kept := by
    intro id hlo hhi
    rcases h.kept id hlo hhi with hold | ⟨r, hr, rfl⟩
    · exact .inl hold
    · by_cases hlt : r.value.seqOut < maxSeqIn
      · exact .inl (hconfirmed r hr hlt)
      · refine .inr ⟨r, RowTable.mem_deleteWhere.2 ⟨hr, decide_eq_false ?_⟩, rfl⟩
        omega

theorem Inv.step {e : Event δ κ} (h : Inv s) (he : InSequence s e) :
    Inv (step deleteMessages s e) := by
  have hwell : WellNumbered (SecretOutgoing.step deleteMessages s e) := h.wellNumbered.step e
  cases e with
  | enqueue action => exact h.enqueue he
  | resendRequested fromSeq toSeq => exact h.of_same hwell rfl rfl rfl rfl rfl rfl
  | dequeue => exact h.of_same hwell rfl rfl rfl rfl rfl rfl
  | poll waitsForActionWithId =>
    unfold SecretOutgoing.step at hwell ⊢
    dsimp only at hwell ⊢
    split at hwell
    case h_1 => exact h
    case h_2 => exact h.of_same hwell rfl rfl rfl rfl rfl rfl
  | completed index =>
    unfold SecretOutgoing.step
    dsimp only
    split
    case h_1 => exact h
    case h_2 q hq => exact h.completed hq (he q hq)
  | failed index =>
    unfold SecretOutgoing.step at hwell ⊢
    dsimp only at hwell ⊢
    split at hwell
    case h_1 => exact h
    case h_2 => exact h.of_same hwell rfl rfl rfl rfl rfl rfl
  | restart => exact h.of_same hwell rfl rfl rfl rfl rfl rfl
  | setPeerLayer layer =>
    exact
      { h with
        wellNumbered := hwell
        unnumbered := by
          intro hpeer hpositive
          rcases le_max_iff.1 hpeer with hold | hnew
          · exact h.unnumbered hold hpositive
          · exact he hnew hpositive }
  | setKeys keys => exact h.of_same hwell rfl rfl rfl rfl rfl rfl
  | applySeqIn seqIn => exact h.of_same hwell rfl rfl rfl rfl rfl rfl
  | confirm maxSeqIn =>
    unfold SecretOutgoing.step at hwell ⊢
    dsimp only at hwell ⊢
    split
    case isTrue hpositive =>
      rw [if_pos hpositive] at hwell
      exact h.confirm he hwell
    case isFalse => exact h

/-- And it does not take the number that was sent last back. -/
theorem sentGrows_of_inSequence {e : Event δ κ} (he : InSequence s e) :
    SentGrows deleteMessages s e := by
  unfold SentGrows SecretOutgoing.step
  cases e with
  | enqueue action =>
    change s.db.sentSeqOut ≤ (s.db.enqueuePeerOutgoingAction action).sentSeqOut
    unfold Stored.enqueuePeerOutgoingAction
    split <;> exact le_refl _
  | resendRequested fromSeq toSeq => exact le_refl _
  | dequeue => exact le_refl _
  | poll waitsForActionWithId => dsimp only; split <;> exact le_refl _
  | completed index =>
    dsimp only
    split
    case h_1 => exact le_refl _
    case h_2 q hq =>
      change s.db.sentSeqOut ≤ (s.db.actionCompletedWithId q).sentSeqOut
      unfold Stored.actionCompletedWithId
      split
      case isTrue => exact le_refl _
      case isFalse hresend =>
        split
        case isTrue hnumbered =>
          have hturn := (he q hq (Bool.not_eq_true _ ▸ hresend) hnumbered.2).1
          change s.db.sentSeqOut ≤ q.seqOut
          omega
        case isFalse => exact le_refl _
  | failed index => dsimp only; split <;> exact le_refl _
  | restart => exact le_refl _
  | setPeerLayer layer => exact le_refl _
  | setKeys keys => exact le_refl _
  | applySeqIn seqIn => exact le_refl _
  | confirm maxSeqIn => dsimp only; split <;> exact le_refl _

/-- In every run in sequence the number that was sent last only grows, and no action is
lost. -/
theorem no_action_lost (deleteMessages : Nat → Int → Option δ) (events : List (Event δ κ))
    (h : Guarded (step deleteMessages) InSequence Client.initial events) :
    NoLoss (run (step deleteMessages) Client.initial events) ∧
      Guarded (step deleteMessages) (SentGrows deleteMessages) Client.initial events := by
  have hstep : ∀ (s : Client δ κ) (e : Event δ κ), InSequence s e → Inv s →
      Inv (step deleteMessages s e) := fun _ _ he hs => hs.step he
  have hboth : ∀ (s : Client δ κ) (e : Event δ κ), Inv s → InSequence s e →
      SentGrows deleteMessages s e ∧ Inv (step deleteMessages s e) :=
    fun _ _ hs he => ⟨sentGrows_of_inSequence he, hs.step he⟩
  exact ⟨(guarded_invariant hstep events Client.initial h inv_initial).noLoss,
    guarded_mono hboth events Client.initial inv_initial h⟩

/-- A message of a layer. -/
def message (layer : Nat) : OutgoingAction Unit :=
  { kind := .message, randomId := 7, layer, keyId := 0, data := () }

def noDeletion (_ : Nat) (_ : Int) : Option Unit := none

/-- A poll of what is stored. -/
def polls : List (Event Unit Unit) := [.dequeue, .poll fun _ => true]

/-- Two messages of layer 46, both on their way. -/
def twoInFlight : List (Event Unit Unit) :=
  [.setPeerLayer 46, .enqueue (message 46), .enqueue (message 46)] ++ polls

/-- The layer is raised while a message of layer 1 is on its way.  Of two messages of layer 46
the first gets an error, is sent again and accepted; then the client starts again, and the
second is sent again. -/
def sentAgain : List (Event Unit Unit) :=
  [.enqueue (message 1)] ++ polls ++ [.setPeerLayer 46, .completed 0, .enqueue (message 46),
    .enqueue (message 46)] ++ polls ++ [.failed 0] ++ polls ++ [.completed 1, .restart] ++ polls ++
    [.completed 0, .enqueue (message 46)]

/-- The three messages are accepted, and the last one waits. -/
theorem sentAgain_not_lost :
    (NoLoss (run (step noDeletion) Client.initial sentAgain) ∧
      Guarded (step noDeletion) (SentGrows noDeletion) Client.initial sentAgain) ∧
    (run (step noDeletion) Client.initial sentAgain).accepted = [1, 2, 3] :=
  ⟨no_action_lost noDeletion sentAgain (by decide), by decide⟩

/-- The second of two messages is completed first, and then the first; or only the second;
or a message without a number waits when a numbered one is completed. -/
theorem losses :
    ¬ Guarded (step noDeletion) (SentGrows noDeletion) Client.initial
        (twoInFlight ++ [.completed 1, .completed 0]) ∧
      ¬ NoLoss (run (step noDeletion) Client.initial
        (twoInFlight ++ [.completed 1, .failed 0, .restart])) ∧
      ¬ NoLoss (run (step noDeletion) Client.initial
        ([.enqueue (message 1), .setPeerLayer 46, .enqueue (message 46)] ++ polls ++
          [.completed 1, .failed 0, .restart])) := by
  refine ⟨?_, ?_, ?_⟩
  · intro h
    have hlast := ((guarded_append _ _ (twoInFlight ++ [.completed 1]) [.completed 0] _).1 h).2.1
    exact absurd hlast (by unfold SentGrows; decide)
  · intro h
    exact absurd (h 1 (le_refl _) (by decide)) (by decide)
  · intro h
    exact absurd (h 1 (le_refl _) (by decide)) (by decide)

end TelegramPub.Ports.SecretSentSeqOut
