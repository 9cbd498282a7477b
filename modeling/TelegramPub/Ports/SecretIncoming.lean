import Mathlib.Data.List.Sort
import TelegramPub.Verified.Bytes
import TelegramPub.Verified.RowTable

/-!
# TGSecretIncomingQueueActor: the incoming actions of a secret chat

What the peer sends is stored in two tables: decrypted actions, and messages whose key is
not there yet.  `_poll` reads both tables on the thread of the database
(`dequeuePeerIncomingActions`) and works off what it has read on the stage queue
(`processActions`): it decrypts what can be decrypted by now, sorts the actions by their
number, and takes those that continue the chat from the next expected number on.  What is
behind a gap stays, and the peer is asked to send the gap again.

The two parts are apart here too, because a second read can come before the first one has
been worked off.
-/

namespace TelegramPub.Ports.SecretIncoming

open Verified Verified.Bytes

variable {δ ε : Type}

/-- A number as it is stored: half of an `int32_t`. -/
abbrev SeqNumber := { n : Int // -(2 ^ 30) ≤ n ∧ n < 2 ^ 30 }

theorem seqNumber_zero : -(2 ^ 30) ≤ (0 : Int) ∧ (0 : Int) < 2 ^ 30 := by decide

/-- A `TGStoredIncomingMessageSecretAction` and the numbers stored with it. -/
structure IncomingAction (δ : Type) where
  layer : Nat
  data : δ
  seqIn : SeqNumber
  seqOut : SeqNumber
  deriving DecidableEq

/-- A `TGStoredSecretActionWithSeqActionId`: the row of one of the two tables. -/
inductive ActionId where
  | generic (value : Nat)
  | encrypted (value : Nat)
  deriving DecidableEq

def ActionId.value : ActionId → Nat
  | .generic value => value
  | .encrypted value => value

def ActionId.generic? : ActionId → Option Nat
  | .generic value => some value
  | .encrypted _ => none

def ActionId.encrypted? : ActionId → Option Nat
  | .generic _ => none
  | .encrypted value => some value

/-- A `TGStoredSecretActionWithSeq`. -/
structure StoredAction (δ : Type) where
  actionId : ActionId
  action : IncomingAction δ
  deriving DecidableEq

def StoredAction.seqIn (a : StoredAction δ) : Int := a.action.seqIn.1

def StoredAction.seqOut (a : StoredAction δ) : Int := a.action.seqOut.1

/-- An action with a number of its own. -/
def Numbered (a : StoredAction δ) : Prop := 17 ≤ a.action.layer

instance (a : StoredAction δ) : Decidable (Numbered a) :=
  inferInstanceAs (Decidable (_ ≤ _))

/-- The order of the merged actions. -/
def StoredAction.Precedes (a b : StoredAction δ) : Prop :=
  a.seqOut < b.seqOut ∨ a.seqOut = b.seqOut ∧ a.actionId.value ≤ b.actionId.value

instance : DecidableRel (StoredAction.Precedes (δ := δ)) := fun _ _ =>
  inferInstanceAs (Decidable (_ ∨ _))

/-- The stored state of a chat. -/
structure Chat (δ ε : Type) where
  incoming : RowTable (IncomingAction δ)
  incomingEncrypted : RowTable ε
  seqIn : Nat
  peerLayer : Nat

/-- What `dequeuePeerIncomingActions` hands to its completion. -/
structure Dequeued (δ ε : Type) where
  actions : List (Row (IncomingAction δ))
  nextExpectedSeqOut : Nat
  encryptedActions : List (Row ε)

def dequeuePeerIncomingActions (chat : Chat δ ε) : Dequeued δ ε where
  actions := chat.incoming.rows
  nextExpectedSeqOut := chat.seqIn
  encryptedActions := chat.incomingEncrypted.rows

/-! ## The run over the merged actions -/

/-- The variables of the loop over the merged actions. -/
structure Scan (δ : Type) where
  currentPeerLayer : Nat
  nextExpectedSeqOut : Int
  minLocalSeqOut : Int := 2 ^ 31 - 1
  maxSeqIn : Int := -1
  removeIds : List ActionId := []
  actionsToProcess : List (StoredAction δ) := []

section Loop

variable (isResendAction : IncomingAction δ → Bool)

/-- The action with the expected number is processed, an older one removed; of the actions
that are ahead only the requests to send again are processed. -/
def Scan.compare (s : Scan δ) (a : StoredAction δ) : Scan δ :=
  if a.seqOut = s.nextExpectedSeqOut then
    { s with
      actionsToProcess := s.actionsToProcess ++ [a]
      nextExpectedSeqOut := s.nextExpectedSeqOut + 1
      maxSeqIn := max s.maxSeqIn a.seqIn }
  else if a.seqOut < s.nextExpectedSeqOut then
    { s with removeIds := s.removeIds ++ [a.actionId] }
  else if isResendAction a.action then
    { s with actionsToProcess := s.actionsToProcess ++ [a] }
  else s

/-- One action: it is compared with the expected number if the peer has reached layer 17, or
reaches it with this action. -/
def Scan.visit (s : Scan δ) (a : StoredAction δ) : Scan δ :=
  if 17 ≤ s.currentPeerLayer then
    Scan.compare isResendAction { s with minLocalSeqOut := min s.minLocalSeqOut a.seqOut } a
  else if 17 ≤ a.action.layer then
    Scan.compare isResendAction
      { s with minLocalSeqOut := min s.minLocalSeqOut a.seqOut
               currentPeerLayer := a.action.layer } a
  else { s with actionsToProcess := s.actionsToProcess ++ [a] }

variable (decrypt : ε → Option (IncomingAction δ))

/-- The rows that can be decrypted by now. -/
def addedDecryptedActions (encryptedActions : List (Row ε)) : List (StoredAction δ) :=
  encryptedActions.filterMap fun row =>
    (decrypt row.value).map fun action => ⟨.encrypted row.id, action⟩

/-- The rows that were decrypted when they came. -/
def genericActions (actions : List (Row (IncomingAction δ))) : List (StoredAction δ) :=
  actions.map fun row => ⟨.generic row.id, row.value⟩

/-- All decrypted actions, in the order of their numbers. -/
def mergedActions (dequeued : Dequeued δ ε) : List (StoredAction δ) :=
  (genericActions dequeued.actions ++
    addedDecryptedActions decrypt dequeued.encryptedActions).insertionSort StoredAction.Precedes

/-- The loop over the merged actions. -/
def scanActions (peerLayer : Nat) (dequeued : Dequeued δ ε) : Scan δ :=
  (mergedActions decrypt dequeued).foldl (Scan.visit isResendAction)
    { currentPeerLayer := peerLayer, nextExpectedSeqOut := dequeued.nextExpectedSeqOut }

end Loop

/-- The rows to delete: the old ones, and then what has been processed. -/
def Scan.removedIds (s : Scan δ) : List ActionId :=
  s.removeIds ++ s.actionsToProcess.map (·.actionId)

def Scan.removeActionIds (s : Scan δ) : List Nat := s.removedIds.filterMap ActionId.generic?

def Scan.removeEncryptedActionIds (s : Scan δ) : List Nat :=
  s.removedIds.filterMap ActionId.encrypted?

/-! ## The request to send again -/

/-- `currentLayer`, the newest layer of this client. -/
def currentLayer : Nat := 73

/-- The layers for which `decryptedServiceMessageActionWithLayer:resendMessagesFromSeq:toSeq:`
writes a message. -/
def resendLayers : List Nat := [17, 20, 23, 46, 66, 73]

/-- The request that the run sends, as the first and the last number in the counting of the
peer. -/
def Scan.resendRequest (s : Scan δ) (isCreator : Bool) (dequeued : Dequeued δ ε) :
    Option (Int × Int) :=
  if s.removeActionIds.length < dequeued.actions.length then
    let minLocalSeqOut :=
      if s.minLocalSeqOut = 2 ^ 31 - 1 then s.nextExpectedSeqOut + 1 else s.minLocalSeqOut
    let parity := if isCreator then 0 else 1
    if min s.currentPeerLayer currentLayer ∈ resendLayers then
      some (int32 (s.nextExpectedSeqOut * 2 + parity), int32 ((minLocalSeqOut - 1) * 2 + parity))
    else none
  else none

/-- The stored state after the run.  A processed action raises the layer of the peer to its
own and to the one it announces. -/
def processActions (isResendAction : IncomingAction δ → Bool)
    (decrypt : ε → Option (IncomingAction δ)) (notifiedLayer : IncomingAction δ → Nat)
    (chat : Chat δ ε) (dequeued : Dequeued δ ε) : Chat δ ε :=
  let s := scanActions isResendAction decrypt chat.peerLayer dequeued
  { incoming := chat.incoming.deleteIds s.removeActionIds
    incomingEncrypted := chat.incomingEncrypted.deleteIds s.removeEncryptedActionIds
    seqIn := s.nextExpectedSeqOut.toNat
    peerLayer := s.actionsToProcess.foldl
      (fun layer a => max layer (max a.action.layer (notifiedLayer a.action))) chat.peerLayer }

/-! ## What the loop does -/

/-- The numbers from one on, up to another that is not in the list. -/
def Counted : Int → Int → List Int → Prop
  | first, next, [] => first = next
  | first, next, n :: ns => n = first ∧ Counted (first + 1) next ns

theorem Counted.append {middle next : Int} {ys : List Int} :
    ∀ {xs : List Int} {first : Int}, Counted first middle xs → Counted middle next ys →
      Counted first next (xs ++ ys) := by
  intro xs
  induction xs with
  | nil => intro first h hys; cases h; exact hys
  | cons x xs ih => intro first h hys; exact ⟨h.1, ih h.2 hys⟩

/-- What the loop takes out of a chat with the next expected number `next`. -/
def taken (isResendAction : IncomingAction δ → Bool) (next : Int) (a : StoredAction δ) : Bool :=
  decide (a.seqOut < next) || isResendAction a.action

/-- The run of the loop over sorted actions that are all compared. -/
structure Advances (isResendAction : IncomingAction δ → Bool) (l : List (StoredAction δ))
    (s r : Scan δ) : Prop where
  layer : r.currentPeerLayer = s.currentPeerLayer
  le : s.nextExpectedSeqOut ≤ r.nextExpectedSeqOut
  present : ∀ j, s.nextExpectedSeqOut ≤ j → j < r.nextExpectedSeqOut → ∃ a ∈ l, a.seqOut = j
  absent : ∀ a ∈ l, a.seqOut ≠ r.nextExpectedSeqOut
  least : r.minLocalSeqOut = l.foldl (fun m a => min m a.seqOut) s.minLocalSeqOut
  removed : r.removedIds.Perm (s.removedIds ++
    (l.filter (taken isResendAction r.nextExpectedSeqOut)).map (·.actionId))
  processed : ∃ p : List (StoredAction δ), r.actionsToProcess = s.actionsToProcess ++ p ∧
    p.Sublist l ∧
    Counted s.nextExpectedSeqOut r.nextExpectedSeqOut
      ((p.filter (·.seqOut < r.nextExpectedSeqOut)).map (·.seqOut)) ∧
    ∀ a ∈ p, a.seqOut < r.nextExpectedSeqOut ∨
      isResendAction a.action = true ∧ r.nextExpectedSeqOut < a.seqOut

namespace Advances

variable {isResendAction : IncomingAction δ → Bool} {l : List (StoredAction δ)}
  {a : StoredAction δ} {s r : Scan δ}

theorem nil (s : Scan δ) : Advances isResendAction [] s s where
  layer := rfl
  le := le_refl _
  present := fun j hlo hhi => by omega
  absent := fun a ha => absurd ha List.not_mem_nil
  least := rfl
  removed := by rw [List.filter_nil, List.map_nil, List.append_nil]
  processed := ⟨[], (List.append_nil _).symm, List.Sublist.refl _, rfl,
    fun a ha => absurd ha List.not_mem_nil⟩

/-- Behind an action that is ahead the loop takes no further number. -/
theorem next_eq_of_ahead (h : Advances isResendAction l s r)
    (hahead : s.nextExpectedSeqOut < a.seqOut) (hsorted : ∀ b ∈ l, a.seqOut ≤ b.seqOut) :
    r.nextExpectedSeqOut = s.nextExpectedSeqOut := by
  by_contra hne
  have hle := h.le
  obtain ⟨b, hb, hnumber⟩ := h.present s.nextExpectedSeqOut (le_refl _) (by omega)
  have hab := hsorted b hb
  omega

theorem removed_cons_of_taken {s' : Scan δ} (h : Advances isResendAction l s' r)
    (hids : s'.removedIds.Perm (s.removedIds ++ [a.actionId]))
    (htaken : taken isResendAction r.nextExpectedSeqOut a = true) :
    r.removedIds.Perm (s.removedIds ++
      ((a :: l).filter (taken isResendAction r.nextExpectedSeqOut)).map (·.actionId)) := by
  rw [List.filter_cons_of_pos htaken, List.map_cons]
  refine h.removed.trans ((hids.append_right _).trans ?_)
  rw [List.append_assoc]
  rfl

/-- The expected number comes first. -/
theorem cons_next (h : Advances isResendAction l
      { s with minLocalSeqOut := min s.minLocalSeqOut a.seqOut
               actionsToProcess := s.actionsToProcess ++ [a]
               nextExpectedSeqOut := s.nextExpectedSeqOut + 1
               maxSeqIn := max s.maxSeqIn a.seqIn } r)
    (heq : a.seqOut = s.nextExpectedSeqOut) : Advances isResendAction (a :: l) s r := by
  have hle : s.nextExpectedSeqOut + 1 ≤ r.nextExpectedSeqOut := h.le
  have hlt : a.seqOut < r.nextExpectedSeqOut := by omega
  refine
    { h with
      le := by omega
      present := ?_
      absent := ?_
      removed := ?_
      processed := ?_ }
  · intro j hlo hhi
    by_cases hfirst : j = s.nextExpectedSeqOut
    · exact ⟨a, List.mem_cons_self .., heq.trans hfirst.symm⟩
    · obtain ⟨b, hb, hnumber⟩ := h.present j (show s.nextExpectedSeqOut + 1 ≤ j by omega) hhi
      exact ⟨b, List.mem_cons_of_mem a hb, hnumber⟩
  · exact List.forall_mem_cons.2 ⟨by omega, h.absent⟩
  · grind [Scan.removedIds, removed_cons_of_taken, taken]
  · obtain ⟨p, hp, hsub, hcounted, hfate⟩ := h.processed
    refine ⟨a :: p, ?_, hsub.cons_cons a, ?_, ?_⟩
    · rw [hp, List.append_assoc]
      rfl
    · rw [List.filter_cons_of_pos (by simpa using hlt)]
      exact ⟨heq, hcounted⟩
    · grind

theorem cons_old (h : Advances isResendAction l
      { s with minLocalSeqOut := min s.minLocalSeqOut a.seqOut
               removeIds := s.removeIds ++ [a.actionId] } r)
    (hlt : a.seqOut < s.nextExpectedSeqOut) : Advances isResendAction (a :: l) s r := by
  have hle : s.nextExpectedSeqOut ≤ r.nextExpectedSeqOut := h.le
  refine
    { h with
      present := ?_
      absent := ?_
      removed := ?_
      processed := ?_ }
  · intro j hlo hhi
    obtain ⟨b, hb, hnumber⟩ := h.present j hlo hhi
    exact ⟨b, List.mem_cons_of_mem a hb, hnumber⟩
  · exact List.forall_mem_cons.2 ⟨by omega, h.absent⟩
  · grind [Scan.removedIds, removed_cons_of_taken, taken]
  · obtain ⟨p, hp, hsub, hcounted, hfate⟩ := h.processed
    exact ⟨p, hp, hsub.cons a, hcounted, hfate⟩

/-- A request to send again comes first, ahead of the chat. -/
theorem cons_resend (h : Advances isResendAction l
      { s with minLocalSeqOut := min s.minLocalSeqOut a.seqOut
               actionsToProcess := s.actionsToProcess ++ [a] } r)
    (hahead : s.nextExpectedSeqOut < a.seqOut) (hresend : isResendAction a.action = true)
    (hsorted : ∀ b ∈ l, a.seqOut ≤ b.seqOut) : Advances isResendAction (a :: l) s r := by
  have hnext : r.nextExpectedSeqOut = s.nextExpectedSeqOut := h.next_eq_of_ahead hahead hsorted
  refine
    { h with
      present := fun j hlo hhi => by omega
      absent := ?_
      removed := ?_
      processed := ?_ }
  · exact List.forall_mem_cons.2 ⟨by omega, h.absent⟩
  · grind [Scan.removedIds, removed_cons_of_taken, taken]
  · obtain ⟨p, hp, hsub, hcounted, hfate⟩ := h.processed
    refine ⟨a :: p, ?_, hsub.cons_cons a, ?_, ?_⟩
    · rw [hp, List.append_assoc]
      rfl
    · rw [List.filter_cons_of_neg (by simpa using by omega)]
      exact hcounted
    · grind

theorem cons_waiting (h : Advances isResendAction l
      { s with minLocalSeqOut := min s.minLocalSeqOut a.seqOut } r)
    (hahead : s.nextExpectedSeqOut < a.seqOut) (hresend : isResendAction a.action = false)
    (hsorted : ∀ b ∈ l, a.seqOut ≤ b.seqOut) : Advances isResendAction (a :: l) s r := by
  have hnext : r.nextExpectedSeqOut = s.nextExpectedSeqOut := h.next_eq_of_ahead hahead hsorted
  refine
    { h with
      present := fun j hlo hhi => by omega
      absent := ?_
      removed := ?_
      processed := ?_ }
  · grind
  · have hnot : taken isResendAction r.nextExpectedSeqOut a = false := by
      simp only [taken, hresend, Bool.or_false, decide_eq_false_iff_not]
      omega
    rw [List.filter_cons_of_neg (by rw [hnot]; decide)]
    exact h.removed
  · obtain ⟨p, hp, hsub, hcounted, hfate⟩ := h.processed
    exact ⟨p, hp, hsub.cons a, hcounted, hfate⟩

end Advances

variable {s : Scan δ}

theorem Scan.visit_of_layer {isResendAction : IncomingAction δ → Bool}
    (hlayer : 17 ≤ s.currentPeerLayer) (a : StoredAction δ) :
    Scan.visit isResendAction s a = Scan.compare isResendAction
      { s with minLocalSeqOut := min s.minLocalSeqOut a.seqOut } a := by
  unfold Scan.visit
  rw [if_pos hlayer]

/-- From layer 17 on the loop takes the actions in the order of their numbers. -/
theorem advances_foldl (isResendAction : IncomingAction δ → Bool) :
    ∀ (l : List (StoredAction δ)) (s : Scan δ), l.Pairwise (fun a b => a.seqOut ≤ b.seqOut) →
      17 ≤ s.currentPeerLayer →
      Advances isResendAction l s (l.foldl (Scan.visit isResendAction) s) := by
  intro l
  induction l with
  | nil => intro s _ _; exact Advances.nil s
  | cons a l ih =>
    intro s hsorted hlayer
    obtain ⟨hfirst, hsorted⟩ := List.pairwise_cons.1 hsorted
    rw [List.foldl_cons, Scan.visit_of_layer hlayer]
    unfold Scan.compare
    dsimp only
    split_ifs with heq hlt hresend
    · exact Advances.cons_next (ih _ hsorted (by exact hlayer)) heq
    · exact Advances.cons_old (ih _ hsorted (by exact hlayer)) hlt
    · have hahead : s.nextExpectedSeqOut < a.seqOut := by omega
      exact Advances.cons_resend (ih _ hsorted (by exact hlayer)) hahead hresend hfirst
    · have hahead : s.nextExpectedSeqOut < a.seqOut := by omega
      exact Advances.cons_waiting (ih _ hsorted (by exact hlayer)) hahead
        (Bool.not_eq_true _ ▸ hresend) hfirst

variable {a : StoredAction δ}

section Unnumbered

variable {isResendAction : IncomingAction δ → Bool}

theorem visit_unnumbered (hlayer : s.currentPeerLayer < 17)
    (ha : ¬ Numbered a) : Scan.visit isResendAction s a =
      { s with actionsToProcess := s.actionsToProcess ++ [a] } := by
  have ha' : ¬ 17 ≤ a.action.layer := ha
  unfold Scan.visit
  rw [if_neg (Nat.not_le_of_lt hlayer), if_neg ha']

theorem foldl_unnumbered : ∀ (l : List (StoredAction δ)) (s : Scan δ), s.currentPeerLayer < 17 →
    (∀ a ∈ l, ¬ Numbered a) →
      l.foldl (Scan.visit isResendAction) s =
        { s with actionsToProcess := s.actionsToProcess ++ l } := by
  intro l
  induction l with
  | nil => intro s _ _; rw [List.append_nil]; rfl
  | cons a l ih =>
    grind [visit_unnumbered]

theorem visit_numbered (hlayer : s.currentPeerLayer < 17)
    (ha : Numbered a) : Scan.visit isResendAction s a =
      Scan.visit isResendAction { s with currentPeerLayer := a.action.layer } a := by
  have ha' : 17 ≤ a.action.layer := ha
  rw [Scan.visit_of_layer (s := { s with currentPeerLayer := a.action.layer }) ha']
  unfold Scan.visit
  rw [if_neg (by omega), if_pos ha']

end Unnumbered

theorem pairwise_mergedActions (decrypt : ε → Option (IncomingAction δ)) (dequeued : Dequeued δ ε) :
    (mergedActions decrypt dequeued).Pairwise fun a b => a.seqOut ≤ b.seqOut := by
  have htotal : Std.Total (StoredAction.Precedes (δ := δ)) :=
    ⟨by intro a b; unfold StoredAction.Precedes; omega⟩
  have htrans : IsTrans (StoredAction δ) StoredAction.Precedes :=
    ⟨by intro a b c; unfold StoredAction.Precedes; omega⟩
  apply (List.pairwise_insertionSort StoredAction.Precedes _).imp
  intro a b h
  unfold StoredAction.Precedes at h
  omega

theorem mem_mergedActions {decrypt : ε → Option (IncomingAction δ)} {dequeued : Dequeued δ ε}
    : a ∈ mergedActions decrypt dequeued ↔
      a ∈ genericActions dequeued.actions ∨
        a ∈ addedDecryptedActions decrypt dequeued.encryptedActions := by
  unfold mergedActions
  rw [(List.perm_insertionSort _ _).mem_iff, List.mem_append]

theorem mem_removeActionIds {value : Nat} :
    value ∈ s.removeActionIds ↔ ActionId.generic value ∈ s.removedIds := by
  unfold Scan.removeActionIds
  rw [List.mem_filterMap]
  constructor
  · rintro ⟨id, hid, hvalue⟩
    cases id with
    | generic v => cases hvalue; exact hid
    | encrypted v => cases hvalue
  · intro h
    exact ⟨_, h, rfl⟩

theorem mem_removeEncryptedActionIds {value : Nat} :
    value ∈ s.removeEncryptedActionIds ↔ ActionId.encrypted value ∈ s.removedIds := by
  unfold Scan.removeEncryptedActionIds
  rw [List.mem_filterMap]
  constructor
  · rintro ⟨id, hid, hvalue⟩
    cases id with
    | generic v => cases hvalue
    | encrypted v => cases hvalue; exact hid
  · intro h
    exact ⟨_, h, rfl⟩

theorem mem_genericActions {rows : List (Row (IncomingAction δ))} :
    a ∈ genericActions rows ↔ ∃ row ∈ rows, a = ⟨.generic row.id, row.value⟩ := by
  unfold genericActions
  rw [List.mem_map]
  exact exists_congr fun row => and_congr_right fun _ => eq_comm

theorem mem_addedDecryptedActions {decrypt : ε → Option (IncomingAction δ)} {rows : List (Row ε)}
    : a ∈ addedDecryptedActions decrypt rows ↔
      ∃ row ∈ rows, decrypt row.value = some a.action ∧ a.actionId = .encrypted row.id := by
  unfold addedDecryptedActions
  rw [List.mem_filterMap]
  constructor
  · rintro ⟨row, hrow, hmap⟩
    obtain ⟨action, haction, rfl⟩ := Option.map_eq_some_iff.1 hmap
    exact ⟨row, hrow, haction, rfl⟩
  · rintro ⟨row, hrow, haction, hid⟩
    refine ⟨row, hrow, ?_⟩
    rw [haction, Option.map_some, ← hid]

theorem eq_of_actionId_eq {decrypt : ε → Option (IncomingAction δ)} {chat : Chat δ ε}
    {a b : StoredAction δ} (ha : a ∈ mergedActions decrypt (dequeuePeerIncomingActions chat))
    (hb : b ∈ mergedActions decrypt (dequeuePeerIncomingActions chat))
    (h : a.actionId = b.actionId) : a = b := by
  rcases mem_mergedActions.1 ha with ha | ha <;> rcases mem_mergedActions.1 hb with hb | hb
  · obtain ⟨row, hrow, rfl⟩ := mem_genericActions.1 ha
    obtain ⟨row', hrow', rfl⟩ := mem_genericActions.1 hb
    rw [RowTable.eq_of_id_eq hrow hrow' (ActionId.generic.inj h)]
  · obtain ⟨row, hrow, rfl⟩ := mem_genericActions.1 ha
    obtain ⟨row', hrow', -, hid⟩ := mem_addedDecryptedActions.1 hb
    cases h.trans hid
  · obtain ⟨row, hrow, -, hid⟩ := mem_addedDecryptedActions.1 ha
    obtain ⟨row', hrow', rfl⟩ := mem_genericActions.1 hb
    cases h.symm.trans hid
  · obtain ⟨row, hrow, hvalue, hid⟩ := mem_addedDecryptedActions.1 ha
    obtain ⟨row', hrow', hvalue', hid'⟩ := mem_addedDecryptedActions.1 hb
    have hsame : row = row' :=
      RowTable.eq_of_id_eq hrow hrow' (ActionId.encrypted.inj (hid.symm.trans (h.trans hid')))
    rw [hsame, hvalue'] at hvalue
    obtain ⟨actionId, action⟩ := a
    obtain ⟨actionId', action'⟩ := b
    rw [StoredAction.mk.injEq]
    exact ⟨h, (Option.some_inj.1 hvalue).symm⟩

end TelegramPub.Ports.SecretIncoming
