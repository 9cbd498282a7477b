import TelegramPub.Ports.SecretHistory
import Mathlib.Data.List.Induction

/-!
# In-sequence actions in one poll and in several

The actions of a peer are in sequence if their numbers continue the chat.  However they
come, one poll over all of them processes them in their order, and so do polls after each;
nothing is left in the tables (`pollOnce_eq`, `pollEach_eq`).
-/

namespace TelegramPub.Ports.SecretHistory

open Verified Ports.SecretIncoming

variable {δ ε β : Type}

/-- The action of an arrival, if it can be decrypted. -/
def Arrival.action? (decrypt : ε → Option (IncomingAction δ)) :
    Arrival δ ε → Option (IncomingAction δ)
  | .decrypted action => some action
  | .encrypted action => decrypt action

/-- The arrivals are these actions, whose numbers continue the chat. -/
structure InSequence (decrypt : ε → Option (IncomingAction δ)) (next : Nat)
    (arrivals : List (Arrival δ ε)) (actions : List (IncomingAction δ)) : Prop where
  decrypted : arrivals.map (Arrival.action? decrypt) = actions.map some
  numbered : ∀ a ∈ actions, 17 ≤ a.layer
  counted : Counted next (next + actions.length) (actions.map fun a => a.seqOut.1)

/-- Nothing waits. -/
def Client.Idle (c : Client δ ε β) : Prop :=
  c.chat.incoming.rows = [] ∧ c.chat.incomingEncrypted.rows = []

section Scan

variable {isResendAction : IncomingAction δ → Bool} {notifiedLayer : IncomingAction δ → Nat}
  {decrypt : ε → Option (IncomingAction δ)}

theorem counted_lt : ∀ {ns : List Int} {first next : Int}, Counted first next ns →
    ns.Pairwise (· < ·) ∧ ∀ n ∈ ns, first ≤ n := by
  intro ns
  induction ns with
  | nil => intro first next _; exact ⟨List.Pairwise.nil, by simp⟩
  | cons n ns ih =>
    intro first next h
    obtain ⟨hfirst, hrest⟩ := h
    obtain ⟨hpairwise, hle⟩ := ih hrest
    constructor
    · refine List.pairwise_cons.2 ⟨fun n' hn' => ?_, hpairwise⟩
      have h := hle n' hn'
      omega
    · grind

/-- Actions in sequence are all processed. -/
theorem foldl_inSequence : ∀ (l : List (StoredAction δ)) (s : Scan δ) {next : Int},
    (∀ a ∈ l, 17 ≤ a.action.layer) → Counted s.nextExpectedSeqOut next (l.map (·.seqOut)) →
    let r := l.foldl (Scan.visit isResendAction) s
    r.actionsToProcess = s.actionsToProcess ++ l ∧ r.nextExpectedSeqOut = next ∧
      r.removeIds = s.removeIds := by
  intro l
  induction l with
  | nil => intro s next _ hcounted; exact ⟨(List.append_nil _).symm, hcounted, rfl⟩
  | cons a l ih =>
    intro s next hlayers hcounted
    obtain ⟨heq, hcounted⟩ := hcounted
    have hvisit : ∃ layer minLocalSeqOut, Scan.visit isResendAction s a =
        { s with
          currentPeerLayer := layer
          minLocalSeqOut := minLocalSeqOut
          actionsToProcess := s.actionsToProcess ++ [a]
          nextExpectedSeqOut := s.nextExpectedSeqOut + 1
          maxSeqIn := max s.maxSeqIn a.seqIn } := by
      unfold Scan.visit
      split
      · exact ⟨_, _, if_pos heq⟩
      · rw [if_pos (hlayers a (.head _))]
        exact ⟨_, _, if_pos heq⟩
    obtain ⟨layer, minLocalSeqOut, hvisit⟩ := hvisit
    rw [List.foldl_cons, hvisit]
    obtain ⟨hprocess, hnext, hremove⟩ := ih
      { s with
        currentPeerLayer := layer
        minLocalSeqOut := minLocalSeqOut
        actionsToProcess := s.actionsToProcess ++ [a]
        nextExpectedSeqOut := s.nextExpectedSeqOut + 1
        maxSeqIn := max s.maxSeqIn a.seqIn }
      (fun b hb => hlayers b (.tail a hb)) hcounted
    refine ⟨?_, hnext, hremove⟩
    rw [hprocess, List.append_assoc]
    rfl

theorem stored_arrivals (c : Client δ ε β) (hidle : c.Idle) :
    ∀ {arrivals : List (Arrival δ ε)} {actions : List (IncomingAction δ)},
      arrivals.map (Arrival.action? decrypt) = actions.map some →
      let c' := arrivals.foldl Client.store c
      c'.history = c.history ∧ c'.chat.seqIn = c.chat.seqIn ∧
      c'.chat.peerLayer = c.chat.peerLayer ∧
      (∀ row ∈ c'.chat.incomingEncrypted.rows, (decrypt row.value).isSome) ∧
      ∃ l : List (StoredAction δ), l.map (·.action) = actions ∧
        (genericActions c'.chat.incoming.rows ++
          addedDecryptedActions decrypt c'.chat.incomingEncrypted.rows).Perm l := by
  intro arrivals
  induction arrivals using List.reverseRecOn with
  | nil =>
    intro actions h
    have hnone : actions = [] := by
      cases actions with
      | nil => rfl
      | cons a l => cases h
    subst hnone
    refine ⟨rfl, rfl, rfl, ?_, [], rfl, ?_⟩
    · show ∀ row ∈ c.chat.incomingEncrypted.rows, _
      rw [hidle.2]
      simp
    · show List.Perm (genericActions c.chat.incoming.rows ++
        addedDecryptedActions decrypt c.chat.incomingEncrypted.rows) []
      rw [hidle.1, hidle.2]
      exact List.Perm.refl _
  | append_singleton arrivals arrival ih =>
    intro actions h
    rw [List.map_append, List.map_singleton] at h
    obtain ⟨front, back, rfl, hfront, hback⟩ := List.map_eq_append_iff.1 h.symm
    obtain ⟨action, rest, rfl, haction, hrest⟩ := List.map_eq_cons_iff.1 hback
    rw [List.map_eq_nil_iff.1 hrest]
    obtain ⟨hhistory, hseqIn, hlayer, hdecrypts, l, hl, hperm⟩ := ih hfront.symm
    intro c'
    have hc' : c' = (arrivals.foldl Client.store c).store arrival := by
      show (arrivals ++ [arrival]).foldl Client.store c = _
      rw [List.foldl_append]
      rfl
    rw [hc']
    cases arrival with
    | decrypted action' =>
      cases haction
      refine ⟨hhistory, hseqIn, hlayer, hdecrypts,
        l ++ [⟨.generic ((arrivals.foldl Client.store c).chat.incoming.lastId + 1), action⟩],
        by rw [List.map_append, hl]; rfl, ?_⟩
      simp only [Client.store, RowTable.rows_insert, genericActions, List.map_append,
        List.map_singleton]
      rw [List.append_assoc]
      exact ((List.Perm.append_left _ List.perm_append_comm).trans
        (List.append_assoc _ _ _ ▸ List.Perm.refl _)).trans (hperm.append_right _)
    | encrypted action' =>
      have hdecrypt : decrypt action' = some action := haction.symm
      refine ⟨hhistory, hseqIn, hlayer, ?_,
        l ++ [⟨.encrypted ((arrivals.foldl Client.store c).chat.incomingEncrypted.lastId + 1),
          action⟩], by rw [List.map_append, hl]; rfl, ?_⟩
      · intro row hrow
        rcases RowTable.mem_insert.1 hrow with hrow | rfl
        · exact hdecrypts row hrow
        · rw [hdecrypt]
          rfl
      · simp only [Client.store, RowTable.rows_insert, addedDecryptedActions,
          List.filterMap_append, List.filterMap_cons, List.filterMap_nil, hdecrypt,
          Option.map_some]
        rw [← List.append_assoc]
        exact hperm.append_right _

/-- The merged actions of arrivals in sequence are these in their order. -/
theorem mergedActions_eq {dequeued : Dequeued δ ε} {l : List (StoredAction δ)}
    (hperm : (genericActions dequeued.actions ++
      addedDecryptedActions decrypt dequeued.encryptedActions).Perm l)
    (hpairwise : (l.map (·.seqOut)).Pairwise (· < ·)) : mergedActions decrypt dequeued = l := by
  have hlt : l.Pairwise fun a b => a.seqOut < b.seqOut := List.pairwise_map.1 hpairwise
  have hmerged : (mergedActions decrypt dequeued).Perm l :=
    (List.perm_insertionSort _ _).trans hperm
  have hle : l.Pairwise fun a b => a.seqOut ≤ b.seqOut := hlt.imp fun h => h.le
  refine hmerged.eq_of_pairwise ?_ (pairwise_mergedActions decrypt dequeued) hle
  intro a b ha hb hab hba
  exact List.inj_on_of_nodup_map (hpairwise.imp ne_of_lt) (hmerged.mem_iff.1 ha) hb
    (le_antisymm hab hba)

end Scan

section Poll

variable (peerId : Int) (parser : Parser δ β) (isResendAction : IncomingAction δ → Bool)
  (notifiedLayer : IncomingAction δ → Nat) (decrypt : ε → Option (IncomingAction δ))

/-- One poll processes all actions in their order, and nothing waits any more. -/
theorem pollOnce_eq {c : Client δ ε β} (hidle : c.Idle) {arrivals : List (Arrival δ ε)}
    {actions : List (IncomingAction δ)}
    (h : InSequence decrypt c.chat.seqIn arrivals actions) :
    let c' := c.pollOnce peerId parser isResendAction notifiedLayer decrypt arrivals
    c'.history = processMessages peerId parser c.history actions ∧ c'.Idle ∧
      c'.chat.seqIn = c.chat.seqIn + actions.length := by
  obtain ⟨hhistory, hseqIn, hlayer, hdecrypts, l, hl, hperm⟩ :=
    @stored_arrivals δ ε β decrypt c hidle arrivals actions h.decrypted
  have hseqOuts : l.map (·.seqOut) = actions.map fun a => a.seqOut.1 := by
    rw [← hl, List.map_map]
    rfl
  have hcounted := h.counted
  rw [← hseqOuts] at hcounted
  have hmerged : mergedActions decrypt
      (dequeuePeerIncomingActions (arrivals.foldl Client.store c).chat) = l :=
    mergedActions_eq hperm (counted_lt hcounted).1
  have hlayers : ∀ a ∈ l, 17 ≤ a.action.layer :=
    fun a ha => h.numbered a.action (hl ▸ List.mem_map_of_mem ha)
  obtain ⟨hprocess, hnext, hremove⟩ := @foldl_inSequence δ isResendAction l
    { currentPeerLayer := (arrivals.foldl Client.store c).chat.peerLayer
      nextExpectedSeqOut := (arrivals.foldl Client.store c).chat.seqIn }
    _ hlayers (by rw [hseqIn]; exact hcounted)
  have hscan : scanActions isResendAction decrypt (arrivals.foldl Client.store c).chat.peerLayer
      (dequeuePeerIncomingActions (arrivals.foldl Client.store c).chat) =
      l.foldl (Scan.visit isResendAction)
        { currentPeerLayer := (arrivals.foldl Client.store c).chat.peerLayer
          nextExpectedSeqOut := (arrivals.foldl Client.store c).chat.seqIn } := by
    unfold scanActions
    rw [hmerged]
    rfl
  intro c'
  have hc' : c' = (arrivals.foldl Client.store c).poll peerId parser isResendAction notifiedLayer
    decrypt := rfl
  rw [hc']
  unfold Client.poll processActions
  dsimp only
  rw [hscan]
  generalize hr : l.foldl (Scan.visit isResendAction) _ = r at *
  rw [List.nil_append] at hprocess
  have hids : r.removedIds = l.map (·.actionId) := by
    unfold Scan.removedIds
    rw [hremove, hprocess, List.nil_append]
  refine ⟨?_, ⟨?_, ?_⟩, ?_⟩
  · rw [hhistory, hprocess, hl]
  · rw [List.eq_nil_iff_forall_not_mem]
    intro row hrow
    obtain ⟨hrow, hkept⟩ := RowTable.mem_deleteIds.1 hrow
    refine hkept (mem_removeActionIds.2 ?_)
    rw [hids]
    exact List.mem_map_of_mem (hperm.mem_iff.1 (List.mem_append_left _
      (mem_genericActions.2 ⟨row, hrow, rfl⟩)))
  · rw [List.eq_nil_iff_forall_not_mem]
    intro row hrow
    obtain ⟨hrow, hkept⟩ := RowTable.mem_deleteIds.1 hrow
    obtain ⟨action, haction⟩ := Option.isSome_iff_exists.1 (hdecrypts row hrow)
    have hmem : (⟨.encrypted row.id, action⟩ : StoredAction δ) ∈ l :=
      hperm.mem_iff.1 (List.mem_append_right _
        (mem_addedDecryptedActions.2 ⟨row, hrow, haction, rfl⟩))
    refine hkept (mem_removeEncryptedActionIds.2 ?_)
    rw [hids]
    exact List.mem_map.2 ⟨_, hmem, rfl⟩
  · grind

theorem pollEach_eq : ∀ {arrivals : List (Arrival δ ε)} {actions : List (IncomingAction δ)}
    {c : Client δ ε β}, c.Idle → InSequence decrypt c.chat.seqIn arrivals actions →
    (c.pollEach peerId parser isResendAction notifiedLayer decrypt arrivals).history =
      actions.foldl (fun h a => processMessages peerId parser h [a]) c.history := by
  intro arrivals
  induction arrivals with
  | nil =>
    intro actions c _ h
    have hnone : actions = [] := List.map_eq_nil_iff.1 h.decrypted.symm
    rw [hnone]
    rfl
  | cons arrival arrivals ih =>
    intro actions c hidle h
    cases actions with
    | nil => exact absurd h.decrypted (by simp)
    | cons a actions =>
      obtain ⟨hfirst, hrest⟩ := List.cons_eq_cons.1 h.decrypted
      obtain ⟨hnumber, hcounted⟩ := h.counted
      have hone : InSequence decrypt c.chat.seqIn [arrival] [a] :=
        { decrypted := by rw [List.map_singleton, hfirst]; rfl
          numbered := fun b hb => h.numbered b (List.mem_cons.2 (.inl
            (List.mem_singleton.1 hb)))
          counted := ⟨hnumber, by simp [Counted]⟩ }
      obtain ⟨hhistory, hidle', hseqIn⟩ :=
        pollOnce_eq peerId parser isResendAction notifiedLayer decrypt hidle hone
      have hlater : InSequence decrypt (c.pollOnce peerId parser isResendAction notifiedLayer
          decrypt [arrival]).chat.seqIn arrivals actions :=
        { decrypted := hrest
          numbered := fun b hb => h.numbered b (.tail a hb)
          counted := by
            rw [hseqIn]
            have hnext : (c.chat.seqIn : Int) + ((a :: actions).length : Nat) =
                ((c.chat.seqIn + [a].length : Nat) : Int) + actions.length := by
              simp only [List.length_cons, List.length_nil]
              omega
            rw [hnext] at hcounted
            simpa using hcounted }
      have hall := ih hidle' hlater
      rw [hhistory] at hall
      exact hall

end Poll

end TelegramPub.Ports.SecretHistory
