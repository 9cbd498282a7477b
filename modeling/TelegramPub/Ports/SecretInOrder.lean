import TelegramPub.Ports.SecretResend
import TelegramPub.Verified.Machine

/-!
# Processing in order, and once

A secret chat is driven by arrivals, reads of the tables and runs on what has been read.
`in_order_exactly_once` is about the runs in which

* no read comes before the last one has been worked off,
* no action of a layer below 17 is compared with the expected number: it has no number,
* no number is negative,
* and no request to send again is ahead of the chat.

There the numbered actions are processed in the order of their numbers, from 0 on and
without a gap, the next expected number counts them, and no row is deleted whose action
has not been processed, itself or in another copy.  `disorders` has a run for each of the
four conditions.
-/

namespace TelegramPub.Ports.SecretInOrder

open Verified Verified.Machine Ports.SecretIncoming Ports.SecretResend

variable {δ ε : Type}

/-- A chat, the reads that wait on the stage queue, and what has been done so far. -/
structure Session (δ ε : Type) where
  chat : Chat δ ε
  waiting : List (Dequeued δ ε)
  processed : List (StoredAction δ)
  deleted : List (StoredAction δ)

/-- What can happen: something is stored, `_poll` reads the tables, and a completion runs on
the stage queue with the keys that are there by then. -/
inductive Event (δ ε : Type) where
  | enqueue (action : IncomingAction δ)
  | enqueueEncrypted (action : ε)
  | dequeue
  | process (decrypt : ε → Option (IncomingAction δ))

/-- A new chat. -/
def Session.initial : Session δ ε where
  chat :=
    { incoming := RowTable.empty, incomingEncrypted := RowTable.empty, seqIn := 0, peerLayer := 1 }
  waiting := []
  processed := []
  deleted := []

section Steps

variable (isResendAction : IncomingAction δ → Bool) (notifiedLayer : IncomingAction δ → Nat)

/-- The completion of a read: what it processes, and the decrypted actions whose rows it
deletes. -/
def Session.complete (s : Session δ ε) (decrypt : ε → Option (IncomingAction δ))
    (dequeued : Dequeued δ ε) (rest : List (Dequeued δ ε)) : Session δ ε :=
  let scan := scanActions isResendAction decrypt s.chat.peerLayer dequeued
  { chat := processActions isResendAction decrypt notifiedLayer s.chat dequeued
    waiting := rest
    processed := s.processed ++ scan.actionsToProcess
    deleted := s.deleted ++ (decoded decrypt s.chat).filter (·.actionId ∈ scan.removedIds) }

def step (s : Session δ ε) : Event δ ε → Session δ ε
  | .enqueue action =>
    { s with chat := { s.chat with incoming := s.chat.incoming.insert action } }
  | .enqueueEncrypted action =>
    { s with chat := { s.chat with incomingEncrypted := s.chat.incomingEncrypted.insert action } }
  | .dequeue => { s with waiting := s.waiting ++ [dequeuePeerIncomingActions s.chat] }
  | .process decrypt =>
    match s.waiting with
    | [] => s
    | dequeued :: rest => s.complete isResendAction notifiedLayer decrypt dequeued rest

/-- The numbered actions have been processed in order, each once, and are counted; what has
been deleted has been processed, or a copy of it. -/
def InOrder (s : Session δ ε) : Prop :=
  (s.processed.filter (Numbered ·)).map (·.seqOut) =
      (List.range s.chat.seqIn).map (fun n : Nat => (n : Int)) ∧
    ∀ a ∈ s.deleted, a ∈ s.processed ∨ Numbered a ∧
      ∃ b ∈ s.processed, Numbered b ∧ b.seqOut = a.seqOut

instance [DecidableEq δ] (s : Session δ ε) : Decidable (InOrder s) :=
  inferInstanceAs (Decidable (_ ∧ _))

/-- The condition on the actions of one run. -/
structure Orderly (peerLayer nextExpectedSeqOut : Nat) (l : List (StoredAction δ)) : Prop where
  numbered : 17 ≤ peerLayer → ∀ a ∈ l, Numbered a
  numbered_last : l.Pairwise fun a b => Numbered a → Numbered b
  nonneg : ∀ a ∈ l, Numbered a → 0 ≤ a.seqOut
  resend_in_turn : ∀ a ∈ l, Numbered a → isResendAction a.action = true →
    GapFree (l.filter (Numbered ·)) nextExpectedSeqOut a.seqOut

/-- The condition on one step. -/
def OrderlyStep (s : Session δ ε) : Event δ ε → Prop
  | .enqueue _ => True
  | .enqueueEncrypted _ => True
  | .dequeue => s.waiting = []
  | .process decrypt => ∀ dequeued ∈ s.waiting.head?,
      Orderly isResendAction s.chat.peerLayer dequeued.nextExpectedSeqOut
        (mergedActions decrypt dequeued)

instance (l : List (StoredAction δ)) (first last : Int) : Decidable (GapFree l first last) :=
  decidable_of_iff (∀ k < (last + 1 - first).toNat, ∃ a ∈ l, a.seqOut = first + (k : Nat)) <| by
    constructor
    · intro h j hfirst hlast
      obtain ⟨a, ha, hj⟩ := h (j - first).toNat (by omega)
      exact ⟨a, ha, by omega⟩
    · exact fun h k hk => h _ (by omega) (by omega)

instance (peerLayer nextExpectedSeqOut : Nat) (l : List (StoredAction δ)) :
    Decidable (Orderly isResendAction peerLayer nextExpectedSeqOut l) :=
  decidable_of_iff
    ((17 ≤ peerLayer → ∀ a ∈ l, Numbered a) ∧
      (l.Pairwise fun a b => Numbered a → Numbered b) ∧ (∀ a ∈ l, Numbered a → 0 ≤ a.seqOut) ∧
      ∀ a ∈ l, Numbered a → isResendAction a.action = true →
        GapFree (l.filter (Numbered ·)) nextExpectedSeqOut a.seqOut)
    ⟨fun ⟨h₁, h₂, h₃, h₄⟩ => ⟨h₁, h₂, h₃, h₄⟩, fun ⟨h₁, h₂, h₃, h₄⟩ => ⟨h₁, h₂, h₃, h₄⟩⟩

instance (s : Session δ ε) : ∀ e, Decidable (OrderlyStep isResendAction s e)
  | .enqueue _ | .enqueueEncrypted _ => isTrue trivial
  | .dequeue => inferInstanceAs (Decidable (s.waiting = []))
  | .process _ => inferInstanceAs (Decidable (∀ dequeued ∈ s.waiting.head?, _))

variable {isResendAction notifiedLayer}

theorem exists_split : ∀ {l : List (StoredAction δ)},
    (l.Pairwise fun a b => Numbered a → Numbered b) →
      ∃ front back, l = front ++ back ∧ (∀ a ∈ front, ¬ Numbered a) ∧ ∀ a ∈ back, Numbered a := by
  intro l
  induction l with
  | nil => intro _; exact ⟨[], [], rfl, by simp, by simp⟩
  | cons a l ih =>
    intro h
    obtain ⟨hfirst, hrest⟩ := List.pairwise_cons.1 h
    by_cases ha : Numbered a
    · refine ⟨[], a :: l, rfl, by simp, ?_⟩
      intro b hb
      rcases List.mem_cons.1 hb with rfl | hb
      · exact ha
      · exact hfirst b hb ha
    · grind

/-- An orderly run: the actions without a number are processed first, and the others are
taken in the order of their numbers. -/
theorem scanActions_orderly {decrypt : ε → Option (IncomingAction δ)} {peerLayer : Nat}
    {dequeued : Dequeued δ ε} (h : Orderly isResendAction peerLayer dequeued.nextExpectedSeqOut
      (mergedActions decrypt dequeued)) :
    ∃ (front back : List (StoredAction δ)) (s : Scan δ),
      mergedActions decrypt dequeued = front ++ back ∧
      (∀ a ∈ front, ¬ Numbered a) ∧ (∀ a ∈ back, Numbered a) ∧
      s.nextExpectedSeqOut = (dequeued.nextExpectedSeqOut : Int) ∧ s.actionsToProcess = front ∧
      s.removeIds = [] ∧
      Advances isResendAction back s (scanActions isResendAction decrypt peerLayer dequeued) := by
  have hsorted := pairwise_mergedActions decrypt dequeued
  obtain ⟨front, back, hsplit, hfront, hback⟩ := exists_split h.numbered_last
  rw [hsplit] at hsorted
  have hbackSorted := (List.pairwise_append.1 hsorted).2.1
  unfold scanActions
  rw [hsplit, List.foldl_append]
  by_cases hlayer : 17 ≤ peerLayer
  · have hnone : front = [] := by
      rw [List.eq_nil_iff_forall_not_mem]
      intro a ha
      exact hfront a ha (h.numbered hlayer a (hsplit ▸ List.mem_append_left back ha))
    subst hnone
    exact ⟨[], back, _, rfl, hfront, hback, rfl, rfl, rfl,
      advances_foldl isResendAction back _ hbackSorted (by exact hlayer)⟩
  · rw [foldl_unnumbered front _ (by exact Nat.lt_of_not_le hlayer) hfront]
    cases back with
    | nil => exact ⟨front, [], _, rfl, hfront, hback, rfl, rfl, rfl, Advances.nil _⟩
    | cons a back =>
      have ha : Numbered a := hback a (List.mem_cons_self ..)
      rw [List.foldl_cons, visit_numbered (by exact Nat.lt_of_not_le hlayer) ha,
        ← List.foldl_cons]
      exact ⟨front, a :: back, _, rfl, hfront, hback, rfl, rfl, rfl,
        advances_foldl isResendAction _ _ hbackSorted (by exact ha)⟩

section Run

variable {decrypt : ε → Option (IncomingAction δ)} {peerLayer : Nat} {dequeued : Dequeued δ ε}

/-- In an orderly run no request to send again is left ahead. -/
theorem lt_next_of_resend {back : List (StoredAction δ)} {s r : Scan δ} {a : StoredAction δ}
    (hadvances : Advances isResendAction back s r)
    (hgap : GapFree back s.nextExpectedSeqOut a.seqOut) (ha : a ∈ back) :
    a.seqOut < r.nextExpectedSeqOut := by
  have habsent := hadvances.absent a ha
  by_contra hahead
  obtain ⟨b, hb, hnumber⟩ := hgap r.nextExpectedSeqOut hadvances.le (by omega)
  exact hadvances.absent b hb hnumber

/-- What an orderly run does: the numbered actions that it processes continue the chat, and
what it removes it has processed, or its number is old. -/
theorem orderly_run (h : Orderly isResendAction peerLayer dequeued.nextExpectedSeqOut
      (mergedActions decrypt dequeued)) :
    let r := scanActions isResendAction decrypt peerLayer dequeued
    Counted dequeued.nextExpectedSeqOut r.nextExpectedSeqOut
        ((r.actionsToProcess.filter (Numbered ·)).map (·.seqOut)) ∧
      (∀ id ∈ r.removedIds, ∃ a ∈ mergedActions decrypt dequeued, a.actionId = id ∧
        (a ∈ r.actionsToProcess ∨ Numbered a ∧ 0 ≤ a.seqOut ∧
          a.seqOut < r.nextExpectedSeqOut)) ∧
      (dequeued.nextExpectedSeqOut : Int) ≤ r.nextExpectedSeqOut := by
  obtain ⟨front, back, s, hsplit, hfront, hback, hnext, hprocess, hremove, hadvances⟩ :=
    scanActions_orderly h
  intro r
  have hnumbered : (mergedActions decrypt dequeued).filter (Numbered ·) = back := by
    rw [hsplit, List.filter_append, List.filter_eq_nil_iff.2 (by simpa using hfront),
      List.filter_eq_self.2 (by simpa using hback), List.nil_append]
  have hresend : ∀ a ∈ back, isResendAction a.action = true → a.seqOut < r.nextExpectedSeqOut := by
    intro a ha hisResend
    have hmem : a ∈ mergedActions decrypt dequeued := hsplit ▸ List.mem_append_right front ha
    have hgap := h.resend_in_turn a hmem (hback a ha) hisResend
    rw [hnumbered, ← hnext] at hgap
    exact lt_next_of_resend hadvances hgap ha
  obtain ⟨p, hp, hsub, hcounted, hfate⟩ := hadvances.processed
  rw [hprocess] at hp
  refine ⟨?_, ?_, hnext ▸ hadvances.le⟩
  · have hall : p.filter (·.seqOut < r.nextExpectedSeqOut) = p := by
      rw [List.filter_eq_self]
      intro a ha
      rw [decide_eq_true_eq]
      rcases hfate a ha with hlt | ⟨hisResend, -⟩
      · exact hlt
      · exact hresend a (hsub.subset ha) hisResend
    have hprocessed : r.actionsToProcess.filter (Numbered ·) = p := by
      rw [hp, List.filter_append, List.filter_eq_nil_iff.2 (by simpa using hfront),
        List.filter_eq_self.2 (by simpa using fun a ha => hback a (hsub.subset ha)),
        List.nil_append]
    rw [hprocessed, ← hnext, ← hall]
    exact hcounted
  · intro id hid
    have hids : id ∈ s.removedIds ∨
        id ∈ (back.filter (taken isResendAction r.nextExpectedSeqOut)).map (·.actionId) :=
      List.mem_append.1 (hadvances.removed.mem_iff.1 hid)
    rcases hids with hold | hnew
    · unfold Scan.removedIds at hold
      rw [hremove, hprocess, List.nil_append] at hold
      obtain ⟨a, ha, rfl⟩ := List.mem_map.1 hold
      exact ⟨a, hsplit ▸ List.mem_append_left back ha, rfl,
        .inl (hp ▸ List.mem_append_left p ha)⟩
    · obtain ⟨a, ha, rfl⟩ := List.mem_map.1 hnew
      obtain ⟨ha, htaken⟩ := List.mem_filter.1 ha
      have hmem : a ∈ mergedActions decrypt dequeued := hsplit ▸ List.mem_append_right front ha
      refine ⟨a, hmem, rfl, .inr ⟨hback a ha, h.nonneg a hmem (hback a ha), ?_⟩⟩
      unfold taken at htaken
      rw [Bool.or_eq_true, decide_eq_true_eq] at htaken
      exact htaken.elim id (hresend a ha)

end Run

theorem Counted.le :
    ∀ {xs : List Int} {first next : Int}, Counted first next xs → first ≤ next := by
  intro xs
  induction xs with
  | nil => intro first next h; exact le_of_eq h
  | cons x xs ih => intro first next h; have hle := ih h.2; omega

theorem counted_iff : ∀ {xs : List Int} {first : Int} {count : Nat},
    Counted first (first + count) xs ↔
      xs = (List.range count).map (fun n : Nat => first + (n : Int)) := by
  intro xs
  induction xs with
  | nil =>
    intro first count
    rw [eq_comm, List.map_eq_nil_iff, List.range_eq_nil]
    change first = first + (count : Int) ↔ count = 0
    omega
  | cons x xs ih =>
    intro first count
    cases count with
    | zero =>
      refine ⟨fun h => ?_, fun h => by cases h⟩
      have hle := Counted.le h.2
      simp at hle
    | succ count =>
      have hnext : first + ((count + 1 : Nat) : Int) = first + 1 + (count : Int) := by omega
      have hshift : (List.range (count + 1)).map (fun n : Nat => first + (n : Int)) =
          first :: (List.range count).map (fun n : Nat => first + 1 + (n : Int)) := by
        rw [List.range_succ_eq_map, List.map_cons, List.map_map]
        congr 1
        · simp
        · apply List.map_congr_left
          intro n _
          simp only [Function.comp_apply, Nat.succ_eq_add_one]
          omega
      rw [hshift, List.cons.injEq, ← ih, ← hnext]
      exact Iff.rfl

theorem counted_zero_iff {xs : List Int} {count : Nat} :
    Counted 0 count xs ↔ xs = (List.range count).map (fun n : Nat => (n : Int)) := by
  have h : Counted 0 (0 + count) xs ↔ _ := counted_iff
  simp only [zero_add] at h
  exact h

/-- What every orderly run keeps: beside the order, a read that waits is of the rows and of
the number that are still there. -/
structure Inv (s : Session δ ε) : Prop where
  counted : Counted 0 s.chat.seqIn ((s.processed.filter (Numbered ·)).map (·.seqOut))
  deleted : ∀ a ∈ s.deleted, a ∈ s.processed ∨ Numbered a ∧
    ∃ b ∈ s.processed, Numbered b ∧ b.seqOut = a.seqOut
  current : ∀ d ∈ s.waiting, d.nextExpectedSeqOut = s.chat.seqIn ∧
    d.actions ⊆ s.chat.incoming.rows ∧ d.encryptedActions ⊆ s.chat.incomingEncrypted.rows
  single : s.waiting.length ≤ 1

theorem inv_initial : Inv (Session.initial : Session δ ε) where
  counted := rfl
  deleted := fun _ ha => absurd ha List.not_mem_nil
  current := fun _ hd => absurd hd List.not_mem_nil
  single := Nat.zero_le 1

theorem mergedActions_subset {decrypt : ε → Option (IncomingAction δ)} {chat : Chat δ ε}
    {d : Dequeued δ ε} (hactions : d.actions ⊆ chat.incoming.rows)
    (hencrypted : d.encryptedActions ⊆ chat.incomingEncrypted.rows) :
    mergedActions decrypt d ⊆ decoded decrypt chat := by
  intro a ha
  apply mem_mergedActions.2
  rcases mem_mergedActions.1 ha with hgeneric | hadded
  · obtain ⟨row, hrow, rfl⟩ := mem_genericActions.1 hgeneric
    exact .inl (mem_genericActions.2 ⟨row, hactions hrow, rfl⟩)
  · obtain ⟨row, hrow, hvalue, hid⟩ := mem_addedDecryptedActions.1 hadded
    exact .inr (mem_addedDecryptedActions.2 ⟨row, hencrypted hrow, hvalue, hid⟩)

/-- All numbers below the next expected one have been processed. -/
theorem exists_processed {processed : List (StoredAction δ)} {next : Nat}
    (h : Counted 0 next ((processed.filter (Numbered ·)).map (·.seqOut))) {n : Int}
    (hlo : 0 ≤ n) (hhi : n < next) : ∃ b ∈ processed, Numbered b ∧ b.seqOut = n := by
  have hmem : n ∈ (processed.filter (Numbered ·)).map (·.seqOut) := by
    rw [counted_zero_iff.1 h, List.mem_map]
    exact ⟨n.toNat, List.mem_range.2 (by omega), Int.toNat_of_nonneg hlo⟩
  obtain ⟨b, hb, hnumber⟩ := List.mem_map.1 hmem
  obtain ⟨hb, hnumbered⟩ := List.mem_filter.1 hb
  exact ⟨b, hb, of_decide_eq_true hnumbered, hnumber⟩

theorem Inv.complete {s : Session δ ε} (h : Inv s) {decrypt : ε → Option (IncomingAction δ)}
    {d : Dequeued δ ε} {rest : List (Dequeued δ ε)} (hwaiting : s.waiting = d :: rest)
    (horderly : Orderly isResendAction s.chat.peerLayer d.nextExpectedSeqOut
      (mergedActions decrypt d)) :
    Inv (s.complete isResendAction notifiedLayer decrypt d rest) := by
  obtain ⟨hnext, hactions, hencrypted⟩ :=
    h.current d (by rw [hwaiting]; exact .head _)
  obtain ⟨hcounted, hremoved, hle⟩ := orderly_run horderly
  have hseqIn : ((s.complete isResendAction notifiedLayer decrypt d rest).chat.seqIn : Int) =
      (scanActions isResendAction decrypt s.chat.peerLayer d).nextExpectedSeqOut := by
    change ((scanActions isResendAction decrypt s.chat.peerLayer d).nextExpectedSeqOut.toNat :
      Int) = _
    exact Int.toNat_of_nonneg (by omega)
  have hall : Counted 0 (s.complete isResendAction notifiedLayer decrypt d rest).chat.seqIn
      (((s.complete isResendAction notifiedLayer decrypt d rest).processed.filter
        (Numbered ·)).map (·.seqOut)) := by
    change Counted 0 _ (((s.processed ++ _).filter (Numbered ·)).map (·.seqOut))
    rw [hseqIn, List.filter_append, List.map_append]
    apply h.counted.append
    rw [← hnext]
    exact hcounted
  have hnone : rest = [] := by
    have hsingle := h.single
    rw [hwaiting, List.length_cons] at hsingle
    exact List.length_eq_zero_iff.1 (by omega)
  refine ⟨hall, ?_, ?_, ?_⟩
  · intro a ha
    rcases List.mem_append.1 ha with hold | hnew
    · rcases h.deleted a hold with hprocessed | ⟨hnumbered, b, hb, hcopy⟩
      · exact .inl (List.mem_append_left _ hprocessed)
      · exact .inr ⟨hnumbered, b, List.mem_append_left _ hb, hcopy⟩
    · obtain ⟨hdecoded, hid⟩ := List.mem_filter.1 hnew
      obtain ⟨b, hb, hsame, hfate⟩ := hremoved a.actionId (of_decide_eq_true hid)
      obtain rfl := eq_of_actionId_eq (mergedActions_subset hactions hencrypted hb) hdecoded hsame
      rcases hfate with hprocessed | ⟨hnumbered, hlo, hhi⟩
      · exact .inl (List.mem_append_right _ hprocessed)
      · exact .inr ⟨hnumbered, exists_processed hall hlo (by omega)⟩
  · intro d' hd'
    exact absurd (hnone ▸ hd' : d' ∈ []) List.not_mem_nil
  · change rest.length ≤ 1
    rw [hnone]
    exact Nat.zero_le 1

theorem Inv.step {s : Session δ ε} (h : Inv s) {e : Event δ ε}
    (he : OrderlyStep isResendAction s e) : Inv (step isResendAction notifiedLayer s e) := by
  cases e with
  | enqueue action =>
    refine ⟨h.counted, h.deleted, ?_, h.single⟩
    intro d hd
    obtain ⟨hnext, hactions, hencrypted⟩ := h.current d hd
    exact ⟨hnext, List.subset_append_of_subset_left _ hactions, hencrypted⟩
  | enqueueEncrypted action =>
    refine ⟨h.counted, h.deleted, ?_, h.single⟩
    intro d hd
    obtain ⟨hnext, hactions, hencrypted⟩ := h.current d hd
    exact ⟨hnext, hactions, List.subset_append_of_subset_left _ hencrypted⟩
  | dequeue =>
    have hnone : s.waiting = [] := he
    have hwaiting : (SecretInOrder.step isResendAction notifiedLayer s .dequeue).waiting =
        [dequeuePeerIncomingActions s.chat] := by
      change s.waiting ++ _ = _
      rw [hnone]
      rfl
    refine ⟨h.counted, h.deleted, ?_, by rw [hwaiting]; exact le_refl 1⟩
    intro d hd
    rw [hwaiting] at hd
    rw [List.mem_singleton.1 hd]
    exact ⟨rfl, List.Subset.refl _, List.Subset.refl _⟩
  | process decrypt =>
    unfold SecretInOrder.step
    dsimp only
    split
    case h_1 => exact h
    case h_2 d rest hwaiting =>
      apply h.complete hwaiting
      apply he
      rw [hwaiting]
      rfl

end Steps

/-- In every orderly run the numbered actions are processed in order and once, and nothing
is deleted that has not been processed. -/
theorem in_order_exactly_once (isResendAction : IncomingAction δ → Bool)
    (notifiedLayer : IncomingAction δ → Nat) (events : List (Event δ ε))
    (h : Guarded (step isResendAction notifiedLayer) (OrderlyStep isResendAction)
      Session.initial events) :
    InOrder (run (step isResendAction notifiedLayer) Session.initial events) := by
  have hstep : ∀ (s : Session δ ε) (e : Event δ ε), OrderlyStep isResendAction s e → Inv s →
      Inv (step isResendAction notifiedLayer s e) := fun _ _ he hs => hs.step he
  have hinv : Inv (run (step isResendAction notifiedLayer) Session.initial events) :=
    guarded_invariant hstep events Session.initial h inv_initial
  exact ⟨counted_zero_iff.1 hinv.counted, hinv.deleted⟩

/-- An action with a layer, a content and a number. -/
def action (layer data : Nat) (seqOut : SeqNumber) : IncomingAction Nat :=
  { layer, data, seqIn := ⟨0, seqNumber_zero⟩, seqOut }

/-- A message. -/
def text : Nat := 0

/-- The announcement of layer 46. -/
def notifyLayer : Nat := 1

/-- The request to send again. -/
def resendMessages : Nat := 2

def isResend (a : IncomingAction Nat) : Bool := a.data == resendMessages

def notified (a : IncomingAction Nat) : Nat := if a.data = notifyLayer then 46 else 0

/-- A small number. -/
def number (n : Fin 4) : SeqNumber := ⟨n.val, by omega⟩

/-- An arrival, and a run of `_poll` on it. -/
def arrives (a : IncomingAction Nat) : List (Event Nat Unit) :=
  [.enqueue a, .dequeue, .process fun _ => none]

/-- The layer is raised; the third message comes first, then the first one, and that twice; the
second can be decrypted at the second poll only; a request to send again comes in its turn. -/
def shuffled : List (Event Nat Unit) :=
  arrives (action 1 notifyLayer (number 0)) ++ arrives (action 46 text (number 2)) ++
    arrives (action 46 text (number 0)) ++ arrives (action 46 text (number 0)) ++
    [.enqueueEncrypted (), .dequeue, .process fun _ => none, .dequeue,
      .process fun _ => some (action 46 text (number 1))] ++
    arrives (action 46 resendMessages (number 3))

/-- All four numbered actions are processed in order, and nothing is left. -/
theorem shuffled_in_order :
    InOrder (run (step isResend notified) Session.initial shuffled) ∧
      (run (step isResend notified) Session.initial shuffled).chat.seqIn = 4 ∧
      (run (step isResend notified) Session.initial shuffled).chat.incoming.rows = [] :=
  ⟨in_order_exactly_once isResend notified shuffled (by decide), by decide, by decide⟩

/-- One run for each condition: a message without a number after the layer has been raised,
two reads of one row, a negative number, and a request to send again that comes early and
then in its turn. -/
theorem disorders :
    ¬ InOrder (run (step isResend notified) Session.initial
        (arrives (action 1 notifyLayer ⟨0, by decide⟩) ++ arrives (action 1 text ⟨0, by decide⟩) ++
          arrives (action 46 text ⟨0, by decide⟩))) ∧
      ¬ InOrder (run (step isResend notified) Session.initial
        ([.enqueue (action 46 text ⟨0, by decide⟩), .dequeue, .dequeue,
          .process fun _ => none, .process fun _ => none] : List (Event Nat Unit))) ∧
      ¬ InOrder (run (step isResend notified) Session.initial
        (arrives (action 46 text ⟨-1, by decide⟩))) ∧
      ¬ InOrder (run (step isResend notified) Session.initial
        (arrives (action 46 resendMessages ⟨1, by decide⟩) ++
          arrives (action 46 text ⟨0, by decide⟩) ++
          arrives (action 46 resendMessages ⟨1, by decide⟩))) := by
  refine ⟨?_, ?_, ?_, ?_⟩
  all_goals decide

end TelegramPub.Ports.SecretInOrder
