import Mathlib.Data.List.TakeWhile
import TelegramPub.Ports.SecretOutgoing
import TelegramPub.Ports.SecretResend

/-!
# What the peer confirms

With each message that `_poll` processes in its turn the peer tells how many messages of
this client it has got.  The largest of these numbers deletes the outgoing actions below it,
and if it is behind the first number of every key, the keys of earlier rekeyings.  Nothing
compares it with what this client has sent.

`confirmations_safe_iff` says which numbers do no harm.
-/

namespace TelegramPub.Ports.SecretConfirmations

open Verified Ports.SecretKeys Ports.SecretIncoming Ports.SecretResend

variable {δ ε τ κ : Type}

/-! ## The largest number that is confirmed -/

/-- The actions that the loop compares with the expected number: all, or those from the
first of layer 17 on. -/
def comparedActions (peerLayer : Nat) (l : List (StoredAction δ)) : List (StoredAction δ) :=
  if 17 ≤ peerLayer then l else l.dropWhile fun a => ¬ Numbered a

/-- The action is the first with its number, and all numbers before it are there. -/
def InTurn (l : List (StoredAction δ)) (next : Int) (a : StoredAction δ) : Prop :=
  l.find? (fun b => b.seqOut = a.seqOut) = some a ∧ next ≤ a.seqOut ∧ GapFree l next a.seqOut

section Largest

variable {isResendAction : IncomingAction δ → Bool} {l : List (StoredAction δ)}
  {a b : StoredAction δ} {next : Int}

theorem inTurn_cons_next (hb : b.seqOut = next) :
    InTurn (b :: l) next a ↔ a = b ∨ InTurn l (next + 1) a := by
  unfold InTurn
  by_cases hsame : b.seqOut = a.seqOut
  · rw [List.find?_cons_of_pos (by simpa using hsame), Option.some_inj]
    constructor
    · exact fun h => .inl h.1.symm
    · rintro (rfl | ⟨-, hle, -⟩)
      · refine ⟨rfl, le_of_eq hb.symm, fun j hlo hhi => ⟨a, List.mem_cons_self .., ?_⟩⟩
        omega
      · omega
  · rw [List.find?_cons_of_neg (by simpa using hsame)]
    constructor
    · rintro ⟨hfind, hle, hgap⟩
      refine .inr ⟨hfind, by omega, fun j hlo hhi => ?_⟩
      obtain ⟨c, hc, hnumber⟩ := hgap j (by omega) hhi
      rcases List.mem_cons.1 hc with rfl | hc
      · omega
      · exact ⟨c, hc, hnumber⟩
    · rintro (rfl | ⟨hfind, hle, hgap⟩)
      · exact absurd rfl hsame
      · refine ⟨hfind, by omega, fun j hlo hhi => ?_⟩
        by_cases hfirst : j = next
        · exact ⟨b, List.mem_cons_self .., hb.trans hfirst.symm⟩
        · obtain ⟨c, hc, hnumber⟩ := hgap j (by omega) hhi
          exact ⟨c, List.mem_cons_of_mem b hc, hnumber⟩

theorem inTurn_cons_old (hb : b.seqOut < next) : InTurn (b :: l) next a ↔ InTurn l next a := by
  unfold InTurn
  by_cases hle : next ≤ a.seqOut
  · have hne : b.seqOut ≠ a.seqOut := by omega
    rw [List.find?_cons_of_neg (by simpa using hne)]
    refine and_congr_right fun _ => and_congr_right fun _ => ?_
    refine forall_congr' fun j => forall_congr' fun hlo => forall_congr' fun _ => ?_
    constructor
    · grind
    · rintro ⟨c, hc, hnumber⟩
      exact ⟨c, List.mem_cons_of_mem b hc, hnumber⟩
  · exact ⟨fun h => absurd h.2.1 hle, fun h => absurd h.2.1 hle⟩

theorem not_inTurn_of_ahead (hahead : ∀ b ∈ l, next < b.seqOut) : ¬ InTurn l next a := by
  rintro ⟨-, hle, hgap⟩
  obtain ⟨b, hb, hnumber⟩ := hgap next (le_refl _) hle
  have hlt := hahead b hb
  omega

/-- From layer 17 on the largest number is confirmed that comes with an action in its
turn. -/
theorem le_maxSeqIn_foldl (isResendAction : IncomingAction δ → Bool) (m : Int) :
    ∀ (l : List (StoredAction δ)) (s : Scan δ), l.Pairwise (fun a b => a.seqOut ≤ b.seqOut) →
      17 ≤ s.currentPeerLayer →
      (m ≤ (l.foldl (Scan.visit isResendAction) s).maxSeqIn ↔
        m ≤ s.maxSeqIn ∨ ∃ a, InTurn l s.nextExpectedSeqOut a ∧ m ≤ a.seqIn) := by
  intro l
  induction l with
  | nil =>
    intro s _ _
    refine ⟨.inl, fun h => h.elim id ?_⟩
    rintro ⟨a, ⟨hfind, -⟩, -⟩
    cases hfind
  | cons b l ih =>
    intro s hsorted hlayer
    obtain ⟨hfirst, hsorted⟩ := List.pairwise_cons.1 hsorted
    have hnone : s.nextExpectedSeqOut < b.seqOut → ∀ a,
        ¬ InTurn l s.nextExpectedSeqOut a ∧ ¬ InTurn (b :: l) s.nextExpectedSeqOut a := by
      intro hahead a
      have hall : ∀ c ∈ l, s.nextExpectedSeqOut < c.seqOut :=
        fun c hc => lt_of_lt_of_le hahead (hfirst c hc)
      refine ⟨not_inTurn_of_ahead hall, not_inTurn_of_ahead fun c hc => ?_⟩
      rcases List.mem_cons.1 hc with rfl | hc
      · exact hahead
      · exact hall c hc
    rw [List.foldl_cons, Scan.visit_of_layer hlayer]
    unfold Scan.compare
    dsimp only
    split_ifs with heq hlt hresend
    · grind [inTurn_cons_next]
    · grind [inTurn_cons_old]
    all_goals
      have hahead : s.nextExpectedSeqOut < b.seqOut := by omega
      rw [ih _ hsorted (by exact hlayer)]
      exact or_congr_right (exists_congr fun a => and_congr_left fun _ =>
        ⟨fun ha => absurd ha (hnone hahead a).1, fun ha => absurd ha (hnone hahead a).2⟩)

theorem le_maxSeqIn_iff (isResendAction : IncomingAction δ → Bool)
    (decrypt : ε → Option (IncomingAction δ)) (peerLayer : Nat)
    (dequeued : SecretIncoming.Dequeued δ ε) (m : Int) :
    m ≤ (scanActions isResendAction decrypt peerLayer dequeued).maxSeqIn ↔
      m ≤ -1 ∨ ∃ a, InTurn (comparedActions peerLayer (mergedActions decrypt dequeued))
        dequeued.nextExpectedSeqOut a ∧ m ≤ a.seqIn := by
  have hsorted := pairwise_mergedActions decrypt dequeued
  unfold scanActions comparedActions
  by_cases hlayer : 17 ≤ peerLayer
  · rw [if_pos hlayer]
    exact le_maxSeqIn_foldl isResendAction m _ _ hsorted (by exact hlayer)
  · rw [if_neg hlayer]
    have hsplit := List.takeWhile_append_dropWhile (p := fun a : StoredAction δ => ¬ Numbered a)
      (l := mergedActions decrypt dequeued)
    have hfront : ∀ a ∈ (mergedActions decrypt dequeued).takeWhile fun a => ¬ Numbered a,
        ¬ Numbered a := by
      intro a ha
      have hnot := List.mem_takeWhile_imp ha
      exact of_decide_eq_true hnot
    have hback := hsorted
    rw [← hsplit] at hback
    have hbackSorted := (List.pairwise_append.1 hback).2.1
    rw [← hsplit, List.foldl_append, hsplit,
      foldl_unnumbered _ _ (by exact Nat.lt_of_not_le hlayer) hfront]
    cases hdrop : (mergedActions decrypt dequeued).dropWhile (fun a => ¬ Numbered a) with
    | nil =>
      refine ⟨.inl, fun h => h.elim id ?_⟩
      rintro ⟨a, ⟨hfind, -⟩, -⟩
      cases hfind
    | cons b back =>
      have hb : Numbered b := by
        have hhead := List.head?_dropWhile_not (fun a : StoredAction δ => decide (¬ Numbered a))
          (mergedActions decrypt dequeued)
        rw [hdrop] at hhead
        exact not_not.1 (of_decide_eq_false hhead)
      rw [hdrop] at hbackSorted
      rw [List.foldl_cons, visit_numbered (by exact Nat.lt_of_not_le hlayer) hb,
        ← List.foldl_cons]
      exact le_maxSeqIn_foldl isResendAction m _ _ hbackSorted (by exact hb)

end Largest

/-! ## What a confirmation deletes -/

theorem maxKeySeqOut_nonneg (keys : List (KeyData κ)) : 0 ≤ maxKeySeqOut keys := by
  have h : ∀ (keys : List (KeyData κ)) (m : Int), m ≤ keys.foldl (fun maxKeySeqOut k =>
      if k.firstSeqOut > maxKeySeqOut then k.firstSeqOut else maxKeySeqOut) m := by
    intro keys
    induction keys with
    | nil => intro m; exact le_refl m
    | cons k keys ih =>
      grind
  exact h keys 0

theorem mem_discardEncryptionKeys {keys : List (KeyData κ)} {beforeSeqOut : Int} {k : KeyData κ} :
    k ∈ discardEncryptionKeys keys beforeSeqOut ↔
      k ∈ keys ∧ (maxKeySeqOut keys < beforeSeqOut → k.firstSeqOut = maxKeySeqOut keys) := by
  unfold discardEncryptionKeys
  split
  case isTrue hbefore =>
    rw [List.mem_filter, beq_iff_eq]
    exact and_congr_right fun _ => ⟨fun h _ => h, fun h => h hbefore⟩
  case isFalse hbefore => exact ⟨fun h => ⟨h, fun hlt => absurd hlt hbefore⟩, And.left⟩

theorem mem_of_encryptionKeyForConversationId {keys : List (KeyData κ)} {fingerprint : Int}
    {k : KeyData κ} (h : encryptionKeyForConversationId keys fingerprint = some k) : k ∈ keys := by
  unfold encryptionKeyForConversationId at h
  split at h
  · exact List.mem_of_getLast? h
  · exact List.mem_reverse.1 (List.mem_of_find?_eq_some h)

/-- Only accepted actions have been deleted, and the keys of what is still stored are
there. -/
def ConfirmationSafe (s s' : SecretOutgoing.Client τ κ) : Prop :=
  (∀ r ∈ s.db.outgoing.rows, r ∉ s'.db.outgoing.rows → r.id ∈ s.accepted) ∧
    ∀ r, r ∈ s'.db.outgoing.rows ∨ r ∈ s'.db.outgoingResend.rows → ∀ k,
      encryptionKeyForConversationId s.keys r.value.action.keyId = some k → k ∈ s'.keys

/-- What the peer confirms has been accepted, and if it confirms a number behind the first
one of every key, what is stored from there on, or to send again, is under a key of the last
rekeying. -/
def HonestlyConfirmed (s : SecretOutgoing.Client τ κ) (confirms : Int → Prop) : Prop :=
  (∀ n, confirms n → 0 < n → ∀ r ∈ s.db.outgoing.rows, r.value.seqOut < n → r.id ∈ s.accepted) ∧
    ∀ n, confirms n → maxKeySeqOut s.keys < n → ∀ r,
      (r ∈ s.db.outgoing.rows ∧ ∀ n', confirms n' → 0 < n' → n' ≤ r.value.seqOut) ∨
        r ∈ s.db.outgoingResend.rows →
      ∀ k, encryptionKeyForConversationId s.keys r.value.action.keyId = some k →
        k.firstSeqOut = maxKeySeqOut s.keys

/-- A confirmation is safe just when each of the numbers that it is the largest of is
honest. -/
theorem confirmationSafe_iff {deleteMessages : Nat → Int → Option τ}
    {s : SecretOutgoing.Client τ κ} {largest : Int} {confirms : Int → Prop}
    (hlargest : ∀ m, m ≤ largest ↔ m ≤ -1 ∨ ∃ n, confirms n ∧ m ≤ n) :
    ConfirmationSafe s (SecretOutgoing.step deleteMessages s (.confirm largest)) ↔
      HonestlyConfirmed s confirms := by
  have hle : ∀ n, confirms n → n ≤ largest := fun n hn => (hlargest n).2 (.inr ⟨n, hn, le_refl n⟩)
  have hkeys := maxKeySeqOut_nonneg s.keys
  unfold SecretOutgoing.step
  dsimp only
  split
  case isTrue hpositive =>
    have hattained : confirms largest := by
      obtain ⟨n, hn, hge⟩ := ((hlargest largest).1 (le_refl _)).resolve_left (by omega)
      rwa [le_antisymm hge (hle n hn)]
    have hkept : ∀ r, r ∈ (s.db.confirmPeerSeqOut (largest - 1)).outgoing.rows ↔
        r ∈ s.db.outgoing.rows ∧ largest ≤ r.value.seqOut := by
      intro r
      refine RowTable.mem_deleteWhere.trans (and_congr_right fun _ => ?_)
      rw [decide_eq_false_iff_not]
      omega
    constructor
    · rintro ⟨hdeleted, hdiscarded⟩
      refine ⟨?_, ?_⟩
      · intro n hn _ r hr hlt
        apply hdeleted r hr
        rw [hkept]
        intro hstored
        have hge := hle n hn
        omega
      · intro n hn hbehind r hr k hk
        have hge := hle n hn
        refine (mem_discardEncryptionKeys.1 (hdiscarded r ?_ k hk)).2 (by omega)
        refine hr.imp_left fun hstored => (hkept r).2 ⟨hstored.1, ?_⟩
        exact hstored.2 largest hattained hpositive
    · rintro ⟨haccepted, hnewest⟩
      refine ⟨?_, ?_⟩
      · intro r hr hgone
        apply haccepted largest hattained hpositive r hr
        rw [hkept] at hgone
        by_contra hge
        exact hgone ⟨hr, by omega⟩
      · intro r hr k hk
        refine mem_discardEncryptionKeys.2
          ⟨mem_of_encryptionKeyForConversationId hk, fun hbehind => ?_⟩
        refine hnewest largest hattained hbehind r (hr.imp_left fun hstored => ?_) k hk
        obtain ⟨hstored, hge⟩ := (hkept r).1 hstored
        exact ⟨hstored, fun n hn _ => le_trans (hle n hn) hge⟩
  case isFalse hnone =>
    refine ⟨fun _ => ⟨?_, ?_⟩, fun _ => ⟨fun r hr hgone => absurd hr hgone, ?_⟩⟩
    · intro n hn hpositive
      have hge := hle n hn
      omega
    · intro n hn hbehind
      have hge := hle n hn
      omega
    · intro r _ k hk
      exact mem_of_encryptionKeyForConversationId hk

/-- The run confirms the numbers that come with the actions in their turn. -/
def confirmedNumbers (decrypt : ε → Option (IncomingAction δ)) (chat : Chat δ ε) (n : Int) : Prop :=
  ∃ a, InTurn (comparedActions chat.peerLayer (decoded decrypt chat)) chat.seqIn a ∧ a.seqIn = n

/-- The outgoing side after a run of `_poll`. -/
def confirmed (isResendAction : IncomingAction δ → Bool) (decrypt : ε → Option (IncomingAction δ))
    (deleteMessages : Nat → Int → Option τ) (chat : Chat δ ε) (s : SecretOutgoing.Client τ κ) :
    SecretOutgoing.Client τ κ :=
  SecretOutgoing.step deleteMessages s (.confirm (pollScan isResendAction decrypt chat).maxSeqIn)

/-- Whatever numbers the peer puts into its messages, a run of `_poll` deletes accepted
actions only and keeps the keys of the others just when the numbers are honest. -/
theorem confirmations_safe (isResendAction : IncomingAction δ → Bool)
    (decrypt : ε → Option (IncomingAction δ)) (deleteMessages : Nat → Int → Option τ)
    (chat : Chat δ ε) (s : SecretOutgoing.Client τ κ) :
    ConfirmationSafe s (confirmed isResendAction decrypt deleteMessages chat s) ↔
      HonestlyConfirmed s (confirmedNumbers decrypt chat) := by
  apply confirmationSafe_iff
  intro m
  rw [pollScan, le_maxSeqIn_iff]
  refine or_congr_right ⟨?_, ?_⟩
  · rintro ⟨a, ha, hm⟩
    exact ⟨a.seqIn, ⟨a, ha, rfl⟩, hm⟩
  · rintro ⟨n, ⟨a, ha, rfl⟩, hm⟩
    exact ⟨a, ha, hm⟩

/-- A chat that has got a message which confirms a number. -/
def chatConfirming (seqIn : SeqNumber) : Chat Unit Unit where
  incoming := RowTable.empty.insert
    { layer := 46, data := (), seqIn, seqOut := ⟨0, seqNumber_zero⟩ }
  incomingEncrypted := RowTable.empty
  seqIn := 0
  peerLayer := 46

/-- A client that has stored a message under the first of two keys, and has sent nothing. -/
def unsent (seqOut : Int) : SecretOutgoing.Client Unit Unit where
  db :=
    { outgoing := RowTable.empty.insert
        { seqOut, seqIn := 0
          action := { kind := .message, randomId := 7, layer := 46, keyId := 1, data := () } }
      outgoingResend := RowTable.empty
      nextSeqOut := seqOut + 1
      seqIn := 0
      sentSeqOut := -1
      peerLayer := 46 }
  keys := [{ keyId := 1, key := (), firstSeqOut := 0 }, { keyId := 2, key := (), firstSeqOut := 3 }]
  waiting := []
  executingRequestsActionIds := []
  inFlight := []
  numbered := []
  copied := RowTable.empty
  accepted := []
  worked := []
  requests := []
  outstanding := []

/-- A peer that confirms the number 1 without having got anything, so that the only message
of this client is deleted; and one that confirms 4, so that the key of the message 5 is
discarded. -/
theorem confirmation_of_unsent :
    ¬ ConfirmationSafe (unsent 0) (confirmed (fun _ => false) (fun _ : Unit => none)
        (fun _ _ => none) (chatConfirming ⟨1, by decide⟩) (unsent 0)) ∧
      ¬ ConfirmationSafe (unsent 5) (confirmed (fun _ => false) (fun _ : Unit => none)
        (fun _ _ => none) (chatConfirming ⟨4, by decide⟩) (unsent 5)) := by
  refine ⟨?_, ?_⟩
  · rintro ⟨hdeleted, -⟩
    exact absurd (hdeleted _ (List.mem_singleton_self _) (by decide)) List.not_mem_nil
  · rintro ⟨-, hkeys⟩
    have hkept := hkeys ⟨1, _⟩ (.inl (List.mem_singleton_self _))
      { keyId := 1, key := (), firstSeqOut := 0 } rfl
    exact absurd hkept (by decide)

end TelegramPub.Ports.SecretConfirmations
