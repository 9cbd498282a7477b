import Mathlib.Data.List.Basic

/-!
# TGDatabase: the keys of a secret chat

A secret chat has a list of keys, the newest one last.  With each key goes its
fingerprint and the number of the first message that this client sends under it.  The
older keys are discarded when the peer has confirmed a message behind that number.
-/

namespace TelegramPub.Ports.SecretKeys

variable {κ : Type}

/-- A `TGEncryptionKeyData`. -/
structure KeyData (κ : Type) where
  keyId : Int
  key : κ
  firstSeqOut : Int
  deriving DecidableEq

/-- `encryptionKeyForConversationId:requestedKeyFingerprint:outKeyFingerprint:`; the newest key
for the fingerprint 0. -/
def encryptionKeyForConversationId (keys : List (KeyData κ)) (requestedKeyFingerprint : Int) :
    Option (KeyData κ) :=
  if keys ≠ [] ∧ requestedKeyFingerprint = 0 then keys.getLast?
  else keys.reverse.find? (·.keyId == requestedKeyFingerprint)

/-- The largest `firstSeqOut`, which the loop starts at 0. -/
def maxKeySeqOut (keys : List (KeyData κ)) : Int :=
  keys.foldl (fun maxKeySeqOut k =>
    if k.firstSeqOut > maxKeySeqOut then k.firstSeqOut else maxKeySeqOut) 0

/-- `discardEncryptionKeysForConversationId:beforeSeqOut:`. -/
def discardEncryptionKeys (keys : List (KeyData κ)) (beforeSeqOut : Int) : List (KeyData κ) :=
  if beforeSeqOut > maxKeySeqOut keys then keys.filter (·.firstSeqOut == maxKeySeqOut keys)
  else keys

/-- `storeEncryptionKeyForConversationId:key:keyFingerprint:firstSeqOut:`. -/
def storeEncryptionKey (keys : List (KeyData κ)) (key : κ) (keyFingerprint firstSeqOut : Int) :
    List (KeyData κ) :=
  if encryptionKeyForConversationId keys keyFingerprint = none then
    keys ++ [{ keyId := keyFingerprint, key, firstSeqOut }]
  else keys

/-! ## The newest key -/

/-- The newest key; `default` only for the empty list. -/
def newest [Inhabited κ] (keys : List (KeyData κ)) : KeyData κ :=
  keys.getLastD { keyId := 0, key := default, firstSeqOut := 0 }

section Newest

variable [Inhabited κ] {keys : List (KeyData κ)}

@[simp] theorem newest_concat (keys : List (KeyData κ)) (k : KeyData κ) :
    newest (keys ++ [k]) = k := List.getLastD_concat ..

theorem newest_mem (h : keys ≠ []) : newest keys ∈ keys := by
  unfold newest
  rw [List.getLastD_eq_getLast?, List.getLast?_eq_some_getLast h]
  exact List.getLast_mem h

theorem encryptionKeyForConversationId_zero (h : keys ≠ []) :
    encryptionKeyForConversationId keys 0 = some (newest keys) := by
  unfold encryptionKeyForConversationId newest
  rw [if_pos ⟨h, rfl⟩, List.getLastD_eq_getLast?, List.getLast?_eq_some_getLast h]
  rfl

end Newest

variable {keys : List (KeyData κ)}

theorem storeEncryptionKey_of_fresh {keyFingerprint : Int} (hzero : keyFingerprint ≠ 0)
    (hfresh : keyFingerprint ∉ keys.map (·.keyId)) (key : κ) (firstSeqOut : Int) :
    storeEncryptionKey keys key keyFingerprint firstSeqOut =
      keys ++ [{ keyId := keyFingerprint, key, firstSeqOut }] := by
  have hnone : encryptionKeyForConversationId keys keyFingerprint = none := by
    grind [encryptionKeyForConversationId]
  unfold storeEncryptionKey
  rw [if_pos hnone]

/-- The keys are in the order of their first numbers, which are between 0 and `n`. -/
structure Ordered (keys : List (KeyData κ)) (n : Int) : Prop where
  nonempty : keys ≠ []
  sorted : keys.Pairwise fun k k' => k.firstSeqOut ≤ k'.firstSeqOut
  nonneg : ∀ k ∈ keys, 0 ≤ k.firstSeqOut
  le : ∀ k ∈ keys, k.firstSeqOut ≤ n

theorem Ordered.mono {n n' : Int} (h : Ordered keys n) (hle : n ≤ n') : Ordered keys n' :=
  { h with le := fun k hk => Int.le_trans (h.le k hk) hle }

theorem Ordered.concat {n : Int} (h : Ordered keys n) {k : KeyData κ} (hk : k.firstSeqOut = n) :
    Ordered (keys ++ [k]) n where
  nonempty := by simp
  sorted := by
    rw [List.pairwise_append]
    refine ⟨h.sorted, List.pairwise_singleton _ _, fun k' hk' k'' hk'' => ?_⟩
    rw [List.mem_singleton.1 hk'', hk]
    exact h.le k' hk'
  nonneg := by
    intro k' hk'
    rcases List.mem_append.1 hk' with hold | hnew
    · exact h.nonneg k' hold
    · have hmem := List.getLast_mem h.nonempty
      rw [List.mem_singleton.1 hnew, hk]
      exact Int.le_trans (h.nonneg _ hmem) (h.le _ hmem)
  le := by
    intro k' hk'
    rcases List.mem_append.1 hk' with hold | hnew
    · exact h.le k' hold
    · rw [List.mem_singleton.1 hnew]
      exact Int.le_of_eq hk

/-- The fold of the loop. -/
theorem foldl_firstSeqOut : ∀ (l : List (KeyData κ)) (m : Int),
    (∀ k ∈ l, m ≤ k.firstSeqOut) → l.Pairwise (fun k k' => k.firstSeqOut ≤ k'.firstSeqOut) →
      l.foldl (fun maxKeySeqOut k =>
        if k.firstSeqOut > maxKeySeqOut then k.firstSeqOut else maxKeySeqOut) m =
        (l.getLast?.map (·.firstSeqOut)).getD m := by
  intro l
  induction l with
  | nil => intro m _ _; rfl
  | cons k l ih =>
    intro m hm hsorted
    obtain ⟨hfirst, hsorted⟩ := List.pairwise_cons.1 hsorted
    have hmax : (if k.firstSeqOut > m then k.firstSeqOut else m) = k.firstSeqOut := by
      have hle := hm k (List.mem_cons_self ..)
      split <;> omega
    rw [List.foldl_cons, hmax, ih k.firstSeqOut hfirst hsorted, List.getLast?_cons]
    cases l.getLast? <;> rfl

section Newest

variable [Inhabited κ] {n : Int}

theorem Ordered.maxKeySeqOut_eq (h : Ordered keys n) :
    maxKeySeqOut keys = (newest keys).firstSeqOut := by
  unfold maxKeySeqOut newest
  rw [foldl_firstSeqOut keys 0 h.nonneg h.sorted, List.getLastD_eq_getLast?,
    List.getLast?_eq_some_getLast h.nonempty]
  rfl

theorem Ordered.discard_of_le (h : Ordered keys n) {beforeSeqOut : Int}
    (hle : beforeSeqOut ≤ (newest keys).firstSeqOut) :
    discardEncryptionKeys keys beforeSeqOut = keys := by
  unfold discardEncryptionKeys
  rw [h.maxKeySeqOut_eq, if_neg (by omega)]

theorem Ordered.newest_discard (h : Ordered keys n) (beforeSeqOut : Int) :
    newest (discardEncryptionKeys keys beforeSeqOut) = newest keys := by
  unfold discardEncryptionKeys
  split
  case isTrue =>
    rw [h.maxKeySeqOut_eq]
    obtain ⟨l, k, rfl⟩ := (List.eq_nil_or_concat' keys).resolve_left h.nonempty
    rw [newest_concat, List.filter_append, List.filter_singleton, beq_self_eq_true]
    exact newest_concat _ k
  case isFalse => rfl

theorem Ordered.discard (h : Ordered keys n) (beforeSeqOut : Int) :
    Ordered (discardEncryptionKeys keys beforeSeqOut) n := by
  unfold discardEncryptionKeys
  split
  case isTrue =>
    rw [h.maxKeySeqOut_eq]
    have hmem : newest keys ∈ keys.filter (·.firstSeqOut == (newest keys).firstSeqOut) :=
      List.mem_filter.2 ⟨newest_mem h.nonempty, beq_self_eq_true _⟩
    exact
      { nonempty := List.ne_nil_of_mem hmem
        sorted := h.sorted.filter _
        nonneg := fun k hk => h.nonneg k (List.mem_filter.1 hk).1
        le := fun k hk => h.le k (List.mem_filter.1 hk).1 }
  case isFalse => exact h

end Newest

end TelegramPub.Ports.SecretKeys
