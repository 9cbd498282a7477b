import TelegramPub.Ports.SecretRekey

/-!
# The keys of the messages on their way

What one client has sent and the other has not counted is under keys that the receiver has,
or under the key of a commit that comes first.  A message that counts the one from which the
receiver's newest key is used makes the receiver discard its older keys; behind such a message
all are under the newest key, or one that comes.  `Channel` says both, and the lemmas of this
module say what keeps it.
-/

namespace TelegramPub.Ports.SecretRekey

open Verified.Bytes Ports.SecretKeys

/-- The fingerprints of keys. -/
def ids (keys : List (KeyData Data)) : List Int := keys.map (·.keyId)

/-- A commit of the key that has not been taken and stands before a place. -/
def CommitBefore (sent : List Message) (taken place : Nat) (keyId : Int) : Prop :=
  ∃ i m e, taken ≤ i ∧ i < place ∧ sent[i]? = some m ∧ m.payload = .commitKey e keyId

/-- The key that an action commits. -/
def Payload.committed? : Payload → Option Int
  | .commitKey _ keyFingerprint => some keyFingerprint
  | _ => none

theorem committed?_eq_some {payload : Payload} {keyId : Int} :
    payload.committed? = some keyId ↔ ∃ e, payload = .commitKey e keyId := by
  cases payload <;> simp [Payload.committed?]

instance (sent : List Message) (taken place : Nat) (keyId : Int) :
    Decidable (CommitBefore sent taken place keyId) :=
  decidable_of_iff
    (∃ i ∈ List.range place, taken ≤ i ∧ (sent[i]?.bind (·.payload.committed?)) = some keyId) <| by
      constructor
      · rintro ⟨i, hi, htaken, hcommit⟩
        obtain ⟨m, hm, hpayload⟩ := Option.bind_eq_some_iff.1 hcommit
        obtain ⟨e, he⟩ := committed?_eq_some.1 hpayload
        exact ⟨i, m, e, htaken, List.mem_range.1 hi, hm, he⟩
      · rintro ⟨i, m, e, htaken, hplace, hm, he⟩
        refine ⟨i, List.mem_range.2 hplace, htaken, ?_⟩
        rw [hm, Option.bind_some]
        exact committed?_eq_some.2 ⟨e, he⟩

/-- The receiver has counted and taken so many of the messages, and has these keys. -/
structure Channel (sent : List Message) (processed taken : Nat) (keys : List (KeyData Data)) :
    Prop where
  held : ∀ j m, processed ≤ j → sent[j]? = some m →
    m.keyId ∈ ids keys ∨ CommitBefore sent taken j m.keyId
  late : ∀ i m, processed ≤ i → sent[i]? = some m → (newest keys).firstSeqOut < m.seqIn →
    ∀ j m', i < j → sent[j]? = some m' →
      m'.keyId = (newest keys).keyId ∨ CommitBefore sent taken j m'.keyId

section Lists

variable {sent : List Message} {processed taken : Nat} {keys : List (KeyData Data)}
  {m : Message} {keyId : Int}

theorem newest_keyId_mem (h : keys ≠ []) : (newest keys).keyId ∈ ids keys :=
  List.mem_map_of_mem (newest_mem h)

theorem getElem?_concat {j : Nat} {m' : Message} (h : (sent ++ [m])[j]? = some m') :
    sent[j]? = some m' ∨ (j = sent.length ∧ m' = m) := by
  rcases Nat.lt_or_ge j sent.length with hlt | hge
  · rw [List.getElem?_append_left hlt] at h
    exact .inl h
  · grind

theorem CommitBefore.concat {place : Nat} (h : CommitBefore sent taken place keyId)
    (m : Message) : CommitBefore (sent ++ [m]) taken place keyId := by
  obtain ⟨i, m', e, htaken, hplace, hm', hpayload⟩ := h
  refine ⟨i, m', e, htaken, hplace, ?_, hpayload⟩
  rw [List.getElem?_append_left (List.getElem?_eq_some_iff.1 hm').1]
  exact hm'

theorem CommitBefore.mono {place place' : Nat} (h : CommitBefore sent taken place keyId)
    (hle : place ≤ place') : CommitBefore sent taken place' keyId := by
  obtain ⟨i, m', e, htaken, hplace, hm'⟩ := h
  exact ⟨i, m', e, htaken, by omega, hm'⟩

/-- Another message is sent: under the newest key or one that comes, or under another key while
nothing on its way makes the receiver discard it. -/
theorem Channel.concat (h : Channel sent processed taken keys) (hkeys : keys ≠ [])
    (hm : (m.keyId = (newest keys).keyId ∨ CommitBefore sent taken sent.length m.keyId) ∨
      (m.keyId ∈ ids keys ∧ ∀ j m', processed ≤ j → sent[j]? = some m' →
        (m'.seqIn : Int) ≤ (newest keys).firstSeqOut)) :
    Channel (sent ++ [m]) processed taken keys where
  held := by
    intro j m' hj hm'
    rcases getElem?_concat hm' with hold | ⟨rfl, rfl⟩
    · exact (h.held j m' hj hold).imp_right fun hcommit => hcommit.concat m
    · rcases hm with (heq | hcommit) | ⟨hmem, -⟩
      · exact .inl (heq ▸ newest_keyId_mem hkeys)
      · exact .inr (hcommit.concat _)
      · exact .inl hmem
  late := by
    intro i m₁ hi hm₁ hlate j m' hij hm'
    rcases getElem?_concat hm₁ with hearlier | ⟨rfl, -⟩
    · rcases getElem?_concat hm' with hold | ⟨rfl, rfl⟩
      · exact (h.late i m₁ hi hearlier hlate j m' hij hold).imp_right
          fun hcommit => hcommit.concat m
      · rcases hm with hnew | ⟨-, hall⟩
        · exact hnew.imp_right fun hcommit => hcommit.concat _
        · have hle := hall i m₁ hi hearlier
          omega
    · grind

theorem Channel.take (h : Channel sent processed taken keys) (hkeys : keys ≠ [])
    (hcommit : ∀ m e f, sent[taken]? = some m → m.payload = .commitKey e f →
      f = (newest keys).keyId) : Channel sent processed (taken + 1) keys := by
  have hbefore : ∀ {place : Nat} {keyId : Int}, CommitBefore sent taken place keyId →
      keyId = (newest keys).keyId ∨ CommitBefore sent (taken + 1) place keyId := by
    rintro place keyId ⟨i, m, e, htaken, hplace, hm, hpayload⟩
    rcases Nat.eq_or_lt_of_le htaken with rfl | hlt
    · exact .inl (hcommit m e keyId hm hpayload)
    · exact .inr ⟨i, m, e, hlt, hplace, hm, hpayload⟩
  refine ⟨?_, ?_⟩
  · intro j m hj hm
    rcases h.held j m hj hm with hmem | hcoming
    · exact .inl hmem
    · grind [newest_keyId_mem]
  · intro i m₁ hi hm₁ hlate j m hij hm
    rcases h.late i m₁ hi hm₁ hlate j m hij hm with heq | hcoming
    · exact .inl heq
    · exact hbefore hcoming

/-- The receiver gets a key whose first number has not been counted. -/
theorem Channel.newKey (h : Channel sent processed taken keys) (k : KeyData Data)
    (hseqIn : ∀ m ∈ sent, (m.seqIn : Int) ≤ k.firstSeqOut) :
    Channel sent processed taken (keys ++ [k]) where
  held := by
    intro j m hj hm
    refine (h.held j m hj hm).imp_left fun hmem => ?_
    unfold ids
    rw [List.map_append]
    exact List.mem_append_left _ hmem
  late := by
    intro i m hi hm hlate
    rw [newest_concat] at hlate
    have hle := hseqIn m (List.mem_of_getElem? hm)
    omega

theorem Channel.receive {processed' : Nat} {n beforeSeqOut : Int}
    (h : Channel sent processed taken keys) (hkeys : Ordered keys n)
    (hprocessed : processed ≤ processed')
    (hbefore : (newest keys).firstSeqOut < beforeSeqOut → ∃ i m, processed ≤ i ∧ i < processed' ∧
      sent[i]? = some m ∧ (newest keys).firstSeqOut < m.seqIn) :
    Channel sent processed' taken (discardEncryptionKeys keys beforeSeqOut) := by
  have hnewest := hkeys.newest_discard beforeSeqOut
  rcases Int.lt_or_le (newest keys).firstSeqOut beforeSeqOut with hlt | hle
  · obtain ⟨i, m, hi, hi', hm, hlate⟩ := hbefore hlt
    have hmem : (newest keys).keyId ∈ ids (discardEncryptionKeys keys beforeSeqOut) := by
      rw [← hnewest]
      exact newest_keyId_mem (hkeys.discard beforeSeqOut).nonempty
    refine ⟨?_, ?_⟩
    · intro j m' hj hm'
      refine (h.late i m hi hm hlate j m' (by omega) hm').imp_left fun heq => ?_
      rw [heq]
      exact hmem
    · rw [hnewest]
      exact fun i' m' hi' => h.late i' m' (by omega)
  · rw [hkeys.discard_of_le hle]
    exact ⟨fun j m hj => h.held j m (by omega), fun i m hi => h.late i m (by omega)⟩

end Lists

end TelegramPub.Ports.SecretRekey
