import TelegramPub.Ports.SecretRekeyInvariant

/-!
# A key is switched

What the joint invariant has to do with messages that are no packets, with a commit that is
sent or taken, and with the key that is stored then.
-/

namespace TelegramPub.Ports.SecretRekey

open Verified.Bytes Ports.SecretKeys

variable {dh : DhConfig} {c peer : Client}

/-! ## Messages that are no packets -/

theorem Joint.store {keyId : Int} {payload : Payload} (h : Joint dh c peer)
    (htimely : Timely c peer keyId) (hpacket : payload.packet = none) :
    Joint dh (c.store keyId payload) peer := by
  have htaken : peer.taken ≤ c.sent.length :=
    Nat.le_trans h.theirs.taken_le h.theirs.processed_le
  have htoward : toward (c.store keyId payload) peer = toward c peer := by
    have hconcat : toward (c.store keyId payload) peer =
        toward c peer ++ payload.packet.toList := packets_drop_concat htaken
    rw [hconcat, hpacket]
    exact List.append_nil _
  have hcommit : ∀ e f, payload ≠ .commitKey e f := by
    rintro e f rfl
    cases hpacket
  exact
    { agree := by
        rw [htoward]
        exact h.agree
      mine := h.mine.store h.theirs.ordered.nonempty htimely payload
      theirs := h.theirs.store_peer htaken fun e f heq => absurd heq (hcommit e f)
      same := by
        rw [htoward]
        exact h.same
      coming := by
        rw [htoward]
        exact h.coming
      coming' := h.coming' }

/-! ## A key is switched -/

variable {u : Unfinished}

theorem newKey_switch {k : KeyData Data} (hk : u.newKey = some k) :
    ({ c with unfinished := some u } : Client).newKey = some k := hk

theorem allKeys_switch {k : KeyData Data} (hk : u.newKey = some k) :
    ({ c with unfinished := some u } : Client).allKeys = c.keys ++ [k] := by
  unfold Client.allKeys
  rw [newKey_switch hk]
  rfl

theorem taken_switch {k : KeyData Data} (hk : u.newKey = some k) :
    ({ c with unfinished := some u } : Client).taken = c.handled + 1 := by
  unfold Client.taken
  rw [newKey_switch hk]
  rfl

theorem pending_switch {k : KeyData Data} (hk : u.newKey = some k) :
    ({ c with unfinished := some u } : Client).pending = .idle := by
  unfold Client.pending
  rw [newKey_switch hk]

theorem Half.switch {k : KeyData Data} (h : Half dh c peer) (hk : u.newKey = some k)
    (hblocks : c.rekeyBlocks = 0) (hworking : c.handled < c.processed)
    (hordered : Ordered (c.keys ++ [k]) c.sent.length) (hfresh : k.keyId ≠ 0 ∧ k.keyId ∉ ids c.keys)
    (hnone : ∀ e f, .commit e f ∉ toward peer { c with unfinished := some u }) :
    Half dh { c with unfinished := some u } peer where
  handled_le := h.handled_le
  working := fun _ => hworking
  processed_le := h.processed_le
  seqIn_le := h.seqIn_le
  blocks := fun _ => hblocks
  loaded := by
    rintro loaded e gA hu
    cases hu
    cases hk
  fingerprint := h.fingerprint
  nonempty := h.nonempty
  ordered := by
    rw [allKeys_switch hk]
    exact hordered
  freshNew := by
    intro k' hk'
    rw [newKey_switch hk] at hk'
    cases hk'
    exact hfresh
  freshComing := fun e f hmem => absurd hmem (hnone e f)
  channel := h.channel
  current := by
    refine fun hswitching => absurd (.inr ?_) hswitching
    rw [newKey_switch hk]
    exact nofun

variable {m : Message}

theorem Half.switch_peer {k : KeyData Data} (h : Half dh peer c) (hnew : c.newKey = none)
    (hk : u.newKey = some k) (hm : peer.sent[c.handled]? = some m)
    (hcommit : ∀ e f, m.payload = .commitKey e f → f = k.keyId)
    (hseqIn : ∀ m ∈ peer.sent, (m.seqIn : Int) ≤ k.firstSeqOut)
    (hcurrent : (newest peer.keys).keyId = k.keyId ∨
      peer.Switching { c with unfinished := some u }) :
    Half dh peer { c with unfinished := some u } where
  handled_le := h.handled_le
  working := h.working
  processed_le := h.processed_le
  seqIn_le := h.seqIn_le
  blocks := h.blocks
  loaded := h.loaded
  fingerprint := h.fingerprint
  nonempty := h.nonempty
  ordered := h.ordered
  freshNew := h.freshNew
  freshComing := h.freshComing
  channel := by
    have hchannel := h.channel
    rw [taken_of_none hnew, allKeys_of_none hnew] at hchannel
    rw [taken_switch hk, allKeys_switch hk]
    refine (hchannel.newKey k hseqIn).take (by simp) fun m' e f hm' hpayload => ?_
    rw [hm] at hm'
    cases hm'
    rw [newest_concat]
    exact hcommit e f hpayload
  current := by
    refine fun hswitching => .inl ?_
    rw [allKeys_switch hk, newest_concat]
    exact hcurrent.resolve_right hswitching

theorem Half.seqIn_le_length (h : Half dh peer c) :
    ∀ m ∈ peer.sent, (m.seqIn : Int) ≤ c.sent.length := by
  intro m hm
  have hle := h.seqIn_le m hm
  have hprocessed := h.processed_le
  omega

/-- A key that is to be stored belongs to no exchange any more. -/
theorem newKey_eq_none_of_acceptor {e : Int} {k : Data} (h : c.pending = .acceptor e k) :
    c.newKey = none := by
  unfold Client.pending at h
  split at h
  · assumption
  · cases h

/-- What has been sent, beginning with the message that `c` takes. -/
theorem toward_peer_taken {c' : Client} (hnew : c.newKey = none)
    (hm : peer.sent[c.handled]? = some m) (htaken : c'.taken = c.handled + 1) :
    toward peer c = m.payload.packet.toList ++ toward peer c' := by
  unfold toward
  rw [taken_of_none hnew, packets_drop hm, htaken]

theorem Joint.commit {e f : Int} {gB a : Data} (h : Joint dh c peer) (hnew : c.newKey = none)
    (hworking : c.handled < c.processed) (hblocks : c.rekeyBlocks = 0)
    (hm : peer.sent[c.handled]? = some m) (hpayload : m.payload = .acceptKey e gB f)
    (hpending : c.encryptedData.pending = .initiator e a)
    (hf : dh.exchange.fingerprint (dh.exchange.shared gB a) = f) (hzero : f ≠ 0)
    (hfresh : f ∉ ids c.keys) (hfresh' : f ∉ ids peer.keys) :
    Joint dh
      { c.store c.newestKeyId (.commitKey e f) with
        unfinished := some
          (.acceptKey c.encryptedData (dh.exchange.shared gB a) f c.sent.length) } peer := by
  let stored : Client := c.store c.newestKeyId (.commitKey e f)
  let u : Unfinished := .acceptKey c.encryptedData (dh.exchange.shared gB a) f c.sent.length
  let k : KeyData Data :=
    { keyId := f, key := dh.exchange.shared gB a, firstSeqOut := c.sent.length }
  have hk : u.newKey = some k := rfl
  change Joint dh { stored with unfinished := some u } peer
  have htaken : peer.taken ≤ c.sent.length :=
    Nat.le_trans h.theirs.taken_le h.theirs.processed_le
  have hmine : toward { stored with unfinished := some u } peer =
      toward c peer ++ [.commit e f] := packets_drop_concat htaken
  have htheirs : toward peer c =
      .accept e gB f :: toward peer { stored with unfinished := some u } := by
    have htaken' : ({ stored with unfinished := some u } : Client).taken = c.handled + 1 :=
      taken_switch hk
    rw [toward_peer_taken hnew hm htaken', hpayload]
    rfl
  have hagree := h.agree.symm
  rw [pending_of_none hnew, hpending, htheirs] at hagree
  obtain ⟨⟨_, hinitiator, hacceptor, -⟩, hnone', hnone⟩ := hagree.of_accept
  cases hinitiator
  have hnoneNow : ∀ e' f', .commit e' f' ∉ toward peer c := by
    grind
  have hcoming : ∀ e' f', .commit e' f' ∈ toward { stored with unfinished := some u } peer →
      f' = f := by
    intro e' f' hmem
    rw [hmine] at hmem
    rcases List.mem_append.1 hmem with hold | hlast
    · exact absurd hold (hnone e' f')
    · cases List.mem_singleton.1 hlast
      rfl
  have hswitching : ¬ c.Switching peer := by
    rintro (⟨e', f', hmem⟩ | hne)
    · exact hnoneNow e' f' hmem
    · exact hne hnew
  have hstored : Half dh stored peer :=
    h.mine.store h.theirs.ordered.nonempty (h.mine.timely hswitching) _
  have hstored' : Half dh peer stored := by
    refine h.theirs.store_peer htaken fun e' f' heq => ?_
    cases heq
    exact ⟨hzero, hfresh'⟩
  have hordered : Ordered (stored.keys ++ [k]) stored.sent.length := by
    have hold := h.mine.ordered
    rw [allKeys_of_none hnew] at hold
    refine (hold.concat rfl).mono ?_
    change (c.sent.length : Int) ≤ (c.sent ++ [_]).length
    rw [List.length_append]
    omega
  exact
    { agree := by
        rw [hmine, pending_switch hk]
        exact (hagree.handle (.commit gB hf)).symm
      mine := hstored.switch hk hblocks hworking hordered ⟨hzero, hfresh⟩ hnone'
      theirs := by
        refine hstored'.switch_peer hnew hk hm (fun e' f' heq => ?_) h.theirs.seqIn_le_length
          (.inr (.inl ⟨e, f, ?_⟩))
        · rw [hpayload] at heq
          cases heq
        · rw [hmine]
          exact List.mem_append_right _ (List.mem_singleton.2 rfl)
      same := by
        intro hno
        refine absurd ?_ (hno e f)
        rw [hmine]
        exact List.mem_append_right _ (List.mem_singleton.2 rfl)
      coming := by
        intro e' f' hmem e'' k' hpeer
        rw [allKeys_switch hk, newest_concat, hcoming e' f' hmem]
        rw [hacceptor] at hpeer
        cases hpeer
        exact ⟨rfl, rfl⟩
      coming' := fun e' f' hmem => absurd hmem (hnone' e' f') }

theorem Joint.install {e f : Int} (h : Joint dh c peer) (hnew : c.newKey = none)
    (hworking : c.handled < c.processed) (hblocks : c.rekeyBlocks = 0)
    (hm : peer.sent[c.handled]? = some m) (hpayload : m.payload = .commitKey e f) :
    Joint dh { c with unfinished := some (.commitKey c.encryptedData c.sent.length) } peer := by
  let u : Unfinished := .commitKey c.encryptedData c.sent.length
  let k : KeyData Data :=
    { keyId := c.encryptedData.currentRekeyKeyId
      key := c.encryptedData.currentRekeyKey
      firstSeqOut := c.sent.length }
  have hk : u.newKey = some k := rfl
  change Joint dh { c with unfinished := some u } peer
  have htheirs : toward peer c = .commit e f :: toward peer { c with unfinished := some u } := by
    have htaken' : ({ c with unfinished := some u } : Client).taken = c.handled + 1 :=
      taken_switch hk
    rw [toward_peer_taken hnew hm htaken', hpayload]
    rfl
  have hcommit : .commit e f ∈ toward peer c := by
    rw [htheirs]
    exact .head _
  obtain ⟨⟨key, hacceptor, hf⟩, hpeerNot, -, hnone⟩ := h.agree.symm.of_commit hcommit
  have hrecord : c.encryptedData.pending = .acceptor e key := by
    rw [← pending_of_none hnew]
    exact hacceptor
  have hkeyId : k.keyId = f := (h.mine.fingerprint e key hrecord).trans hf
  obtain ⟨-, -, -, hkey⟩ := pending_acceptor hrecord
  have hagree := h.agree.symm
  rw [htheirs] at hagree
  have hnone' := hagree.not_commit_behind
  obtain ⟨hcomingId, hcomingKey⟩ := h.coming' e f hcommit e key hacceptor
  have hordered : Ordered (c.keys ++ [k]) c.sent.length := by
    have hold := h.mine.ordered
    rw [allKeys_of_none hnew] at hold
    exact hold.concat rfl
  have hcurrent : (newest peer.keys).keyId = k.keyId ∨
      peer.Switching { c with unfinished := some u } := by
    cases hpeerNew : peer.newKey with
    | none =>
      rw [allKeys_of_none hpeerNew] at hcomingId
      exact .inl (hcomingId.trans hkeyId.symm)
    | some k' =>
      refine .inr (.inr ?_)
      rw [hpeerNew]
      exact nofun
  exact
    { agree := by
        rw [pending_switch hk]
        rw [hacceptor] at hagree
        have hinstalled := hagree.handle (.install hf)
        rw [List.append_nil] at hinstalled
        exact hinstalled.symm
      mine := by
        refine h.mine.switch hk hblocks hworking hordered ?_ hnone'
        rw [hkeyId]
        exact h.mine.freshComing e f hcommit
      theirs := by
        refine h.theirs.switch_peer hnew hk hm (fun e' f' heq => ?_) h.theirs.seqIn_le_length
          hcurrent
        rw [hpayload] at heq
        cases heq
        exact hkeyId.symm
      same := by
        intro _ _
        rw [allKeys_switch hk, newest_concat, hkeyId]
        change _ ∧ c.encryptedData.currentRekeyKey = _
        rw [hkey]
        exact ⟨hcomingId.symm, hcomingKey.symm⟩
      coming := fun e' f' hmem => absurd hmem (hnone e' f')
      coming' := fun e' f' hmem => absurd hmem (hnone' e' f') }

/-! ## The key is stored -/

/-- The key of the work is stored, and the record cleared. -/
def Client.install (c : Client) (k : KeyData Data) (d : EncryptedData) : Client :=
  { c with
    encryptedData := d.cleared
    keys := c.keys ++ [k]
    handled := c.handled + 1
    unfinished := none }

section Installed

variable {k : KeyData Data} {d : EncryptedData}

theorem allKeys_install (hk : c.newKey = some k) : (c.install k d).allKeys = c.allKeys := by
  rw [allKeys_of_none rfl]
  unfold Client.allKeys
  rw [hk]
  rfl

theorem taken_install (hk : c.newKey = some k) : (c.install k d).taken = c.taken := by
  rw [taken_of_none rfl]
  unfold Client.taken
  rw [hk]
  rfl

theorem pending_install (hk : c.newKey = some k) : (c.install k d).pending = c.pending := by
  rw [pending_of_none rfl]
  unfold Client.pending
  rw [hk]
  rfl

theorem unfinished_ne_none (hk : c.newKey = some k) : c.unfinished ≠ none := by
  intro hnone
  unfold Client.newKey at hk
  rw [hnone] at hk
  cases hk

/-- The new key is the one that this client uses from now on, and the other has it or it is on
its way there. -/
theorem Joint.current_newKey (h : Joint dh c peer) (hk : c.newKey = some k) :
    Current c peer k.keyId := by
  have hpending : c.pending = .idle := by
    unfold Client.pending
    rw [hk]
  have hlast : newest c.allKeys = k := by
    unfold Client.allKeys
    rw [hk]
    exact newest_concat c.keys k
  have hnone' : ∀ e f, .commit e f ∉ toward peer c := by
    intro e f hmem
    obtain ⟨⟨key, hacceptor, -⟩, -⟩ := h.agree.symm.of_commit hmem
    rw [hpending] at hacceptor
    cases hacceptor
  by_cases hcommit : ∃ e f, .commit e f ∈ toward c peer
  · obtain ⟨e, f, hmem⟩ := hcommit
    obtain ⟨⟨key, hacceptor, -⟩, -⟩ := h.agree.of_commit hmem
    obtain ⟨hid, -⟩ := h.coming e f hmem e key hacceptor
    rw [hlast] at hid
    exact .inr (commitBefore_length.2 ⟨e, hid ▸ hmem⟩)
  · obtain ⟨hid, -⟩ := h.same (fun e f hmem => hcommit ⟨e, f, hmem⟩) hnone'
    rw [hlast] at hid
    exact .inl hid

/-- Nothing changes but that the key is where it was counted. -/
theorem Joint.install_newKey (h : Joint dh c peer) (hk : c.newKey = some k) :
    Joint dh (c.install k d) peer := by
  have hall : (c.install k d).allKeys = c.allKeys := allKeys_install hk
  have htaken : (c.install k d).taken = c.taken := taken_install hk
  have hpending : (c.install k d).pending = c.pending := pending_install hk
  have htheirs : toward peer (c.install k d) = toward peer c := by
    unfold toward
    rw [htaken]
  have hnone' : ∀ e f, .commit e f ∉ toward peer c := by
    intro e f hmem
    obtain ⟨⟨key, hacceptor, -⟩, -⟩ := h.agree.symm.of_commit hmem
    rw [newKey_eq_none_of_acceptor hacceptor] at hk
    cases hk
  have hu : c.unfinished ≠ none := unfinished_ne_none hk
  exact
    { agree := by
        rw [hpending, htheirs]
        exact h.agree
      mine :=
        { handled_le := h.mine.working hu
          working := fun hnone => absurd rfl hnone
          processed_le := h.mine.processed_le
          seqIn_le := h.mine.seqIn_le
          blocks := fun hnone => absurd rfl hnone
          loaded := fun _ _ _ hnone => nomatch hnone
          fingerprint := fun _ _ hacceptor => nomatch hacceptor
          nonempty := by simp [Client.install]
          ordered := by
            rw [hall]
            exact h.mine.ordered
          freshNew := fun _ hnone => nomatch hnone
          freshComing := by
            rw [htheirs]
            exact fun e f hmem => absurd hmem (hnone' e f)
          channel := h.mine.channel
          current := by
            have hlast : newest (c.install k d).keys = k := newest_concat c.keys k
            rw [hlast]
            exact fun _ => h.current_newKey hk }
      theirs :=
        { h.theirs with
          channel := by
            rw [hall, htaken]
            exact h.theirs.channel
          current := by
            have hcurrent := h.theirs.current
            unfold Current at hcurrent ⊢
            rw [hall, htaken]
            exact hcurrent }
      same := by
        rw [hall, htheirs]
        exact h.same
      coming := by
        rw [hall]
        exact h.coming
      coming' := by
        rw [htheirs, hpending]
        exact h.coming' }

/-- The work that began with a commit, sent or taken, ends with a `noop`. -/
theorem Joint.installed (h : Joint dh c peer) (hk : c.newKey = some k) :
    Joint dh
      { { c with keys := storeEncryptionKey c.keys k.key k.keyId k.firstSeqOut }.enqueue .noop with
        encryptedData := d.cleared }.next peer := by
  obtain ⟨hzero, hfresh⟩ := h.mine.freshNew k hk
  rw [storeEncryptionKey_of_fresh hzero hfresh]
  have hinstalled : Joint dh (c.install k d) peer := h.install_newKey hk
  unfold Client.enqueue
  by_cases hcomposes : composes c.peerLayer
  · rw [if_pos hcomposes]
    have hnone' : ¬ (c.install k d).Switching peer := by
      rintro (⟨e, f, hmem⟩ | hne)
      · obtain ⟨⟨key, hacceptor, -⟩, -⟩ := hinstalled.agree.symm.of_commit hmem
        cases hacceptor
      · exact hne rfl
    exact hinstalled.store (hinstalled.mine.timely hnone') rfl
  · rw [if_neg hcomposes]
    exact hinstalled

end Installed

end TelegramPub.Ports.SecretRekey
