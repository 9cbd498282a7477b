import TelegramPub.Ports.DatacenterAuth
import TelegramPub.Verified.Machine
import Mathlib.Data.List.Induction

/-!
# Safety of the handshake

Which keys `MTDatacenterAuthMessageService` can complete with, under any sequence
of calls: messages in any order, replayed or left over from earlier attempts,
lost transactions, resets.

A *run* of the handshake is what lies between two resets.  The evidence that a
completion rests on is read off the calls of the current run:
where its nonce was chosen (`NonceChosen`), which `resPQ` answered it
(`PqAnswered`), which parameters were checked (`DhAnswered`), and which
confirmation arrived (`Confirmed`).

`Move` says once what a call can do.  The invariant and both halves of
`handshake_safe` are derived from it.
-/

namespace TelegramPub.Ports.DatacenterAuth

open Verified.Bytes Verified.Machine Ports.InternalMessageParser Ports.DhChecks Ports.TLBuffer

variable (crypto : Crypto) (config : Config)

/-- The state after a call. -/
def next (s : State crypto.isPrime) (e : Step) : State crypto.isPrime :=
  (step crypto config s e).1

/-- The call resets the service. -/
def Resets (s : State crypto.isPrime) (e : Step) : Prop :=
  .requestSecureTransportReset ∈ (step crypto config s e).2

/-- The call completes with a key. -/
def Completes (s : State crypto.isPrime) (e : Step) (key : AuthKey) (timestamp : Int) : Prop :=
  .completedWithAuthKey key timestamp ∈ (step crypto config s e).2

/-! ## What is found in the calls of a run -/

/-- The client chose this nonce. -/
def NonceChosen (current : List Step) (nonce : Data) : Prop :=
  ∃ before around after, current = before ++ (around, .messageTransaction) :: after ∧
    around.nonceBytes.1 = nonce

/-- A `resPQ` with the client's nonce brought this server nonce, and the client
chose this new nonce. -/
def PqAnswered (current : List Step) (nonce serverNonce newNonce : Data) : Prop :=
  ∃ before around messageId pq fingerprints after,
    current = before ++
      (around, .receivedMessage messageId (.resPq nonce serverNonce pq fingerprints)) :: after ∧
    NonceChosen before nonce ∧ around.newNonceBytes.1 = newNonce

/-- The parameters in an encrypted answer, with the checks they pass. -/
structure AcceptedParams (nonce serverNonce newNonce encryptedResponse : Data) where
  answerData : Data
  /-- What the hash does not cover. -/
  rest : Data
  g : Int
  dhPrime : Data
  gA : Data
  serverTime : Int
  rest_length : rest.length < 16
  answer_hash : crypto.aesDecrypt encryptedResponse (tmpAesKey crypto serverNonce newNonce)
      (tmpAesIv crypto serverNonce newNonce) =
    (crypto.sha1 answerData).1 ++ (answerData ++ rest)
  answer_parse : parseMessage answerData =
    .ok (some (.serverDhInnerData nonce serverNonce g dhPrime gA serverTime))
  g_range : 2 ≤ g ∧ g ≤ 7
  g_residue : isQuadraticResidue dhPrime g.toNat = true
  dhPrime_safe : isSafePrime crypto.isPrime dhPrime = true
  gA_range : 1 < beNat gA ∧ (beNat gA : Int) < (beNat dhPrime : Int) - 1

/-- A `server_DH_params_ok` with the current nonces brought accepted parameters,
and the key is the power of its `g_a` by the exponent the client chose. -/
def DhAnswered (current : List Step) (nonce serverNonce newNonce : Data) (key : AuthKey) :
    Prop :=
  ∃ before around messageId encryptedResponse after,
    ∃ params : AcceptedParams crypto nonce serverNonce newNonce encryptedResponse,
      current = before ++
        (around, .receivedMessage messageId
          (.serverDhParamsOk nonce serverNonce encryptedResponse)) :: after ∧
      PqAnswered before nonce serverNonce newNonce ∧
      beNat key.authKey =
        beNat params.gA ^ beNat around.bBytes.1 % beNat params.dhPrime

/-- A `dh_gen_ok` with the current nonces and the right hash confirms the key. -/
def Confirmed (current : List Step) (e : Step) (key : AuthKey) (timestamp : Int) : Prop :=
  ∃ nonce serverNonce newNonce,
    e.2 = .receivedMessage timestamp (.setClientDhParamsResponseOk nonce serverNonce
      (newNonceHash crypto 1 newNonce key.authKey)) ∧
    DhAnswered crypto current nonce serverNonce newNonce key

variable {current : List Step} {nonce serverNonce : Data}

theorem NonceChosen.append (h : NonceChosen current nonce) (e : Step)
    : NonceChosen (current ++ [e]) nonce := by
  obtain ⟨before, around, after, rfl, hnonce⟩ := h
  exact ⟨before, around, after ++ [e], by simp, hnonce⟩

theorem PqAnswered.append {newNonce : Data} (h : PqAnswered current nonce serverNonce newNonce)
    (e : Step) :
    PqAnswered (current ++ [e]) nonce serverNonce newNonce := by
  obtain ⟨before, around, messageId, pq, fingerprints, after, rfl, hrest⟩ := h
  exact ⟨before, around, messageId, pq, fingerprints, after ++ [e], by simp, hrest⟩

theorem DhAnswered.append {newNonce : Data} {key : AuthKey}
    (h : DhAnswered crypto current nonce serverNonce newNonce key) (e : Step) :
    DhAnswered crypto (current ++ [e]) nonce serverNonce newNonce key := by
  obtain ⟨before, around, messageId, encryptedResponse, after, params, rfl, hrest⟩ := h
  exact ⟨before, around, messageId, encryptedResponse, after ++ [e], params, by simp, hrest⟩

/-! ## What a call can do -/

/-- Neither a reset nor a completion. -/
def Quiet (effects : List Effect) : Prop :=
  .requestSecureTransportReset ∉ effects ∧
    ∀ key timestamp, .completedWithAuthKey key timestamp ∉ effects

/-- The secrets of the handshake are the same. -/
structure SameSecrets {isPrime : Nat → Bool} (s s' : State isPrime) : Prop where
  nonce : s'.nonce = s.nonce
  serverNonce : s'.serverNonce = s.serverNonce
  newNonce : s'.newNonce = s.newNonce
  authKey : s'.authKey = s.authKey

/-- The moves of the handshake. -/
inductive Move (s : State crypto.isPrime) : Step → Outcome crypto → Prop where
  | restart {e : Step} {out : Outcome crypto}
      (hstage : out.1.stage = .waitingForPublicKeys ∨ out.1.stage = .pq)
      (hnonce : out.1.nonce = none) (hreset : .requestSecureTransportReset ∈ out.2)
      (hquiet : ∀ key timestamp, .completedWithAuthKey key timestamp ∉ out.2) : Move s e out
  | keep {e : Step} {out : Outcome crypto} (hstage : out.1.stage = s.stage)
      (hsame : SameSecrets s out.1) (hquiet : Quiet out.2) : Move s e out
  | keysArrived {e : Step} {out : Outcome crypto} (hbefore : s.stage = .waitingForPublicKeys)
      (hstage : out.1.stage = .pq) (hsame : SameSecrets s out.1) (hquiet : Quiet out.2) :
      Move s e out
  | nonceChosen {around : Surroundings} {out : Outcome crypto} (hbefore : s.stage = .pq)
      (hstage : out.1.stage = .pq) (hnonce : out.1.nonce = some around.nonceBytes.1)
      (hquiet : Quiet out.2) :
      Move s (around, .messageTransaction) out
  | pqAnswered {around : Surroundings} {messageId : Int} {nonce serverNonce pq : Data}
      {fingerprints : List Int} {out : Outcome crypto} (hbefore : s.stage = .pq)
      (hchosen : s.nonce = some nonce) (hstage : out.1.stage = .reqDh)
      (hnonce : out.1.nonce = some nonce)
      (hserverNonce : out.1.serverNonce = some serverNonce)
      (hnewNonce : out.1.newNonce = some around.newNonceBytes.1) (hquiet : Quiet out.2) :
      Move s (around, .receivedMessage messageId (.resPq nonce serverNonce pq fingerprints)) out
  | dhAnswered {around : Surroundings} {messageId : Int}
      {nonce serverNonce newNonce encryptedResponse : Data} {key : AuthKey}
      {out : Outcome crypto}
      (params : AcceptedParams crypto nonce serverNonce newNonce encryptedResponse)
      (hbefore : s.stage = .reqDh) (hnonce : s.nonce = some nonce)
      (hserverNonce : s.serverNonce = some serverNonce) (hnewNonce : s.newNonce.getD [] = newNonce)
      (hstage : out.1.stage = .keyVerification) (hnonceAfter : out.1.nonce = s.nonce)
      (hserverNonceAfter : out.1.serverNonce = s.serverNonce)
      (hnewNonceAfter : out.1.newNonce = s.newNonce) (hkey : out.1.authKey = some key)
      (hpower : beNat key.authKey =
        beNat params.gA ^ beNat around.bBytes.1 % beNat params.dhPrime)
      (hquiet : Quiet out.2) :
      Move s (around, .receivedMessage messageId
        (.serverDhParamsOk nonce serverNonce encryptedResponse)) out
  | confirmed {around : Surroundings} {messageId : Int} {nonce serverNonce : Data}
      {key : AuthKey} {out : Outcome crypto} (hbefore : s.stage = .keyVerification)
      (hnonce : s.nonce = some nonce) (hserverNonce : s.serverNonce = some serverNonce)
      (hkey : s.authKey = some key) (hstage : out.1.stage = .done)
      (hnonceAfter : out.1.nonce = s.nonce)
      (heffects : out.2 = [.completedWithAuthKey key messageId]) :
      Move s (around, .receivedMessage messageId (.setClientDhParamsResponseOk nonce serverNonce
        (newNonceHash crypto 1 (s.newNonce.getD []) key.authKey))) out

theorem quiet_nil : Quiet [] := ⟨by simp, by simp⟩

theorem quiet_transaction : Quiet [.requestTransportTransaction] := ⟨by simp, by simp⟩

theorem quiet_message (data : Data) (messageId seqNo : Int) :
    Quiet [.message data messageId seqNo] := ⟨by simp, by simp⟩

theorem quiet_raised (exception : NSException) : Quiet [.raised exception] :=
  ⟨by simp, by simp⟩

theorem SameSecrets.rfl {isPrime : Nat → Bool} {s : State isPrime} : SameSecrets s s :=
  ⟨Eq.refl _, Eq.refl _, Eq.refl _, Eq.refl _⟩

variable {s : State crypto.isPrime}

/-- Nothing happens. -/
theorem Move.ignore {e : Step} : Move crypto s e (s, []) :=
  .keep rfl .rfl quiet_nil

theorem reset_move {s' : State crypto.isPrime} {e : Step} (around : Surroundings) :
    Move crypto s e (reset crypto config around s') := by
  unfold reset
  split
  · split
    · exact .restart (.inl rfl) rfl (by simp) (by simp)
    · exact .restart (.inr rfl) rfl (by simp) (by simp)
  · exact .restart (.inr rfl) rfl (by simp) (by simp)

theorem publicKeysUpdated_move (s : State crypto.isPrime) (e : Step) (datacenterId : Int)
    (publicKeys : Option (List PublicKey)) :
    Move crypto s e (publicKeysUpdated crypto config s datacenterId publicKeys) := by
  unfold publicKeysUpdated
  split
  · next hcase =>
    split
    · exact .keysArrived hcase.1 rfl ⟨rfl, rfl, rfl, rfl⟩ quiet_transaction
    · exact .keep rfl ⟨rfl, rfl, rfl, rfl⟩ quiet_nil
  · exact .ignore crypto

theorem messageTransaction_move (s : State crypto.isPrime) (around : Surroundings) :
    Move crypto s (around, .messageTransaction) (messageTransaction crypto around s) := by
  unfold messageTransaction stageMessage
  split
  · cases hstage : s.stage with
    | waitingForPublicKeys => exact .ignore crypto
    | pq =>
      cases hnonce : s.nonce with
      | none => exact .nonceChosen hstage rfl rfl (quiet_message _ _ _)
      | some nonce =>
        exact .keep hstage.symm ⟨hnonce.symm, rfl, rfl, rfl⟩ (quiet_message _ _ _)
    | reqDh => exact .keep rfl .rfl (quiet_message _ _ _)
    | keyVerification => exact .keep rfl .rfl (quiet_message _ _ _)
    | done => exact .ignore crypto
  · exact .ignore crypto

theorem completion_move (s : State crypto.isPrime) (e : Step) (stage : Stage)
    (prepared : Option (Int × Int)) (transactionId : Option Nat) :
    Move crypto s e (completion crypto s stage prepared transactionId) := by
  unfold completion
  split
  · split
    · exact .keep rfl ⟨rfl, rfl, rfl, rfl⟩ quiet_nil
    · exact .ignore crypto
  · exact .ignore crypto

theorem transactionFailed_move (s : State crypto.isPrime) (e : Step) :
    Move crypto s e (transactionFailed crypto s) :=
  .keep rfl ⟨rfl, rfl, rfl, rfl⟩ quiet_transaction

theorem receivedResPq_move (around : Surroundings) (messageId : Int) (nonce serverNonce pq : Data)
    (fingerprints : List Int) (hstage : s.stage = .pq) :
    Move crypto s (around, .receivedMessage messageId (.resPq nonce serverNonce pq fingerprints))
      (receivedResPq crypto config around s nonce serverNonce pq fingerprints) := by
  unfold receivedResPq
  split
  · next hnonce =>
    split
    · exact reset_move crypto config around
    · split
      · exact reset_move crypto config around
      · exact .pqAnswered hstage hnonce rfl hnonce rfl rfl quiet_transaction
  · exact .ignore crypto

/-- The loop returns a beginning of the answer that has the hash. -/
theorem verifyAnswer_spec {answerHash : Data} :
    ∀ {tries : Nat} {answer found : Data},
      verifyAnswer crypto answerHash tries answer = .ok (some found) →
      (crypto.sha1 found).1 = answerHash ∧
        ∃ rest, answer = found ++ rest ∧ rest.length < tries := by
  intro tries
  induction tries with
  | zero => intro answer found h; cases h
  | succ tries ih =>
    intro answer found h
    unfold verifyAnswer at h
    split at h
    · next hhash =>
      obtain rfl := Option.some.inj (Except.ok.inj h)
      exact ⟨hhash, [], by simp, by simp⟩
    · split at h
      · cases h
      · next hne =>
        obtain ⟨hhash, rest, hrest, hlength⟩ := ih h
        refine ⟨hhash, rest ++ [answer.getLast hne], ?_, ?_⟩
        · rw [← List.append_assoc, ← hrest, List.dropLast_append_getLast hne]
        · rw [List.length_append]
          exact Nat.succ_lt_succ hlength

/-- Parameters that pass the checks lead to the next stage; all others to a
reset. -/
theorem receivedInnerData_move (around : Surroundings) (messageId : Int)
    {encryptedResponse answerData rest : Data} {g : Int} {dhPrime gA : Data} {serverTime : Int}
    (hstage : s.stage = .reqDh) (hnonce : s.nonce = some nonce)
    (hserverNonce : s.serverNonce = some serverNonce) (hrest : rest.length < 16)
    (hhash : crypto.aesDecrypt encryptedResponse (tmpAesKey crypto serverNonce (s.newNonce.getD []))
        (tmpAesIv crypto serverNonce (s.newNonce.getD [])) =
      (crypto.sha1 answerData).1 ++ (answerData ++ rest)) {innerNonce innerServerNonce : Data}
    (hparse : parseMessage answerData = .ok (some
      (.serverDhInnerData innerNonce innerServerNonce g dhPrime gA serverTime))) :
    Move crypto s (around, .receivedMessage messageId
        (.serverDhParamsOk nonce serverNonce encryptedResponse))
      (receivedInnerData crypto config around s innerNonce innerServerNonce g dhPrime gA) := by
  unfold receivedInnerData
  split
  · exact reset_move crypto config around
  · next hinner =>
    split
    · exact reset_move crypto config around
    · next hinnerServer =>
      split
      · exact reset_move crypto config around
      · next hg =>
        split
        · exact reset_move crypto config around
        · next hgA =>
          have hmod := checkMod_fst s.keychain dhPrime g.toNat
          generalize checkMod s.keychain dhPrime g.toNat = checked at hmod
          obtain ⟨modSafe, keychain⟩ := checked
          dsimp only at hmod ⊢
          split
          · exact reset_move crypto config around
          · next hmodSafe =>
            have hprime := checkIsSafePrime_fst keychain dhPrime
            generalize checkIsSafePrime keychain dhPrime = checked at hprime
            obtain ⟨primeSafe, keychain'⟩ := checked
            dsimp only at hprime ⊢
            split
            · exact reset_move crypto config around
            · next hprimeSafe =>
              obtain rfl : nonce = innerNonce := by
                rw [hnonce] at hinner
                exact Option.some.inj (not_not.1 hinner)
              obtain rfl : serverNonce = innerServerNonce := by
                rw [hserverNonce] at hinnerServer
                exact Option.some.inj (not_not.1 hinnerServer)
              have hrange := (checkIsSafeG_iff g.toNat).1 (by
                by_contra hunsafe
                exact hg (.inr (Bool.eq_false_of_not_eq_true hunsafe)))
              let params : AcceptedParams crypto nonce serverNonce (s.newNonce.getD [])
                  encryptedResponse := {
                answerData, rest, g, dhPrime, gA, serverTime
                rest_length := hrest
                answer_hash := hhash
                answer_parse := hparse
                g_range := by omega
                g_residue := hmod ▸ Bool.eq_true_of_not_eq_false hmodSafe
                dhPrime_safe := hprime ▸ Bool.eq_true_of_not_eq_false hprimeSafe
                gA_range := (checkIsSafeGAOrB_iff gA dhPrime).1
                  (Bool.eq_true_of_not_eq_false hgA) }
              exact .dhAnswered params hstage hnonce hserverNonce rfl rfl rfl rfl rfl rfl
                (beNat_exp gA around.bBytes.1 dhPrime) quiet_transaction

theorem receivedServerDhParams_move (around : Surroundings) (messageId : Int)
    (nonce serverNonce encryptedResponse : Data) (hstage : s.stage = .reqDh) :
    Move crypto s (around, .receivedMessage messageId
        (.serverDhParamsOk nonce serverNonce encryptedResponse))
      (receivedServerDhParams crypto config around s nonce serverNonce
        (some encryptedResponse)) := by
  unfold receivedServerDhParams
  split
  · next hnonces =>
    obtain ⟨hnonce, hserverNonce⟩ := hnonces
    dsimp only
    unfold receivedAnswer
    rw [hserverNonce, Option.getD_some]
    dsimp only
    generalize hanswer : crypto.aesDecrypt encryptedResponse
      (tmpAesKey crypto serverNonce (s.newNonce.getD []))
      (tmpAesIv crypto serverNonce (s.newNonce.getD [])) = answerWithHash
    split
    · exact .keep rfl .rfl (quiet_raised _)
    · split
      · exact .keep rfl .rfl (quiet_raised _)
      · exact reset_move crypto config around
      · next answerData hverify =>
        obtain ⟨hhash, rest, hrest, hlength⟩ := verifyAnswer_spec crypto hverify
        have hsplit : answerWithHash = (crypto.sha1 answerData).1 ++ (answerData ++ rest) := by
          rw [hhash, ← hrest, List.take_append_drop]
        split
        · exact .keep rfl .rfl (quiet_raised _)
        · grind [next, receivedInnerData_move]
        · exact reset_move crypto config around
  · exact .ignore crypto

theorem receivedDhGenOk_move (around : Surroundings) (messageId : Int)
    (nonce serverNonce nextNonceHash1 : Data) (hstage : s.stage = .keyVerification) :
    Move crypto s (around, .receivedMessage messageId
        (.setClientDhParamsResponseOk nonce serverNonce nextNonceHash1))
      (receivedDhGenOk crypto config around s messageId nonce serverNonce
        nextNonceHash1) := by
  unfold receivedDhGenOk
  split
  · next hnonces =>
    split
    · exact .ignore crypto
    · next key hkey =>
      split
      · exact reset_move crypto config around
      · next hhash =>
        obtain rfl := not_not.1 hhash
        exact .confirmed hstage hnonces.1 hnonces.2 hkey rfl rfl rfl
  · exact .ignore crypto

theorem receivedDhGenOther_move (e : Step) (around : Surroundings) (nonce serverNonce : Data) :
    Move crypto s e (receivedDhGenOther crypto config around s nonce serverNonce) := by
  unfold receivedDhGenOther
  split
  · exact reset_move crypto config around
  · exact .ignore crypto

theorem receivedMessage_move (s : State crypto.isPrime) (around : Surroundings)
    (messageId : Int) (body : InternalMessage) :
    Move crypto s (around, .receivedMessage messageId body)
      (receivedMessage crypto config around s messageId body) := by
  unfold receivedMessage
  split
  · next hstage => exact receivedResPq_move crypto config around messageId _ _ _ _ hstage
  · next hstage => exact receivedServerDhParams_move crypto config around messageId _ _ _ hstage
  · unfold receivedServerDhParams
    split
    · exact reset_move crypto config around
    · exact .ignore crypto
  · next hstage => exact receivedDhGenOk_move crypto config around messageId _ _ _ hstage
  · exact receivedDhGenOther_move crypto config _ around _ _
  · exact receivedDhGenOther_move crypto config _ around _ _
  · exact .ignore crypto

theorem step_move (s : State crypto.isPrime) (e : Step) :
    Move crypto s e (step crypto config s e) := by
  obtain ⟨around, event⟩ := e
  cases event with
  | didAddService => exact reset_move crypto config around
  | publicKeysUpdated datacenterId publicKeys =>
    exact publicKeysUpdated_move crypto config s _ datacenterId publicKeys
  | messageTransaction => exact messageTransaction_move crypto s around
  | completion stage prepared transactionId =>
    exact completion_move crypto s _ stage prepared transactionId
  | receivedMessage messageId body =>
    exact receivedMessage_move crypto config s around messageId body
  | protocolErrorReceived => exact reset_move crypto config around
  | transactionsMayHaveFailed transactionIds =>
    dsimp only [step]
    split
    · split
      · exact transactionFailed_move crypto s _
      · exact .ignore crypto
    · exact .ignore crypto
  | allTransactionsMayHaveFailed =>
    dsimp only [step]
    split
    · exact transactionFailed_move crypto s _
    · exact .ignore crypto

/-! ## The invariant of a run -/

/-- What the state says is borne out by the calls of the current run. -/
structure Inv (current : List Step) (s : State crypto.isPrime) : Prop where
  nonce : ∀ nonce, s.nonce = some nonce → NonceChosen current nonce
  reqDh : s.stage = .reqDh → ∃ nonce serverNonce newNonce,
    s.nonce = some nonce ∧ s.serverNonce = some serverNonce ∧ s.newNonce = some newNonce ∧
      PqAnswered current nonce serverNonce newNonce
  keyVerification : s.stage = .keyVerification → ∃ nonce serverNonce newNonce key,
    s.nonce = some nonce ∧ s.serverNonce = some serverNonce ∧ s.newNonce = some newNonce ∧
      s.authKey = some key ∧ DhAnswered crypto current nonce serverNonce newNonce key

/-- A state at the beginning of a run. -/
theorem inv_start (hstage : s.stage = .waitingForPublicKeys ∨ s.stage = .pq)
    (hnonce : s.nonce = none) :
    Inv crypto [] s where
  nonce := by
    intro nonce h
    rw [hnonce] at h
    cases h
  reqDh := by
    intro h
    rw [h] at hstage
    rcases hstage with h | h <;> cases h
  keyVerification := by
    intro h
    rw [h] at hstage
    rcases hstage with h | h <;> cases h

/-- The invariant passes to a state with the same secrets, in the same stage or
in one that promises nothing. -/
theorem Inv.same {s' : State crypto.isPrime} (hinv : Inv crypto current s) (e : Step)
    (hstage : s'.stage = s.stage ∨ s'.stage = .pq) (hsame : SameSecrets s s') :
    Inv crypto (current ++ [e]) s' where
  nonce := by
    intro nonce h
    rw [hsame.nonce] at h
    exact (hinv.nonce nonce h).append e
  reqDh := by
    intro h
    rcases hstage with hstage | hstage
    · obtain ⟨nonce, serverNonce, newNonce, hn, hs, hw, hanswered⟩ :=
        hinv.reqDh (hstage.symm.trans h)
      exact ⟨nonce, serverNonce, newNonce, by rw [hsame.nonce, hn], by rw [hsame.serverNonce, hs],
        by rw [hsame.newNonce, hw], hanswered.append e⟩
    · rw [h] at hstage
      cases hstage
  keyVerification := by
    intro h
    rcases hstage with hstage | hstage
    · obtain ⟨nonce, serverNonce, newNonce, key, hn, hs, hw, hk, hanswered⟩ :=
        hinv.keyVerification (hstage.symm.trans h)
      exact ⟨nonce, serverNonce, newNonce, key, by rw [hsame.nonce, hn],
        by rw [hsame.serverNonce, hs], by rw [hsame.newNonce, hw], by rw [hsame.authKey, hk],
        hanswered.append crypto e⟩
    · rw [h] at hstage
      cases hstage

/-- A call that resets starts a new run, and every other call continues the
current one. -/
theorem step_inv (hinv : Inv crypto current s) (e : Step) :
    (Resets crypto config s e → Inv crypto [] (next crypto config s e)) ∧
      (¬ Resets crypto config s e → Inv crypto (current ++ [e]) (next crypto config s e)) := by
  unfold Resets next
  have hmove := step_move crypto config s e
  generalize step crypto config s e = out at hmove
  cases hmove with
  | restart hstage hnonce hreset _ =>
    exact ⟨fun _ => inv_start crypto hstage hnonce, fun h => absurd hreset h⟩
  | keep hstage hsame hquiet =>
    exact ⟨fun h => absurd h hquiet.1, fun _ => hinv.same crypto e (.inl hstage) hsame⟩
  | keysArrived _ hstage hsame hquiet =>
    exact ⟨fun h => absurd h hquiet.1, fun _ => hinv.same crypto e (.inr hstage) hsame⟩
  | nonceChosen _ hstage hnonce hquiet =>
    refine ⟨fun h => absurd h hquiet.1, fun _ => ⟨?_, ?_, ?_⟩⟩
    · intro nonce h
      rw [hnonce] at h
      exact ⟨current, _, [], rfl, Option.some.inj h⟩
    · intro h
      rw [hstage] at h
      cases h
    · intro h
      rw [hstage] at h
      cases h
  | pqAnswered _ hchosen hstage hnonce hserverNonce hnewNonce hquiet =>
    refine ⟨fun h => absurd h hquiet.1, fun _ => ⟨?_, ?_, ?_⟩⟩
    · intro nonce h
      rw [hnonce, ← hchosen] at h
      exact (hinv.nonce nonce h).append _
    · intro _
      exact ⟨_, _, _, hnonce, hserverNonce, hnewNonce, current, _, _, _, _, [], rfl,
        hinv.nonce _ hchosen, rfl⟩
    · intro h
      rw [hstage] at h
      cases h
  | dhAnswered params hbefore hnonce hserverNonce hnewNonce hstage hnonceAfter hserverNonceAfter
      hnewNonceAfter hkey hpower hquiet =>
      refine ⟨fun h => absurd h hquiet.1, fun _ => ⟨?_, ?_, ?_⟩⟩
      · intro nonce h
        rw [hnonceAfter] at h
        exact (hinv.nonce nonce h).append _
      · intro h
        rw [hstage] at h
        cases h
      · intro _
        obtain ⟨nonce', serverNonce', newNonce, hn, hs, hw, hanswered⟩ := hinv.reqDh hbefore
        obtain rfl := Option.some.inj (hnonce.symm.trans hn)
        obtain rfl := Option.some.inj (hserverNonce.symm.trans hs)
        rw [hw, Option.getD_some] at hnewNonce
        subst hnewNonce
        exact ⟨_, _, _, _, hnonceAfter.trans hnonce, hserverNonceAfter.trans hserverNonce,
          hnewNonceAfter.trans hw, hkey, current, _, _, _, [], params, rfl, hanswered, hpower⟩
  | confirmed hbefore hnonce hserverNonce hkey hstage hnonceAfter heffects =>
    refine ⟨fun h => ?_, fun _ => ⟨?_, ?_, ?_⟩⟩
    · rw [heffects] at h
      simp at h
    · intro nonce h
      rw [hnonceAfter] at h
      exact (hinv.nonce nonce h).append _
    · intro h
      rw [hstage] at h
      cases h
    · intro h
      rw [hstage] at h
      cases h

theorem run_inv (keychain : Keychain crypto.isPrime) (steps : List Step) :
    ∃ earlier current, steps = earlier ++ current ∧
      Guarded (next crypto config) (fun s e => ¬ Resets crypto config s e)
        (run (next crypto config) (.initial keychain) earlier) current ∧
      Inv crypto current (run (next crypto config) (.initial keychain) steps) := by
  induction steps using List.reverseRecOn with
  | nil => exact ⟨[], [], rfl, trivial, inv_start crypto (.inl rfl) rfl⟩
  | append_singleton steps e ih =>
    obtain ⟨earlier, current, hsplit, hguarded, hinv⟩ := ih
    rw [run_append]
    obtain ⟨hreset, hcontinue⟩ := step_inv crypto config hinv e
    by_cases h : Resets crypto config (run (next crypto config) (.initial keychain) steps) e
    · exact ⟨steps ++ [e], [], by simp, trivial, hreset h⟩
    · refine ⟨earlier, current ++ [e], by rw [hsplit, List.append_assoc], ?_, hcontinue h⟩
      rw [guarded_append]
      refine ⟨hguarded, ?_, trivial⟩
      rw [← run_append, ← hsplit]
      exact h

theorem completes_confirmed (hinv : Inv crypto current s) {e : Step} {key : AuthKey}
    {timestamp : Int} (h : Completes crypto config s e key timestamp) :
    Confirmed crypto current e key timestamp ∧ s.stage = .keyVerification ∧
      (next crypto config s e).stage = .done := by
  unfold Completes at h
  unfold next
  have hmove := step_move crypto config s e
  generalize step crypto config s e = out at hmove h
  cases hmove with
  | restart _ _ _ hquiet => exact absurd h (hquiet key timestamp)
  | keep _ _ hquiet => exact absurd h (hquiet.2 key timestamp)
  | keysArrived _ _ _ hquiet => exact absurd h (hquiet.2 key timestamp)
  | nonceChosen _ _ _ hquiet => exact absurd h (hquiet.2 key timestamp)
  | pqAnswered _ _ _ _ _ _ hquiet => exact absurd h (hquiet.2 key timestamp)
  | dhAnswered _ _ _ _ _ _ _ _ _ _ _ hquiet => exact absurd h (hquiet.2 key timestamp)
  | confirmed hbefore hnonce hserverNonce hkey hstage _ heffects =>
    rw [heffects, List.mem_singleton] at h
    obtain ⟨rfl, rfl⟩ := Effect.completedWithAuthKey.inj h
    obtain ⟨nonce, serverNonce, newNonce, key', hn, hs, hw, hk, hanswered⟩ :=
      hinv.keyVerification hbefore
    obtain rfl := Option.some.inj (hnonce.symm.trans hn)
    obtain rfl := Option.some.inj (hserverNonce.symm.trans hs)
    obtain rfl := Option.some.inj (hkey.symm.trans hk)
    refine ⟨⟨_, _, newNonce, ?_, hanswered⟩, hbefore, hstage⟩
    rw [hw, Option.getD_some]

theorem done_kept (hdone : s.stage = .done) {e : Step} (hreset : ¬ Resets crypto config s e)
    : (next crypto config s e).stage = .done := by
  unfold Resets at hreset
  unfold next
  have hmove := step_move crypto config s e
  generalize step crypto config s e = out at hmove hreset
  cases hmove with
  | restart _ _ h _ => exact absurd h hreset
  | keep hstage _ _ => rw [hstage, hdone]
  | keysArrived hbefore _ _ _ => exact absurd (hbefore.symm.trans hdone) (by decide)
  | nonceChosen hbefore _ _ _ => exact absurd (hbefore.symm.trans hdone) (by decide)
  | pqAnswered hbefore _ _ _ _ _ _ => exact absurd (hbefore.symm.trans hdone) (by decide)
  | dhAnswered _ hbefore _ _ _ _ _ _ _ _ _ _ =>
    exact absurd (hbefore.symm.trans hdone) (by decide)
  | confirmed _ _ _ _ hstage _ _ => exact hstage

theorem run_done (hdone : s.stage = .done) {steps : List Step}
    (h : Guarded (next crypto config) (fun s e => ¬ Resets crypto config s e) s steps) :
    (run (next crypto config) s steps).stage = .done := by
  have hkept : ∀ (s : State crypto.isPrime) (e : Step), ¬ Resets crypto config s e →
      s.stage = .done → (next crypto config s e).stage = .done :=
    fun _ _ hreset hdone => done_kept crypto config hdone hreset
  exact guarded_invariant hkept steps s h hdone

/-- In every sequence of calls the service completes only with a key that the
calls since the last reset justify, and between two completions it is reset. -/
theorem handshake_safe (keychain : Keychain crypto.isPrime) :
    (∀ (steps : List Step) (e : Step) (key : AuthKey) (timestamp : Int),
      Completes crypto config (run (next crypto config) (.initial keychain) steps) e key
        timestamp →
      ∃ earlier current, steps = earlier ++ current ∧
        Guarded (next crypto config) (fun s e => ¬ Resets crypto config s e)
          (run (next crypto config) (.initial keychain) earlier) current ∧
        Confirmed crypto current e key timestamp) ∧
    (∀ (steps : List Step) (e : Step) (between : List Step) (e' : Step) (key key' : AuthKey)
      (timestamp timestamp' : Int),
      Completes crypto config (run (next crypto config) (.initial keychain) steps) e key
        timestamp →
      Completes crypto config
        (run (next crypto config) (.initial keychain) (steps ++ e :: between)) e' key'
        timestamp' →
      ¬ Guarded (next crypto config) (fun s e => ¬ Resets crypto config s e)
        (run (next crypto config) (.initial keychain) (steps ++ [e])) between) := by
  constructor
  · intro steps e key timestamp hcompletes
    obtain ⟨earlier, current, hsplit, hguarded, hinv⟩ := run_inv crypto config keychain steps
    exact ⟨earlier, current, hsplit, hguarded,
      (completes_confirmed crypto config hinv hcompletes).1⟩
  · intro steps e between e' key key' timestamp timestamp' hcompletes hagain hguarded
    obtain ⟨_, _, _, _, hinv⟩ := run_inv crypto config keychain steps
    obtain ⟨_, _, _, _, hinv'⟩ := run_inv crypto config keychain (steps ++ e :: between)
    have hdone := (completes_confirmed crypto config hinv hcompletes).2.2
    have hverifying := (completes_confirmed crypto config hinv' hagain).2.1
    rw [run_append, run_cons] at hverifying
    rw [run_append, run_cons, run_nil] at hguarded
    have hstill := run_done crypto config hdone hguarded
    exact absurd (hstill.symm.trans hverifying) (by decide)

/-! ### A handshake that completes -/

/-- Primitives without secrets. -/
def plainCrypto : Crypto where
  sha1 := fun _ => ⟨List.replicate 20 0, by decide⟩
  aesEncrypt := fun data _ _ => data
  aesDecrypt := fun data _ _ => data
  rsaEncrypt := fun _ data => data
  factorize := fun _ => some (3, 5)
  isPrime := fun _ => true

/-- Zero bytes, as many as are asked for. -/
def zeroBytes (count : Nat) : { bytes : Data // bytes.length = count } :=
  ⟨List.replicate count 0, List.length_replicate⟩

/-- All random bytes are zero. -/
def plainSurroundings : Surroundings where
  publicKeysForDatacenter := none
  nonceBytes := zeroBytes 16
  newNonceBytes := zeroBytes 32
  bBytes := zeroBytes 256
  fillBytes := fun _ => 0
  leadBytes := fun _ => 0

/-- The generator 4 and `g_a = 2` in a number of 2048 bits. -/
def plainInnerData : Data :=
  int32Bytes 0xb5890dba ++ List.replicate 16 0 ++ List.replicate 16 1 ++ int32Bytes 4 ++
    tlBytes (0x80 :: List.replicate 255 0) ++ tlBytes [2] ++ int32Bytes 0

/-- The calls before the confirmation. -/
def plainSteps : List Step :=
  [ (plainSurroundings, .didAddService), (plainSurroundings, .messageTransaction),
    (plainSurroundings, .receivedMessage 1
      (.resPq (List.replicate 16 0) (List.replicate 16 1) [15] [int64 0x9a996a1db11c729b])),
    (plainSurroundings, .receivedMessage 5
      (.serverDhParamsOk (List.replicate 16 0) (List.replicate 16 1)
        (List.replicate 20 0 ++ plainInnerData))) ]

/-- The confirmation. -/
def plainConfirmation : Step :=
  (plainSurroundings, .receivedMessage 9
    (.setClientDhParamsResponseOk (List.replicate 16 0) (List.replicate 16 1)
      (List.replicate 16 0)))

def plainConfig : Config := { tempAuth := false, cdn := false, datacenterId := 2 }

/-- The service completes with the key `2 ^ 0`, as its calls justify. -/
theorem handshake_safe_plain :
    Completes plainCrypto plainConfig
        (run (next plainCrypto plainConfig) (.initial .empty) plainSteps) plainConfirmation
        { authKey := [1], authKeyId := 0 } 9 ∧
      ∃ earlier current, plainSteps = earlier ++ current ∧
        Guarded (next plainCrypto plainConfig)
          (fun s e => ¬ Resets plainCrypto plainConfig s e)
          (run (next plainCrypto plainConfig) (.initial .empty) earlier) current ∧
        Confirmed plainCrypto current plainConfirmation { authKey := [1], authKeyId := 0 } 9 := by
  have hcompletes : Completes plainCrypto plainConfig
      (run (next plainCrypto plainConfig) (.initial .empty) plainSteps) plainConfirmation
      { authKey := [1], authKeyId := 0 } 9 := by
    unfold Completes
    decide +kernel
  exact ⟨hcompletes, (handshake_safe plainCrypto plainConfig .empty).1 _ _ _ _ hcompletes⟩

end TelegramPub.Ports.DatacenterAuth
