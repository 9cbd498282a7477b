import TelegramPub.Ports.DatacenterAuthSafety
import TelegramPub.Ports.Factorize
import TelegramPub.Verified.BigEndian

/-!
# The handshake and what a server may send

`MTDatacenterAuthMessageService` with the factorization of `MTFactorize`.  Whatever the server
sends, the service never loops for ever; the rest holds of the answers that `Readable` and
`received_robust` describe.

* A challenge below two is divided by zero.
* A decrypted answer must have the 20 bytes of the hash, and 16 bytes to take away unless a hash
  fits before; and the parser must not raise.

Messages with other nonces are ignored.
-/

namespace TelegramPub.Ports.HandshakeRobustness

open Verified.Bytes Ports.DatacenterAuth Ports.Factorize Ports.InternalMessageParser

/-- `pq <<= 8; pq |= byte`. -/
def appendByte (pq : UInt64) (byte : UInt8) : UInt64 := (pq <<< 8) ||| byte.toUInt64

/-- The loop that makes a number of the bytes of `pq`. -/
def pqNumber (pqBytes : Data) : UInt64 := pqBytes.foldl appendByte 0

/-- `MTFactorize` as a function without faults. -/
def factors (draws : Draws) (what : Nat) : Option (Nat × Nat) :=
  match mtFactorize draws (UInt64.ofNat what) with
  | .ok (some (resA, resB)) => some (resA.toNat, resB.toNat)
  | _ => none

variable (draws : Draws) (crypto : Crypto) (config : Config)

/-- The primitives with `MTFactorize` among them. -/
def withFactorize : Crypto := { crypto with factorize := factors draws }

/-- `resPQ` in the stage that waits for it: `MTFactorize` is called when there is a key. -/
def receivedChallenge (around : Surroundings) (s : State crypto.isPrime)
    (nonce serverNonce pq : Data) (fingerprints : List Int) : Except Fault (Outcome crypto) :=
  let out := receivedResPq (withFactorize draws crypto) config around s nonce serverNonce pq
    fingerprints
  if s.nonce = some nonce ∧
      (publicKeyFor config.cdn fingerprints (s.publicKeys.getD [])).isSome then
    match mtFactorize draws (pqNumber pq) with
    | .error fault => .error fault
    | .ok _ => .ok out
  else .ok out

/-- `mtProto:receivedMessage:`. -/
def received (around : Surroundings) (s : State crypto.isPrime) (messageId : Int)
    (body : InternalMessage) : Except Fault (Outcome crypto) :=
  match s.stage, body with
  | .pq, .resPq nonce serverNonce pq fingerprints =>
    receivedChallenge draws crypto config around s nonce serverNonce pq fingerprints
  | _, _ => .ok (receivedMessage (withFactorize draws crypto) config around s messageId body)

/-- The service resets, or it is in the next stage. -/
def Proceeds {crypto : Crypto} (result : Except Fault (Outcome crypto)) (stage : Stage) : Prop :=
  ∃ out, result = .ok out ∧ (.requestSecureTransportReset ∈ out.2 ∨ out.1.stage = stage)

/-- The decrypted answer. -/
def answerWithHash (s : State crypto.isPrime) (encryptedResponse : Data) : Data :=
  crypto.aesDecrypt encryptedResponse
    (tmpAesKey crypto (s.serverNonce.getD []) (s.newNonce.getD []))
    (tmpAesIv crypto (s.serverNonce.getD []) (s.newNonce.getD []))

/-- A beginning of an answer that has the hash, when fewer than `tries` bytes are taken away and
no longer one has it. -/
def HasHash (sha1 : Data → { bytes : Data // bytes.length = 20 }) (hash : Data) (tries : Nat)
    (answer found : Data) : Prop :=
  ∃ k < tries, k ≤ answer.length ∧ found = answer.take (answer.length - k) ∧
    (sha1 found).1 = hash ∧
    ∀ j < k, (sha1 (answer.take (answer.length - j))).1 ≠ hash

/-- An answer that the service can read: the hash is whole, there is enough to take away, and
the parser does not raise. -/
structure Readable (sha1 : Data → { bytes : Data // bytes.length = 20 }) (answer : Data) :
    Prop where
  hash : 20 ≤ answer.length
  rest : 36 ≤ answer.length ∨
    ∃ found, HasHash sha1 (answer.take 20) 16 (answer.drop 20) found
  parse : ∀ found, HasHash sha1 (answer.take 20) 16 (answer.drop 20) found →
    parseMessage found ≠ .error .raised

theorem toNat_appendByte (pq : UInt64) (byte : UInt8) :
    (appendByte pq byte).toNat = (pq.toNat * 256 + byte.toNat) % 2 ^ 64 := by
  have hbyte : byte.toNat < 2 ^ 8 := byte.toNat_lt
  have hlow : (pq <<< 8).toNat = (pq.toNat % 2 ^ 56) <<< 8 := by
    rw [UInt64.toNat_shiftLeft, Nat.shiftLeft_eq, Nat.shiftLeft_eq]
    show pq.toNat * 256 % 2 ^ 64 = pq.toNat % 2 ^ 56 * 256
    omega
  rw [appendByte, UInt64.toNat_or, hlow, UInt8.toNat_toUInt64,
    ← Nat.shiftLeft_add_eq_or_of_lt hbyte, Nat.shiftLeft_eq]
  omega

theorem toNat_foldl_appendByte (pqBytes : Data) :
    ∀ pq : UInt64, (pqBytes.foldl appendByte pq).toNat =
      (pq.toNat * 256 ^ pqBytes.length + beNat pqBytes) % 2 ^ 64 := by
  induction pqBytes with
  | nil =>
    intro pq
    show pq.toNat = (pq.toNat * 1 + 0) % 2 ^ 64
    have := pq.toNat_lt
    omega
  | cons byte pqBytes ih =>
    intro pq
    have hsplit : beNat (byte :: pqBytes) =
        byte.toNat * 256 ^ pqBytes.length + beNat pqBytes := by
      have happend := beNat_append [byte] pqBytes
      have hone : beNat [byte] = byte.toNat := by simp [beNat, leNat]
      rwa [hone] at happend
    have hcongr : (pq.toNat * 256 + byte.toNat) % 2 ^ 64 * 256 ^ pqBytes.length + beNat pqBytes ≡
        (pq.toNat * 256 + byte.toNat) * 256 ^ pqBytes.length + beNat pqBytes [MOD 2 ^ 64] :=
      ((Nat.mod_modEq _ _).mul_right _).add_right _
    rw [List.foldl_cons, ih, toNat_appendByte, hsplit, List.length_cons, pow_succ 256, hcongr]
    congr 1
    ring

/-- The number is that of the last eight bytes. -/
theorem toNat_pqNumber (pqBytes : Data) : (pqNumber pqBytes).toNat = beNat pqBytes % 2 ^ 64 := by
  rw [pqNumber, toNat_foldl_appendByte]
  congr 1
  show 0 * _ + _ = _
  rw [Nat.zero_mul, Nat.zero_add]

/-- Below two the first pass divides by zero. -/
theorem mtFactorize_small {what : UInt64} (h : what.toNat < 2) :
    mtFactorize draws what = .error .divisionByZero := by
  have hstart : passStart draws what {} = .error .divisionByZero := by
    have hcases : what = 0 ∨ what = 1 := by
      rcases Nat.lt_or_ge what.toNat 1 with h0 | h1
      · exact .inl (UInt64.toNat_inj.1 (by show what.toNat = 0; omega))
      · exact .inr (UInt64.toNat_inj.1 (by show what.toNat = 1; omega))
    rcases hcases with rfl | rfl
    · rfl
    · rfl
  have hturn : passTurn draws what {} = .error .divisionByZero := by
    rw [passTurn, if_pos (.inl (by decide)), hstart]
    rfl
  have hloop : Verified.Loop.loop .endless (passTurn draws what) (3999 + 1) {} =
      .error .divisionByZero := by
    rw [Verified.Loop.loop, hturn]
  rw [mtFactorize, hloop]
  rfl

theorem reset_resets (around : Surroundings) (s : State crypto.isPrime) :
    .requestSecureTransportReset ∈ (reset crypto config around s).2 := by
  unfold reset
  split
  · split <;> simp
  · simp

variable {s : State crypto.isPrime}

/-- A challenge of at least two is answered or the service resets. -/
theorem receivedChallenge_proceeds (around : Surroundings)
    (hstage : s.stage = .pq) (nonce serverNonce pq : Data) (fingerprints : List Int) :
    Proceeds (receivedChallenge draws crypto config around s nonce serverNonce pq fingerprints)
        .reqDh ↔
      s.nonce = some nonce ∧
        (publicKeyFor config.cdn fingerprints (s.publicKeys.getD []) = none ∨
          2 ≤ beNat pq % 2 ^ 64) := by
  by_cases hnonce : s.nonce = some nonce
  · cases hkey : publicKeyFor config.cdn fingerprints (s.publicKeys.getD []) with
    | none =>
      refine iff_of_true ⟨_, by rw [receivedChallenge, hkey]; exact if_neg (by simp), .inl ?_⟩
        ⟨hnonce, .inl rfl⟩
      simp only [receivedResPq, if_pos hnonce, hkey]
      exact reset_resets (withFactorize draws crypto) config around s
    | some publicKey =>
      have hcall : s.nonce = some nonce ∧
          (publicKeyFor config.cdn fingerprints (s.publicKeys.getD [])).isSome = true :=
        ⟨hnonce, by rw [hkey]; rfl⟩
      rw [← toNat_pqNumber]
      by_cases hsmall : (pqNumber pq).toNat < 2
      · refine iff_of_false ?_ ?_
        · rintro ⟨out, hout, _⟩
          simp only [receivedChallenge, if_pos hcall, mtFactorize_small draws hsmall] at hout
          cases hout
        · rintro ⟨_, hnone | hlarge⟩
          · cases hnone
          · omega
      · obtain ⟨r, hr, _⟩ := mtFactorize_spec draws (not_lt.1 hsmall)
        refine iff_of_true ⟨receivedResPq (withFactorize draws crypto) config around s nonce
          serverNonce pq fingerprints, ?_, ?_⟩ ⟨hnonce, .inr (not_lt.1 hsmall)⟩
        · simp only [receivedChallenge, if_pos hcall, hr]
        · simp only [receivedResPq, if_pos hnonce, hkey]
          cases (withFactorize draws crypto).factorize (beNat pq % 2 ^ 64) with
          | none => exact .inl (reset_resets (withFactorize draws crypto) config around s)
          | some factors => exact .inr rfl
  · refine iff_of_false ?_ fun h => hnonce h.1
    rintro ⟨out, hout, hproceeds⟩
    have hother : ¬ (s.nonce = some nonce ∧
        (publicKeyFor config.cdn fingerprints (s.publicKeys.getD [])).isSome = true) :=
      fun h => hnonce h.1
    simp only [receivedChallenge, if_neg hother, receivedResPq, if_neg hnonce] at hout
    cases hout
    rcases hproceeds with hreset | hreqDh
    · cases hreset
    · rw [hstage] at hreqDh
      cases hreqDh

theorem HasHash.unique {sha1 : Data → { bytes : Data // bytes.length = 20 }} {hash : Data}
    {tries : Nat} {answer found found' : Data} (h : HasHash sha1 hash tries answer found)
    (h' : HasHash sha1 hash tries answer found') : found = found' := by
  obtain ⟨k, _, _, rfl, hhash, hfirst⟩ := h
  obtain ⟨k', _, _, rfl, hhash', hfirst'⟩ := h'
  rcases Nat.lt_trichotomy k k' with hlt | rfl | hlt
  · exact absurd hhash (hfirst' k hlt)
  · rfl
  · exact absurd hhash' (hfirst k' hlt)

/-- One try more: the answer itself, or a shorter one. -/
theorem hasHash_succ {hash : Data} {tries : Nat} {answer found : Data}
    (hother : (crypto.sha1 answer).1 ≠ hash) (hne : answer ≠ []) :
    HasHash crypto.sha1 hash (tries + 1) answer found ↔
      HasHash crypto.sha1 hash tries answer.dropLast found := by
  have hlength : answer.dropLast.length = answer.length - 1 := List.length_dropLast
  have hpos : 0 < answer.length := List.length_pos_iff.2 hne
  have htake : ∀ j, answer.dropLast.take (answer.dropLast.length - j) =
      answer.take (answer.length - (j + 1)) := by
    intro j
    rw [List.dropLast_eq_take, List.take_take, List.length_take]
    congr 1
    omega
  constructor
  · rintro ⟨k, hk, hle, rfl, hhash, hfirst⟩
    cases k with
    | zero =>
      rw [Nat.sub_zero, List.take_length] at hhash
      exact absurd hhash hother
    | succ k =>
      refine ⟨k, by omega, by omega, (htake k).symm, hhash, fun j hj => ?_⟩
      rw [htake j]
      exact hfirst (j + 1) (by omega)
  · rintro ⟨k, hk, hle, rfl, hhash, hfirst⟩
    refine ⟨k + 1, by omega, by omega, htake k, hhash, fun j hj => ?_⟩
    cases j with
    | zero =>
      rw [Nat.sub_zero, List.take_length]
      exact hother
    | succ j =>
      rw [← htake j]
      exact hfirst j (by omega)

theorem verifyAnswer_cases (hash : Data) :
    ∀ (tries : Nat) (answer : Data),
      (∃ found, verifyAnswer crypto hash tries answer = .ok (some found) ∧
          HasHash crypto.sha1 hash tries answer found) ∨
        (verifyAnswer crypto hash tries answer = .ok none ∧ tries ≤ answer.length ∧
          ∀ found, ¬ HasHash crypto.sha1 hash tries answer found) ∨
        (verifyAnswer crypto hash tries answer = .error .raised ∧ answer.length < tries ∧
          ∀ found, ¬ HasHash crypto.sha1 hash tries answer found) := by
  intro tries
  induction tries with
  | zero =>
    intro answer
    refine .inr (.inl ⟨rfl, Nat.zero_le _, ?_⟩)
    rintro found ⟨k, hk, _⟩
    exact absurd hk (Nat.not_lt_zero k)
  | succ tries ih =>
    intro answer
    by_cases hhash : (crypto.sha1 answer).1 = hash
    · refine .inl ⟨answer, by rw [verifyAnswer, if_pos hhash], 0, by omega, by omega, ?_, hhash,
        fun j hj => absurd hj (Nat.not_lt_zero j)⟩
      rw [Nat.sub_zero, List.take_length]
    · by_cases hempty : answer = []
      · refine .inr (.inr ⟨by rw [verifyAnswer, if_neg hhash, if_pos hempty], ?_, ?_⟩)
        · rw [hempty]
          exact Nat.succ_pos tries
        · rintro found ⟨k, _, hle, rfl, hfound, _⟩
          rw [hempty, List.take_nil] at hfound
          rw [hempty] at hhash
          exact hhash hfound
      · have hstep : verifyAnswer crypto hash (tries + 1) answer =
            verifyAnswer crypto hash tries answer.dropLast := by
          rw [verifyAnswer, if_neg hhash, if_neg hempty]
        have hlength : answer.dropLast.length = answer.length - 1 := List.length_dropLast
        have hpos : 0 < answer.length := List.length_pos_iff.2 hempty
        rw [hstep]
        simp only [hasHash_succ crypto hhash hempty]
        rcases ih answer.dropLast with hfound | ⟨hnone, hle, hno⟩ | ⟨hraised, hlt, hno⟩
        · exact .inl hfound
        · exact .inr (.inl ⟨hnone, by omega, hno⟩)
        · exact .inr (.inr ⟨hraised, by omega, hno⟩)

/-- The checks of the parameters lead to a reset or to the next stage. -/
theorem receivedInnerData_proceeds (around : Surroundings) (s : State crypto.isPrime)
    (nonce serverNonce : Data) (g : Int) (dhPrime gA : Data) :
    let out := receivedInnerData crypto config around s nonce serverNonce g dhPrime gA
    .requestSecureTransportReset ∈ out.2 ∨ out.1.stage = .keyVerification := by
  unfold receivedInnerData
  dsimp only
  split_ifs
  · exact .inl (reset_resets crypto config around _)
  · exact .inl (reset_resets crypto config around _)
  · exact .inl (reset_resets crypto config around _)
  · exact .inl (reset_resets crypto config around _)
  · exact .inl (reset_resets crypto config around _)
  · exact .inl (reset_resets crypto config around _)
  · exact .inr rfl

/-- A raised exception leaves the service in its stage. -/
theorem receivedAnswer_proceeds (around : Surroundings)
    (hstage : s.stage = .reqDh) (encryptedResponse : Data) :
    let out := receivedAnswer crypto config around s encryptedResponse
    (.requestSecureTransportReset ∈ out.2 ∨ out.1.stage = .keyVerification) ↔
      Readable crypto.sha1 (answerWithHash crypto s encryptedResponse) := by
  dsimp only
  have hraised : ¬ (.requestSecureTransportReset ∈ [Effect.raised .raised] ∨
      s.stage = .keyVerification) := by
    rw [hstage]
    simp
  unfold receivedAnswer answerWithHash
  dsimp only
  generalize crypto.aesDecrypt encryptedResponse
    (tmpAesKey crypto (s.serverNonce.getD []) (s.newNonce.getD []))
    (tmpAesIv crypto (s.serverNonce.getD []) (s.newNonce.getD [])) = answer
  by_cases hshort : answer.length < 20
  · rw [if_pos hshort]
    exact iff_of_false hraised fun h => absurd h.hash (not_le.2 hshort)
  · rw [if_neg hshort]
    have hdrop : (answer.drop 20).length = answer.length - 20 := List.length_drop
    rcases verifyAnswer_cases crypto (answer.take 20) 16 (answer.drop 20) with
      ⟨found, hverify, hfound⟩ | ⟨hverify, hle, hno⟩ | ⟨hverify, hlt, hno⟩
    · rw [hverify]
      dsimp only
      cases hparse : parseMessage found with
      | error exception =>
        cases exception
        exact iff_of_false hraised fun h => h.parse found hfound hparse
      | ok message =>
        refine iff_of_true ?_ ⟨not_lt.1 hshort, .inr ⟨found, hfound⟩, fun found' hfound' => ?_⟩
        · split
          · next h => cases h
          · exact receivedInnerData_proceeds crypto config around s _ _ _ _ _
          · exact .inl (reset_resets crypto config around s)
        · rw [hfound'.unique hfound, hparse]
          exact fun h => by cases h
    · rw [hverify]
      exact iff_of_true (.inl (reset_resets crypto config around s))
        ⟨not_lt.1 hshort, .inl (by omega), fun found hfound => absurd hfound (hno found)⟩
    · rw [hverify]
      refine iff_of_false hraised fun h => ?_
      rcases h.rest with hlong | ⟨found, hfound⟩
      · omega
      · exact hno found hfound

theorem receivedServerDhParams_proceeds (around : Surroundings)
    (hstage : s.stage = .reqDh) (nonce serverNonce encryptedResponse : Data) :
    let out := receivedServerDhParams crypto config around s nonce serverNonce
      (some encryptedResponse)
    (.requestSecureTransportReset ∈ out.2 ∨ out.1.stage = .keyVerification) ↔
      (s.nonce = some nonce ∧ s.serverNonce = some serverNonce) ∧
        Readable crypto.sha1 (answerWithHash crypto s encryptedResponse) := by
  unfold receivedServerDhParams
  by_cases hnonces : s.nonce = some nonce ∧ s.serverNonce = some serverNonce
  · grind [receivedAnswer_proceeds]
  · grind

/-- Which messages of the server make the service reset or go on.  It never loops for ever. -/
theorem received_robust (around : Surroundings) (s : State crypto.isPrime) (messageId : Int)
    (nonce serverNonce : Data) :
    (s.stage = .pq → ∀ pq fingerprints,
      Proceeds (received draws crypto config around s messageId
          (.resPq nonce serverNonce pq fingerprints)) .reqDh ↔
        s.nonce = some nonce ∧
          (publicKeyFor config.cdn fingerprints (s.publicKeys.getD []) = none ∨
            2 ≤ beNat pq % 2 ^ 64)) ∧
      (s.stage = .reqDh → ∀ encryptedResponse,
        Proceeds (received draws crypto config around s messageId
            (.serverDhParamsOk nonce serverNonce encryptedResponse)) .keyVerification ↔
          (s.nonce = some nonce ∧ s.serverNonce = some serverNonce) ∧
            Readable crypto.sha1 (answerWithHash crypto s encryptedResponse)) ∧
      ∀ body, received draws crypto config around s messageId body ≠ .error .endless := by
  refine ⟨fun hstage pq fingerprints => ?_, fun hstage encryptedResponse => ?_, fun body => ?_⟩
  · simp only [received, hstage]
    exact receivedChallenge_proceeds draws crypto config around hstage nonce serverNonce pq
      fingerprints
  · have hreceived : received draws crypto config around s messageId
        (.serverDhParamsOk nonce serverNonce encryptedResponse) =
          .ok (receivedServerDhParams (withFactorize draws crypto) config around s nonce
            serverNonce (some encryptedResponse)) := by
      simp only [received, receivedMessage, hstage]
    rw [hreceived]
    refine Iff.trans ?_ (receivedServerDhParams_proceeds (withFactorize draws crypto) config around
      hstage nonce serverNonce encryptedResponse)
    constructor
    · rintro ⟨out, hout, hproceeds⟩
      cases hout
      exact hproceeds
    · intro hproceeds
      exact ⟨_, rfl, hproceeds⟩
  · unfold received
    split
    · next pq _ _ =>
        unfold receivedChallenge
        dsimp only
        split_ifs
        · by_cases hsmall : (pqNumber pq).toNat < 2
          · rw [mtFactorize_small draws hsmall]
            exact fun h => by cases h
          · obtain ⟨r, hr, _⟩ := mtFactorize_spec draws (not_lt.1 hsmall)
            rw [hr]
            exact fun h => by cases h
        · exact fun h => by cases h
    · exact fun h => by cases h

/-- A service that waits for a `resPQ`. -/
def waitingForPq : State plainCrypto.isPrime :=
  { State.initial .empty with
    stage := .pq, nonce := some (List.replicate 16 0), publicKeys := some defaultPublicKeys }

/-- The product of 3 and 5 is answered. -/
theorem received_robust_fifteen :
    Proceeds (received (fun n => Fin.ofNat _ (n * 7919 + 12345)) plainCrypto plainConfig
      plainSurroundings waitingForPq 1
      (.resPq (List.replicate 16 0) (List.replicate 16 1) [15] [int64 0x9a996a1db11c729b]))
      .reqDh :=
  ((received_robust (fun n => Fin.ofNat _ (n * 7919 + 12345)) plainCrypto plainConfig
    plainSurroundings waitingForPq 1 (List.replicate 16 0) (List.replicate 16 1)).1 rfl [15]
    [int64 0x9a996a1db11c729b]).2 ⟨rfl, .inr (by decide)⟩

/-- A challenge without bytes. -/
theorem received_empty_challenge :
    ¬ ∀ (draws : Draws) (s : State plainCrypto.isPrime) (pq : Data), s.stage = .pq →
      Proceeds (received draws plainCrypto plainConfig plainSurroundings s 1
        (.resPq (List.replicate 16 0) (List.replicate 16 1) pq [int64 0x9a996a1db11c729b]))
        .reqDh := by
  intro h
  obtain ⟨out, hout, _⟩ := h (fun _ => 0) waitingForPq [] rfl
  have hfault : received (fun _ => 0) plainCrypto plainConfig plainSurroundings waitingForPq 1
      (.resPq (List.replicate 16 0) (List.replicate 16 1) [] [int64 0x9a996a1db11c729b]) =
        .error .divisionByZero := by
    have hsmall : mtFactorize (fun _ => 0) (pqNumber []) = .error .divisionByZero :=
      mtFactorize_small _ (by decide)
    have hchallenge : received (fun _ => 0) plainCrypto plainConfig plainSurroundings waitingForPq 1
        (.resPq (List.replicate 16 0) (List.replicate 16 1) [] [int64 0x9a996a1db11c729b]) =
          receivedChallenge (fun _ => 0) plainCrypto plainConfig plainSurroundings waitingForPq
            (List.replicate 16 0) (List.replicate 16 1) [] [int64 0x9a996a1db11c729b] := rfl
    rw [hchallenge, receivedChallenge, if_pos ⟨rfl, rfl⟩, hsmall]
  rw [hfault] at hout
  cases hout

end TelegramPub.Ports.HandshakeRobustness
