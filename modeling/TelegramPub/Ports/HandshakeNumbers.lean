import TelegramPub.Ports.DatacenterAuthSafety
import TelegramPub.Verified.BigEndian
import Mathlib.NumberTheory.Bertrand

/-!
# The encodings of the handshake

`MTExp` gives the shortest encoding, and the handshake stores it as the key.  It has 256 bytes
if and only if the first of them is not zero.  The result of RSA is filled up with random bytes
in front, so the number that is sent is the result if and only if these are zero.
-/

namespace TelegramPub.Ports.HandshakeNumbers

open Verified.Bytes Ports.DhChecks Ports.DatacenterAuth

/-- The key that the peer has: the power in 256 bytes. -/
def peerKey (dhPrime gA b : Data) : Data :=
  natBEWidth 256 (beNat gA ^ beNat b % beNat dhPrime)

/-- The result of RSA in the encoding of the system: the shortest one, or all the bytes of the
modulus. -/
def rsaResult (fullWidth : Bool) (r : Nat) : Data :=
  if fullWidth then natBEWidth 256 r else natBE r

variable (crypto : Crypto) (config : Config)

/-- A key and its identifier. -/
def authKeyOf (key : Data) : AuthKey :=
  { authKey := key, authKeyId := int64OfBytes ((crypto.sha1 key).1.drop 12) }

/-- The exchange stores the key of the peer. -/
def StoresPeerKey (around : Surroundings) (s : State crypto.isPrime) (g : Int)
    (dhPrime gA : Data) : Prop :=
  (exchangeKey crypto around s g dhPrime gA).1.authKey =
    some (authKeyOf crypto (peerKey dhPrime gA around.bBytes.1))

/-- What RSA encrypts. -/
def dataWithHash (around : Surroundings) (innerData : Data) : Data :=
  fillTo around ((crypto.sha1 innerData).1 ++ innerData) 255

/-- A `resPQ` that is answered, with the key that is chosen and what is hashed and encrypted. -/
structure Answered (around : Surroundings) (s : State crypto.isPrime)
    (nonce serverNonce pq : Data) (fingerprints : List Int) (publicKey : PublicKey)
    (innerData : Data) : Prop where
  expected : s.nonce = some nonce
  chosen : publicKeyFor config.cdn fingerprints (s.publicKeys.getD []) = some publicKey
  factors : ∃ factP factQ, crypto.factorize (beNat pq % 2 ^ 64) = some (factP, factQ) ∧
    innerData = pqInnerData config pq (factorBytes factP) (factorBytes factQ) nonce serverNonce
      around.newNonceBytes.1

/-- After a `resPQ` the 256 bytes that `req_DH_params` sends denote a number. -/
def SendsNumber (around : Surroundings) (s : State crypto.isPrime) (nonce serverNonce pq : Data)
    (fingerprints : List Int) (r : Nat) : Prop :=
  ∃ data, (receivedResPq crypto config around s nonce serverNonce pq fingerprints).1.dhEncryptedData
      = some data ∧ data.length = 256 ∧ beNat data = r

/-- The power has at most 256 bytes. -/
theorem power_lt {dhPrime : Data} (hlength : dhPrime.length = 256) (hpos : 0 < beNat dhPrime)
    (n : Nat) : n % beNat dhPrime < 256 ^ 256 := by
  have hprime := beNat_lt dhPrime
  rw [hlength] at hprime
  exact lt_trans (Nat.mod_lt n hpos) hprime

theorem storesPeerKey_iff (around : Surroundings) (s : State crypto.isPrime) (g : Int)
    {dhPrime : Data} (gA : Data) (hlength : dhPrime.length = 256) (hpos : 0 < beNat dhPrime) :
    StoresPeerKey crypto around s g dhPrime gA ↔
      256 ^ 255 ≤ beNat gA ^ beNat around.bBytes.1 % beNat dhPrime := by
  have hstored : (exchangeKey crypto around s g dhPrime gA).1.authKey =
      some (authKeyOf crypto (exp gA around.bBytes.1 dhPrime)) := rfl
  rw [StoresPeerKey, hstored, Option.some_inj, peerKey, exp,
    ← natBE_eq_natBEWidth_iff (power_lt hlength hpos _)]
  generalize natBEWidth (255 + 1) _ = wide
  constructor
  · intro h
    exact congrArg AuthKey.authKey h
  · intro h
    rw [h]

/-! ## The encrypted data -/

/-- The bytes in front have a value of their own. -/
theorem beNat_encryptInnerData (around : Surroundings) (publicKey : PublicKey) (innerData : Data) :
    let result := crypto.rsaEncrypt publicKey.key (dataWithHash crypto around innerData)
    beNat (encryptInnerData crypto around publicKey innerData) = beNat result ↔
      ∀ i < 256 - result.length, around.leadBytes i = 0 := by
  intro result
  show beNat ((List.range (256 - result.length)).map around.leadBytes ++ result) = _ ↔ _
  have hpow : 256 ^ result.length ≠ 0 := by positivity
  rw [beNat_append, Nat.add_eq_right, Nat.mul_eq_zero, or_iff_left hpow, beNat_eq_zero_iff]
  simp only [List.mem_map, List.mem_range]
  constructor
  · intro h i hi
    exact h _ ⟨i, hi, rfl⟩
  · rintro h _ ⟨i, hi, rfl⟩
    exact h i hi

theorem length_encryptInnerData (around : Surroundings) (publicKey : PublicKey) (innerData : Data)
    (h : (crypto.rsaEncrypt publicKey.key (dataWithHash crypto around innerData)).length ≤ 256) :
    (encryptInnerData crypto around publicKey innerData).length = 256 := by
  show (_ ++ crypto.rsaEncrypt publicKey.key (dataWithHash crypto around innerData)).length = 256
  rw [List.length_append, List.length_map, List.length_range]
  exact Nat.sub_add_cancel h

theorem beNat_rsaResult (fullWidth : Bool) {r : Nat} (h : r < 256 ^ 256) :
    beNat (rsaResult fullWidth r) = r := by
  cases fullWidth with
  | false => exact beNat_natBE r
  | true => exact beNat_natBEWidth h

theorem length_rsaResult (fullWidth : Bool) (r : Nat) :
    (rsaResult fullWidth r).length = if fullWidth then 256 else byteCount r := by
  cases fullWidth with
  | false => exact length_natBE r
  | true => exact length_natBEWidth 256 r

theorem dhEncryptedData_of_answered {around : Surroundings} {s : State crypto.isPrime}
    {nonce serverNonce pq innerData : Data} {fingerprints : List Int} {publicKey : PublicKey}
    (h : Answered crypto config around s nonce serverNonce pq fingerprints publicKey innerData) :
    (receivedResPq crypto config around s nonce serverNonce pq fingerprints).1.dhEncryptedData =
      some (encryptInnerData crypto around publicKey innerData) := by
  obtain ⟨factP, factQ, hfactors, rfl⟩ := h.factors
  simp only [receivedResPq, if_pos h.expected, h.chosen, hfactors]

/-- What is sent is the result if and only if no random byte stands for a zero byte. -/
theorem sendsNumber_iff {around : Surroundings} {s : State crypto.isPrime}
    {nonce serverNonce pq innerData : Data} {fingerprints : List Int} {publicKey : PublicKey}
    (h : Answered crypto config around s nonce serverNonce pq fingerprints publicKey innerData)
    {fullWidth : Bool} {r : Nat} (hr : r < 256 ^ 256)
    (hrsa : crypto.rsaEncrypt publicKey.key (dataWithHash crypto around innerData) =
      rsaResult fullWidth r) :
    SendsNumber crypto config around s nonce serverNonce pq fingerprints r ↔
      fullWidth = true ∨ ∀ i < 256 - byteCount r, around.leadBytes i = 0 := by
  have hstored := dhEncryptedData_of_answered crypto config h
  have hlength := length_rsaResult fullWidth r
  have hcount := (byteCount_le_iff r 256).2 hr
  have hnumber := beNat_encryptInnerData crypto around publicKey innerData
  have hwidth := length_encryptInnerData crypto around publicKey innerData
  simp only [hrsa, beNat_rsaResult fullWidth hr, hlength] at hnumber hwidth
  have hdata : SendsNumber crypto config around s nonce serverNonce pq fingerprints r ↔
      ∀ i < 256 - (if fullWidth then 256 else byteCount r), around.leadBytes i = 0 := by
    rw [← hnumber]
    constructor
    · rintro ⟨data, hdata, _, hvalue⟩
      rw [hstored] at hdata
      rwa [Option.some.inj hdata]
    · intro hvalue
      exact ⟨_, hstored, hwidth (by split <;> omega), hvalue⟩
  rw [hdata]
  cases fullWidth with
  | false => simp
  | true => simp

/-- Both numbers of the handshake.  The exchange is one with any number of 256 bytes other than
zero, and the modulus of RSA any one of at most 256 bytes. -/
theorem numbers_full_width (around : Surroundings) (s t : State crypto.isPrime) (g : Int)
    (dhPrime gA : Data) (hlength : dhPrime.length = 256) (hpos : 0 < beNat dhPrime)
    (nonce serverNonce pq innerData : Data) (fingerprints : List Int) (publicKey : PublicKey)
    (h : Answered crypto config around t nonce serverNonce pq fingerprints publicKey innerData)
    (fullWidth : Bool) (n e : Nat) (hn : 0 < n ∧ n < 256 ^ 256)
    (hrsa : ∀ data, crypto.rsaEncrypt publicKey.key data =
      rsaResult fullWidth (beNat data ^ e % n)) :
    let r := beNat (dataWithHash crypto around innerData) ^ e % n
    (StoresPeerKey crypto around s g dhPrime gA ↔
        256 ^ 255 ≤ beNat gA ^ beNat around.bBytes.1 % beNat dhPrime) ∧
      (SendsNumber crypto config around t nonce serverNonce pq fingerprints r ↔
        fullWidth = true ∨ ∀ i < 256 - byteCount r, around.leadBytes i = 0) := by
  intro r
  have hr : r < 256 ^ 256 := lt_trans (Nat.mod_lt _ hn.1) hn.2
  exact ⟨storesPeerKey_iff crypto around s g gA hlength hpos,
    sendsNumber_iff crypto config h hr (hrsa _)⟩

/-- RSA with the modulus `256 ^ 255` and the exponent 1: the result has a leading zero byte. -/
def leadingZeroCrypto : Crypto :=
  { plainCrypto with rsaEncrypt := fun _ data => rsaResult false (beNat data ^ 1 % 256 ^ 255) }

/-- A service that waits for a `resPQ` with an empty nonce. -/
def waitingForPq : State leadingZeroCrypto.isPrime :=
  { State.initial .empty with stage := .pq, nonce := some [], publicKeys := some [⟨"key", 7⟩] }

theorem answered_fifteen :
    Answered leadingZeroCrypto plainConfig plainSurroundings waitingForPq [] [] [15] [7]
      ⟨"key", 7⟩ (pqInnerData plainConfig [15] (factorBytes 3) (factorBytes 5) [] []
        plainSurroundings.newNonceBytes.1) :=
  ⟨rfl, rfl, 3, 5, rfl, rfl⟩

/-- An exchange with a short power, and a `resPQ` whose random bytes happen to be zero. -/
theorem numbers_full_width_plain :
    ¬ StoresPeerKey leadingZeroCrypto plainSurroundings waitingForPq 4 (List.replicate 256 0xFF)
        [2] ∧
      ∃ r, SendsNumber leadingZeroCrypto plainConfig plainSurroundings waitingForPq [] [] [15] [7]
        r := by
  have hpos : 0 < beNat (List.replicate 256 0xFF) := by decide +kernel
  have hshort : ¬ 256 ^ 255 ≤ beNat [2] ^ beNat plainSurroundings.bBytes.1 %
      beNat (List.replicate 256 0xFF) := by decide +kernel
  obtain ⟨hkey, hnumber⟩ := numbers_full_width leadingZeroCrypto plainConfig plainSurroundings
    waitingForPq waitingForPq 4 (List.replicate 256 0xFF) [2] List.length_replicate hpos [] []
    [15] _ [7] _ answered_fifteen false (256 ^ 255) 1 (by decide +kernel) (fun _ => rfl)
  exact ⟨fun hstores => hshort (hkey.1 hstores), _, hnumber.2 (.inr fun _ _ => rfl)⟩

theorem exists_prime : ∃ p, p.Prime ∧ 256 ^ 255 < p ∧ p < 256 ^ 256 := by
  obtain ⟨p, hp, hlow, hhigh⟩ := Nat.exists_prime_lt_and_le_two_mul (256 ^ 255) (by positivity)
  have hdouble : 2 * 256 ^ 255 < 256 ^ 256 := by decide +kernel
  exact ⟨p, hp, hlow, lt_of_le_of_lt hhigh hdouble⟩

/-- The exponent 7. -/
def sevenSurroundings : Surroundings :=
  { plainSurroundings with bBytes := ⟨List.replicate 255 0 ++ [7],
    by rw [List.length_append, List.length_replicate]; rfl⟩ }

/-- With `g_a = 2` and the exponent 7 the key that is stored has one byte: for some prime, and
for the number of the servers, with which the handshake passes its own checks. -/
theorem short_key :
    (¬ ∀ (around : Surroundings) (s : State plainCrypto.isPrime) (g : Int) (dhPrime gA : Data),
      dhPrime.length = 256 → (beNat dhPrime).Prime →
        StoresPeerKey plainCrypto around s g dhPrime gA) ∧
    checkIsSafeG 4 ∧ checkIsSafeGAOrB [2] goodPrime0 ∧ isQuadraticResidue goodPrime0 4 ∧
      isSafePrime plainCrypto.isPrime goodPrime0 ∧
      ¬ StoresPeerKey plainCrypto sevenSurroundings (.initial .empty) 4 goodPrime0 [2] := by
  have hseven : beNat sevenSurroundings.bBytes.1 = 7 := by decide +kernel
  have hgood : goodPrime0.length = 256 ∧ 0 < beNat goodPrime0 := by decide +kernel
  refine ⟨?_, by decide, by decide +kernel, by decide, by decide +kernel, ?_⟩
  · intro h
    obtain ⟨p, hp, hlow, hhigh⟩ := exists_prime
    have hvalue := beNat_natBEWidth hhigh
    have hstores := h sevenSurroundings (.initial .empty) 4 (natBEWidth 256 p) [2]
      (length_natBEWidth 256 p) (by rw [hvalue]; exact hp)
    have hpower : (2 : Nat) ^ 7 < p := lt_trans (by decide +kernel) hlow
    rw [storesPeerKey_iff plainCrypto sevenSurroundings _ 4 [2] (length_natBEWidth 256 p)
      (by rw [hvalue]; exact hp.pos), hvalue, hseven, show beNat [2] = 2 from rfl,
      Nat.mod_eq_of_lt hpower] at hstores
    revert hstores
    decide +kernel
  · rw [storesPeerKey_iff plainCrypto sevenSurroundings _ 4 [2] hgood.1 hgood.2, hseven]
    decide +kernel

end TelegramPub.Ports.HandshakeNumbers
