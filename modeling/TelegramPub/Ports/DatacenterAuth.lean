import TelegramPub.Ports.DhChecks
import TelegramPub.Ports.InternalMessageParser

/-!
# MTDatacenterAuthMessageService

The handshake that creates an authorization key.  The service asks for a
factorisation challenge, answers it, checks the Diffie-Hellman parameters of the
server, sends its own half and waits for the confirmation.  Whatever goes wrong
resets it to the beginning; a reset forgets everything.

Random bytes, and what the surrounding context knows at that moment, come with
each step (`Surroundings`).  SHA-1, AES, RSA, the primality test and the
randomised factorisation are parameters (`Crypto`).
-/

namespace TelegramPub.Ports.DatacenterAuth

open Verified.Bytes Ports.TLBuffer Ports.InternalMessageParser Ports.DhChecks

/-- The primitives of `MTEncryption` that are not modelled. -/
structure Crypto where
  sha1 : Data → { bytes : Data // bytes.length = 20 }
  aesEncrypt : Data → Data → Data → Data
  aesDecrypt : Data → Data → Data → Data
  rsaEncrypt : String → Data → Data
  factorize : Nat → Option (Nat × Nat)
  isPrime : Nat → Bool

/-- What the service was created for. -/
structure Config where
  tempAuth : Bool
  cdn : Bool
  datacenterId : Int
  deriving DecidableEq

/-- The dictionaries with the entries `key` and `fingerprint`. -/
structure PublicKey where
  key : String
  fingerprint : Int
  deriving DecidableEq

/-- What a step finds around it: the context's public keys of the datacenter,
and the bytes that the random generators give. -/
structure Surroundings where
  publicKeysForDatacenter : Option (List PublicKey)
  nonceBytes : { bytes : Data // bytes.length = 16 }
  newNonceBytes : { bytes : Data // bytes.length = 32 }
  bBytes : { bytes : Data // bytes.length = 256 }
  /-- The bytes of `arc4random_buf` that fill up hashed data. -/
  fillBytes : Nat → UInt8
  /-- The bytes of `arc4random_buf` that fill up a short RSA result. -/
  leadBytes : Nat → UInt8

/-- The text of a public key. -/
def pem (lines : List String) : String :=
  "-----BEGIN RSA PUBLIC KEY-----\n" ++ String.join (lines.map (· ++ "\n")) ++
    "-----END RSA PUBLIC KEY-----"

/-- `defaultPublicKeys`. -/
def defaultPublicKeys : List PublicKey :=
  [
    { key := pem [
        "MIIBCgKCAQEAxq7aeLAqJR20tkQQMfRn+ocfrtMlJsQ2Uksfs7Xcoo77jAid0bRt",
        "ksiVmT2HEIJUlRxfABoPBV8wY9zRTUMaMA654pUX41mhyVN+XoerGxFvrs9dF1Ru",
        "vCHbI02dM2ppPvyytvvMoefRoL5BTcpAihFgm5xCaakgsJ/tH5oVl74CdhQw8J5L",
        "xI/K++KJBUyZ26Uba1632cOiq05JBUW0Z2vWIOk4BLysk7+U9z+SxynKiZR3/xdi",
        "XvFKk01R3BHV+GUKM2RYazpS/P8v7eyKhAbKxOdRcFpHLlVwfjyM1VlDQrEZxsMp",
        "NTLYXb6Sce1Uov0YtNx5wEowlREH1WOTlwIDAQAB" ]
      fingerprint := int64 0x9a996a1db11c729b },
    { key := pem [
        "MIIBCgKCAQEAsQZnSWVZNfClk29RcDTJQ76n8zZaiTGuUsi8sUhW8AS4PSbPKDm+",
        "DyJgdHDWdIF3HBzl7DHeFrILuqTs0vfS7Pa2NW8nUBwiaYQmPtwEa4n7bTmBVGsB",
        "1700/tz8wQWOLUlL2nMv+BPlDhxq4kmJCyJfgrIrHlX8sGPcPA4Y6Rwo0MSqYn3s",
        "g1Pu5gOKlaT9HKmE6wn5Sut6IiBjWozrRQ6n5h2RXNtO7O2qCDqjgB2vBxhV7B+z",
        "hRbLbCmW0tYMDsvPpX5M8fsO05svN+lKtCAuz1leFns8piZpptpSCFn7bWxiA9/f",
        "x5x17D7pfah3Sy2pA+NDXyzSlGcKdaUmwQIDAQAB" ]
      fingerprint := int64 0xb05b2a6f70cdea78 },
    { key := pem [
        "MIIBCgKCAQEAwVACPi9w23mF3tBkdZz+zwrzKOaaQdr01vAbU4E1pvkfj4sqDsm6",
        "lyDONS789sVoD/xCS9Y0hkkC3gtL1tSfTlgCMOOul9lcixlEKzwKENj1Yz/s7daS",
        "an9tqw3bfUV/nqgbhGX81v/+7RFAEd+RwFnK7a+XYl9sluzHRyVVaTTveB2GazTw",
        "Efzk2DWgkBluml8OREmvfraX3bkHZJTKX4EQSjBbbdJ2ZXIsRrYOXfaA+xayEGB+",
        "8hdlLmAjbCVfaigxX0CDqWeR1yFL9kwd9P0NsZRPsmoqVwMbMu7mStFai6aIhc3n",
        "Slv8kg9qv1m6XHVQY3PnEw+QQtqSIXklHwIDAQAB" ]
      fingerprint := int64 0xc3b42b026ce86b21 },
    { key := pem [
        "MIIBCgKCAQEAwqjFW0pi4reKGbkc9pK83Eunwj/k0G8ZTioMMPbZmW99GivMibwa",
        "xDM9RDWabEMyUtGoQC2ZcDeLWRK3W8jMP6dnEKAlvLkDLfC4fXYHzFO5KHEqF06i",
        "qAqBdmI1iBGdQv/OQCBcbXIWCGDY2AsiqLhlGQfPOI7/vvKc188rTriocgUtoTUc",
        "/n/sIUzkgwTqRyvWYynWARWzQg0I9olLBBC2q5RQJJlnYXZwyTL3y9tdb7zOHkks",
        "WV9IMQmZmyZh/N7sMbGWQpt4NMchGpPGeJ2e5gHBjDnlIf2p1yZOYeUYrdbwcS0t",
        "UiggS4UeE8TzIuXFQxw7fzEIlmhIaq3FnwIDAQAB" ]
      fingerprint := int64 0x71e025b6c76033e3 },
    { key := pem [
        "MIIBCgKCAQEAruw2yP/BCcsJliRoW5eBVBVle9dtjJw+OYED160Wybum9SXtBBLX",
        "riwt4rROd9csv0t0OHCaTmRqBcQ0J8fxhN6/cpR1GWgOZRUAiQxoMnlt0R93LCX/",
        "j1dnVa/gVbCjdSxpbrfY2g2L4frzjJvdl84Kd9ORYjDEAyFnEA7dD556OptgLQQ2",
        "e2iVNq8NZLYTzLp5YpOdO1doK+ttrltggTCy5SrKeLoCPPbOgGsdxJxyz5KKcZnS",
        "Lj16yE5HvJQn0CNpRdENvRUXe6tBP78O39oJ8BTHp9oIjd6XWXAsp2CvK45Ol8wF",
        "XGF710w9lwCGNbmNxNYhtIkdqfsEcwR5JwIDAQAB" ]
      fingerprint := int64 0xbc35f3509f7b7a5 },
    { key := pem [
        "MIIBCgKCAQEAvfLHfYH2r9R70w8prHblWt/nDkh+XkgpflqQVcnAfSuTtO05lNPs",
        "pQmL8Y2XjVT4t8cT6xAkdgfmmvnvRPOOKPi0OfJXoRVylFzAQG/j83u5K3kRLbae",
        "7fLccVhKZhY46lvsueI1hQdLgNV9n1cQ3TDS2pQOCtovG4eDl9wacrXOJTG2990V",
        "jgnIKNA0UMoP+KF03qzryqIt3oTvZq03DyWdGK+AZjgBLaDKSnC6qD2cFY81UryR",
        "WOab8zKkWAnhw2kFpcqhI0jdV5QaSCExvnsjVaX0Y1N0870931/5Jb9ICe4nweZ9",
        "kSDF/gip3kWLG0o8XQpChDfyvsqB9OLV/wIDAQAB" ]
      fingerprint := int64 0x15ae5fa8b5529542 },
    { key := pem [
        "MIIBCgKCAQEAs/ditzm+mPND6xkhzwFIz6J/968CtkcSE/7Z2qAJiXbmZ3UDJPGr",
        "zqTDHkO30R8VeRM/Kz2f4nR05GIFiITl4bEjvpy7xqRDspJcCFIOcyXm8abVDhF+",
        "th6knSU0yLtNKuQVP6voMrnt9MV1X92LGZQLgdHZbPQz0Z5qIpaKhdyA8DEvWWvS",
        "Uwwc+yi1/gGaybwlzZwqXYoPOhwMebzKUk0xW14htcJrRrq+PXXQbRzTMynseCoP",
        "Ioke0dtCodbA3qQxQovE16q9zz4Otv2k4j63cz53J+mhkVWAeWxVGI0lltJmWtEY",
        "K6er8VqqWot3nqmWMXogrgRLggv/NbbooQIDAQAB" ]
      fingerprint := int64 0xaeae98e13cd7f94f },
    { key := pem [
        "MIIBCgKCAQEAvmpxVY7ld/8DAjz6F6q05shjg8/4p6047bn6/m8yPy1RBsvIyvuD",
        "uGnP/RzPEhzXQ9UJ5Ynmh2XJZgHoE9xbnfxL5BXHplJhMtADXKM9bWB11PU1Eioc",
        "3+AXBB8QiNFBn2XI5UkO5hPhbb9mJpjA9Uhw8EdfqJP8QetVsI/xrCEbwEXe0xvi",
        "fRLJbY08/Gp66KpQvy7g8w7VB8wlgePexW3pT13Ap6vuC+mQuJPyiHvSxjEKHgqe",
        "Pji9NP3tJUFQjcECqcm0yV7/2d0t/pbCm+ZH1sadZspQCEPPrtbkQBlvHb4OLiIW",
        "PGHKSMeRFvp3IWcmdJqXahxLCUS1Eh6MAQIDAQAB" ]
      fingerprint := int64 0x5a181b2235057d98 } ]

/-- `selectPublicKey`. -/
def selectPublicKey (fingerprints : List Int) (publicKeys : List PublicKey) :
    Option PublicKey :=
  publicKeys.find? fun keyDesc => fingerprints.any (· == keyDesc.fingerprint)

/-- The choice of a key for a `resPQ`: a datacenter of the content network may
announce its only key under another fingerprint. -/
def publicKeyFor (cdn : Bool) (fingerprints : List Int) (publicKeys : List PublicKey) :
    Option PublicKey :=
  match selectPublicKey fingerprints publicKeys with
  | some publicKey => some publicKey
  | none =>
    match cdn, fingerprints, publicKeys with
    | true, [fingerprint], [publicKey] => some { key := publicKey.key, fingerprint }
    | _, _, _ => none

/-- `MTDatacenterAuthStage`. -/
inductive Stage where
  | waitingForPublicKeys | pq | reqDh | keyVerification | done
  deriving DecidableEq

/-- `MTDatacenterAuthKey`. -/
structure AuthKey where
  authKey : Data
  authKeyId : Int
  deriving DecidableEq

/-- The instance variables of the service, and the keychain of the context. -/
structure State (isPrime : Nat → Bool) where
  stage : Stage
  currentStageMessageId : Int
  currentStageMessageSeqNo : Int
  currentStageTransactionId : Option Nat
  nonce : Option Data
  serverNonce : Option Data
  newNonce : Option Data
  dhP : Option Data
  dhQ : Option Data
  dhPublicKeyFingerprint : Int
  dhEncryptedData : Option Data
  authKey : Option AuthKey
  encryptedClientData : Option Data
  publicKeys : Option (List PublicKey)
  keychain : Keychain isPrime

/-- A new service. -/
def State.initial {isPrime : Nat → Bool} (keychain : Keychain isPrime) : State isPrime where
  stage := .waitingForPublicKeys
  currentStageMessageId := 0
  currentStageMessageSeqNo := 0
  currentStageTransactionId := none
  nonce := none
  serverNonce := none
  newNonce := none
  dhP := none
  dhQ := none
  dhPublicKeyFingerprint := 0
  dhEncryptedData := none
  authKey := none
  encryptedClientData := none
  publicKeys := none
  keychain := keychain

/-- The calls of the service, as its owner and the network make them.  A message
whose body is of the application's own is ignored and does not appear. -/
inductive Event where
  | didAddService
  | publicKeysUpdated (datacenterId : Int) (publicKeys : Option (List PublicKey))
  | messageTransaction
  /-- The completion of a transaction that was made in `stage` -/
  | completion (stage : Stage) (prepared : Option (Int × Int)) (transactionId : Option Nat)
  | receivedMessage (messageId : Int) (body : InternalMessage)
  | protocolErrorReceived
  | transactionsMayHaveFailed (transactionIds : List Nat)
  | allTransactionsMayHaveFailed

/-- What a step does to the outside. -/
inductive Effect where
  | publicKeysRequired
  | requestSecureTransportReset
  | requestTransportTransaction
  /-- The message of a transaction. -/
  | message (data : Data) (messageId messageSeqNo : Int)
  | completedWithAuthKey (authKey : AuthKey) (timestamp : Int)
  | raised (exception : NSException)
  deriving DecidableEq

/-- A call together with what it finds around it. -/
abbrev Step := Surroundings × Event

variable (crypto : Crypto) (config : Config)

abbrev Outcome := State crypto.isPrime × List Effect

/-- `reset:`. -/
def reset (around : Surroundings) (s : State crypto.isPrime) : Outcome crypto :=
  let cleared : State crypto.isPrime := .initial s.keychain
  let again := [Effect.requestSecureTransportReset, .requestTransportTransaction]
  if config.cdn then
    match around.publicKeysForDatacenter with
    | none =>
      ({ cleared with publicKeys := none, stage := .waitingForPublicKeys },
        .publicKeysRequired :: again)
    | some publicKeys => ({ cleared with publicKeys := some publicKeys, stage := .pq }, again)
  else ({ cleared with publicKeys := some defaultPublicKeys, stage := .pq }, again)

/-- `mtProtoPublicKeysUpdated:datacenterId:publicKeys:`. -/
def publicKeysUpdated (s : State crypto.isPrime) (datacenterId : Int)
    (publicKeys : Option (List PublicKey)) : Outcome crypto :=
  if s.stage = .waitingForPublicKeys ∧ config.datacenterId = datacenterId then
    if publicKeys.getD [] ≠ [] then
      ({ s with publicKeys, stage := .pq }, [.requestTransportTransaction])
    else ({ s with publicKeys }, [])
  else (s, [])

/-- The message of the current stage, addressed as the last try was. -/
def stageMessage (s : State crypto.isPrime) (data : Data) : List Effect :=
  [.message data s.currentStageMessageId s.currentStageMessageSeqNo]

/-- `mtProtoMessageTransaction:`. -/
def messageTransaction (around : Surroundings) (s : State crypto.isPrime) : Outcome crypto :=
  if s.currentStageTransactionId = none then
    match s.stage with
    | .pq =>
      let nonce := s.nonce.getD around.nonceBytes.1
      let s := { s with nonce := some nonce }
      (s, stageMessage crypto s (int32Bytes 0x60469778 ++ nonce))
    | .reqDh =>
      (s, stageMessage crypto s
        (int32Bytes 0xd712e4be ++ s.nonce.getD [] ++ s.serverNonce.getD [] ++
          tlBytes (s.dhP.getD []) ++ tlBytes (s.dhQ.getD []) ++
          int64Bytes s.dhPublicKeyFingerprint ++ tlBytes (s.dhEncryptedData.getD [])))
    | .keyVerification =>
      (s, stageMessage crypto s
        (int32Bytes 0xf5045f1f ++ s.nonce.getD [] ++ s.serverNonce.getD [] ++
          tlBytes (s.encryptedClientData.getD [])))
    | .waitingForPublicKeys => (s, [])
    | .done => (s, [])
  else (s, [])

/-- The completion blocks of the three transactions: they differ in the stage
they were made in. -/
def completion (s : State crypto.isPrime) (stage : Stage) (prepared : Option (Int × Int))
    (transactionId : Option Nat) : Outcome crypto :=
  match prepared, transactionId with
  | some (messageId, seqNo), some transactionId =>
    if s.stage = stage then
      ({ s with
          currentStageMessageId := messageId
          currentStageMessageSeqNo := seqNo
          currentStageTransactionId := some transactionId }, [])
    else (s, [])
  | _, _ => (s, [])

/-- The loop that turns a factor into bytes.  Zero gives one byte. -/
def factorBytes (factor : Nat) : Data := if factor = 0 then [0] else natBE factor

/-- The data that the answer to a `resPQ` encrypts. -/
def pqInnerData (pq dhP dhQ nonce serverNonce newNonce : Data) : Data :=
  let head := if config.tempAuth then int32Bytes 0x3c6a84d4 else int32Bytes 0x83c95aec
  let data := head ++ tlBytes pq ++ tlBytes dhP ++ tlBytes dhQ ++ nonce ++ serverNonce ++ newNonce
  if config.tempAuth then data ++ int32Bytes (60 * 60 * 32) else data

/-- The hash of the data, the data, and random bytes up to `length`. -/
def fillTo (around : Surroundings) (data : Data) (length : Nat) : Data :=
  data ++ (List.range (length - data.length)).map around.fillBytes

/-- The encryption of the inner data. -/
def encryptInnerData (around : Surroundings) (publicKey : PublicKey) (innerData : Data) : Data :=
  let dataWithHash := fillTo around ((crypto.sha1 innerData).1 ++ innerData) 255
  let encryptedData := crypto.rsaEncrypt publicKey.key dataWithHash
  (List.range (256 - encryptedData.length)).map around.leadBytes ++ encryptedData

/-- `resPQ` in the stage that waits for it. -/
def receivedResPq (around : Surroundings) (s : State crypto.isPrime)
    (nonce serverNonce pq : Data) (serverPublicKeyFingerprints : List Int) : Outcome crypto :=
  if s.nonce = some nonce then
    match publicKeyFor config.cdn serverPublicKeyFingerprints (s.publicKeys.getD []) with
    | none => reset crypto config around s
    | some publicKey =>
      match crypto.factorize (beNat pq % 2 ^ 64) with
      | none => reset crypto config around s
      | some (factP, factQ) =>
        let dhP := factorBytes factP
        let dhQ := factorBytes factQ
        let newNonce := around.newNonceBytes.1
        ({ s with
            serverNonce := some serverNonce
            dhP := some dhP
            dhQ := some dhQ
            dhPublicKeyFingerprint := publicKey.fingerprint
            newNonce := some newNonce
            dhEncryptedData := some (encryptInnerData crypto around publicKey
              (pqInnerData config pq dhP dhQ nonce serverNonce newNonce))
            stage := .reqDh
            currentStageMessageId := 0
            currentStageMessageSeqNo := 0
            currentStageTransactionId := none }, [.requestTransportTransaction])
  else (s, [])

/-! ## The parameters of the server -/

/-- `tmpAesKey`. -/
def tmpAesKey (serverNonce newNonce : Data) : Data :=
  (crypto.sha1 (newNonce ++ serverNonce)).1 ++ (crypto.sha1 (serverNonce ++ newNonce)).1.take 12

/-- `tmpAesIv`. -/
def tmpAesIv (serverNonce newNonce : Data) : Data :=
  (crypto.sha1 (serverNonce ++ newNonce)).1.drop 12 ++ (crypto.sha1 (newNonce ++ newNonce)).1 ++
    newNonce.take 4

/-- The loop that looks for the end of the answer: up to sixteen tries, each a
byte shorter than the one before.  To shorten an empty answer raises. -/
def verifyAnswer (answerHash : Data) : Nat → Data → Except NSException (Option Data)
  | 0, _ => .ok none
  | tries + 1, answerData =>
    if (crypto.sha1 answerData).1 = answerHash then .ok (some answerData)
    else if answerData = [] then .error .raised
    else verifyAnswer answerHash tries answerData.dropLast

/-- The data that `set_client_DH_params` encrypts. -/
def clientInnerData (nonce serverNonce gB : Data) : Data :=
  int32Bytes 0x6643b654 ++ nonce ++ serverNonce ++ int64Bytes 0 ++ tlBytes gB

/-- The length rounded up to whole AES blocks. -/
def wholeBlocks (length : Nat) : Nat := (length + 15) / 16 * 16

/-- The key exchange with parameters that passed all checks. -/
def exchangeKey (around : Surroundings) (s : State crypto.isPrime) (g : Int)
    (dhPrime gA : Data) : Outcome crypto :=
  let serverNonce := s.serverNonce.getD []
  let newNonce := s.newNonce.getD []
  let b := around.bBytes.1
  let gB := exp (int32Bytes g).reverse b dhPrime
  let authKey := exp gA b dhPrime
  let innerData := clientInnerData (s.nonce.getD []) serverNonce gB
  let dataWithHash := (crypto.sha1 innerData).1 ++ innerData
  ({ s with
      authKey := some {
        authKey, authKeyId := int64OfBytes ((crypto.sha1 authKey).1.drop 12) }
      encryptedClientData := some (crypto.aesEncrypt
        (fillTo around dataWithHash (wholeBlocks dataWithHash.length))
        (tmpAesKey crypto serverNonce newNonce) (tmpAesIv crypto serverNonce newNonce))
      stage := .keyVerification
      currentStageMessageId := 0
      currentStageMessageSeqNo := 0
      currentStageTransactionId := none }, [.requestTransportTransaction])

/-- The checks of the decrypted `server_DH_inner_data`, in their order. -/
def receivedInnerData (around : Surroundings) (s : State crypto.isPrime)
    (nonce serverNonce : Data) (g : Int) (dhPrime gA : Data) : Outcome crypto :=
  if s.nonce ≠ some nonce then reset crypto config around s
  else if s.serverNonce ≠ some serverNonce then reset crypto config around s
  else if g < 0 ∨ checkIsSafeG g.toNat = false then reset crypto config around s
  else if checkIsSafeGAOrB gA dhPrime = false then reset crypto config around s
  else
    let (modSafe, keychain) := checkMod s.keychain dhPrime g.toNat
    let s := { s with keychain }
    if modSafe = false then reset crypto config around s
    else
      let (primeSafe, keychain) := checkIsSafePrime s.keychain dhPrime
      let s := { s with keychain }
      if primeSafe = false then reset crypto config around s
      else exchangeKey crypto around s g dhPrime gA

/-- The encrypted answer to `req_DH_params`.  In a short one the length of what follows the
hash would be negative. -/
def receivedAnswer (around : Surroundings) (s : State crypto.isPrime)
    (encryptedResponse : Data) : Outcome crypto :=
  let serverNonce := s.serverNonce.getD []
  let newNonce := s.newNonce.getD []
  let answerWithHash := crypto.aesDecrypt encryptedResponse
    (tmpAesKey crypto serverNonce newNonce) (tmpAesIv crypto serverNonce newNonce)
  if answerWithHash.length < 20 then (s, [.raised .raised])
  else
    match verifyAnswer crypto (answerWithHash.take 20) 16 (answerWithHash.drop 20) with
    | .error e => (s, [.raised e])
    | .ok none => reset crypto config around s
    | .ok (some answerData) =>
      match parseMessage answerData with
      | .error e => (s, [.raised e])
      | .ok (some (.serverDhInnerData nonce serverNonce g dhPrime gA _)) =>
        receivedInnerData crypto config around s nonce serverNonce g dhPrime gA
      | .ok _ => reset crypto config around s

/-- `server_DH_params` in the stage that waits for it; `encryptedResponse` is
`none` for `server_DH_params_fail`. -/
def receivedServerDhParams (around : Surroundings) (s : State crypto.isPrime)
    (nonce serverNonce : Data) (encryptedResponse : Option Data) : Outcome crypto :=
  if s.nonce = some nonce ∧ s.serverNonce = some serverNonce then
    match encryptedResponse with
    | some encryptedResponse => receivedAnswer crypto config around s encryptedResponse
    | none => reset crypto config around s
  else (s, [])

/-- `newNonceHash1`, `newNonceHash2` and `newNonceHash3`. -/
def newNonceHash (number : UInt8) (newNonce authKey : Data) : Data :=
  let authKeyAuxHash := (crypto.sha1 authKey).1.take 8
  (crypto.sha1 (newNonce ++ [number] ++ authKeyAuxHash)).1.drop 4

/-- `dh_gen_ok` in the stage that waits for it. -/
def receivedDhGenOk (around : Surroundings) (s : State crypto.isPrime) (messageId : Int)
    (nonce serverNonce nextNonceHash1 : Data) : Outcome crypto :=
  if s.nonce = some nonce ∧ s.serverNonce = some serverNonce then
    match s.authKey with
    | none => (s, [])
    | some authKey =>
      if newNonceHash crypto 1 (s.newNonce.getD []) authKey.authKey ≠ nextNonceHash1 then
        reset crypto config around s
      else
        ({ s with
            stage := .done
            currentStageMessageId := 0
            currentStageMessageSeqNo := 0
            currentStageTransactionId := none },
          [.completedWithAuthKey authKey messageId])
  else (s, [])

/-- `dh_gen_retry` and `dh_gen_fail`: whether their hashes are right or not, the
service starts again. -/
def receivedDhGenOther (around : Surroundings) (s : State crypto.isPrime)
    (nonce serverNonce : Data) : Outcome crypto :=
  if s.nonce = some nonce ∧ s.serverNonce = some serverNonce then reset crypto config around s
  else (s, [])

/-- `mtProto:receivedMessage:`. -/
def receivedMessage (around : Surroundings) (s : State crypto.isPrime) (messageId : Int)
    (body : InternalMessage) : Outcome crypto :=
  match s.stage, body with
  | .pq, .resPq nonce serverNonce pq fingerprints =>
    receivedResPq crypto config around s nonce serverNonce pq fingerprints
  | .reqDh, .serverDhParamsOk nonce serverNonce encryptedResponse =>
    receivedServerDhParams crypto config around s nonce serverNonce (some encryptedResponse)
  | .reqDh, .serverDhParamsFail nonce serverNonce _ =>
    receivedServerDhParams crypto config around s nonce serverNonce none
  | .keyVerification, .setClientDhParamsResponseOk nonce serverNonce nextNonceHash1 =>
    receivedDhGenOk crypto config around s messageId nonce serverNonce nextNonceHash1
  | .keyVerification, .setClientDhParamsResponseRetry nonce serverNonce _ =>
    receivedDhGenOther crypto config around s nonce serverNonce
  | .keyVerification, .setClientDhParamsResponseFail nonce serverNonce _ =>
    receivedDhGenOther crypto config around s nonce serverNonce
  | _, _ => (s, [])

/-- `mtProto:transactionsMayHaveFailed:` and `mtProtoAllTransactionsMayHaveFailed:`
for a transaction that is among the failed ones. -/
def transactionFailed (s : State crypto.isPrime) : Outcome crypto :=
  ({ s with currentStageTransactionId := none }, [.requestTransportTransaction])

/-- One call of the service. -/
def step (s : State crypto.isPrime) : Step → Outcome crypto
  | (around, .didAddService) => reset crypto config around s
  | (_, .publicKeysUpdated datacenterId publicKeys) =>
    publicKeysUpdated crypto config s datacenterId publicKeys
  | (around, .messageTransaction) => messageTransaction crypto around s
  | (_, .completion stage prepared transactionId) =>
    completion crypto s stage prepared transactionId
  | (around, .receivedMessage messageId body) =>
    receivedMessage crypto config around s messageId body
  | (around, .protocolErrorReceived) => reset crypto config around s
  | (_, .transactionsMayHaveFailed transactionIds) =>
    match s.currentStageTransactionId with
    | some transactionId =>
      if transactionId ∈ transactionIds then transactionFailed crypto s else (s, [])
    | none => (s, [])
  | (_, .allTransactionsMayHaveFailed) =>
    if s.currentStageTransactionId ≠ none then transactionFailed crypto s else (s, [])

end TelegramPub.Ports.DatacenterAuth
