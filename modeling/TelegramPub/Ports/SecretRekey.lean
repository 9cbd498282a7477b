import TelegramPub.Ports.DhChecks
import TelegramPub.Ports.SecretKeys
import TelegramPub.Verified.KeyExchange
import TelegramPub.Verified.Machine

/-!
# Rekeying of a secret chat

Each client of a secret chat keeps a record of the exchange it takes part in.
`maybeRekeyPeerId:` starts one on the database thread; the incoming queue accepts, commits,
installs or aborts it on the stage queue.  `TGSecretOutgoingQueueActor` asks for the former
from the stage queue, and every action of the latter begins with reading the record
synchronously on the database thread, so that what has been asked for has run by then.

An action is stored under the key that is the newest when it is enqueued.  The two are
separate steps, and any thread enqueues.  In the same way the incoming queue counts all
messages of a run as received, and discards the keys that they make needless, before it
works on the first.

The machine has two clients.  What one has sent is a list, which the other receives in its
order; the place in the list is the number of the action.
-/

namespace TelegramPub.Ports.SecretRekey

open Verified.Bytes Verified.KeyExchange Ports.DhChecks Ports.SecretKeys

/-- What is used of a `TL_messages_dhConfig`, and the hash function. -/
structure DhConfig where
  g : Data
  p : Data
  sha1 : Data → Data

/-- A key has 256 bytes. -/
def paddedKey (key : Data) : Data :=
  let key := if 256 < key.length then key.drop 1 else key
  List.replicate (256 - key.length) 0 ++ key

theorem exp_exp (g a b p : Data) : exp (exp g a p) b p = exp (exp g b p) a p := by
  unfold exp
  rw [beNat_natBE, beNat_natBE, ← Nat.pow_mod, ← Nat.pow_mod, ← Nat.pow_mul, ← Nat.pow_mul,
    Nat.mul_comm]

/-- The key exchange of the configuration. -/
def DhConfig.exchange (config : DhConfig) : DiffieHellman Data Data Data where
  power a := exp config.g a config.p
  shared g a := paddedKey (exp g a config.p)
  fingerprint key :=
    let keyHash := config.sha1 key
    int64OfBytes (keyHash.drop (keyHash.length - 8))
  shared_comm a b := by rw [exp_exp]

/-- What an action says about an exchange; `ordinary` is any other action. -/
inductive Payload where
  | ordinary
  | requestKey (exchangeId : Int) (gA : Data)
  | acceptKey (exchangeId : Int) (gB : Data) (keyFingerprint : Int)
  | commitKey (exchangeId : Int) (keyFingerprint : Int)
  | abortKey (exchangeId : Int)
  | noop
  deriving DecidableEq

/-- A stored outgoing action: its key, and the number of the peer's actions that this client
had counted. -/
structure Message where
  keyId : Int
  seqIn : Nat
  payload : Payload
  deriving DecidableEq

/-- What is used of a `TGEncryptedConversationData`. -/
structure EncryptedData where
  keyFingerprint : Int
  currentRekeyExchangeId : Int
  currentRekeyIsInitiatedByLocalClient : Bool
  currentRekeyNumber : Data
  currentRekeyKey : Data
  currentRekeyKeyId : Int
  deriving DecidableEq

/-- The record without an exchange. -/
def EncryptedData.cleared (d : EncryptedData) : EncryptedData :=
  { d with
    currentRekeyKey := []
    currentRekeyKeyId := 0
    currentRekeyExchangeId := 0
    currentRekeyIsInitiatedByLocalClient := false
    currentRekeyNumber := [] }

/-- How far the work on an action of the peer has come: the record that was read, and then a
request that will be accepted; the key of an acceptance whose commit has been enqueued with a
number; or the number from which the key of a commit will be used. -/
inductive Unfinished where
  | requestKey (loaded : EncryptedData) (exchangeId : Int) (gA : Data)
  | acceptKey (loaded : EncryptedData) (key : Data) (keyId seqOut : Int)
  | commitKey (loaded : EncryptedData) (seqOut : Int)

/-- A client of the chat: the record, the keys, what it has sent, the peer's layer, how many
of the peer's actions it has counted and worked on, the work that it is about, the blocks of
`maybeRekeyPeerId:` on the database queue, and the keys that other threads have chosen. -/
structure Client where
  encryptedData : EncryptedData
  keys : List (KeyData Data)
  sent : List Message
  peerLayer : Nat
  processed : Nat
  handled : Nat
  unfinished : Option Unfinished
  rekeyBlocks : Nat
  chosen : List Int

/-- The stage queue is free. -/
def Client.Free (c : Client) : Prop := c.handled = c.processed ∧ c.unfinished = none

instance (c : Client) : Decidable c.Free :=
  decidable_of_iff (c.handled = c.processed ∧ c.unfinished.isNone)
    (and_congr_right fun _ => Option.isNone_iff_eq_none)

/-- The fingerprint that `encryptionKeyForConversationId:` gives for the newest key. -/
def Client.newestKeyId (c : Client) : Int :=
  ((encryptionKeyForConversationId c.keys 0).map (·.keyId)).getD 0

/-- `enqueuePeerOutgoingAction:` with a key. -/
def Client.store (c : Client) (keyId : Int) (payload : Payload) : Client :=
  { c with sent := c.sent ++ [{ keyId, seqIn := c.processed, payload }] }

/-- The layers that `decryptedServiceMessageActionWithLayer:` knows from 20 on. -/
def composes (peerLayer : Nat) : Bool := [20, 23, 46, 66, 73].contains (min peerLayer 73)

/-- A service message, if there is one for the layer, and
`enqueueOutgoingServiceMessageForPeerId:`. -/
def Client.enqueue (c : Client) (payload : Payload) : Client :=
  if composes c.peerLayer then c.store c.newestKeyId payload else c

section Steps

variable (dh : DhConfig)

/-- `maybeRekeyPeerId:`, with the new id and number. -/
def Client.maybeRekey (c : Client) (config : Bool) (exchangeId : Int) (a : Data) : Client :=
  if c.encryptedData.keyFingerprint ≠ 0 ∧ c.encryptedData.currentRekeyExchangeId = 0 ∧ config then
    if checkIsSafeGAOrB (dh.exchange.power a) dh.p then
      { c with
        encryptedData :=
          { c.encryptedData with
            currentRekeyExchangeId := exchangeId
            currentRekeyIsInitiatedByLocalClient := true
            currentRekeyNumber := a } }.enqueue (.requestKey exchangeId (dh.exchange.power a))
    else c
  else c

/-- `markHandshakeAsAborted:`. -/
def Client.markHandshakeAsAborted (c : Client) (exchangeId : Int) : Client :=
  if c.encryptedData.currentRekeyExchangeId = exchangeId then
    { c with encryptedData := c.encryptedData.cleared }
  else c

/-- `abortHandshake:`. -/
def Client.abortHandshake (c : Client) (exchangeId : Int) : Client :=
  (c.enqueue (.abortKey exchangeId)).markHandshakeAsAborted exchangeId

/-- The work on the next action is done. -/
def Client.next (c : Client) : Client := { c with handled := c.handled + 1, unfinished := none }

/-- The part of the loop over `addedActions` up to where other threads can notice. -/
def Client.work (c : Client) (config : Bool) : Payload → Client
  | .requestKey exchangeId gA =>
    if c.encryptedData.currentRekeyExchangeId ≠ 0 then
      if c.encryptedData.currentRekeyIsInitiatedByLocalClient then
        if c.encryptedData.currentRekeyExchangeId > exchangeId then
          (c.enqueue (.abortKey exchangeId)).next
        else { c with unfinished := some (.requestKey c.encryptedData exchangeId gA) }
      else c.next
    else { c with unfinished := some (.requestKey c.encryptedData exchangeId gA) }
  | .acceptKey exchangeId gB keyFingerprint =>
    if c.encryptedData.currentRekeyExchangeId = exchangeId ∧
        c.encryptedData.currentRekeyIsInitiatedByLocalClient then
      if config then
        if checkIsSafeGAOrB gB dh.p then
          let key := dh.exchange.shared gB c.encryptedData.currentRekeyNumber
          let keyId := dh.exchange.fingerprint key
          if keyId = keyFingerprint then
            if composes c.peerLayer then
              { c.enqueue (.commitKey exchangeId keyId) with
                unfinished := some (.acceptKey c.encryptedData key keyId c.sent.length) }
            else { c with encryptedData := c.encryptedData.cleared }.next
          else (c.abortHandshake exchangeId).next
        else (c.abortHandshake exchangeId).next
      else c.next
    else c.next
  | .commitKey exchangeId keyFingerprint =>
    if c.encryptedData.currentRekeyExchangeId = exchangeId ∧
        ¬ c.encryptedData.currentRekeyIsInitiatedByLocalClient ∧
        c.encryptedData.currentRekeyKeyId = keyFingerprint then
      { c with unfinished := some (.commitKey c.encryptedData c.sent.length) }
    else c.next
  | .abortKey exchangeId => (c.markHandshakeAsAborted exchangeId).next
  | .noop => c.next
  | .ordinary => c.next

/-- The rest of it. -/
def Client.finish (c : Client) (config : Bool) (b : Data) : Unfinished → Client
  | .requestKey loaded exchangeId gA =>
    if config then
      if checkIsSafeGAOrB gA dh.p then
        let key := dh.exchange.shared gA b
        let keyId := dh.exchange.fingerprint key
        ({ c with
          encryptedData :=
            { loaded with
              currentRekeyExchangeId := exchangeId
              currentRekeyKey := key
              currentRekeyKeyId := keyId
              currentRekeyIsInitiatedByLocalClient := false } }.enqueue
          (.acceptKey exchangeId (dh.exchange.power b) keyId)).next
      else (c.abortHandshake exchangeId).next
    else (c.enqueue (.abortKey exchangeId)).next
  | .acceptKey loaded key keyId seqOut =>
    { { c with keys := storeEncryptionKey c.keys key keyId seqOut }.enqueue .noop with
      encryptedData := loaded.cleared }.next
  | .commitKey loaded seqOut =>
    { { c with
        keys := storeEncryptionKey c.keys loaded.currentRekeyKey loaded.currentRekeyKeyId seqOut
      }.enqueue .noop with encryptedData := loaded.cleared }.next

/-- What one client does.  `outgoingPoll` asks for a rekeying and `rekey` carries it out;
`choose` and `enqueue` are the two steps of another thread that stores an ordinary action;
`receive` begins a run of the incoming queue, and `work` and `finish` go on with its next
action. -/
inductive Action where
  | outgoingPoll
  | rekey (config : Bool) (exchangeId : Int) (a : Data)
  | choose
  | enqueue (index : Nat)
  | receive (count : Nat)
  | work (config : Bool)
  | finish (config : Bool) (b : Data)
  | setPeerLayer (layer : Nat)

/-- The next actions of the peer that can be read, at most `count`. -/
def Client.readable (c : Client) (peerSent : List Message) (count : Nat) : List Message :=
  ((peerSent.drop c.processed).takeWhile fun m =>
    (encryptionKeyForConversationId c.keys m.keyId).isSome).take count

/-- `applyPeerSeqIn:` and `discardEncryptionKeysForConversationId:` for the actions of a run. -/
def Client.receive (c : Client) (run : List Message) : Client :=
  let maxSeqIn : Int := run.foldl (fun s m => max s m.seqIn) (-1)
  { c with
    processed := c.processed + run.length
    keys := if 0 < maxSeqIn then discardEncryptionKeys c.keys maxSeqIn else c.keys }

/-- One step of a client whose peer has sent `peerSent`. -/
def Client.step (c : Client) (peerSent : List Message) : Action → Client
  | .outgoingPoll => if c.Free then { c with rekeyBlocks := c.rekeyBlocks + 1 } else c
  | .rekey config exchangeId a =>
    if c.rekeyBlocks = 0 then c
    else { c with rekeyBlocks := c.rekeyBlocks - 1 }.maybeRekey dh config exchangeId a
  | .choose => { c with chosen := c.chosen ++ [c.newestKeyId] }
  | .enqueue index =>
    match c.chosen[index]? with
    | none => c
    | some keyId => { c with chosen := c.chosen.eraseIdx index }.store keyId .ordinary
  | .receive count => if c.Free then c.receive (c.readable peerSent count) else c
  | .work config =>
    if c.rekeyBlocks = 0 ∧ c.unfinished = none ∧ c.handled < c.processed then
      match peerSent[c.handled]? with
      | none => c
      | some m => c.work dh config m.payload
    else c
  | .finish config b =>
    match c.unfinished with
    | none => c
    | some u => c.finish dh config b u
  | .setPeerLayer layer => { c with peerLayer := max c.peerLayer layer }

inductive Party where
  | creator
  | participant
  deriving DecidableEq

structure Chat where
  creator : Client
  participant : Client

def Chat.step (s : Chat) : Party × Action → Chat
  | (.creator, action) => { s with creator := s.creator.step dh s.participant.sent action }
  | (.participant, action) => { s with participant := s.participant.step dh s.creator.sent action }

/-- A client when the chat has been created with a key. -/
def Client.initial (keyId : Int) (key : Data) (peerLayer : Nat) : Client where
  encryptedData :=
    { keyFingerprint := keyId, currentRekeyExchangeId := 0
      currentRekeyIsInitiatedByLocalClient := false, currentRekeyNumber := []
      currentRekeyKey := [], currentRekeyKeyId := 0 }
  keys := [{ keyId, key, firstSeqOut := 0 }]
  sent := []
  peerLayer := peerLayer
  processed := 0
  handled := 0
  unfinished := none
  rekeyBlocks := 0
  chosen := []

def Chat.initial (keyId : Int) (key : Data) (creatorLayer participantLayer : Nat) : Chat where
  creator := Client.initial keyId key creatorLayer
  participant := Client.initial keyId key participantLayer

end Steps

end TelegramPub.Ports.SecretRekey
