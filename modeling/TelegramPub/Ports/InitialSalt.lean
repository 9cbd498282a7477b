import TelegramPub.Verified.Double
import TelegramPub.Ports.AuthSalts
import TelegramPub.Ports.DatacenterAuthSafety

/-!
# The salt of a new key

When a handshake ends, `MTDatacenterAuthAction` stores the new key with one salt, which is to
be valid for 29 minutes from the time of the last answer.  The service passes the message id of
this answer as the timestamp, that is the seconds times `2 ^ 32`, and the action multiplies it
by `2 ^ 32` again: the product overflows for every id but those of the first half second.
-/

namespace TelegramPub.Ports.InitialSalt

open Verified Verified.Bytes Verified.Machine Ports.AuthSalts Ports.DatacenterAuth Ports.DhChecks
open Ports.InternalMessageParser

/-- `MTDatacenterAuthInfo`, without the attributes. -/
structure DatacenterAuthInfo where
  authKey : Data
  authKeyId : Int
  saltSet : List DatacenterSaltInfo
  tempAuthKey : Option AuthKey
  deriving DecidableEq

/-- `_datacenterAuthInfoById` of a context. -/
abbrev Context := Int → Option DatacenterAuthInfo

/-- `updateAuthInfoForDatacenterWithId:authInfo:`. -/
def updateAuthInfoForDatacenterWithId (context : Context) (datacenterId : Int)
    (authInfo : DatacenterAuthInfo) : Context :=
  if datacenterId ≠ 0 then Function.update context datacenterId (some authInfo) else context

/-- What `MTDatacenterAuthAction` keeps.  It does not own its context. -/
structure AuthAction where
  tempAuth : Bool
  datacenterId : Int
  context : Option Context
  bindContext : Option Context := none

/-- The salt of a new key. -/
def initialSaltInfo (timestamp : Int) : DatacenterSaltInfo where
  salt := 0
  firstValidMessageId := int64 (timestamp * 4294967296)
  lastValidMessageId :=
    int64 (Double.toInt64 (Double.add (Double.ofInt timestamp) (29 * 60)) * 4294967296)

/-- The new key with its salt. -/
def newAuthInfo (authKey : AuthKey) (timestamp : Int) : DatacenterAuthInfo where
  authKey := authKey.authKey
  authKeyId := authKey.authKeyId
  saltSet := [initialSaltInfo timestamp]
  tempAuthKey := none

/-- `authMessageServiceCompletedWithAuthKey:timestamp:`.  A temporary key gets a context of its
own, in which it is bound to the permanent one. -/
def authMessageServiceCompletedWithAuthKey (a : AuthAction) (authKey : AuthKey)
    (timestamp : Int) : AuthAction :=
  if a.tempAuth then
    match a.context.bind (· a.datacenterId) with
    | none => a
    | some _ =>
      { a with
        bindContext :=
          some (updateAuthInfoForDatacenterWithId (fun _ => none) a.datacenterId
            (newAuthInfo authKey timestamp)) }
  else
    { a with
      context := a.context.map fun context =>
        updateAuthInfoForDatacenterWithId context a.datacenterId
          (newAuthInfo authKey timestamp) }

/-- The salts with which the key is used first. -/
def AuthAction.initialSalts (a : AuthAction) : Option (List DatacenterSaltInfo) :=
  ((if a.tempAuth then a.bindContext else a.context).bind (· a.datacenterId)).map (·.saltSet)

/-- The salt counts for a message. -/
def Accepts (saltInfo : DatacenterSaltInfo) (messageId : Int) : Prop :=
  saltInfo.validMessageCountAfterId messageId ≠ 0

/-- The salt is valid for the 29 minutes that begin at a time in seconds, and for no message
before or after them. -/
structure ValidFor29Minutes (saltInfo : DatacenterSaltInfo) (seconds : Int) : Prop where
  within : ∀ messageId, 0 ≤ messageId → messageId < 2 ^ 63 → seconds * 2 ^ 32 ≤ messageId →
    messageId < (seconds + 29 * 60) * 2 ^ 32 → Accepts saltInfo messageId
  before : ∀ messageId, 0 ≤ messageId → messageId < 2 ^ 63 → messageId < seconds * 2 ^ 32 →
    ¬ Accepts saltInfo messageId
  after : ∀ messageId, 0 ≤ messageId → messageId < 2 ^ 63 →
    (seconds + 29 * 60) * 2 ^ 32 < messageId → ¬ Accepts saltInfo messageId

def FitsInt64 (n : Int) : Prop := -2 ^ 63 ≤ n ∧ n < 2 ^ 63

instance (n : Int) : Decidable (FitsInt64 n) := inferInstanceAs (Decidable (_ ∧ _))

instance (saltInfo : DatacenterSaltInfo) (messageId : Int) :
    Decidable (Accepts saltInfo messageId) :=
  inferInstanceAs (Decidable (_ ≠ _))

/-- Both products of the salt are representable. -/
def NoOverflow (timestamp : Int) : Prop :=
  FitsInt64 (timestamp * 4294967296) ∧
    FitsInt64 (Double.toInt64 (Double.add (Double.ofInt timestamp) (29 * 60)) * 4294967296)

/-- What the salt of a new key is to be, for the id of the last answer. -/
def InitialWindow (a : AuthAction) (messageId : Int) : Prop :=
  ∃ saltInfo, a.initialSalts = some [saltInfo] ∧
    ValidFor29Minutes saltInfo (messageId / 2 ^ 32) ∧ NoOverflow messageId

theorem int64_of_fits {n : Int} (h : FitsInt64 n) : int64 n = n := by
  obtain ⟨hlo, hhi⟩ := h
  exact Int.bmod_eq_of_le_mul_two (by norm_num; omega) (by norm_num; omega)

/-- The range in which a salt counts, where the difference does not overflow. -/
theorem accepts_iff {saltInfo : DatacenterSaltInfo} {messageId : Int}
    (hfits : FitsInt64 (saltInfo.lastValidMessageId - messageId)) :
    Accepts saltInfo messageId ↔ Valid saltInfo messageId := by
  unfold Accepts Valid DatacenterSaltInfo.validMessageCountAfterId
  rw [int64_of_fits hfits]
  split <;> omega

theorem Accepts.start_le {saltInfo : DatacenterSaltInfo} {messageId : Int}
    (h : Accepts saltInfo messageId) : saltInfo.firstValidMessageId ≤ messageId := by
  by_contra hlt
  exact h (by simp [DatacenterSaltInfo.validMessageCountAfterId, Int.not_le.1 hlt])

theorem initialSalts_completed {a : AuthAction} {context : Context} (hid : a.datacenterId ≠ 0)
    (hcontext : a.context = some context)
    (hmain : a.tempAuth = true → (context a.datacenterId).isSome) (authKey : AuthKey)
    (timestamp : Int) :
    (authMessageServiceCompletedWithAuthKey a authKey timestamp).initialSalts =
      some [initialSaltInfo timestamp] := by
  unfold authMessageServiceCompletedWithAuthKey AuthAction.initialSalts
  rw [hcontext]
  cases htemp : a.tempAuth with
  | false => simp [updateAuthInfoForDatacenterWithId, hid, newAuthInfo]
  | true =>
    obtain ⟨mainAuthInfo, hmainAuthInfo⟩ := Option.isSome_iff_exists.1 (hmain htemp)
    simp [hmainAuthInfo, updateAuthInfoForDatacenterWithId, hid, newAuthInfo]

/-- The window of the salt is right for the id zero only. -/
theorem validFor29Minutes_iff {messageId : Int} (hnonneg : 0 ≤ messageId) :
    ValidFor29Minutes (initialSaltInfo messageId) (messageId / 2 ^ 32) ∧ NoOverflow messageId ↔
      messageId = 0 := by
  constructor
  · intro h
    obtain ⟨hwindow, ⟨_, hfits⟩, _⟩ := h
    have hseconds : messageId / 2 ^ 32 = 0 := by omega
    rw [hseconds] at hwindow
    have hstart := (hwindow.within 0 (by decide) (by decide) (by decide) (by decide)).start_le
    have hfirst : (initialSaltInfo messageId).firstValidMessageId = messageId * 4294967296 :=
      int64_of_fits ⟨by omega, hfits⟩
    omega
  · rintro rfl
    have hsalt : initialSaltInfo 0 = ⟨0, 0, 29 * 60 * 2 ^ 32⟩ := by decide +kernel
    have haccepts : ∀ id : Int, 0 ≤ id → id < 2 ^ 63 →
        (Accepts (initialSaltInfo 0) id ↔ id < 29 * 60 * 2 ^ 32) := by
      intro id hid hlt
      rw [hsalt, accepts_iff ⟨by dsimp only; omega, by dsimp only; omega⟩]
      exact ⟨fun h => h.2, fun h => ⟨hid, h⟩⟩
    refine ⟨⟨fun id hid hlt _ hin => ?_, fun id hid hlt hin => ?_, fun id hid hlt hin => ?_⟩,
      ⟨by decide, by decide⟩, by decide +kernel⟩
    · exact (haccepts id hid hlt).2 (by omega)
    · omega
    · exact fun h => absurd ((haccepts id hid hlt).1 h) (by omega)

/-- The salt that is stored when a handshake ends is valid for the 29 minutes after the last
answer exactly if the id of this answer is zero, for both kinds of keys. -/
theorem initialWindow_iff (crypto : Crypto) (config : Config)
    (keychain : Keychain crypto.isPrime) (steps : List Step) (e : Step) (key : AuthKey)
    (timestamp messageId : Int) (body : InternalMessage)
    (hcompletes : Completes crypto config (run (next crypto config) (.initial keychain) steps) e
      key timestamp)
    (hanswer : e.2 = .receivedMessage messageId body) (hnonneg : 0 ≤ messageId)
    (a : AuthAction) (context : Context) (hid : a.datacenterId ≠ 0)
    (hcontext : a.context = some context)
    (hmain : a.tempAuth = true → (context a.datacenterId).isSome) :
    InitialWindow (authMessageServiceCompletedWithAuthKey a key timestamp) messageId ↔
      messageId = 0 := by
  obtain ⟨_, _, _, _, _, _, _, hconfirmed, _⟩ :=
    (handshake_safe crypto config keychain).1 steps e key timestamp hcompletes
  rw [hanswer] at hconfirmed
  obtain ⟨rfl, _⟩ := Event.receivedMessage.inj hconfirmed
  unfold InitialWindow
  rw [initialSalts_completed hid hcontext hmain]
  constructor
  · grind [validFor29Minutes_iff]
  · exact fun hzero => ⟨_, rfl, (validFor29Minutes_iff hnonneg).2 hzero⟩

/-- The confirmation of a handshake, with a message id of the server. -/
def confirmation (messageId : Int) : Step :=
  (plainSurroundings, .receivedMessage messageId
    (.setClientDhParamsResponseOk (List.replicate 16 0) (List.replicate 16 1)
      (List.replicate 16 0)))

/-- An action whose context has a permanent key. -/
def sampleAction (tempAuth : Bool) : AuthAction where
  tempAuth
  datacenterId := 2
  context := some fun _ => some (newAuthInfo ⟨[1], 0⟩ 0)

/-- An exchange with a time difference of 9. -/
theorem initialWindow_plain :
    InitialWindow (authMessageServiceCompletedWithAuthKey (sampleAction true) ⟨[1], 0⟩ 9) 9 ↔
      (9 : Int) = 0 :=
  initialWindow_iff plainCrypto plainConfig .empty plainSteps (confirmation 9) ⟨[1], 0⟩ 9 9 _
    (by unfold Completes; decide +kernel) rfl (by decide) (sampleAction true) _ (by decide) rfl
    fun _ => rfl

theorem not_initialWindow_2017 (tempAuth : Bool) :
    ¬ InitialWindow
      (authMessageServiceCompletedWithAuthKey (sampleAction tempAuth) ⟨[1], 0⟩
        (1500000000 * 2 ^ 32 + 1)) (1500000000 * 2 ^ 32 + 1) := by
  have hid : (sampleAction tempAuth).datacenterId ≠ 0 := (by decide : (2 : Int) ≠ 0)
  rintro ⟨saltInfo, hsalt, hwindow, _⟩
  rw [initialSalts_completed hid rfl fun _ => rfl] at hsalt
  cases hsalt
  exact absurd
    (hwindow.within (1500000000 * 2 ^ 32 + 1) (by decide) (by decide) (by decide) (by decide))
    (by decide +kernel)

/-- An answer in the year 2017 leaves a salt that is not valid at its own time. -/
theorem initial_salt_expired :
    Completes plainCrypto plainConfig
        (run (next plainCrypto plainConfig) (.initial .empty) plainSteps)
        (confirmation (1500000000 * 2 ^ 32 + 1)) ⟨[1], 0⟩ (1500000000 * 2 ^ 32 + 1) ∧
      ¬ InitialWindow
        (authMessageServiceCompletedWithAuthKey (sampleAction false) ⟨[1], 0⟩
          (1500000000 * 2 ^ 32 + 1)) (1500000000 * 2 ^ 32 + 1) ∧
      ¬ InitialWindow
        (authMessageServiceCompletedWithAuthKey (sampleAction true) ⟨[1], 0⟩
          (1500000000 * 2 ^ 32 + 1)) (1500000000 * 2 ^ 32 + 1) :=
  ⟨by unfold Completes; decide +kernel, not_initialWindow_2017 false,
    not_initialWindow_2017 true⟩

end TelegramPub.Ports.InitialSalt
