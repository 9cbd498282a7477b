import TelegramPub.Ports.SecretRekey

/-!
# The ids of exchanges

Every exchange that a client has recorded or mentioned has been started before.  When the ids
that are drawn are distinct and not 0, each new one is therefore that of no other exchange
(`guarded_newExchange`).
-/

namespace TelegramPub.Ports.SecretRekey

open Verified.Bytes Verified.Machine

/-- The exchange that an action is about. -/
def Payload.exchangeId : Payload → Int
  | .ordinary => 0
  | .requestKey exchangeId _ => exchangeId
  | .acceptKey exchangeId _ _ => exchangeId
  | .commitKey exchangeId _ => exchangeId
  | .abortKey exchangeId => exchangeId
  | .noop => 0

/-- The id of no exchange that the peer has or that a message is about. -/
def Fresh (c peer : Client) (exchangeId : Int) : Prop :=
  exchangeId ≠ 0 ∧ exchangeId ≠ peer.encryptedData.currentRekeyExchangeId ∧
    ∀ m ∈ c.sent ++ peer.sent, m.payload.exchangeId ≠ exchangeId

/-- A new exchange gets a new id. -/
def Client.NewExchange (c peer : Client) : Action → Prop
  | .rekey _ exchangeId _ => Fresh c peer exchangeId
  | _ => True

def NewExchange (s : Chat) : Party × Action → Prop
  | (.creator, action) => s.creator.NewExchange s.participant action
  | (.participant, action) => s.participant.NewExchange s.creator action

def Action.exchangeId? : Action → Option Int
  | .rekey _ exchangeId _ => some exchangeId
  | _ => none

/-- The ids that are drawn in a run. -/
def exchangeIds (events : List (Party × Action)) : List Int :=
  events.filterMap (·.2.exchangeId?)

/-- Everything that the client has or says about exchanges is about these. -/
structure Client.Known (l : List Int) (c : Client) : Prop where
  record : c.encryptedData.currentRekeyExchangeId ∈ l
  sent : ∀ m ∈ c.sent, m.payload.exchangeId ∈ l
  unfinished : ∀ loaded exchangeId gA,
    c.unfinished = some (.requestKey loaded exchangeId gA) → exchangeId ∈ l

section Known

variable {dh : DhConfig} {l : List Int} {c : Client}

theorem Client.Known.mono {l' : List Int} (h : c.Known l) (hsub : l ⊆ l') : c.Known l' where
  record := hsub h.record
  sent := fun m hm => hsub (h.sent m hm)
  unfinished := fun loaded e gA hu => hsub (h.unfinished loaded e gA hu)

/-- Only the record, the messages and the unfinished work matter. -/
theorem Client.Known.of_same {c' : Client} (h : c.Known l)
    (hrecord : c'.encryptedData.currentRekeyExchangeId ∈ l) (hsent : c'.sent = c.sent)
    (hu : c'.unfinished = c.unfinished ∨ c'.unfinished = none) : c'.Known l where
  record := hrecord
  sent := hsent ▸ h.sent
  unfinished := by
    intro loaded e gA heq
    rcases hu with hsame | hnone
    · exact h.unfinished loaded e gA (hsame ▸ heq)
    · rw [hnone] at heq
      cases heq

theorem Client.Known.store {keyId : Int} {payload : Payload} (h : c.Known l)
    (hpayload : payload.exchangeId ∈ l) : (c.store keyId payload).Known l where
  record := h.record
  sent := by
    intro m hm
    rcases List.mem_append.1 hm with hold | hnew
    · exact h.sent m hold
    · rw [List.mem_singleton.1 hnew]
      exact hpayload
  unfinished := h.unfinished

theorem Client.Known.enqueue {payload : Payload} (h : c.Known l)
    (hpayload : payload.exchangeId ∈ l) : (c.enqueue payload).Known l := by
  unfold Client.enqueue
  split
  · exact h.store hpayload
  · exact h

theorem Client.Known.next (h : c.Known l) : c.next.Known l :=
  h.of_same h.record rfl (.inr rfl)

theorem Client.Known.cleared (h : c.Known l) (hzero : 0 ∈ l) (d : EncryptedData) :
    ({ c with encryptedData := d.cleared } : Client).Known l := h.of_same hzero rfl (.inl rfl)

theorem Client.Known.abortHandshake {e : Int} (h : c.Known l) (hzero : 0 ∈ l) (he : e ∈ l) :
    (c.abortHandshake e).Known l := by
  have habort : (c.enqueue (.abortKey e)).Known l := h.enqueue he
  unfold Client.abortHandshake Client.markHandshakeAsAborted
  split
  · exact habort.cleared hzero _
  · exact habort

theorem Client.Known.maybeRekey {config : Bool} {e : Int} {a : Data} (h : c.Known l)
    (he : e ∈ l) : (c.maybeRekey dh config e a).Known l := by
  unfold Client.maybeRekey
  split
  case isTrue =>
    split
    case isTrue =>
      refine Client.Known.enqueue ?_ he
      exact h.of_same he rfl (.inl rfl)
    case isFalse => exact h
  case isFalse => exact h

theorem Client.Known.work {config : Bool} {payload : Payload} (h : c.Known l) (hzero : 0 ∈ l)
    (hpayload : payload.exchangeId ∈ l) : (c.work dh config payload).Known l := by
  unfold Client.work
  cases payload with
  | ordinary => exact h.next
  | noop => exact h.next
  | abortKey e =>
    refine Client.Known.next ?_
    unfold Client.markHandshakeAsAborted
    split
    · exact h.cleared hzero _
    · exact h
  | commitKey e f =>
    dsimp only
    split
    · exact ⟨h.record, h.sent, nofun⟩
    · exact h.next
  | requestKey e gA =>
    have hloads : ({ c with unfinished := some (.requestKey c.encryptedData e gA) } :
        Client).Known l := by
      refine ⟨h.record, h.sent, fun loaded e' gA' heq => ?_⟩
      cases heq
      exact hpayload
    have habort : (c.enqueue (.abortKey e)).Known l := h.enqueue hpayload
    dsimp only
    split
    · split
      · split
        · exact habort.next
        · exact hloads
      · exact h.next
    · exact hloads
  | acceptKey e gB f =>
    dsimp only
    split
    case isFalse => exact h.next
    case isTrue =>
      split
      case isFalse => exact h.next
      case isTrue =>
        split
        case isFalse => exact (h.abortHandshake hzero hpayload).next
        case isTrue =>
          split
          case isFalse => exact (h.abortHandshake hzero hpayload).next
          case isTrue =>
            split
            case isFalse => exact (h.cleared hzero _).next
            case isTrue =>
              have hcommit : (c.enqueue (.commitKey e (dh.exchange.fingerprint
                  (dh.exchange.shared gB c.encryptedData.currentRekeyNumber)))).Known
                  l := h.enqueue hpayload
              exact ⟨hcommit.record, hcommit.sent, nofun⟩

theorem Client.Known.finish {config : Bool} {b : Data} {u : Unfinished} (h : c.Known l)
    (hzero : 0 ∈ l) (hu : c.unfinished = some u) : (c.finish dh config b u).Known l := by
  have hinstalled : ∀ (keys : List (SecretKeys.KeyData Data)) (d : EncryptedData),
      ({ { c with keys := keys }.enqueue .noop with encryptedData := d.cleared } :
        Client).Known l := by
    intro keys d
    have hkeys : ({ c with keys := keys } : Client).Known l := h.of_same h.record rfl (.inl rfl)
    have hnoop : (({ c with keys := keys } : Client).enqueue .noop).Known l := hkeys.enqueue hzero
    exact hnoop.cleared hzero d
  unfold Client.finish
  cases u with
  | requestKey loaded e gA =>
    have he : e ∈ l := h.unfinished loaded e gA hu
    have habort : (c.enqueue (.abortKey e)).Known l := h.enqueue he
    dsimp only
    split
    case isFalse => exact habort.next
    case isTrue =>
      split
      case isFalse => exact (h.abortHandshake hzero he).next
      case isTrue =>
        refine Client.Known.next (Client.Known.enqueue ?_ he)
        exact h.of_same he rfl (.inl rfl)
  | acceptKey loaded key keyId seqOut => exact (hinstalled _ loaded).next
  | commitKey loaded seqOut => exact (hinstalled _ loaded).next

theorem Client.Known.step {peerSent : List Message} {action : Action} (h : c.Known l)
    (hzero : 0 ∈ l) (hpeer : ∀ m ∈ peerSent, m.payload.exchangeId ∈ l)
    (haction : ∀ e, action.exchangeId? = some e → e ∈ l) :
    (c.step dh peerSent action).Known l := by
  have hsame : ∀ (blocks layer : Nat) (chosen : List Int),
      ({ c with rekeyBlocks := blocks, peerLayer := layer, chosen := chosen } : Client).Known l :=
    fun _ _ _ => h.of_same h.record rfl (.inl rfl)
  unfold Client.step
  cases action with
  | outgoingPoll =>
    dsimp only
    split
    · exact hsame ..
    · exact h
  | rekey config e a =>
    dsimp only
    split
    · exact h
    · exact Client.Known.maybeRekey (hsame ..) (haction e rfl)
  | choose => exact hsame ..
  | enqueue index =>
    dsimp only
    split
    · exact h
    · exact Client.Known.store (hsame ..) hzero
  | receive count =>
    dsimp only
    split
    · exact h.of_same h.record rfl (.inl rfl)
    · exact h
  | work config =>
    dsimp only
    split
    · split
      · exact h
      · next m hm => exact h.work hzero (hpeer m (List.mem_of_getElem? hm))
    · exact h
  | finish config b =>
    dsimp only
    split
    · exact h
    · next u hu => exact h.finish hzero hu
  | setPeerLayer layer => exact hsame ..

end Known

/-- In a run whose ids are distinct and not 0, each new exchange gets a new id. -/
theorem guarded_newExchange (dh : DhConfig) : ∀ (events : List (Party × Action)) (l : List Int)
    (s : Chat), 0 ∈ l → s.creator.Known l → s.participant.Known l →
      (l ++ exchangeIds events).Nodup → Guarded (Chat.step dh) NewExchange s events := by
  intro events
  induction events with
  | nil => intro l s _ _ _ _; trivial
  | cons event events ih =>
    intro l s hzero hcreator hparticipant hdistinct
    obtain ⟨party, action⟩ := event
    have hnew : ∀ {c peer : Client}, c.Known l → peer.Known l → c.NewExchange peer action := by
      intro c peer hc hpeer
      cases action with
      | rekey config e a =>
        have hfresh : ∀ e' ∈ l, e' ≠ e := fun e' he' =>
          (List.pairwise_append.1 hdistinct).2.2 e' he' e (List.mem_cons_self ..)
        refine ⟨(hfresh 0 hzero).symm, (hfresh _ hpeer.record).symm, fun m hm => ?_⟩
        rcases List.mem_append.1 hm with hm | hm
        · exact hfresh _ (hc.sent m hm)
        · exact hfresh _ (hpeer.sent m hm)
      | _ => trivial
    have hids : exchangeIds ((party, action) :: events) =
        action.exchangeId?.toList ++ exchangeIds events := by
      unfold exchangeIds
      rw [List.filterMap_cons]
      cases action <;> rfl
    rw [hids, ← List.append_assoc] at hdistinct
    have hsub : l ⊆ l ++ action.exchangeId?.toList := List.subset_append_left ..
    have haction : ∀ e, action.exchangeId? = some e → e ∈ l ++ action.exchangeId?.toList :=
      fun e he => List.mem_append_right _ (Option.mem_toList.2 he)
    have hcreator' := hcreator.mono hsub
    have hparticipant' := hparticipant.mono hsub
    cases party with
    | creator =>
      exact ⟨hnew hcreator hparticipant, ih _ _ (hsub hzero)
        (hcreator'.step (hsub hzero) hparticipant'.sent haction) hparticipant' hdistinct⟩
    | participant =>
      exact ⟨hnew hparticipant hcreator, ih _ _ (hsub hzero) hcreator'
        (hparticipant'.step (hsub hzero) hcreator'.sent haction) hdistinct⟩

end TelegramPub.Ports.SecretRekey
