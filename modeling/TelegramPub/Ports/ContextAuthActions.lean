import TelegramPub.Verified.Bytes
import TelegramPub.Verified.Machine

/-!
# MTContext: obtaining authorization keys

`MTContext` keeps, per datacenter, the action that is obtaining the permanent
key and the action that is obtaining the temporary key, so that a key which is
required several times is obtained once.  `MTDatacenterAuthAction` runs the key
exchange and, for a temporary key, binds it to the permanent one; when it is
done it reports to the context, which is to forget it.

The context forgets only permanent-key actions.  A temporary-key action stays
registered for ever, and a second loss of the temporary key starts nothing.
`startsWhenNeeded_iff` says exactly which runs are affected.  Of the permanent-key
actions of a datacenter one works at a time (`authActions_unique`).

An action is an object with an identity: it is named by its position in the
list of all actions ever created.
-/

namespace TelegramPub.Ports.ContextAuthActions

open Verified.Bytes Verified.Machine

/-- `MTDatacenterAuthKey`. -/
structure AuthKey where
  authKey : Data
  authKeyId : Int
  deriving DecidableEq

/-- `MTDatacenterAuthInfo`, without the salts and the attributes. -/
structure AuthInfo where
  authKey : Data
  authKeyId : Int
  tempAuthKey : Option AuthKey
  deriving DecidableEq

/-- `withUpdatedTempAuthKey:`. -/
def AuthInfo.withUpdatedTempAuthKey (info : AuthInfo) (key : Option AuthKey) : AuthInfo :=
  { info with tempAuthKey := key }

/-- How far an action has come: its key exchange runs, or the temporary key it
obtained is being bound, or it has reported to its delegate. -/
inductive Phase where
  | authorizing
  | binding (key : AuthKey)
  | completed
  deriving DecidableEq

/-- `MTDatacenterAuthAction`.  `authMtProto` is the exchange it drives, with
its `cdn` flag; an action that has none receives no key. -/
structure Action where
  tempAuth : Bool
  datacenterId : Int
  phase : Phase := .authorizing
  authMtProto : Option Bool := none
  deriving DecidableEq

/-- The part of `MTContext` that concerns keys. -/
structure Context where
  datacenterAuthInfoById : Int → Option AuthInfo
  datacenterAuthActions : Int → Option Nat
  datacenterTempAuthActions : Int → Option Nat
  actions : List Action

/-- A context as it is loaded from the keychain. -/
def initial (datacenterAuthInfoById : Int → Option AuthInfo) : Context :=
  { datacenterAuthInfoById
    datacenterAuthActions := fun _ => none
    datacenterTempAuthActions := fun _ => none
    actions := [] }

/-- `updateAuthInfoForDatacenterWithId:authInfo:`. -/
def updateAuthInfo (s : Context) (datacenterId : Int) (authInfo : Option AuthInfo) :
    Context :=
  if authInfo.isSome ∧ datacenterId ≠ 0 then
    { s with
      datacenterAuthInfoById :=
        Function.update s.datacenterAuthInfoById datacenterId authInfo }
  else s

/-- `datacenterAuthActionCompleted:`.  The loop stops at the first match; an
action is registered under one datacenter only. -/
def datacenterAuthActionCompleted (s : Context) (action : Nat) : Context :=
  { s with
    datacenterAuthActions := fun datacenterId =>
      if s.datacenterAuthActions datacenterId = some action then none
      else s.datacenterAuthActions datacenterId }

/-- The action is done.  A permanent-key action that the context has forgotten is deallocated,
which stops its exchange. -/
def finished (a : Action) : Action :=
  { a with
    phase := .completed
    authMtProto := if a.tempAuth then a.authMtProto else none }

/-- `complete` and `fail` of an action: both only tell the delegate. -/
def complete (s : Context) (action : Nat) : Context :=
  datacenterAuthActionCompleted { s with actions := s.actions.modify action finished } action

/-- Whether `execute` finds that the key is already there. -/
def alreadyCompleted (s : Context) (tempAuth : Bool) (datacenterId : Int) : Bool :=
  match s.datacenterAuthInfoById datacenterId with
  | none => false
  | some info => if tempAuth then info.tempAuthKey.isSome else true

/-- `execute:datacenterId:isCdn:`. -/
def execute (s : Context) (action : Nat) (tempAuth : Bool) (datacenterId : Int)
    (isCdn : Bool) : Context :=
  if datacenterId ≠ 0 then
    if alreadyCompleted s tempAuth datacenterId then complete s action
    else
      { s with
        actions := s.actions.modify action ({ · with authMtProto := some isCdn }) }
  else complete s action

/-- A new action of the given kind. -/
def newAction (s : Context) (tempAuth : Bool) (datacenterId : Int) : Context :=
  { s with actions := s.actions ++ [{ tempAuth, datacenterId }] }

/-- `authInfoForDatacenterWithIdRequired:isCdn:`. -/
def authInfoForDatacenterWithIdRequired (s : Context) (datacenterId : Int) (isCdn : Bool) :
    Context :=
  match s.datacenterAuthActions datacenterId with
  | some _ => s
  | none =>
    let action := s.actions.length
    let s := newAction s false datacenterId
    execute
      { s with
        datacenterAuthActions :=
          Function.update s.datacenterAuthActions datacenterId (some action) }
      action false datacenterId isCdn

/-- `tempAuthKeyForDatacenterWithIdRequired:`. -/
def tempAuthKeyForDatacenterWithIdRequired (s : Context) (datacenterId : Int) : Context :=
  match s.datacenterTempAuthActions datacenterId with
  | some _ => s
  | none =>
    let action := s.actions.length
    let s := newAction s true datacenterId
    execute
      { s with
        datacenterTempAuthActions :=
          Function.update s.datacenterTempAuthActions datacenterId (some action) }
      action true datacenterId false

/-- `authMessageServiceCompletedWithAuthKey:timestamp:`.  A temporary key is
bound first, and only if there is a permanent key. -/
def authMessageServiceCompleted (s : Context) (action : Nat) (key : AuthKey) : Context :=
  match s.actions[action]? with
  | none => s
  | some a =>
    if a.authMtProto.isNone then s
    else if a.tempAuth then
      match s.datacenterAuthInfoById a.datacenterId with
      | none => s
      | some _ =>
        { s with actions := s.actions.modify action ({ · with phase := .binding key }) }
    else
      complete
        (updateAuthInfo s a.datacenterId (some ⟨key.authKey, key.authKeyId, none⟩)) action

/-- The completion block of `bindToPersistentKey:completion:`. -/
def bindCompleted (s : Context) (action : Nat) : Context :=
  match s.actions[action]? with
  | none => s
  | some a =>
    match a.phase with
    | .binding key =>
      complete
        (updateAuthInfo s a.datacenterId
          ((s.datacenterAuthInfoById a.datacenterId).map
            (·.withUpdatedTempAuthKey (some key))))
        action
    | _ => s

inductive Event where
  | authInfoRequired (datacenterId : Int) (isCdn : Bool)
  | tempAuthKeyRequired (datacenterId : Int)
  | authMessageServiceCompleted (action : Nat) (key : AuthKey)
  | bindCompleted (action : Nat)
  | authInfoUpdated (datacenterId : Int) (authInfo : Option AuthInfo)

def step (s : Context) : Event → Context
  | .authInfoRequired datacenterId isCdn =>
    authInfoForDatacenterWithIdRequired s datacenterId isCdn
  | .tempAuthKeyRequired datacenterId =>
    tempAuthKeyForDatacenterWithIdRequired s datacenterId
  | .authMessageServiceCompleted action key => authMessageServiceCompleted s action key
  | .bindCompleted action => bindCompleted s action
  | .authInfoUpdated datacenterId authInfo => updateAuthInfo s datacenterId authInfo

/-! ## The property and the condition -/

/-- Some action of this kind for this datacenter has not completed. -/
def Running (s : Context) (tempAuth : Bool) (datacenterId : Int) : Prop :=
  ∃ a ∈ s.actions, a.tempAuth = tempAuth ∧ a.datacenterId = datacenterId ∧
    a.phase ≠ .completed

/-- Some action of this kind was once started for this datacenter. -/
def Started (s : Context) (tempAuth : Bool) (datacenterId : Int) : Prop :=
  ∃ a ∈ s.actions, a.tempAuth = tempAuth ∧ a.datacenterId = datacenterId

/-- Going from `s` to `s'` an action is created for the datacenter. -/
def Starts (s s' : Context) (tempAuth : Bool) (datacenterId : Int) : Prop :=
  ∃ a, s'.actions[s.actions.length]? = some a ∧ a.tempAuth = tempAuth ∧
    a.datacenterId = datacenterId

/-- The temporary key of a datacenter. -/
def tempAuthKey (s : Context) (datacenterId : Int) : Option AuthKey :=
  (s.datacenterAuthInfoById datacenterId).bind (·.tempAuthKey)

/-- A key that is required, absent and not being obtained gets an action. -/
def StartsWhenNeeded (s : Context) : Event → Prop
  | .authInfoRequired datacenterId isCdn =>
    s.datacenterAuthInfoById datacenterId = none → ¬ Running s false datacenterId →
      Starts s (step s (.authInfoRequired datacenterId isCdn)) false datacenterId
  | .tempAuthKeyRequired datacenterId =>
    tempAuthKey s datacenterId = none → ¬ Running s true datacenterId →
      Starts s (step s (.tempAuthKeyRequired datacenterId)) true datacenterId
  | _ => True

/-- An absent temporary key is required only from a datacenter that has had no
temporary-key action yet, or while that action runs. -/
def FirstTempRequest (s : Context) : Event → Prop
  | .tempAuthKeyRequired datacenterId =>
    tempAuthKey s datacenterId = none →
      ¬ Started s true datacenterId ∨ Running s true datacenterId
  | _ => True

/-! ## What registration means -/

/-- The registered permanent-key actions are the running ones; a temporary-key
action is registered as soon as one was started. -/
structure Registered (s : Context) : Prop where
  auth : ∀ datacenterId action, s.datacenterAuthActions datacenterId = some action ↔
    ∃ a, s.actions[action]? = some a ∧ a.tempAuth = false ∧
      a.datacenterId = datacenterId ∧ a.phase ≠ .completed
  temp : ∀ datacenterId, s.datacenterTempAuthActions datacenterId ≠ none ↔
    Started s true datacenterId

theorem registered_initial (authInfo : Int → Option AuthInfo) :
    Registered (initial authInfo) := by
  constructor
  · intro datacenterId action
    simp [initial]
  · intro datacenterId
    simp [initial, Started]

variable {s : Context}

theorem updateAuthInfo_registered (h : Registered s) (datacenterId : Int)
    (authInfo : Option AuthInfo) : Registered (updateAuthInfo s datacenterId authInfo) := by
  unfold updateAuthInfo
  split
  · exact ⟨h.auth, h.temp⟩
  · exact h

/-- A change of one action that keeps its kind and its datacenter keeps which
actions were started. -/
theorem started_modify (s : Context) (action : Nat) {f : Action → Action}
    (htemp : ∀ a, (f a).tempAuth = a.tempAuth)
    (hdatacenter : ∀ a, (f a).datacenterId = a.datacenterId)
    (tempAuth : Bool) (datacenterId : Int) :
    (∃ a ∈ s.actions.modify action f, a.tempAuth = tempAuth ∧ a.datacenterId = datacenterId)
      ↔ Started s tempAuth datacenterId := by
  unfold Started
  constructor
  · rintro ⟨b, hb, hkind⟩
    obtain ⟨i, hi⟩ := List.getElem?_of_mem hb
    rw [List.getElem?_modify] at hi
    obtain ⟨a, ha, hab⟩ := Option.map_eq_some_iff.1 hi
    refine ⟨a, List.mem_of_getElem? ha, ?_⟩
    by_cases hi' : action = i
    · grind
    · grind
  · rintro ⟨a, ha, hkind⟩
    obtain ⟨i, hi⟩ := List.getElem?_of_mem ha
    have hmod : (s.actions.modify action f)[i]? =
        some (if action = i then f a else a) := by
      rw [List.getElem?_modify, hi]
      by_cases hi' : action = i <;> simp [hi']
    refine ⟨_, List.mem_of_getElem? hmod, ?_⟩
    by_cases hi' : action = i
    · simp only [hi', if_true, htemp, hdatacenter]
      exact hkind
    · simp only [hi', if_false]
      exact hkind

/-- A change of one action that keeps its kind, its datacenter and, for a
permanent-key action, whether it runs. -/
theorem modify_registered (h : Registered s) (action : Nat)
    {f : Action → Action} (htemp : ∀ a, (f a).tempAuth = a.tempAuth)
    (hdatacenter : ∀ a, (f a).datacenterId = a.datacenterId)
    (hphase : ∀ a, s.actions[action]? = some a → a.tempAuth = false →
      (f a).phase = a.phase) :
    Registered { s with actions := s.actions.modify action f } := by
  constructor
  · intro datacenterId i
    rw [h.auth datacenterId i]
    rw [List.getElem?_modify]
    cases hi : s.actions[i]? with
    | none => simp
    | some a =>
      grind
  · intro datacenterId
    rw [h.temp datacenterId]
    exact (started_modify s action htemp hdatacenter true datacenterId).symm

theorem complete_registered (h : Registered s) (action : Nat) :
    Registered (complete s action) := by
  constructor
  · intro datacenterId i
    show (if s.datacenterAuthActions datacenterId = some action then none
      else s.datacenterAuthActions datacenterId) = some i ↔ _
    show _ ↔ ∃ a, (s.actions.modify action finished)[i]? = some a ∧ _
    rw [List.getElem?_modify]
    by_cases hi : action = i
    · grind [finished]
    · have hkeep : (if s.datacenterAuthActions datacenterId = some action then none
          else s.datacenterAuthActions datacenterId) = some i ↔
            s.datacenterAuthActions datacenterId = some i := by
        split
        next heq => simp [heq, hi]
        next => exact Iff.rfl
      rw [hkeep, h.auth datacenterId i]
      simp [hi]
  · intro datacenterId
    show s.datacenterTempAuthActions datacenterId ≠ none ↔
      ∃ a ∈ s.actions.modify action finished, _
    rw [h.temp datacenterId]
    exact (started_modify s action (f := finished) (fun _ => rfl) (fun _ => rfl) true
      datacenterId).symm

theorem execute_registered (h : Registered s) (action : Nat) (tempAuth : Bool)
    (datacenterId : Int) (isCdn : Bool) :
    Registered (execute s action tempAuth datacenterId isCdn) := by
  unfold execute
  split
  · split
    · exact complete_registered h action
    · exact modify_registered h action (f := ({ · with authMtProto := some isCdn }))
        (fun _ => rfl) (fun _ => rfl) (fun _ _ _ => rfl)
  · exact complete_registered h action

theorem started_append (s : Context) (b : Action) (tempAuth : Bool) (datacenterId : Int) :
    (∃ a ∈ s.actions ++ [b], a.tempAuth = tempAuth ∧ a.datacenterId = datacenterId) ↔
      Started s tempAuth datacenterId ∨
        (b.tempAuth = tempAuth ∧ b.datacenterId = datacenterId) := by
  unfold Started
  simp only [List.mem_append, List.mem_singleton, or_and_right, exists_or, exists_eq_left]

theorem authInfoRequired_registered (h : Registered s) (datacenterId : Int) (isCdn : Bool) :
    Registered (authInfoForDatacenterWithIdRequired s datacenterId isCdn) := by
  unfold authInfoForDatacenterWithIdRequired
  split
  · exact h
  next hnone =>
    apply execute_registered
    constructor
    · intro dc i
      show Function.update s.datacenterAuthActions datacenterId
        (some s.actions.length) dc = some i ↔ _
      show _ ↔ ∃ a, (s.actions ++ [_])[i]? = some a ∧ _
      by_cases hi : i = s.actions.length
      · subst hi
        have hother : s.datacenterAuthActions dc ≠ some s.actions.length := by
          intro heq
          obtain ⟨a, ha, _⟩ := (h.auth dc _).1 heq
          simp at ha
        rw [List.getElem?_concat_length]
        by_cases hdc : dc = datacenterId
        · simp [hdc]
        · simp [Function.update_of_ne hdc, hother, Ne.symm hdc]
      · have hsame : (s.actions ++ [{ tempAuth := false, datacenterId }])[i]? =
            s.actions[i]? := by
          rw [List.getElem?_append]
          split
          · rfl
          next hlt =>
            have hbeyond : s.actions.length < i := by omega
            simp [show i - s.actions.length ≠ 0 by omega, List.getElem?_eq_none
              (Nat.le_of_lt hbeyond)]
        rw [hsame, ← h.auth dc i]
        by_cases hdc : dc = datacenterId
        · subst hdc
          simp [hnone, Ne.symm hi]
        · rw [Function.update_of_ne hdc]
    · intro dc
      show s.datacenterTempAuthActions dc ≠ none ↔ ∃ a ∈ s.actions ++ [_], _
      rw [h.temp dc, started_append]
      simp

theorem tempAuthKeyRequired_registered (h : Registered s) (datacenterId : Int) :
    Registered (tempAuthKeyForDatacenterWithIdRequired s datacenterId) := by
  unfold tempAuthKeyForDatacenterWithIdRequired
  split
  · exact h
  · apply execute_registered
    constructor
    · intro dc i
      rw [show (newAction s true datacenterId).datacenterAuthActions dc =
        s.datacenterAuthActions dc from rfl, h.auth dc i]
      show _ ↔ ∃ a, (s.actions ++ [_])[i]? = some a ∧ _
      constructor
      · rintro ⟨a, ha, hrest⟩
        exact ⟨a, List.getElem?_append_left (List.getElem?_eq_some_iff.1 ha).1 ▸ ha, hrest⟩
      · grind
    · intro dc
      show Function.update s.datacenterTempAuthActions datacenterId
        (some s.actions.length) dc ≠ none ↔ ∃ a ∈ s.actions ++ [_], _
      rw [started_append, ← h.temp dc]
      by_cases hdc : dc = datacenterId
      · simp [hdc]
      · simp [Function.update_of_ne hdc, Ne.symm hdc]

theorem step_registered (s : Context) (e : Event) (h : Registered s) :
    Registered (step s e) := by
  cases e with
  | authInfoRequired datacenterId isCdn =>
    exact authInfoRequired_registered h datacenterId isCdn
  | tempAuthKeyRequired datacenterId => exact tempAuthKeyRequired_registered h datacenterId
  | authMessageServiceCompleted action key =>
    show Registered (authMessageServiceCompleted s action key)
    unfold authMessageServiceCompleted
    split
    · exact h
    next a hget =>
      split
      · exact h
      · split
        next htemp =>
          split
          · exact h
          · refine modify_registered h action (f := ({ · with phase := .binding key }))
              (fun _ => rfl) (fun _ => rfl) ?_
            intro b hb hpermanent
            have hab : a = b := Option.some.inj (hget ▸ hb)
            rw [← hab, htemp] at hpermanent
            exact absurd hpermanent (by decide)
        · exact complete_registered (updateAuthInfo_registered h _ _) action
  | bindCompleted action =>
    show Registered (bindCompleted s action)
    unfold bindCompleted
    split
    · exact h
    · split
      · exact complete_registered (updateAuthInfo_registered h _ _) action
      · exact h
  | authInfoUpdated datacenterId authInfo => exact updateAuthInfo_registered h _ _

/-! ## When a required key gets an action -/

theorem execute_starts {action : Nat} {a : Action}
    (hget : s.actions[action]? = some a) (tempAuth : Bool) (datacenterId : Int)
    (isCdn : Bool) :
    ∃ b, (execute s action tempAuth datacenterId isCdn).actions[action]? = some b ∧
      b.tempAuth = a.tempAuth ∧ b.datacenterId = a.datacenterId := by
  have hcomplete : ∃ b, (complete s action).actions[action]? = some b ∧
      b.tempAuth = a.tempAuth ∧ b.datacenterId = a.datacenterId := by
    refine ⟨finished a, ?_, rfl, rfl⟩
    show (s.actions.modify action finished)[action]? = some (finished a)
    rw [List.getElem?_modify, hget]
    simp
  unfold execute
  split
  · grind
  · exact hcomplete

theorem authInfoRequired_starts_iff (s : Context) (datacenterId : Int) (isCdn : Bool) :
    Starts s (authInfoForDatacenterWithIdRequired s datacenterId isCdn) false datacenterId ↔
      s.datacenterAuthActions datacenterId = none := by
  unfold authInfoForDatacenterWithIdRequired
  cases hget : s.datacenterAuthActions datacenterId with
  | some action => simp [Starts]
  | none =>
    simp only [iff_true]
    exact execute_starts (a := { tempAuth := false, datacenterId })
      List.getElem?_concat_length false datacenterId isCdn

theorem tempAuthKeyRequired_starts_iff (s : Context) (datacenterId : Int) :
    Starts s (tempAuthKeyForDatacenterWithIdRequired s datacenterId) true datacenterId ↔
      s.datacenterTempAuthActions datacenterId = none := by
  unfold tempAuthKeyForDatacenterWithIdRequired
  cases hget : s.datacenterTempAuthActions datacenterId with
  | some action => simp [Starts]
  | none =>
    simp only [iff_true]
    exact execute_starts (a := { tempAuth := true, datacenterId })
      List.getElem?_concat_length true datacenterId false

theorem step_startsWhenNeeded_iff (s : Context) (e : Event) (h : Registered s) :
    StartsWhenNeeded s e ↔ FirstTempRequest s e := by
  cases e with
  | authInfoRequired datacenterId isCdn =>
    constructor
    · intro _
      trivial
    · intro _ _ hidle
      apply (authInfoRequired_starts_iff s datacenterId isCdn).2
      by_contra hsome
      obtain ⟨action, haction⟩ := Option.ne_none_iff_exists'.1 hsome
      obtain ⟨a, hget, htemp, hdatacenter, hphase⟩ := (h.auth datacenterId action).1 haction
      exact hidle ⟨a, List.mem_of_getElem? hget, htemp, hdatacenter, hphase⟩
  | tempAuthKeyRequired datacenterId =>
    have hstarts : Starts s (step s (.tempAuthKeyRequired datacenterId)) true datacenterId ↔
        ¬ Started s true datacenterId := by
      rw [← h.temp datacenterId, not_not]
      exact tempAuthKeyRequired_starts_iff s datacenterId
    show (_ → _ → _) ↔ (_ → _ ∨ _)
    rw [hstarts]
    constructor
    · grind
    · grind
  | authMessageServiceCompleted action key => exact Iff.rfl
  | bindCompleted action => exact Iff.rfl
  | authInfoUpdated datacenterId authInfo => exact Iff.rfl

/-- In every run the permanent-key action of a datacenter is registered as long as it works,
and no second one works beside it. -/
theorem authActions_unique (authInfo : Int → Option AuthInfo) (es : List Event) :
    let s := run step (initial authInfo) es
    (∀ datacenterId, s.datacenterAuthActions datacenterId ≠ none ↔ Running s false datacenterId) ∧
      ∀ (i j : Nat) (a b : Action), s.actions[i]? = some a → s.actions[j]? = some b →
        a.tempAuth = false → b.tempAuth = false → a.datacenterId = b.datacenterId →
          a.phase ≠ .completed → b.phase ≠ .completed → i = j := by
  intro s
  have h : Registered s :=
    run_invariant (fun s e (h : Registered s) => step_registered s e h) es _ (registered_initial authInfo)
  refine ⟨fun datacenterId => ?_, fun i j a b hi hj ha hb heq hpa hpb => ?_⟩
  · rw [Option.ne_none_iff_exists']
    simp only [h.auth]
    constructor
    · rintro ⟨action, a, hget, htemp, hdc, hphase⟩
      exact ⟨a, List.mem_of_getElem? hget, htemp, hdc, hphase⟩
    · rintro ⟨a, hmem, htemp, hdc, hphase⟩
      obtain ⟨action, hget⟩ := List.getElem?_of_mem hmem
      exact ⟨action, a, hget, htemp, hdc, hphase⟩
  · have hi' := (h.auth b.datacenterId i).2 ⟨a, hi, ha, heq, hpa⟩
    exact Option.some.inj (hi'.symm.trans ((h.auth b.datacenterId j).2 ⟨b, hj, hb, rfl, hpb⟩))

/-- A run starts an action for every key that is required, absent and not being
obtained, exactly when it never requires an absent temporary key of a
datacenter whose temporary-key action has already completed. -/
theorem startsWhenNeeded_iff (authInfo : Int → Option AuthInfo) (es : List Event) :
    Guarded step StartsWhenNeeded (initial authInfo) es ↔
      Guarded step FirstTempRequest (initial authInfo) es :=
  guarded_congr step_registered step_startsWhenNeeded_iff es (initial authInfo)
    (registered_initial authInfo)

/-- A temporary key is obtained, bound, lost and required again. -/
theorem second_tempAuthKey_never_starts :
    ¬ Guarded step StartsWhenNeeded (initial fun _ => some ⟨[], 1, none⟩)
      [.tempAuthKeyRequired 2, .authMessageServiceCompleted 0 ⟨[], 7⟩, .bindCompleted 0,
        .authInfoUpdated 2 (some ⟨[], 1, none⟩), .tempAuthKeyRequired 2] := by
  intro hrun
  have hneeded := hrun.2.2.2.2.1 rfl
  obtain ⟨a, hget, _⟩ := hneeded (by
    rintro ⟨a, hmem, _, _, hphase⟩
    have ha : a = ⟨true, 2, .completed, some false⟩ := List.mem_singleton.1 hmem
    exact hphase (by rw [ha]))
  have hnone : (none : Option Action) = some a := hget
  cases hnone

end TelegramPub.Ports.ContextAuthActions
