import TelegramPub.Ports.ActorTables

/-!
# Looking for executing actors

Four functions of `ActionStage` look for actors in the two tables of requests.  The record of
an active request has the actor under `requestBuilder`; the record of a request that waits to
be cancelled has it one level deeper, in its `requestInfo`.  Only `executingActorWithPath:`
looks there.
-/

namespace TelegramPub.Ports.ActorLookups

open Verified.Machine Ports.ActorRequests Ports.ActorTables

/-- `hasPrefix:`.  The empty string is no prefix. -/
def hasPrefix (path pathPrefix : Path) : Bool :=
  pathPrefix != "" && pathPrefix.toList.isPrefixOf path.toList

/-- The state of the loop of `genericStringForParametrizedPath:`. -/
structure GenericScan where
  newPath : List Char := []
  skipCharacters : Bool := false
  skippedCharacters : Bool := false

def GenericScan.step (s : GenericScan) (c : Char) : GenericScan :=
  if c = '(' then
    { newPath := s.newPath ++ ['@'], skipCharacters := true, skippedCharacters := true }
  else if c = ')' then { s with skipCharacters := false }
  else if s.skipCharacters then s
  else { s with newPath := s.newPath ++ [c] }

/-- `genericStringForParametrizedPath:`. -/
def genericStringForParametrizedPath (path : Path) : Path :=
  let s := path.toList.foldl GenericScan.step {}
  if s.skippedCharacters then String.ofList s.newPath else path

/-- `genericPath` of the actor's class: the class is the one that was registered for the
generic path of the actor's path. -/
def classGenericPath (actor : ASActor) : Path := genericStringForParametrizedPath actor.path

/-- The keys of the records. -/
inductive Key where
  | requestBuilder
  | watchers
  | requestInfo
  | timer

inductive Value where
  | actor (actor : ASActor)
  | watchers (watchers : List Handle)
  | record (info : RequestInfo)
  | timer (path : Path)

/-- The record of a request that waits to be cancelled; its timer cancels the path. -/
structure CancelRequestInfo where
  requestInfo : RequestInfo
  timer : Path

def requestInfoForKey (info : RequestInfo) : Key → Option Value
  | .requestBuilder => some (.actor info.requestBuilder)
  | .watchers => some (.watchers info.watchers)
  | .requestInfo | .timer => none

def CancelRequestInfo.objectForKey (info : CancelRequestInfo) : Key → Option Value
  | .requestInfo => some (.record info.requestInfo)
  | .timer => some (.timer info.timer)
  | .requestBuilder | .watchers => none

/-- `ASActor *actor = …`. -/
def Value.actor? : Value → Option ASActor
  | .actor a => some a
  | _ => none

/-- `objectForKey:` of a value; `nil` and what is no record have no keys. -/
def Value.objectForKey : Value → Key → Option Value
  | .record info, key => requestInfoForKey info key
  | _, _ => none

/-- The records of a table with their paths. -/
def activeRecords (s : ActionStage) : List (Path × RequestInfo) :=
  s.activeRequests.entries.map fun entry => (entry.1, entry.2)

def cancelRecords (s : ActionStage) : List (Path × CancelRequestInfo) :=
  s.cancelRequestTimers.entries.map fun entry => (entry.1, ⟨entry.2, entry.1⟩)

/-- `isExecutingActorsWithGenericPath:`. -/
def isExecutingActorsWithGenericPath (s : ActionStage) (genericPath : Path) : Bool :=
  let matching (actor : Option Value) : Bool :=
    (actor.bind Value.actor?).map classGenericPath = some genericPath
  (activeRecords s).any (fun r => matching (requestInfoForKey r.2 .requestBuilder)) ||
    (cancelRecords s).any (fun r => matching (r.2.objectForKey .requestBuilder))

/-- `isExecutingActorsWithPathPrefix:`. -/
def isExecutingActorsWithPathPrefix (s : ActionStage) (pathPrefix : Path) : Bool :=
  (activeRecords s).any (fun r => hasPrefix r.1 pathPrefix) ||
    (cancelRecords s).any (fun r => hasPrefix r.1 pathPrefix)

/-- `executingActorsWithPathPrefix:`. -/
def executingActorsWithPathPrefix (s : ActionStage) (pathPrefix : Path) : List ASActor :=
  ((activeRecords s).filter (fun r => hasPrefix r.1 pathPrefix)).filterMap
      (fun r => (requestInfoForKey r.2 .requestBuilder).bind Value.actor?) ++
    ((cancelRecords s).filter (fun r => hasPrefix r.1 pathPrefix)).filterMap
      (fun r => (r.2.objectForKey .requestBuilder).bind Value.actor?)

/-- `executingActorWithPath:`. -/
def executingActorWithPath (s : ActionStage) (path : Path) : Option ASActor :=
  match s.activeRequests.lookup path with
  | some info => (requestInfoForKey info .requestBuilder).bind Value.actor?
  | none =>
    match s.cancelRequestTimers.lookup path with
    | some info =>
      let cancelRequestInfo : CancelRequestInfo := ⟨info, path⟩
      ((cancelRequestInfo.objectForKey .requestInfo).bind
        (·.objectForKey .requestBuilder)).bind Value.actor?
    | none => none

section Found

variable {s : ActionStage} {path pathPrefix genericPath : Path} {actor : ASActor}

theorem mem_activeRecords {info : RequestInfo} :
    (path, info) ∈ activeRecords s ↔ s.activeRequests.lookup path = some info := by
  rw [← Option.mem_def, AList.mem_lookup_iff]
  simp [activeRecords]

theorem mem_cancelRecords {info : CancelRequestInfo} :
    (path, info) ∈ cancelRecords s ↔
      s.cancelRequestTimers.lookup path = some info.requestInfo ∧ info.timer = path := by
  rw [← Option.mem_def, AList.mem_lookup_iff]
  obtain ⟨requestInfo, timer⟩ := info
  simp only [cancelRecords, List.mem_map, Prod.mk.injEq, CancelRequestInfo.mk.injEq]
  constructor
  · rintro ⟨⟨path', info⟩, hentry, rfl, rfl, rfl⟩
    exact ⟨hentry, rfl⟩
  · rintro ⟨hentry, rfl⟩
    exact ⟨_, hentry, rfl, rfl, rfl⟩

/-- The prefix finds the active actors only. -/
theorem mem_executingActorsWithPathPrefix :
    actor ∈ executingActorsWithPathPrefix s pathPrefix ↔ ∃ path info,
      s.activeRequests.lookup path = some info ∧ hasPrefix path pathPrefix ∧
        info.requestBuilder = actor := by
  simp [executingActorsWithPathPrefix, requestInfoForKey, CancelRequestInfo.objectForKey,
    Value.actor?, mem_activeRecords, and_assoc]

theorem isExecutingActorsWithPathPrefix_iff :
    isExecutingActorsWithPathPrefix s pathPrefix ↔
      (∃ path ∈ s.activeRequests, hasPrefix path pathPrefix) ∨
        ∃ path ∈ s.cancelRequestTimers, hasPrefix path pathPrefix := by
  simp only [isExecutingActorsWithPathPrefix, Bool.or_eq_true, List.any_eq_true, Prod.exists,
    mem_activeRecords, mem_cancelRecords, ← AList.lookup_isSome, Option.isSome_iff_exists]
  constructor
  · grind
  · rintro (⟨path, ⟨info, hlookup⟩, hprefix⟩ | ⟨path, ⟨info, hlookup⟩, hprefix⟩)
    · exact .inl ⟨path, info, hlookup, hprefix⟩
    · exact .inr ⟨path, ⟨info, path⟩, ⟨hlookup, rfl⟩, hprefix⟩

theorem isExecutingActorsWithGenericPath_iff :
    isExecutingActorsWithGenericPath s genericPath ↔ ∃ path info,
      s.activeRequests.lookup path = some info ∧
        classGenericPath info.requestBuilder = genericPath := by
  simp [isExecutingActorsWithGenericPath, requestInfoForKey, CancelRequestInfo.objectForKey,
    Value.actor?, mem_activeRecords]

theorem executingActorWithPath_eq_some (ht : Tables s) :
    executingActorWithPath s path = some actor ↔ ∃ info,
      (s.activeRequests.lookup path = some info ∨
        s.cancelRequestTimers.lookup path = some info) ∧ info.requestBuilder = actor := by
  unfold executingActorWithPath
  cases hactive : s.activeRequests.lookup path with
  | some info =>
    have hparked := ht.exclusive hactive
    simp [requestInfoForKey, Value.actor?, hparked]
  | none =>
    cases hparked : s.cancelRequestTimers.lookup path with
    | some info =>
      simp [CancelRequestInfo.objectForKey, Value.objectForKey, requestInfoForKey,
        Value.actor?]
    | none => simp

end Found

/-! ## When they agree -/

/-- The look-ups for a prefix and for a generic path say what `executingActorWithPath:` says
for the single paths. -/
structure LookUpsAgree (s : ActionStage) (pathPrefix genericPath : Path) : Prop where
  listed : ∀ actor, actor ∈ executingActorsWithPathPrefix s pathPrefix ↔
    ∃ path, hasPrefix path pathPrefix ∧ executingActorWithPath s path = some actor
  executing : isExecutingActorsWithPathPrefix s pathPrefix ↔
    executingActorsWithPathPrefix s pathPrefix ≠ []
  generic : isExecutingActorsWithGenericPath s genericPath ↔
    ∃ path actor, executingActorWithPath s path = some actor ∧
      classGenericPath actor = genericPath

/-- No request with the prefix waits to be cancelled, and if one with the generic path does,
another is active. -/
structure NoneMissed (s : ActionStage) (pathPrefix genericPath : Path) : Prop where
  withPrefix : ∀ path ∈ s.cancelRequestTimers, ¬ hasPrefix path pathPrefix
  withGenericPath : ∀ path ∈ s.cancelRequestTimers,
    genericStringForParametrizedPath path = genericPath →
      ∃ other ∈ s.activeRequests, genericStringForParametrizedPath other = genericPath

section Agree

variable {s : ActionStage} {pathPrefix genericPath : Path}

theorem mem_table {m : AList fun _ : Path => RequestInfo} {path : Path} :
    path ∈ m ↔ ∃ info, m.lookup path = some info := by
  rw [← AList.lookup_isSome, Option.isSome_iff_exists]

theorem NoneMissed.agree (ht : Tables s) (h : NoneMissed s pathPrefix genericPath) :
    LookUpsAgree s pathPrefix genericPath where
  listed := by
    intro actor
    rw [mem_executingActorsWithPathPrefix]
    constructor
    · rintro ⟨path, info, hactive, hprefix, hactor⟩
      exact ⟨path, hprefix, (executingActorWithPath_eq_some ht).2 ⟨info, .inl hactive, hactor⟩⟩
    · rintro ⟨path, hprefix, hfound⟩
      obtain ⟨info, hactive | hparked, hactor⟩ := (executingActorWithPath_eq_some ht).1 hfound
      · exact ⟨path, info, hactive, hprefix, hactor⟩
      · exact absurd hprefix (h.withPrefix path (mem_table.2 ⟨info, hparked⟩))
  executing := by
    rw [isExecutingActorsWithPathPrefix_iff]
    constructor
    · rintro (⟨path, hactive, hprefix⟩ | ⟨path, hparked, hprefix⟩)
      · obtain ⟨info, hactive⟩ := mem_table.1 hactive
        exact List.ne_nil_of_mem
          (mem_executingActorsWithPathPrefix.2 ⟨path, info, hactive, hprefix, rfl⟩)
      · exact absurd hprefix (h.withPrefix path hparked)
    · intro hsome
      obtain ⟨actor, hactor⟩ := List.exists_mem_of_ne_nil _ hsome
      obtain ⟨path, info, hactive, hprefix, -⟩ := mem_executingActorsWithPathPrefix.1 hactor
      exact .inl ⟨path, mem_table.2 ⟨info, hactive⟩, hprefix⟩
  generic := by
    rw [isExecutingActorsWithGenericPath_iff]
    constructor
    · rintro ⟨path, info, hactive, hgeneric⟩
      exact ⟨path, info.requestBuilder,
        (executingActorWithPath_eq_some ht).2 ⟨info, .inl hactive, rfl⟩, hgeneric⟩
    · rintro ⟨path, actor, hfound, hgeneric⟩
      obtain ⟨info, hactive | hparked, rfl⟩ := (executingActorWithPath_eq_some ht).1 hfound
      · exact ⟨path, info, hactive, hgeneric⟩
      · have hpath : genericStringForParametrizedPath path = genericPath := by
          rw [← hgeneric, classGenericPath, (ht.parked hparked).1]
        obtain ⟨other, hother, hsame⟩ :=
          h.withGenericPath path (mem_table.2 ⟨info, hparked⟩) hpath
        obtain ⟨info', hactive⟩ := mem_table.1 hother
        refine ⟨other, info', hactive, ?_⟩
        rw [classGenericPath, (ht.active hactive).1, hsame]

/-- A parked actor is found under its path, so the others have to find it too. -/
theorem LookUpsAgree.noneMissed (ht : Tables s) (h : LookUpsAgree s pathPrefix genericPath) :
    NoneMissed s pathPrefix genericPath where
  withPrefix := by
    intro path hparked hprefix
    obtain ⟨info, hparked⟩ := mem_table.1 hparked
    have hfound : executingActorWithPath s path = some info.requestBuilder :=
      (executingActorWithPath_eq_some ht).2 ⟨info, .inr hparked, rfl⟩
    obtain ⟨other, info', hactive, -, hactor⟩ :=
      mem_executingActorsWithPathPrefix.1 ((h.listed _).2 ⟨path, hprefix, hfound⟩)
    have hpath : other = path := by
      rw [← (ht.active hactive).1, hactor, (ht.parked hparked).1]
    rw [hpath] at hactive
    rw [ht.exclusive hactive] at hparked
    cases hparked
  withGenericPath := by
    intro path hparked hgeneric
    obtain ⟨info, hparked⟩ := mem_table.1 hparked
    have hfound : executingActorWithPath s path = some info.requestBuilder :=
      (executingActorWithPath_eq_some ht).2 ⟨info, .inr hparked, rfl⟩
    have hclass : classGenericPath info.requestBuilder = genericPath := by
      rw [classGenericPath, (ht.parked hparked).1, hgeneric]
    obtain ⟨other, info', hactive, hsame⟩ := isExecutingActorsWithGenericPath_iff.1
      (h.generic.2 ⟨path, info.requestBuilder, hfound, hclass⟩)
    refine ⟨other, mem_table.2 ⟨info', hactive⟩, ?_⟩
    rw [← hsame, classGenericPath, (ht.active hactive).1]

end Agree

/-! ## Runs without timeouts -/

/-- No request waits to be cancelled, and none will. -/
structure Calm (s : ActionStage) : Prop where
  active {path : Path} {info : RequestInfo} (h : s.activeRequests.lookup path = some info) :
    info.requestBuilder.cancelTimeout ≤ dblEpsilon
  parked (path : Path) : s.cancelRequestTimers.lookup path = none

/-- An actor that is requested is cancelled at once. -/
def WithoutTimeout : Event → Prop
  | .requestActor _ _ _ _ (some (_, cancelTimeout)) => cancelTimeout ≤ dblEpsilon
  | _ => True

section Calm

variable {s : ActionStage}

theorem Calm.setActive (h : Calm s) {path : Path} {info : RequestInfo}
    (hinfo : info.requestBuilder.cancelTimeout ≤ dblEpsilon) :
    Calm { s with activeRequests := s.activeRequests.insert path info } where
  active hlookup := by
    rcases lookup_insert_cases hlookup with ⟨rfl, rfl⟩ | ⟨-, hold⟩
    · exact hinfo
    · exact h.active hold
  parked := h.parked

theorem Calm.setWatchers (h : Calm s) {path : Path} {info : RequestInfo}
    (hlookup : s.activeRequests.lookup path = some info) (watchers : List Handle) :
    Calm { s with
      activeRequests := s.activeRequests.insert path { info with watchers } } := by
  have hinfo := h.active hlookup
  exact h.setActive hinfo

theorem Calm.eraseActive (h : Calm s) (path : Path) :
    Calm { s with activeRequests := s.activeRequests.erase path } where
  active hlookup := h.active (lookup_erase_cases hlookup).2
  parked := h.parked

/-- What happens to the queues does not matter. -/
theorem Calm.congr (h : Calm s) {s' : ActionStage} (hactive : s'.activeRequests = s.activeRequests)
    (hparked : s'.cancelRequestTimers = s.cancelRequestTimers) : Calm s' where
  active hlookup := h.active (hactive ▸ hlookup)
  parked path := hparked ▸ h.parked path

theorem Calm.removeRequestFromQueue (h : Calm s) (requestBuilder : ASActor) :
    Calm (removeRequestFromQueueAndProceedIfFirst s requestBuilder).1 := by
  unfold removeRequestFromQueueAndProceedIfFirst
  split
  · exact h
  · dsimp only
    split
    · exact h
    · exact h
    · split
      · split
        · exact h.congr rfl rfl
        · split <;> exact h.congr rfl rfl
      · exact h.congr rfl rfl

theorem Calm.changeActorPriority (h : Calm s) (path : Path) :
    Calm (changeActorPriority s path).1 := by
  unfold ActorRequests.changeActorPriority
  split
  · exact h
  · dsimp only
    split
    · exact h
    · split
      · exact h
      · split
        · exact h.congr rfl rfl
        · exact h

theorem Calm.startActor (h : Calm s) (actor : ASActor) (changePriority : Bool) :
    Calm (startActor s actor changePriority).1 := by
  unfold ActorRequests.startActor
  split
  · exact h.congr rfl rfl
  · split
    · exact h.congr rfl rfl
    · dsimp only
      split
      · split <;> exact h.congr rfl rfl
      · exact h.congr rfl rfl

theorem Calm.requestGeneric (h : Calm s) (joinOnly : Bool) (path : Path) (changePriority : Bool)
    (watcher : Handle) {builder : Option (Option String × Rat)}
    (hbuilder : WithoutTimeout (.requestActor joinOnly path changePriority watcher builder)) :
    Calm (requestGeneric s joinOnly path changePriority watcher builder).1 := by
  have hresumed : resumeRequest s path = s := by
    unfold resumeRequest
    rw [h.parked path]
  unfold ActorRequests.requestGeneric
  rw [hresumed]
  dsimp only
  cases hlookup : s.activeRequests.lookup path with
  | none =>
    dsimp only
    split
    · exact h
    · cases builder with
      | none => exact h
      | some builder =>
        have hnew : Calm { s with nextId := s.nextId + 1 } := h.congr rfl rfl
        have htimeout : builder.2 ≤ dblEpsilon := hbuilder
        have hset : Calm { s with
            nextId := s.nextId + 1
            activeRequests := s.activeRequests.insert path
              { requestBuilder :=
                  { id := s.nextId, path, requestQueueName := builder.1,
                    cancelTimeout := builder.2 },
                watchers := [watcher] } } := hnew.setActive htimeout
        exact hset.startActor _ changePriority
  | some info => exact h.setWatchers hlookup _

theorem Calm.scheduleCancelRequest (h : Calm s) (path : Path) :
    Calm (scheduleCancelRequest s path).1 := by
  unfold ActorRequests.scheduleCancelRequest
  cases hactive : s.activeRequests.lookup path with
  | none => exact h
  | some info =>
    rw [h.parked path]
    dsimp only
    rw [if_pos (h.active hactive)]
    exact (h.eraseActive path).congr rfl rfl

theorem Calm.removeWatcherFromKey (h : Calm s) (handle : Handle) (key : Path) :
    Calm (removeWatcherFromKey s handle key).1 := by
  unfold ActorRequests.removeWatcherFromKey
  cases hactive : s.activeRequests.lookup key with
  | none => exact h
  | some info => exact h.setWatchers hactive _

theorem Calm.perform (h : Calm s) (instruction : Instruction) :
    Calm (perform s instruction).1 := by
  cases instruction with
  | callback => exact h
  | notify actor watchers status =>
    cases watchers with
    | nil => exact h
    | cons handle watchers => exact h.congr rfl rfl
  | removeRequestFromQueue actor => exact h.removeRequestFromQueue actor
  | forgetTimer path =>
    exact ⟨h.active, fun other => lookup_erase_none (h.parked other)⟩
  | removeWatcher handle keys =>
    cases keys with
    | nil => exact h
    | cons key keys => exact h.removeWatcherFromKey handle key
  | scheduleCancelRequest path => exact h.scheduleCancelRequest path
  | changeActorPriority path => exact h.changeActorPriority path

theorem Calm.userStep (h : Calm s) {event : Event} (hevent : WithoutTimeout event) :
    Calm (userStep s event).1 := by
  cases event with
  | requestActor joinOnly path changePriority watcher builder =>
    exact h.requestGeneric joinOnly path changePriority watcher hevent
  | changeActorPriority path => exact h.changeActorPriority path
  | reports actor status =>
    unfold ActorRequests.userStep actionReported
    dsimp only
    split
    · split
      · exact h.congr rfl rfl
      · exact (h.eraseActive actor.path).congr rfl rfl
    · exact h
  | removeWatcher handle keys =>
    unfold ActorRequests.userStep
    dsimp only
    split
    · exact h
    · exact h
  | removeWatcherFromPath handle path =>
    unfold ActorRequests.userStep ActorRequests.removeWatcherFromPath
    dsimp only
    split
    · exact h.removeWatcherFromKey handle path
    · exact h
  | removeAllWatchersFromPath path =>
    unfold ActorRequests.userStep ActorRequests.removeAllWatchersFromPath
    dsimp only
    cases hactive : s.activeRequests.lookup path with
    | none => exact h
    | some info => exact h.setWatchers hactive []
  | timerFires path =>
    unfold ActorRequests.userStep performCancelRequest
    dsimp only
    rw [h.parked path]
    exact h
  | superCancel actor =>
    unfold ActorRequests.userStep
    dsimp only
    split
    · exact h.congr rfl rfl
    · exact h
  | returns => exact h
  | continues => exact h

theorem Calm.step (h : Calm s) {event : Event} (hevent : WithoutTimeout event) :
    Calm (step s event) := by
  rcases step_cases s event with hsame | ⟨stack, -, -, hstep⟩ |
    ⟨instruction, stack, -, -, -, hstep⟩ | ⟨-, -, -, hstep⟩
  · rwa [hsame]
  · rw [hstep]
    exact h.congr rfl rfl
  · rw [hstep]
    have hstack : Calm { s with stack } := h.congr rfl rfl
    exact (hstack.perform instruction).congr rfl rfl
  · rw [hstep]
    exact (h.userStep hevent).congr rfl rfl

theorem calm_initial : Calm initial where
  active h := by cases h
  parked _ := rfl

theorem Calm.noneMissed (h : Calm s) (pathPrefix genericPath : Path) :
    NoneMissed s pathPrefix genericPath := by
  have hnone : ∀ path, path ∉ s.cancelRequestTimers :=
    fun path => AList.lookup_eq_none.1 (h.parked path)
  exact ⟨fun path hpath => absurd hpath (hnone path), fun path hpath => absurd hpath (hnone path)⟩

end Calm

/-- In every state that a run reaches the look-ups agree exactly if nothing is missed; they
agree in all states of a run whose actors have no timeout. -/
theorem lookUpsAgree_iff (events : List Event) (pathPrefix genericPath : Path) :
    (LookUpsAgree (run step initial events) pathPrefix genericPath ↔
      NoneMissed (run step initial events) pathPrefix genericPath) ∧
    (Guarded step (fun _ => WithoutTimeout) initial events →
      LookUpsAgree (run step initial events) pathPrefix genericPath) := by
  have ht := tables_run events
  constructor
  · exact ⟨fun h => h.noneMissed ht, fun h => h.agree ht⟩
  · intro hguarded
    have hcalm : Calm (run step initial events) :=
      guarded_invariant (fun _ _ hevent h => h.step hevent) events initial hguarded
        calm_initial
    exact (hcalm.noneMissed pathPrefix genericPath).agree ht

/-- A watched actor with a timeout of a second loses its watcher. -/
def parkedActor : List Event :=
  [.requestActor false "/tg/secret/(1)" false 1 (some (none, 1)), .returns,
    .removeWatcherFromPath 1 "/tg/secret/(1)", .continues]

/-- It is found under its path, and nowhere else. -/
theorem lookUps_differ :
    let s := run step initial parkedActor
    (executingActorWithPath s "/tg/secret/(1)").isSome ∧
      executingActorsWithPathPrefix s "/tg/secret/" = [] ∧
      isExecutingActorsWithPathPrefix s "/tg/secret/" = true ∧
      isExecutingActorsWithGenericPath s "/tg/secret/@" = false ∧
      ¬ LookUpsAgree s "/tg/secret/" "/tg/secret/@" := by
  have hlist : executingActorsWithPathPrefix (run step initial parkedActor) "/tg/secret/" = [] := by
    decide +kernel
  have hexecuting :
      isExecutingActorsWithPathPrefix (run step initial parkedActor) "/tg/secret/" = true := by
    decide +kernel
  refine ⟨by decide +kernel, hlist, hexecuting, by decide +kernel, fun h => ?_⟩
  exact h.executing.1 hexecuting hlist

end TelegramPub.Ports.ActorLookups
