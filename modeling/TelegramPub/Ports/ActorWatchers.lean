import TelegramPub.Ports.ActorTables

/-!
# Who waits for an answer

A watcher waits for the actor of an active request.  A report is looked up among the
active requests only, and so is lost while the request waits to be cancelled; and a
cancelled actor stays among those requests until its `cancel` and the next actor's
`execute` have returned.  If a request for the path comes then, the actor is active
again and will not answer.
-/

namespace TelegramPub.Ports.ActorWatchers

open Verified.Machine Ports.ActorRequests Ports.ActorTables

/-- The actor has neither reported nor been cancelled. -/
def CanAnswer (s : ActionStage) (actor : ASActor) : Prop :=
  actor ∉ s.reported ∧ actor ∉ s.cancelCalled

instance (s : ActionStage) (actor : ASActor) : Decidable (CanAnswer s actor) :=
  inferInstanceAs (Decidable (_ ∧ _))

/-- The actor of every active request can answer. -/
def Answering (s : ActionStage) : Prop :=
  ∀ path info, s.activeRequests.lookup path = some info → CanAnswer s info.requestBuilder

/-- A request does not come for a path whose actor, about to be cancelled, has reported
or was cancelled. -/
def ResumesLive (s : ActionStage) : Event → Prop
  | .requestActor _ path _ _ _ =>
    UserCode s → ∀ info, s.cancelRequestTimers.lookup path = some info →
      CanAnswer s info.requestBuilder
  | _ => True

/-! ## What does not concern the requests -/

/-- The states have the same active requests, reports and cancellations. -/
structure SameRequests (s s' : ActionStage) : Prop where
  active : s'.activeRequests = s.activeRequests
  reported : s'.reported = s.reported
  cancelCalled : s'.cancelCalled = s.cancelCalled

theorem SameRequests.answering {s s' : ActionStage} (h : SameRequests s s') (ha : Answering s) :
    Answering s' := by
  intro path info hlookup
  rw [h.active] at hlookup
  unfold CanAnswer
  rw [h.reported, h.cancelCalled]
  exact ha path info hlookup

theorem sameRequests_removeRequestFromQueue (s : ActionStage) (requestBuilder : ASActor) :
    SameRequests s (removeRequestFromQueueAndProceedIfFirst s requestBuilder).1 := by
  unfold removeRequestFromQueueAndProceedIfFirst
  cases requestBuilder.requestQueueName with
  | none => exact ⟨rfl, rfl, rfl⟩
  | some name =>
    dsimp only
    split
    · exact ⟨rfl, rfl, rfl⟩
    · exact ⟨rfl, rfl, rfl⟩
    · split
      · split
        · exact ⟨rfl, rfl, rfl⟩
        · split <;> exact ⟨rfl, rfl, rfl⟩
      · exact ⟨rfl, rfl, rfl⟩

theorem sameRequests_changeActorPriority (s : ActionStage) (path : Path) :
    SameRequests s (changeActorPriority s path).1 := by
  unfold changeActorPriority
  split
  · exact ⟨rfl, rfl, rfl⟩
  · dsimp only
    split
    · exact ⟨rfl, rfl, rfl⟩
    · split
      · exact ⟨rfl, rfl, rfl⟩
      · split <;> exact ⟨rfl, rfl, rfl⟩

theorem sameRequests_startActor (s : ActionStage) (actor : ASActor) (changePriority : Bool) :
    SameRequests s (startActor s actor changePriority).1 := by
  unfold startActor
  split
  · exact ⟨rfl, rfl, rfl⟩
  · split
    · exact ⟨rfl, rfl, rfl⟩
    · dsimp only
      split
      · split <;> exact ⟨rfl, rfl, rfl⟩
      · exact ⟨rfl, rfl, rfl⟩

section Requests

variable {s : ActionStage} {path : Path}

theorem Answering.setActive (h : Answering s) {info : RequestInfo}
    (hinfo : CanAnswer s info.requestBuilder) :
    Answering { s with activeRequests := s.activeRequests.insert path info } := by
  intro other info' hlookup
  rcases lookup_insert_cases hlookup with ⟨rfl, rfl⟩ | ⟨_, hold⟩
  · exact hinfo
  · exact h other info' hold

theorem Answering.setWatchers (h : Answering s) {info : RequestInfo}
    (hlookup : s.activeRequests.lookup path = some info) (watchers : List Handle) :
    Answering { s with
      activeRequests := s.activeRequests.insert path { info with watchers } } := by
  have hinfo := h path info hlookup
  exact h.setActive hinfo

theorem Answering.eraseActive (h : Answering s) (path : Path) :
    Answering { s with activeRequests := s.activeRequests.erase path } :=
  fun other info hlookup => h other info (lookup_erase_cases hlookup).2

/-- An actor that is in no active request reports. -/
theorem Answering.reports (h : Answering s) {actor : ASActor}
    (hother : ∀ path info, s.activeRequests.lookup path = some info →
      info.requestBuilder ≠ actor) :
    Answering { s with reported := s.reported ++ [actor] } := by
  intro path info hlookup
  obtain ⟨hreported, hcancelled⟩ := h path info hlookup
  refine ⟨?_, hcancelled⟩
  rw [List.mem_append, List.mem_singleton]
  exact not_or.2 ⟨hreported, hother path info hlookup⟩

theorem Answering.cancels (h : Answering s) {actor : ASActor}
    (hother : ∀ path info, s.activeRequests.lookup path = some info →
      info.requestBuilder ≠ actor) :
    Answering { s with cancelCalled := s.cancelCalled ++ [actor] } := by
  intro path info hlookup
  obtain ⟨hreported, hcancelled⟩ := h path info hlookup
  refine ⟨hreported, ?_⟩
  rw [List.mem_append, List.mem_singleton]
  exact not_or.2 ⟨hcancelled, hother path info hlookup⟩

theorem other_of_path (ht : Tables s) {actor : ASActor}
    (hnone : s.activeRequests.lookup actor.path = none) :
    ∀ path info, s.activeRequests.lookup path = some info → info.requestBuilder ≠ actor := by
  rintro path info hlookup rfl
  rw [(ht.active hlookup).1, hlookup] at hnone
  cases hnone

theorem Answering.resumeRequest (h : Answering s)
    (hlive : ∀ info, s.cancelRequestTimers.lookup path = some info →
      CanAnswer s info.requestBuilder) : Answering (resumeRequest s path) := by
  unfold ActorRequests.resumeRequest
  cases hlookup : s.cancelRequestTimers.lookup path with
  | none => exact h
  | some info =>
    have hset : Answering { s with activeRequests := s.activeRequests.insert path info } :=
      h.setActive (hlive info hlookup)
    exact hset

theorem Answering.requestGeneric (h : Answering s) (ht : Tables s)
    (hlive : ∀ info, s.cancelRequestTimers.lookup path = some info →
      CanAnswer s info.requestBuilder)
    (joinOnly changePriority : Bool) (watcher : Handle) (builder : Option (Option String × Rat)) :
    Answering (requestGeneric s joinOnly path changePriority watcher builder).1 := by
  have hresumed := h.resumeRequest hlive
  have htables := (ht.resumeRequest path).1
  unfold ActorRequests.requestGeneric
  dsimp only
  generalize ActorRequests.resumeRequest s path = s at hresumed htables
  cases hlookup : s.activeRequests.lookup path with
  | none =>
    dsimp only
    split
    · exact hresumed
    · cases builder with
      | none => exact hresumed
      | some builder =>
        refine (sameRequests_startActor _ _ _).answering (hresumed.setActive ⟨?_, ?_⟩)
        · exact fun hmem => Nat.lt_irrefl _ (htables.reported _ hmem)
        · exact fun hmem => Nat.lt_irrefl _ (htables.cancelCalled _ hmem)
  | some info => exact hresumed.setWatchers hlookup _

theorem Answering.actorReports (h : Answering s) (ht : Tables s) (actor : ASActor) (status : Int) :
    Answering (actionReported { s with reported := s.reported ++ [actor] } actor.path
      status).1 := by
  unfold actionReported
  cases hlookup : s.activeRequests.lookup actor.path with
  | none => exact h.reports (other_of_path ht hlookup)
  | some info =>
    have herased : (s.activeRequests.erase actor.path).lookup actor.path = none :=
      AList.lookup_erase actor.path _
    exact (h.eraseActive actor.path).reports (other_of_path (ht.eraseActive actor.path) herased)

theorem Answering.scheduleCancelRequest (h : Answering s) (ht : Tables s) (path : Path) :
    Answering (scheduleCancelRequest s path).1 := by
  unfold ActorRequests.scheduleCancelRequest
  cases hactive : s.activeRequests.lookup path with
  | none => exact h
  | some info =>
    cases s.cancelRequestTimers.lookup path with
    | some other => exact h
    | none =>
      dsimp only
      split
      · have herased :
            (s.activeRequests.erase path).lookup info.requestBuilder.path = none := by
          rw [(ht.active hactive).1]
          exact AList.lookup_erase path _
        exact (h.eraseActive path).cancels (other_of_path (ht.eraseActive path) herased)
      · exact h.eraseActive path

theorem Answering.performCancelRequest (h : Answering s) (ht : Tables s) (path : Path) :
    Answering (performCancelRequest s path).1 := by
  unfold ActorRequests.performCancelRequest
  cases hparked : s.cancelRequestTimers.lookup path with
  | none => exact h
  | some info =>
    refine h.cancels (other_of_path ht ?_)
    rw [(ht.parked hparked).1]
    cases hactive : s.activeRequests.lookup path with
    | none => rfl
    | some active =>
      rw [ht.exclusive hactive] at hparked
      cases hparked

theorem Answering.removeWatcherFromKey (h : Answering s) (handle : Handle) (key : Path) :
    Answering (removeWatcherFromKey s handle key).1 := by
  unfold ActorRequests.removeWatcherFromKey
  cases hactive : s.activeRequests.lookup key with
  | none => exact h
  | some info => exact h.setWatchers hactive _

end Requests

theorem answering_perform {s : ActionStage} (h : Answering s) (ht : Tables s)
    (instruction : Instruction) : Answering (perform s instruction).1 := by
  cases instruction with
  | callback => exact h
  | notify actor watchers status =>
    cases watchers with
    | nil => exact h
    | cons handle watchers => exact h
  | removeRequestFromQueue actor =>
    exact (sameRequests_removeRequestFromQueue s actor).answering h
  | forgetTimer path => exact h
  | removeWatcher handle keys =>
    cases keys with
    | nil => exact h
    | cons key keys => exact h.removeWatcherFromKey handle key
  | scheduleCancelRequest path => exact h.scheduleCancelRequest ht path
  | changeActorPriority path => exact (sameRequests_changeActorPriority s path).answering h

theorem answering_userStep {s : ActionStage} (h : Answering s) (ht : Tables s) (event : Event)
    (hcode : UserCode s) (hlive : ResumesLive s event) : Answering (userStep s event).1 := by
  cases event with
  | requestActor joinOnly path changePriority watcher builder =>
    exact h.requestGeneric ht (hlive hcode) joinOnly changePriority watcher builder
  | changeActorPriority path => exact (sameRequests_changeActorPriority s path).answering h
  | reports actor status =>
    unfold userStep
    dsimp only
    split
    · exact h.actorReports ht actor status
    · exact h
  | removeWatcher handle keys =>
    unfold userStep
    dsimp only
    split
    · exact h
    · exact h
  | removeWatcherFromPath handle path =>
    unfold userStep removeWatcherFromPath
    dsimp only
    split
    · exact h.removeWatcherFromKey handle path
    · exact h
  | removeAllWatchersFromPath path =>
    unfold userStep removeAllWatchersFromPath
    dsimp only
    cases hactive : s.activeRequests.lookup path with
    | none => exact h
    | some info => exact h.setWatchers hactive _
  | timerFires path => exact h.performCancelRequest ht path
  | superCancel actor =>
    unfold userStep
    dsimp only
    split
    · exact h
    · exact h
  | returns => exact h
  | continues => exact h

theorem answering_step {s : ActionStage} (h : Answering s) (ht : Tables s) (event : Event)
    (hlive : ResumesLive s event) : Answering (step s event) := by
  rcases step_cases s event with hsame | ⟨stack, _, _, hstep⟩ |
    ⟨instruction, stack, _, _, _, hstep⟩ | ⟨hcode, _, _, hstep⟩
  · rwa [hsame]
  · rw [hstep]
    exact h
  · rw [hstep]
    have hstack : Answering { s with stack } := h
    exact answering_perform hstack (ht.withStack stack) instruction
  · rw [hstep]
    exact answering_userStep h ht event hcode hlive

/-- A request that resumes an actor which will not answer. -/
theorem not_answering_step {s : ActionStage} (event : Event) (hlive : ¬ ResumesLive s event) :
    ¬ Answering (step s event) := by
  cases event with
  | requestActor joinOnly path changePriority watcher builder =>
    simp only [ResumesLive, Classical.not_imp, not_forall] at hlive
    obtain ⟨hcode, info, hparked, hfinished⟩ := hlive
    intro hanswering
    have hresumed : (resumeRequest s path).activeRequests.lookup path = some info := by
      unfold resumeRequest
      rw [hparked]
      exact AList.lookup_insert _
    have hsame : (resumeRequest s path).reported = s.reported ∧
        (resumeRequest s path).cancelCalled = s.cancelCalled := by
      unfold resumeRequest
      rw [hparked]
      exact ⟨rfl, rfl⟩
    rw [step_user s Event.noConfusion Event.noConfusion, if_pos hcode] at hanswering
    have hactive := hanswering path
    unfold push userStep requestGeneric at hactive
    simp only [hresumed, AList.lookup_insert, CanAnswer, hsame.1, hsame.2] at hactive
    have hlast := hactive _ rfl
    exact hfinished hlast
  | _ => exact absurd trivial hlive

/-- Every watcher of an active request waits for an actor that can answer, in every state
that a run reaches, exactly when no request resumes an actor that has reported or was
cancelled. -/
theorem watchers_answered (events : List Event) :
    (∀ k, Answering (run step initial (events.take k))) ↔
      Guarded step ResumesLive initial events := by
  have hiff := reached_iff_guarded step ResumesLive Answering
    (fun s (h : Tables s ∧ Answering s) => h.2)
    (fun s event h hlive => ⟨h.1.step event, answering_step h.2 h.1 event hlive⟩)
    (fun s event _ hlive => not_answering_step event hlive)
  exact hiff events initial ⟨tables_initial, fun _ _ hlookup => by cases hlookup⟩

/-- The actor reports while its request waits to be cancelled, and is asked again. -/
theorem watchers_not_answered :
    ¬ ∀ events : List Event, Answering (run step initial events) := by
  intro hall
  have hlost := hall
    [.requestActor false "/tg/path" false 1 (some (none, 1)), .returns,
      .removeWatcherFromPath 1 "/tg/path", .continues,
      .reports { id := 0, path := "/tg/path", requestQueueName := none, cancelTimeout := 1 } 0,
      .requestActor false "/tg/path" false 2 (some (none, 1)), .returns]
    "/tg/path"
    { requestBuilder :=
        { id := 0, path := "/tg/path", requestQueueName := none, cancelTimeout := 1 },
      watchers := [2] }
    (by decide +kernel)
  exact hlost.1 (by decide +kernel)

end TelegramPub.Ports.ActorWatchers
