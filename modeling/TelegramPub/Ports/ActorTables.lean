import TelegramPub.Ports.ActorRequests

/-!
# The tables of ActionStage

What holds of the three tables in every run: a request is found under the path of its
actor, in one of the two tables of requests only, and a queue holds each of its actors
once (`tables_run`).  So a path has one actor at most (`requests_separate`).
-/

namespace TelegramPub.Ports.ActorTables

open Verified.Machine Ports.ActorRequests

section Dictionary

variable {α : Type} {β : Type} [DecidableEq α] {m : AList fun _ : α => β} {k k' : α} {v w : β}

theorem lookup_insert_cases (h : (m.insert k v).lookup k' = some w) :
    k' = k ∧ w = v ∨ k' ≠ k ∧ m.lookup k' = some w := by
  by_cases hkey : k' = k
  · subst hkey
    rw [AList.lookup_insert, Option.some.injEq] at h
    exact .inl ⟨rfl, h.symm⟩
  · rw [AList.lookup_insert_ne hkey] at h
    exact .inr ⟨hkey, h⟩

theorem lookup_erase_cases (h : (m.erase k).lookup k' = some w) :
    k' ≠ k ∧ m.lookup k' = some w := by
  by_cases hkey : k' = k
  · subst hkey
    rw [AList.lookup_erase] at h
    cases h
  · rw [AList.lookup_erase_ne hkey] at h
    exact ⟨hkey, h⟩

theorem lookup_erase_none (h : m.lookup k' = none) : (m.erase k).lookup k' = none := by
  by_cases hkey : k' = k
  · rw [hkey]
    exact AList.lookup_erase k m
  · rwa [AList.lookup_erase_ne hkey]

end Dictionary

structure Tables (s : ActionStage) : Prop where
  active {path : Path} {info : RequestInfo} (h : s.activeRequests.lookup path = some info) :
    info.requestBuilder.path = path ∧ info.requestBuilder.id < s.nextId
  parked {path : Path} {info : RequestInfo} (h : s.cancelRequestTimers.lookup path = some info) :
    info.requestBuilder.path = path ∧ info.requestBuilder.id < s.nextId
  exclusive {path : Path} {info : RequestInfo} (h : s.activeRequests.lookup path = some info) :
    s.cancelRequestTimers.lookup path = none
  queued {name : String} {queue : List ASActor} (h : s.requestQueues.lookup name = some queue) :
    ∀ actor ∈ queue, actor.requestQueueName = some name ∧ actor.id < s.nextId
  nodup {name : String} {queue : List ASActor} (h : s.requestQueues.lookup name = some queue) :
    queue.Nodup
  executed : ∀ actor ∈ s.executed, actor.id < s.nextId
  reported : ∀ actor ∈ s.reported, actor.id < s.nextId
  cancelCalled : ∀ actor ∈ s.cancelCalled, actor.id < s.nextId
  cancelled : ∀ actor ∈ s.cancelled, actor ∈ s.cancelCalled

theorem tables_initial : Tables initial where
  active h := by cases h
  parked h := by cases h
  exclusive h := by cases h
  queued h := by cases h
  nodup h := by cases h
  executed _ h := by cases h
  reported _ h := by cases h
  cancelCalled _ h := by cases h
  cancelled _ h := by cases h

section Components

variable {s : ActionStage} {path : Path} {name : String} {actor : ASActor}

theorem Tables.withStack (h : Tables s) (stack : List Instruction) :
    Tables { s with stack } :=
  ⟨h.active, h.parked, h.exclusive, h.queued, h.nodup, h.executed, h.reported, h.cancelCalled,
    h.cancelled⟩

theorem Tables.execute (h : Tables s) (hactor : actor.id < s.nextId) :
    Tables (execute s actor).1 where
  __ := h
  executed := by
    intro other hmem
    rcases List.mem_append.1 hmem with hold | hnew
    · exact h.executed other hold
    · rwa [List.mem_singleton.1 hnew]

theorem Tables.setQueue (h : Tables s) {queue : List ASActor}
    (hqueue : ∀ actor ∈ queue, actor.requestQueueName = some name ∧ actor.id < s.nextId)
    (hnodup : queue.Nodup) :
    Tables { s with requestQueues := s.requestQueues.insert name queue } where
  __ := h
  queued hlookup := by
    rcases lookup_insert_cases hlookup with ⟨rfl, rfl⟩ | ⟨_, hold⟩
    · exact hqueue
    · exact h.queued hold
  nodup hlookup := by
    rcases lookup_insert_cases hlookup with ⟨rfl, rfl⟩ | ⟨_, hold⟩
    · exact hnodup
    · exact h.nodup hold

theorem Tables.eraseQueue (h : Tables s) (name : String) :
    Tables { s with requestQueues := s.requestQueues.erase name } where
  __ := h
  queued hlookup := h.queued (lookup_erase_cases hlookup).2
  nodup hlookup := h.nodup (lookup_erase_cases hlookup).2

theorem Tables.setActive (h : Tables s) {info : RequestInfo}
    (hinfo : info.requestBuilder.path = path ∧ info.requestBuilder.id < s.nextId)
    (hparked : s.cancelRequestTimers.lookup path = none) :
    Tables { s with activeRequests := s.activeRequests.insert path info } where
  __ := h
  active hlookup := by
    rcases lookup_insert_cases hlookup with ⟨rfl, rfl⟩ | ⟨_, hold⟩
    · exact hinfo
    · exact h.active hold
  exclusive hlookup := by
    rcases lookup_insert_cases hlookup with ⟨rfl, rfl⟩ | ⟨_, hold⟩
    · exact hparked
    · exact h.exclusive hold

theorem Tables.setWatchers (h : Tables s) {info : RequestInfo}
    (hlookup : s.activeRequests.lookup path = some info) (watchers : List Handle) :
    Tables { s with
      activeRequests := s.activeRequests.insert path { info with watchers } } := by
  have hinfo := h.active hlookup
  exact h.setActive hinfo (h.exclusive hlookup)

theorem Tables.eraseActive (h : Tables s) (path : Path) :
    Tables { s with activeRequests := s.activeRequests.erase path } where
  __ := h
  active hlookup := h.active (lookup_erase_cases hlookup).2
  exclusive hlookup := h.exclusive (lookup_erase_cases hlookup).2

theorem Tables.setParked (h : Tables s) {info : RequestInfo}
    (hinfo : info.requestBuilder.path = path ∧ info.requestBuilder.id < s.nextId)
    (hactive : s.activeRequests.lookup path = none) :
    Tables { s with cancelRequestTimers := s.cancelRequestTimers.insert path info } where
  __ := h
  parked hlookup := by
    rcases lookup_insert_cases hlookup with ⟨rfl, rfl⟩ | ⟨_, hold⟩
    · exact hinfo
    · exact h.parked hold
  exclusive {other _} hlookup := by
    have hne : other ≠ path := by
      rintro rfl
      rw [hactive] at hlookup
      cases hlookup
    rw [AList.lookup_insert_ne hne]
    exact h.exclusive hlookup

theorem Tables.eraseParked (h : Tables s) (path : Path) :
    Tables { s with cancelRequestTimers := s.cancelRequestTimers.erase path } where
  __ := h
  parked hlookup := h.parked (lookup_erase_cases hlookup).2
  exclusive hlookup := lookup_erase_none (h.exclusive hlookup)

theorem Tables.nextActor (h : Tables s) : Tables { s with nextId := s.nextId + 1 } where
  __ := h
  active hlookup := ⟨(h.active hlookup).1, Nat.lt_succ_of_lt (h.active hlookup).2⟩
  parked hlookup := ⟨(h.parked hlookup).1, Nat.lt_succ_of_lt (h.parked hlookup).2⟩
  queued hlookup actor hmem :=
    ⟨(h.queued hlookup actor hmem).1, Nat.lt_succ_of_lt (h.queued hlookup actor hmem).2⟩
  executed actor hmem := Nat.lt_succ_of_lt (h.executed actor hmem)
  reported actor hmem := Nat.lt_succ_of_lt (h.reported actor hmem)
  cancelCalled actor hmem := Nat.lt_succ_of_lt (h.cancelCalled actor hmem)

theorem Tables.reports (h : Tables s) (hactor : actor.id < s.nextId) :
    Tables { s with reported := s.reported ++ [actor] } where
  __ := h
  reported := by
    intro other hmem
    rcases List.mem_append.1 hmem with hold | hnew
    · exact h.reported other hold
    · rwa [List.mem_singleton.1 hnew]

theorem Tables.cancels (h : Tables s) (hactor : actor.id < s.nextId) :
    Tables { s with cancelCalled := s.cancelCalled ++ [actor] } where
  __ := h
  cancelCalled := by
    intro other hmem
    rcases List.mem_append.1 hmem with hold | hnew
    · exact h.cancelCalled other hold
    · rwa [List.mem_singleton.1 hnew]
  cancelled other hmem := List.mem_append_left _ (h.cancelled other hmem)

end Components

section Functions

variable {s : ActionStage}

theorem Tables.removeRequestFromQueue (h : Tables s) (requestBuilder : ASActor) :
    Tables (removeRequestFromQueueAndProceedIfFirst s requestBuilder).1 := by
  unfold removeRequestFromQueueAndProceedIfFirst
  cases requestBuilder.requestQueueName with
  | none => exact h
  | some name =>
    dsimp only
    cases hlookup : s.requestQueues.lookup name with
    | none => exact h
    | some queue =>
      have hqueue := h.queued hlookup
      have hnodup := h.nodup hlookup
      cases queue with
      | nil => exact h
      | cons first queue =>
        dsimp only
        split
        · cases queue with
          | nil => exact h.eraseQueue name
          | cons next others =>
            have hset := h.setQueue (fun actor hmem => hqueue actor (.tail _ hmem))
              (List.nodup_cons.1 hnodup).2
            dsimp only
            split
            · exact hset
            · exact hset.execute (hqueue next (.tail _ (.head _))).2
        · exact h.setQueue (fun actor hmem => hqueue actor (List.mem_of_mem_filter hmem))
            (hnodup.filter _)

theorem perm_insertIdx_erase {queue : List ASActor} {actor : ASActor} {i : Nat}
    (hmem : actor ∈ queue) (hi : i < queue.length) :
    ((queue.erase actor).insertIdx i actor).Perm queue := by
  have hlength : i ≤ (queue.erase actor).length := by
    rw [List.length_erase_of_mem hmem]
    omega
  exact (List.perm_insertIdx _ _ hlength).trans (List.perm_cons_erase hmem).symm

theorem Tables.changeActorPriority (h : Tables s) (path : Path) :
    Tables (changeActorPriority s path).1 := by
  unfold ActorRequests.changeActorPriority
  cases s.activeRequests.lookup path with
  | none => exact h
  | some info =>
    dsimp only
    cases info.requestBuilder.requestQueueName with
    | none => exact h
    | some name =>
      dsimp only
      cases hlookup : s.requestQueues.lookup name with
      | none => exact h
      | some queue =>
        dsimp only
        split
        · rename_i hindex
          have hperm := perm_insertIdx_erase (List.idxOf_lt_length_iff.1 hindex.2)
            (hindex.1.trans hindex.2)
          exact h.setQueue (fun actor hmem => h.queued hlookup actor (hperm.mem_iff.1 hmem))
            (hperm.nodup_iff.2 (h.nodup hlookup))
        · exact h

theorem Tables.startActor (h : Tables s) {actor : ASActor} (changePriority : Bool)
    (hid : actor.id < s.nextId)
    (hfresh : ∀ name queue, s.requestQueues.lookup name = some queue → actor ∉ queue) :
    Tables (startActor s actor changePriority).1 := by
  unfold ActorRequests.startActor
  cases hname : actor.requestQueueName with
  | none => exact h.execute hid
  | some name =>
    dsimp only
    cases hlookup : s.requestQueues.lookup name with
    | none =>
      refine (h.setQueue ?_ (List.nodup_singleton actor)).execute hid
      intro other hmem
      rw [List.mem_singleton.1 hmem]
      exact ⟨hname, hid⟩
    | some queue =>
      have hmem : ∀ other ∈ queue ++ [actor],
          other.requestQueueName = some name ∧ other.id < s.nextId := by
        intro other hother
        rcases List.mem_append.1 hother with hold | hnew
        · exact h.queued hlookup other hold
        · rw [List.mem_singleton.1 hnew]
          exact ⟨hname, hid⟩
      have hnodup : (queue ++ [actor]).Nodup :=
        List.nodup_append_comm.1
          (List.nodup_cons.2 ⟨hfresh name queue hlookup, h.nodup hlookup⟩)
      have hset := h.setQueue hmem hnodup
      dsimp only
      split
      · split
        · rename_i hcount
          rw [Bool.and_eq_true, decide_eq_true_iff, List.length_append] at hcount
          have hperm : (((queue ++ [actor]).dropLast).insertIdx 1 actor).Perm
              (queue ++ [actor]) := by
            rw [List.dropLast_concat]
            refine (List.perm_insertIdx _ _ ?_).trans (List.perm_append_singleton _ _).symm
            have := hcount.2
            rw [List.length_singleton] at this
            omega
          exact h.setQueue (fun other hother => hmem other (hperm.mem_iff.1 hother))
            (hperm.nodup_iff.2 hnodup)
        · exact hset
      · exact hset.execute hid

theorem Tables.resumeRequest (h : Tables s) (path : Path) :
    Tables (resumeRequest s path) ∧
      (resumeRequest s path).cancelRequestTimers.lookup path = none := by
  unfold ActorRequests.resumeRequest
  cases hlookup : s.cancelRequestTimers.lookup path with
  | none => exact ⟨h, hlookup⟩
  | some info =>
    have herase : (s.cancelRequestTimers.erase path).lookup path = none :=
      AList.lookup_erase path _
    exact ⟨(h.eraseParked path).setActive (h.parked hlookup) herase, herase⟩

theorem Tables.requestGeneric (h : Tables s) (joinOnly : Bool) (path : Path)
    (changePriority : Bool) (watcher : Handle) (builder : Option (Option String × Rat)) :
    Tables (requestGeneric s joinOnly path changePriority watcher builder).1 := by
  obtain ⟨hresumed, hparked⟩ := h.resumeRequest path
  unfold ActorRequests.requestGeneric
  dsimp only
  generalize ActorRequests.resumeRequest s path = s at hresumed hparked
  cases hlookup : s.activeRequests.lookup path with
  | none =>
    dsimp only
    split
    · exact hresumed
    · cases builder with
      | none => exact hresumed
      | some builder =>
        obtain ⟨requestQueueName, cancelTimeout⟩ := builder
        have hnew : Tables { s with
            nextId := s.nextId + 1
            activeRequests := s.activeRequests.insert path
              { requestBuilder := { id := s.nextId, path, requestQueueName, cancelTimeout },
                watchers := [watcher] } } :=
          hresumed.nextActor.setActive ⟨rfl, Nat.lt_succ_self _⟩ hparked
        refine hnew.startActor changePriority (Nat.lt_succ_self s.nextId) ?_
        intro name queue hqueue hmem
        exact Nat.lt_irrefl _ (hresumed.queued hqueue _ hmem).2
  | some info => exact hresumed.setWatchers hlookup _

theorem Tables.actionReported (h : Tables s) (action : Path) (status : Int) :
    Tables (actionReported s action status).1 := by
  unfold ActorRequests.actionReported
  cases s.activeRequests.lookup action with
  | none => exact h
  | some info => exact h.eraseActive action

theorem Tables.notify (h : Tables s) (actor : ASActor) (status : Int) (watchers : List Handle) :
    Tables (notify s actor status watchers).1 := by
  cases watchers with
  | nil => exact h
  | cons handle watchers => exact { __ := h }

theorem Tables.scheduleCancelRequest (h : Tables s) (path : Path) :
    Tables (scheduleCancelRequest s path).1 := by
  unfold ActorRequests.scheduleCancelRequest
  cases hactive : s.activeRequests.lookup path with
  | none => exact h
  | some info =>
    cases hparked : s.cancelRequestTimers.lookup path with
    | some other => exact h
    | none =>
      dsimp only
      split
      · exact (h.eraseActive path).cancels (h.active hactive).2
      · exact (h.eraseActive path).setParked (h.active hactive) (AList.lookup_erase path _)

theorem Tables.performCancelRequest (h : Tables s) (path : Path) :
    Tables (performCancelRequest s path).1 := by
  unfold ActorRequests.performCancelRequest
  cases hparked : s.cancelRequestTimers.lookup path with
  | none => exact h
  | some info => exact h.cancels (h.parked hparked).2

theorem Tables.removeWatcherFromKey (h : Tables s) (handle : Handle) (key : Path) :
    Tables (removeWatcherFromKey s handle key).1 := by
  unfold ActorRequests.removeWatcherFromKey
  cases hactive : s.activeRequests.lookup key with
  | none => exact h
  | some info => exact h.setWatchers hactive _

theorem Tables.removeAllWatchersFromPath (h : Tables s) (path : Path) :
    Tables (removeAllWatchersFromPath s path).1 := by
  unfold ActorRequests.removeAllWatchersFromPath
  cases hactive : s.activeRequests.lookup path with
  | none => exact h
  | some info => exact h.setWatchers hactive _

theorem Tables.perform (h : Tables s) (instruction : Instruction) :
    Tables (perform s instruction).1 := by
  cases instruction with
  | callback => exact h
  | notify actor watchers status => exact h.notify actor status watchers
  | removeRequestFromQueue actor => exact h.removeRequestFromQueue actor
  | forgetTimer path => exact h.eraseParked path
  | removeWatcher handle keys =>
    cases keys with
    | nil => exact h
    | cons key keys => exact h.removeWatcherFromKey handle key
  | scheduleCancelRequest path => exact h.scheduleCancelRequest path
  | changeActorPriority path => exact h.changeActorPriority path

theorem Tables.userStep (h : Tables s) (event : Event) : Tables (userStep s event).1 := by
  cases event with
  | requestActor joinOnly path changePriority watcher builder =>
    exact h.requestGeneric joinOnly path changePriority watcher builder
  | changeActorPriority path => exact h.changeActorPriority path
  | reports actor status =>
    unfold ActorRequests.userStep
    dsimp only
    split
    · rename_i hexecuted
      exact (h.reports (h.executed actor hexecuted)).actionReported actor.path status
    · exact h
  | removeWatcher handle keys =>
    unfold ActorRequests.userStep
    dsimp only
    split
    · exact h
    · exact h
  | removeWatcherFromPath handle path =>
    unfold ActorRequests.userStep ActorRequests.removeWatcherFromPath
    dsimp only
    split
    · exact h.removeWatcherFromKey handle path
    · exact h
  | removeAllWatchersFromPath path => exact h.removeAllWatchersFromPath path
  | timerFires path => exact h.performCancelRequest path
  | superCancel actor =>
    unfold ActorRequests.userStep
    dsimp only
    split
    · rename_i hcalled
      refine { __ := h, cancelled := ?_ }
      intro other hmem
      rcases List.mem_append.1 hmem with hold | hnew
      · exact h.cancelled other hold
      · rwa [List.mem_singleton.1 hnew]
    · exact h
  | returns => exact h
  | continues => exact h

end Functions

theorem step_user (s : ActionStage) {event : Event} (hreturns : event ≠ .returns)
    (hcontinues : event ≠ .continues) :
    step s event = if UserCode s then push (userStep s event) else s := by
  cases event with
  | returns => exact absurd rfl hreturns
  | continues => exact absurd rfl hcontinues
  | _ => rfl

theorem step_cases (s : ActionStage) (event : Event) :
    step s event = s ∨
    (∃ stack, event = .returns ∧ s.stack = .callback :: stack ∧ step s event = { s with stack }) ∨
    (∃ instruction stack, event = .continues ∧ s.stack = instruction :: stack ∧
      instruction ≠ .callback ∧ step s event = push (perform { s with stack } instruction)) ∨
    (UserCode s ∧ event ≠ .returns ∧ event ≠ .continues ∧
      step s event = push (userStep s event)) := by
  by_cases hreturns : event = .returns
  · subst hreturns
    cases hstack : s.stack with
    | nil => exact .inl (by rw [step, hstack])
    | cons instruction stack =>
      cases instruction with
      | callback => exact .inr (.inl ⟨stack, rfl, rfl, by rw [step, hstack]⟩)
      | _ => exact .inl (by rw [step, hstack])
  · by_cases hcontinues : event = .continues
    · subst hcontinues
      cases hstack : s.stack with
      | nil => exact .inl (by rw [step, hstack])
      | cons instruction stack =>
        cases instruction with
        | callback => exact .inl (by rw [step, hstack])
        | _ =>
          refine .inr (.inr (.inl ⟨_, stack, rfl, rfl, Instruction.noConfusion, ?_⟩))
          rw [step, hstack]
    · grind [step_user]

theorem Tables.step {s : ActionStage} (h : Tables s) (event : Event) : Tables (step s event) := by
  rcases step_cases s event with hsame | ⟨stack, _, _, hstep⟩ |
    ⟨instruction, stack, _, _, _, hstep⟩ | ⟨_, _, _, hstep⟩
  · rwa [hsame]
  · rw [hstep]
    exact h.withStack stack
  · rw [hstep]
    exact ((h.withStack stack).perform instruction).withStack _
  · rw [hstep]
    exact (h.userStep event).withStack _

theorem tables_run (events : List Event) : Tables (run step initial events) := by
  have hstep : ∀ s event, Tables s → Tables (step s event) := fun _ event h => h.step event
  exact run_invariant hstep events initial tables_initial

/-- In every run a path has one actor at most, which works or waits to be cancelled, and an
actor has one path. -/
theorem requests_separate (events : List Event) :
    let s := run step initial events
    (∀ path, s.activeRequests.lookup path = none ∨ s.cancelRequestTimers.lookup path = none) ∧
      ∀ path path' info info',
        s.activeRequests.lookup path = some info ∨ s.cancelRequestTimers.lookup path = some info →
        s.activeRequests.lookup path' = some info' ∨
          s.cancelRequestTimers.lookup path' = some info' →
        info.requestBuilder = info'.requestBuilder → path = path' := by
  intro s
  have h : Tables s := tables_run events
  have hpath : ∀ {path info}, s.activeRequests.lookup path = some info ∨
      s.cancelRequestTimers.lookup path = some info → info.requestBuilder.path = path :=
    fun hrequest => hrequest.elim (h.active · |>.1) (h.parked · |>.1)
  refine ⟨fun path => ?_, fun path path' info info' hrequest hrequest' heq => ?_⟩
  · cases hactive : s.activeRequests.lookup path with
    | none => exact .inl rfl
    | some info => exact .inr (h.exclusive hactive)
  · rw [← hpath hrequest, heq, hpath hrequest']

end TelegramPub.Ports.ActorTables
