import TelegramPub.Ports.ActorTables

/-!
# Request queues

The first actor of a queue is executed and has not finished, and no other actor of the
queue was executed yet.  While a function is running, the first actor may have finished,
when its removal from the queue is still to come.

The removal of an actor comes with its cancellation, and with a report that finds the
request of the actor.  A report that does not find it, because the request waits to be
cancelled, blocks the queue: `queues_run` says that nothing else does.
-/

namespace TelegramPub.Ports.ActorQueues

open Verified.Machine Ports.ActorRequests Ports.ActorTables

/-- The actor has reported or was cancelled. -/
def Finished (s : ActionStage) (actor : ASActor) : Prop :=
  actor ∈ s.reported ∨ actor ∈ s.cancelCalled

/-- The instruction ends with the actor's removal from its queue. -/
def Removes (instruction : Instruction) (actor : ASActor) : Prop :=
  instruction = .removeRequestFromQueue actor ∨
    ∃ watchers status, instruction = .notify actor watchers status

/-- A running function will remove the actor from its queue. -/
def Leaving (s : ActionStage) (actor : ASActor) : Prop :=
  ∃ instruction ∈ s.stack, Removes instruction actor

/-- One actor of the queue is running, the first one. -/
structure OneAtATime (s : ActionStage) (queue : List ASActor) : Prop where
  nonempty : queue ≠ []
  first : ∀ actor ∈ queue.head?,
    Leaving s actor ∨ actor ∈ s.executed ∧ ¬ Finished s actor
  others : ∀ actor ∈ queue.tail, actor ∉ s.executed

/-- The queues, and no actor is executed twice. -/
structure Queues (s : ActionStage) : Prop where
  oneAtATime : ∀ name queue, s.requestQueues.lookup name = some queue → OneAtATime s queue
  once : s.executed.Nodup

/-- An actor that reports while it is in a queue has its request among the active ones, or
is leaving the queue already. -/
def ReportsActive (s : ActionStage) : Event → Prop
  | .reports actor _ =>
    UserCode s → actor ∈ s.executed →
      ∀ name queue, s.requestQueues.lookup name = some queue → actor ∈ queue →
        Leaving s actor ∨
          ∃ info, s.activeRequests.lookup actor.path = some info ∧ info.requestBuilder = actor
  | _ => True

/-- A queue, with the actors that are leaving it. -/
structure Serving (s : ActionStage) (queue : List ASActor) : Prop where
  nonempty : queue ≠ []
  first : ∀ actor ∈ queue.head?, Leaving s actor ∨ actor ∈ s.executed
  others : ∀ actor ∈ queue.tail, actor ∉ s.executed
  finished : ∀ actor ∈ queue, Finished s actor → Leaving s actor

structure Running (s : ActionStage) : Prop where
  serving : ∀ name queue, s.requestQueues.lookup name = some queue → Serving s queue
  once : s.executed.Nodup

theorem Running.queues {s : ActionStage} (h : Running s) : Queues s where
  oneAtATime name queue hlookup := by
    have hserving := h.serving name queue hlookup
    refine ⟨hserving.nonempty, ?_, hserving.others⟩
    intro actor hhead
    by_cases hleaving : Leaving s actor
    · exact .inl hleaving
    · have hexecuted := (hserving.first actor hhead).resolve_left hleaving
      exact .inr ⟨hexecuted, fun hfinished =>
        hleaving (hserving.finished actor (List.mem_of_mem_head? hhead) hfinished)⟩
  once := h.once

variable {queue : List ASActor}

/-- A queue that stays as it is. -/
theorem Serving.mono {s s' : ActionStage} (h : Serving s queue)
    (hleaving : ∀ actor ∈ queue, Leaving s actor → Leaving s' actor)
    (hold : ∀ actor ∈ s.executed, actor ∈ s'.executed)
    (hnew : ∀ actor ∈ queue, actor ∈ s'.executed → actor ∈ s.executed)
    (hfinished : ∀ actor ∈ queue, Finished s' actor → Finished s actor ∨ Leaving s' actor) :
    Serving s' queue where
  nonempty := h.nonempty
  first actor hhead := by
    rcases h.first actor hhead with hgoes | hexecuted
    · exact .inl (hleaving actor (List.mem_of_mem_head? hhead) hgoes)
    · exact .inr (hold actor hexecuted)
  others actor hmem hexecuted :=
    h.others actor hmem (hnew actor (List.mem_of_mem_tail hmem) hexecuted)
  finished actor hmem hfinish := by
    rcases hfinished actor hmem hfinish with hbefore | hgoes
    · exact hleaving actor hmem (h.finished actor hmem hbefore)
    · exact hgoes

theorem Running.mono {s s' : ActionStage} (h : Running s)
    (hqueues : s'.requestQueues = s.requestQueues) (hexecuted : s'.executed = s.executed)
    (hleaving : ∀ actor, Leaving s actor → Leaving s' actor)
    (hfinished : ∀ name queue actor, s.requestQueues.lookup name = some queue → actor ∈ queue →
      Finished s' actor → Finished s actor ∨ Leaving s' actor) : Running s' where
  serving name queue hlookup := by
    rw [hqueues] at hlookup
    refine (h.serving name queue hlookup).mono (fun actor _ => hleaving actor) ?_ ?_ ?_
    · intro actor
      rw [hexecuted]
      exact id
    · intro actor _
      rw [hexecuted]
      exact id
    · exact fun actor hmem => hfinished name queue actor hlookup hmem
  once := by
    rw [hexecuted]
    exact h.once

theorem Running.same {s s' : ActionStage} (h : Running s)
    (hqueues : s'.requestQueues = s.requestQueues) (hexecuted : s'.executed = s.executed)
    (hstack : s'.stack = s.stack) (hreported : s'.reported = s.reported)
    (hcancelCalled : s'.cancelCalled = s.cancelCalled) : Running s' := by
  refine h.mono hqueues hexecuted ?_ ?_
  · intro actor hgoes
    unfold Leaving
    rw [hstack]
    exact hgoes
  · grind [Finished]

theorem leaving_push {rest : Rest} {actor : ASActor} (h : Leaving rest.1 actor) :
    Leaving (push rest) actor := by
  obtain ⟨instruction, hmem, hremoves⟩ := h
  exact ⟨instruction, List.mem_append_right _ hmem, hremoves⟩

variable {instruction : Instruction}

theorem leaving_pushed {rest : Rest} {actor : ASActor}
    (hmem : instruction ∈ rest.2) (hremoves : Removes instruction actor) :
    Leaving (push rest) actor :=
  ⟨instruction, List.mem_append_left _ hmem, hremoves⟩

/-! ## What does not concern the queues -/

/-- The function changes neither the queues nor the stack. -/
structure SameQueues (s : ActionStage) (rest : Rest) : Prop where
  queues : rest.1.requestQueues = s.requestQueues
  executed : rest.1.executed = s.executed
  stack : rest.1.stack = s.stack
  reported : rest.1.reported = s.reported

/-- A function that cancels nobody, or somebody who is leaving then. -/
theorem SameQueues.running {s : ActionStage} {rest : Rest} (hsame : SameQueues s rest)
    (h : Running s)
    (hcancels : ∀ actor ∈ rest.1.cancelCalled,
      actor ∈ s.cancelCalled ∨ .removeRequestFromQueue actor ∈ rest.2) : Running (push rest) := by
  refine h.mono hsame.queues hsame.executed ?_ ?_
  · intro actor hgoes
    refine leaving_push ?_
    unfold Leaving
    rw [hsame.stack]
    exact hgoes
  · intro name queue actor _ _ hfinished
    rcases hfinished with hreported | hcancelled
    · exact .inl (.inl (hsame.reported ▸ hreported))
    · rcases hcancels actor hcancelled with hbefore | hremoves
      · exact .inl (.inr hbefore)
      · exact .inr (leaving_pushed hremoves (.inl rfl))

theorem SameQueues.running_of_cancels {s : ActionStage} {rest : Rest} (hsame : SameQueues s rest)
    (h : Running s) {actor : ASActor} (hcancels : rest.1.cancelCalled = s.cancelCalled ++ [actor])
    (hremoves : .removeRequestFromQueue actor ∈ rest.2) : Running (push rest) := by
  refine hsame.running h ?_
  intro other hmem
  rw [hcancels, List.mem_append, List.mem_singleton] at hmem
  rcases hmem with hbefore | rfl
  · exact .inl hbefore
  · exact .inr hremoves

theorem running_execute {s : ActionStage} {actor : ASActor} (hnew : actor ∉ s.executed)
    (honce : s.executed.Nodup)
    (hqueues : ∀ name queue, s.requestQueues.lookup name = some queue →
      Serving s queue ∧ actor ∉ queue ∨
      ∃ others, queue = actor :: others ∧ actor ∉ others ∧
        (∀ other ∈ others, other ∉ s.executed) ∧
        ∀ other ∈ queue, Finished s other → Leaving s other) :
    Running (push (execute s actor)) where
  serving name queue hlookup := by
    rcases hqueues name queue hlookup with ⟨hserving, hout⟩ |
      ⟨others, rfl, hout, hothers, hfinished⟩
    · refine hserving.mono (fun _ _ hgoes => leaving_push hgoes)
        (fun other hmem => List.mem_append_left _ hmem) ?_ (fun other _ hfinish => .inl hfinish)
      intro other hmem hexecuted
      rcases List.mem_append.1 hexecuted with hbefore | hlast
      · exact hbefore
      · rw [List.mem_singleton.1 hlast] at hmem
        exact absurd hmem hout
    · refine ⟨List.cons_ne_nil _ _, ?_, ?_, fun other hmem hfinish =>
        leaving_push (hfinished other hmem hfinish)⟩
      · intro other hhead
        rw [List.head?_cons, Option.mem_some_iff] at hhead
        rw [← hhead]
        exact .inr (List.mem_append_right _ (List.mem_singleton_self _))
      · intro other hmem hexecuted
        rcases List.mem_append.1 hexecuted with hbefore | hlast
        · exact hothers other hmem hbefore
        · rw [List.mem_singleton.1 hlast] at hmem
          exact hout hmem
  once := by
    show (s.executed ++ [actor]).Nodup
    exact List.nodup_append_comm.1 (List.nodup_cons.2 ⟨hnew, honce⟩)

theorem Running.setQueue {s : ActionStage} (h : Running s) (name : String)
    (hserving : Serving s queue) :
    Running { s with requestQueues := s.requestQueues.insert name queue } where
  serving other queue' hlookup := by
    rcases lookup_insert_cases hlookup with ⟨_, rfl⟩ | ⟨_, hold⟩
    · exact { __ := hserving }
    · exact { __ := h.serving other queue' hold }
  once := h.once

theorem Serving.reorder {s : ActionStage} {first : ASActor} {others others' : List ASActor}
    (h : Serving s (first :: others)) (hperm : others'.Perm others) :
    Serving s (first :: others') where
  nonempty := List.cons_ne_nil _ _
  first := h.first
  others actor hmem := h.others actor (hperm.mem_iff.1 hmem)
  finished actor hmem := h.finished actor ((hperm.cons first).mem_iff.1 hmem)

/-- A new actor comes behind the first. -/
theorem Serving.append {s : ActionStage} {actor : ASActor}
    (h : Serving s queue) (hnew : actor ∉ s.executed) (hfinished : ¬ Finished s actor) :
    Serving s (queue ++ [actor]) where
  nonempty := List.append_ne_nil_of_left_ne_nil h.nonempty _
  first other hhead := by
    rw [List.head?_append_of_ne_nil _ h.nonempty] at hhead
    exact h.first other hhead
  others other hmem := by
    rw [List.tail_append_of_ne_nil h.nonempty] at hmem
    rcases List.mem_append.1 hmem with hold | hlast
    · exact h.others other hold
    · rwa [List.mem_singleton.1 hlast]
  finished other hmem hfinish := by
    rcases List.mem_append.1 hmem with hold | hlast
    · exact h.finished other hold hfinish
    · rw [List.mem_singleton.1 hlast] at hfinish
      exact absurd hfinish hfinished

theorem running_startActor {s : ActionStage} {actor : ASActor} (h : Running s)
    (changePriority : Bool) (hnew : actor ∉ s.executed) (hfinished : ¬ Finished s actor)
    (hout : ∀ name queue, s.requestQueues.lookup name = some queue → actor ∉ queue) :
    Running (push (startActor s actor changePriority)) := by
  have hothers : ∀ name queue, s.requestQueues.lookup name = some queue →
      Serving s queue ∧ actor ∉ queue :=
    fun name queue hlookup => ⟨h.serving name queue hlookup, hout name queue hlookup⟩
  unfold startActor
  cases actor.requestQueueName with
  | none => exact running_execute hnew h.once fun name queue hlookup => .inl (hothers _ _ hlookup)
  | some name =>
    dsimp only
    cases hlookup : s.requestQueues.lookup name with
    | none =>
      refine running_execute hnew h.once ?_
      intro other queue hother
      rcases lookup_insert_cases hother with ⟨_, rfl⟩ | ⟨_, hold⟩
      · refine .inr ⟨[], rfl, List.not_mem_nil, fun _ hmem => absurd hmem List.not_mem_nil, ?_⟩
        intro other hmem hfinish
        rw [List.mem_singleton.1 hmem] at hfinish
        exact absurd hfinish hfinished
      · obtain ⟨hserving, hnot⟩ := hothers other queue hold
        exact .inl ⟨{ __ := hserving }, hnot⟩
    | some queue =>
      have hserving := h.serving name queue hlookup
      have hlonger := hserving.append hnew hfinished
      cases hqueue : queue with
      | nil => exact absurd hqueue hserving.nonempty
      | cons first others =>
        rw [hqueue] at hlonger
        have hcount : 1 < (first :: others ++ [actor]).length := by
          rw [List.length_append, List.length_cons, List.length_singleton]
          omega
        dsimp only
        rw [if_pos hcount]
        split
        · rename_i hpriority
          have hmoved : ((first :: others ++ [actor]).dropLast).insertIdx 1 actor =
              first :: actor :: others := by
            rw [List.dropLast_concat]
            rfl
          rw [hmoved]
          have hreordered := hlonger.reorder (List.perm_append_singleton actor others).symm
          exact { __ := h.setQueue name hreordered }
        · exact { __ := h.setQueue name hlonger }

theorem running_changeActorPriority {s : ActionStage} (h : Running s) (path : Path) :
    Running (push (changeActorPriority s path)) := by
  unfold changeActorPriority
  split
  · exact { __ := h }
  · dsimp only
    split
    · exact { __ := h }
    · rename_i info _ _ name _
      split
      · exact { __ := h }
      · rename_i queue hlookup
        split
        · rename_i hindex
          have hserving := h.serving name queue hlookup
          cases hqueue : queue with
          | nil => exact absurd hqueue hserving.nonempty
          | cons first others =>
            rw [hqueue] at hindex hserving
            have hne : first ≠ info.requestBuilder := by
              grind
            have hmem : info.requestBuilder ∈ others :=
              ((List.mem_cons.1 (List.idxOf_lt_length_iff.1 hindex.2)).resolve_left hne.symm)
            have hmoved : ((first :: others).erase info.requestBuilder).insertIdx 1
                info.requestBuilder =
                  first :: info.requestBuilder :: others.erase info.requestBuilder := by
              rw [List.erase_cons_tail (by simpa using hne)]
              rfl
            rw [hmoved]
            have hreordered := hserving.reorder (List.perm_cons_erase hmem).symm
            exact { __ := h.setQueue name hreordered }
        · exact { __ := h }

section Removal

variable {s : ActionStage} {actor : ASActor} {stack : List Instruction}

theorem leaving_popped (hstack : s.stack = .removeRequestFromQueue actor :: stack)
    {other : ASActor} (hne : other ≠ actor) (h : Leaving s other) :
    Leaving { s with stack } other := by
  obtain ⟨instruction, hmem, hremoves⟩ := h
  rw [hstack] at hmem
  rcases List.mem_cons.1 hmem with rfl | hrest
  · rcases hremoves with hsame | ⟨_, _, hsame⟩
    · exact absurd (Instruction.removeRequestFromQueue.inj hsame).symm hne
    · cases hsame
  · exact ⟨instruction, hrest, hremoves⟩

theorem serving_popped (hstack : s.stack = .removeRequestFromQueue actor :: stack)
    (h : Serving s queue) (hout : actor ∉ queue) :
    Serving { s with stack } queue := by
  have hne : ∀ other ∈ queue, other ≠ actor := fun other hmem heq => hout (heq ▸ hmem)
  exact h.mono (fun other hmem => leaving_popped hstack (hne other hmem)) (fun _ => id)
    (fun _ _ => id) (fun _ _ hfinish => .inl hfinish)

theorem finished_popped {next : ASActor} {others : List ASActor}
    (hstack : s.stack = .removeRequestFromQueue actor :: stack)
    (h : Serving s (actor :: next :: others)) (hout : actor ∉ next :: others) :
    ∀ other ∈ next :: others, Finished { s with stack } other → Leaving { s with stack } other :=
  fun other hmem hfinish => leaving_popped hstack (fun heq => hout (heq ▸ hmem))
    (h.finished other (.tail _ hmem) hfinish)

theorem serving_filter {first : ASActor} (hstack : s.stack = .removeRequestFromQueue actor :: stack)
    (h : Serving s (first :: queue)) (hfirst : first ≠ actor) :
    Serving { s with stack } ((first :: queue).filter (· ≠ actor)) := by
  have hfilter : (first :: queue).filter (· ≠ actor) = first :: queue.filter (· ≠ actor) := by
    rw [List.filter_cons_of_pos (by simpa using hfirst)]
  rw [hfilter]
  refine ⟨List.cons_ne_nil _ _, ?_, ?_, ?_⟩
  · intro other hhead
    rw [List.head?_cons, Option.mem_some_iff] at hhead
    subst hhead
    exact (h.first first rfl).imp_left (leaving_popped hstack hfirst)
  · exact fun other hmem => h.others other (List.mem_of_mem_filter hmem)
  · intro other hmem hfinish
    rw [← hfilter, List.mem_filter, decide_eq_true_iff] at hmem
    exact leaving_popped hstack hmem.2 (h.finished other hmem.1 hfinish)

theorem running_removeRequestFromQueue (h : Running s) (ht : Tables s)
    (hstack : s.stack = .removeRequestFromQueue actor :: stack) :
    Running (push (removeRequestFromQueueAndProceedIfFirst { s with stack } actor)) := by
  have hothers : ∀ name queue, s.requestQueues.lookup name = some queue →
      actor.requestQueueName ≠ some name → Serving { s with stack } queue := by
    intro name queue hlookup hname
    exact serving_popped hstack (h.serving name queue hlookup)
      (fun hmem => hname (ht.queued hlookup actor hmem).1)
  unfold removeRequestFromQueueAndProceedIfFirst
  cases hname : actor.requestQueueName with
  | none =>
    refine ⟨fun name queue hlookup => ?_, h.once⟩
    have hother := hothers name queue hlookup (by rw [hname]; exact (Option.some_ne_none _).symm)
    exact { __ := hother }
  | some name =>
    have hapart : ∀ other, other ≠ name → actor.requestQueueName ≠ some other := by
      intro other hne heq
      rw [hname] at heq
      exact hne (Option.some.inj heq).symm
    dsimp only
    cases hlookup : s.requestQueues.lookup name with
    | none =>
      refine ⟨fun other queue hother => ?_, h.once⟩
      have hne : other ≠ name := by
        rintro rfl
        have hboth := hlookup.symm.trans hother
        cases hboth
      have hserving := hothers other queue hother (hapart other hne)
      exact { __ := hserving }
    | some queue =>
      have hserving := h.serving name queue hlookup
      have hnodup := ht.nodup hlookup
      cases queue with
      | nil => exact absurd rfl hserving.nonempty
      | cons first queue =>
        dsimp only
        split
        · rename_i hfirst
          subst hfirst
          obtain ⟨hout, hnodup'⟩ := List.nodup_cons.1 hnodup
          cases queue with
          | nil =>
            refine ⟨fun other queue hother => ?_, h.once⟩
            obtain ⟨hne, hold⟩ := lookup_erase_cases hother
            have hserving' := hothers other queue hold (hapart other hne)
            exact { __ := hserving' }
          | cons next others =>
            have hfinished := finished_popped hstack hserving hout
            have hwaiting : ∀ other ∈ next :: others, other ∉ s.executed := hserving.others
            dsimp only
            split
            · rename_i hcancelled
              have hgoes := hfinished next (List.mem_cons_self ..)
                (.inr (ht.cancelled next hcancelled))
              refine ⟨fun other queue hother => ?_, h.once⟩
              rcases lookup_insert_cases hother with ⟨_, rfl⟩ | ⟨hne, hold⟩
              · refine ⟨List.cons_ne_nil _ _, ?_, ?_, hfinished⟩
                · intro actor hhead
                  rw [List.head?_cons, Option.mem_some_iff] at hhead
                  exact .inl (hhead ▸ hgoes)
                · exact fun actor hmem => hwaiting actor (.tail _ hmem)
              · have hserving' := hothers other queue hold (hapart other hne)
                exact { __ := hserving' }
            · refine running_execute (hwaiting next (List.mem_cons_self ..)) h.once ?_
              intro other queue hother
              rcases lookup_insert_cases hother with ⟨_, rfl⟩ | ⟨hne, hold⟩
              · exact .inr ⟨others, rfl, (List.nodup_cons.1 hnodup').1,
                  fun actor hmem => hwaiting actor (.tail _ hmem), hfinished⟩
              · have hserving' := hothers other queue hold (hapart other hne)
                refine .inl ⟨{ __ := hserving' }, fun hmem => ?_⟩
                have hnext := ht.queued hlookup next
                  (.tail _ (List.mem_cons_self ..))
                have hnames := (ht.queued hold next hmem).1.symm.trans hnext.1
                exact hne (Option.some.inj hnames)
        · rename_i hfirst
          have hfiltered := serving_filter hstack hserving hfirst
          refine ⟨fun other queue' hother => ?_, h.once⟩
          rcases lookup_insert_cases hother with ⟨_, rfl⟩ | ⟨hne, hold⟩
          · exact { __ := hfiltered }
          · have hserving' := hothers other queue' hold (hapart other hne)
            exact { __ := hserving' }

end Removal

section Steps

variable {s : ActionStage}

theorem running_resumeRequest (h : Running s) (path : Path) :
    Running (resumeRequest s path) := by
  unfold resumeRequest
  split
  · exact h
  · exact h.same rfl rfl rfl rfl rfl

theorem running_requestGeneric (h : Running s) (ht : Tables s) (joinOnly : Bool) (path : Path)
    (changePriority : Bool) (watcher : Handle) (builder : Option (Option String × Rat)) :
    Running (push (requestGeneric s joinOnly path changePriority watcher builder)) := by
  have hresumed := running_resumeRequest h path
  have htables := (ht.resumeRequest path).1
  unfold requestGeneric
  dsimp only
  generalize resumeRequest s path = s at hresumed htables
  cases s.activeRequests.lookup path with
  | none =>
    dsimp only
    split
    · exact { __ := hresumed }
    · cases builder with
      | none => exact { __ := hresumed }
      | some builder =>
        obtain ⟨requestQueueName, cancelTimeout⟩ := builder
        have hnew : ∀ actor : ASActor, actor.id < s.nextId →
            actor ≠ { id := s.nextId, path, requestQueueName, cancelTimeout } := by
          rintro actor hlt rfl
          exact Nat.lt_irrefl _ hlt
        have hadded : Running { s with
            nextId := s.nextId + 1
            activeRequests := s.activeRequests.insert path
              { requestBuilder := { id := s.nextId, path, requestQueueName, cancelTimeout },
                watchers := [watcher] } } :=
          hresumed.same rfl rfl rfl rfl rfl
        refine running_startActor hadded changePriority ?_ ?_ ?_
        · exact fun hmem => hnew _ (htables.executed _ hmem) rfl
        · rintro (hmem | hmem)
          · exact hnew _ (htables.reported _ hmem) rfl
          · exact hnew _ (htables.cancelCalled _ hmem) rfl
        · exact fun name queue hlookup hmem => hnew _ (htables.queued hlookup _ hmem).2 rfl
  | some info =>
    refine SameQueues.running (s := s) ⟨rfl, rfl, rfl, rfl⟩ hresumed ?_
    exact fun actor hmem => .inl hmem

theorem running_reports (h : Running s) {actor : ASActor} (status : Int)
    (hactive : ∀ name queue, s.requestQueues.lookup name = some queue → actor ∈ queue →
      Leaving s actor ∨
        ∃ info, s.activeRequests.lookup actor.path = some info ∧ info.requestBuilder = actor) :
    Running (push (actionReported { s with reported := s.reported ++ [actor] } actor.path
      status)) := by
  have hreported : ∀ other, Finished { s with reported := s.reported ++ [actor] } other →
      Finished s other ∨ other = actor := by
    rintro other (hmem | hmem)
    · rw [List.mem_append, List.mem_singleton] at hmem
      exact hmem.imp_left .inl
    · exact .inl (.inr hmem)
  unfold actionReported
  dsimp only
  cases hlookup : s.activeRequests.lookup actor.path with
  | none =>
    refine h.mono rfl rfl (fun _ hgoes => hgoes) ?_
    intro name queue other hqueue hmem hfinished
    rcases hreported other hfinished with hbefore | rfl
    · exact .inl hbefore
    · rcases hactive name queue hqueue hmem with hgoes | ⟨info, hinfo, _⟩
      · exact .inr hgoes
      · rw [hlookup] at hinfo
        cases hinfo
  | some info =>
    refine h.mono rfl rfl ?_ ?_
    · rintro other ⟨instruction, hmem, hremoves⟩
      exact ⟨instruction, List.mem_cons_of_mem _ hmem, hremoves⟩
    · intro name queue other hqueue hmem hfinished
      rcases hreported other hfinished with hbefore | rfl
      · exact .inl hbefore
      · right
        rcases hactive name queue hqueue hmem with ⟨instruction, hgoes, hremoves⟩ |
          ⟨info', hinfo, hsame⟩
        · exact ⟨instruction, List.mem_cons_of_mem _ hgoes, hremoves⟩
        · rw [hlookup, Option.some.injEq] at hinfo
          subst hinfo
          exact ⟨_, List.mem_cons_self .., .inr ⟨info.watchers, status, by rw [hsame]⟩⟩

theorem running_scheduleCancelRequest (h : Running s) (path : Path) :
    Running (push (scheduleCancelRequest s path)) := by
  unfold scheduleCancelRequest
  split
  · dsimp only
    split
    · exact SameQueues.running_of_cancels (s := s) ⟨rfl, rfl, rfl, rfl⟩ h rfl (by simp)
    · exact h.same rfl rfl rfl rfl rfl
  · exact { __ := h }

theorem running_performCancelRequest (h : Running s) (path : Path) :
    Running (push (performCancelRequest s path)) := by
  unfold performCancelRequest
  split
  · exact { __ := h }
  · exact SameQueues.running_of_cancels (s := s) ⟨rfl, rfl, rfl, rfl⟩ h rfl (by simp)

theorem sameQueues_removeWatcherFromKey (s : ActionStage) (handle : Handle) (key : Path) :
    SameQueues s (removeWatcherFromKey s handle key) ∧
      (removeWatcherFromKey s handle key).1.cancelCalled = s.cancelCalled := by
  unfold removeWatcherFromKey
  split <;> exact ⟨⟨rfl, rfl, rfl, rfl⟩, rfl⟩

theorem running_userStep (h : Running s) (ht : Tables s) (event : Event) (hcode : UserCode s)
    (hactive : ReportsActive s event) : Running (push (userStep s event)) := by
  cases event with
  | requestActor joinOnly path changePriority watcher builder =>
    exact running_requestGeneric h ht joinOnly path changePriority watcher builder
  | changeActorPriority path => exact running_changeActorPriority h path
  | reports actor status =>
    unfold userStep
    dsimp only
    split
    · rename_i hexecuted
      exact running_reports h status (hactive hcode hexecuted)
    · exact { __ := h }
  | removeWatcher handle keys =>
    unfold userStep
    dsimp only
    split
    · exact SameQueues.running (s := s) ⟨rfl, rfl, rfl, rfl⟩ h fun _ hmem => .inl hmem
    · exact { __ := h }
  | removeWatcherFromPath handle path =>
    obtain ⟨hsame, hcancelled⟩ := sameQueues_removeWatcherFromKey s handle path
    unfold userStep removeWatcherFromPath
    dsimp only
    split
    · exact hsame.running h fun _ hmem => .inl (hcancelled ▸ hmem)
    · exact { __ := h }
  | removeAllWatchersFromPath path =>
    unfold userStep removeAllWatchersFromPath
    dsimp only
    split
    · exact { __ := h }
    · exact SameQueues.running (s := s) ⟨rfl, rfl, rfl, rfl⟩ h fun _ hmem => .inl hmem
  | timerFires path => exact running_performCancelRequest h path
  | superCancel actor =>
    unfold userStep
    dsimp only
    split
    · exact h.same rfl rfl rfl rfl rfl
    · exact { __ := h }
  | returns => exact { __ := h }
  | continues => exact { __ := h }

theorem running_popped (h : Running s) {stack : List Instruction}
    (hstack : s.stack = instruction :: stack) (hkeeps : ∀ actor, ¬ Removes instruction actor) :
    Running { s with stack } := by
  refine h.mono rfl rfl ?_ (fun _ _ _ _ _ hfinished => .inl hfinished)
  rintro actor ⟨other, hmem, hremoves⟩
  rw [hstack] at hmem
  rcases List.mem_cons.1 hmem with rfl | hrest
  · exact absurd hremoves (hkeeps actor)
  · exact ⟨other, hrest, hremoves⟩

theorem running_notify (h : Running s) {actor : ASActor} {watchers : List Handle} {status : Int}
    {stack : List Instruction} (hstack : s.stack = .notify actor watchers status :: stack) :
    Running (push (notify { s with stack } actor status watchers)) := by
  have hleaving : ∀ (instruction : Instruction) (rest : List Instruction),
      Removes instruction actor → instruction ∈ rest →
        ∀ other, Leaving s other → Leaving { s with stack := rest ++ stack } other := by
    rintro instruction rest hremoves hinstruction other ⟨before, hmem, hbefore⟩
    rw [hstack] at hmem
    rcases List.mem_cons.1 hmem with rfl | hrest
    · rcases hbefore with hsame | ⟨_, _, hsame⟩
      · cases hsame
      · cases hsame
        exact ⟨instruction, List.mem_append_left _ hinstruction, hremoves⟩
    · exact ⟨before, List.mem_append_right _ hrest, hbefore⟩
  cases watchers with
  | nil =>
    exact h.mono rfl rfl (hleaving _ [.removeRequestFromQueue actor] (.inl rfl) (by simp))
      (fun _ _ _ _ _ hfinished => .inl hfinished)
  | cons handle watchers =>
    exact h.mono rfl rfl
      (hleaving (.notify actor watchers status) [.callback, .notify actor watchers status]
        (.inr ⟨_, _, rfl⟩) (by simp))
      (fun _ _ _ _ _ hfinished => .inl hfinished)

theorem running_perform (h : Running s) (ht : Tables s)
    {stack : List Instruction} (hstack : s.stack = instruction :: stack) :
    Running (push (perform { s with stack } instruction)) := by
  cases instruction with
  | notify actor watchers status => exact running_notify h hstack
  | removeRequestFromQueue actor => exact running_removeRequestFromQueue h ht hstack
  | callback =>
    have hpopped := running_popped h hstack (by rintro actor (h | ⟨_, _, h⟩) <;> cases h)
    exact { __ := hpopped }
  | forgetTimer path =>
    have hpopped := running_popped h hstack (by rintro actor (h | ⟨_, _, h⟩) <;> cases h)
    exact hpopped.same rfl rfl rfl rfl rfl
  | removeWatcher handle keys =>
    have hpopped := running_popped h hstack (by rintro actor (h | ⟨_, _, h⟩) <;> cases h)
    cases keys with
    | nil => exact { __ := hpopped }
    | cons key keys =>
      obtain ⟨hsame, hcancelled⟩ := sameQueues_removeWatcherFromKey { s with stack } handle key
      refine SameQueues.running (s := { s with stack })
        ⟨hsame.queues, hsame.executed, hsame.stack, hsame.reported⟩ hpopped ?_
      exact fun _ hmem => .inl (hcancelled ▸ hmem)
  | scheduleCancelRequest path =>
    have hpopped := running_popped h hstack (by rintro actor (h | ⟨_, _, h⟩) <;> cases h)
    exact running_scheduleCancelRequest hpopped path
  | changeActorPriority path =>
    have hpopped := running_popped h hstack (by rintro actor (h | ⟨_, _, h⟩) <;> cases h)
    exact running_changeActorPriority hpopped path

theorem running_step (h : Running s) (ht : Tables s) (event : Event)
    (hactive : ReportsActive s event) : Running (step s event) := by
  rcases step_cases s event with hsame | ⟨stack, _, hstack, hstep⟩ |
    ⟨instruction, stack, _, hstack, _, hstep⟩ | ⟨hcode, _, _, hstep⟩
  · rwa [hsame]
  · rw [hstep]
    exact running_popped h hstack (by rintro actor (h | ⟨_, _, h⟩) <;> cases h)
  · rw [hstep]
    exact running_perform h ht hstack
  · rw [hstep]
    exact running_userStep h ht event hcode hactive

/-- A report that is lost blocks the queue of the actor. -/
theorem not_queues_step {event : Event} (hactive : ¬ ReportsActive s event) :
    ¬ Queues (step s event) := by
  cases event with
  | reports actor status =>
    simp only [ReportsActive, Classical.not_imp, not_forall, not_or, not_exists, not_and]
      at hactive
    obtain ⟨hcode, hexecuted, name, queue, hlookup, hmem, hstays, hother⟩ := hactive
    intro hqueues
    rw [step_user s Event.noConfusion Event.noConfusion, if_pos hcode] at hqueues
    unfold userStep at hqueues
    dsimp only at hqueues
    rw [if_pos hexecuted] at hqueues
    unfold actionReported at hqueues
    dsimp only at hqueues
    have hblocked : ∀ s' : ActionStage, Queues s' → s'.requestQueues = s.requestQueues →
        s'.executed = s.executed → s'.reported = s.reported ++ [actor] →
          ¬ Leaving s' actor → False := by
      intro s' hqueues' hsame hexec hreported hleaving
      have hone := hqueues'.oneAtATime name queue (hsame ▸ hlookup)
      cases hqueue : queue with
      | nil => exact hone.nonempty hqueue
      | cons first others =>
        rw [hqueue] at hmem hone
        rcases List.mem_cons.1 hmem with rfl | hwaits
        · rcases hone.first _ rfl with hgoes | ⟨_, hnot⟩
          · exact hleaving hgoes
          · refine hnot (.inl ?_)
            rw [hreported]
            exact List.mem_append_right _ (List.mem_singleton_self _)
        · exact hone.others actor hwaits (hexec ▸ hexecuted)
    cases hfound : s.activeRequests.lookup actor.path with
    | none =>
      rw [hfound] at hqueues
      exact hblocked _ hqueues rfl rfl rfl hstays
    | some info =>
      rw [hfound] at hqueues
      refine hblocked _ hqueues rfl rfl rfl ?_
      rintro ⟨instruction, hinstruction, hremoves⟩
      rcases List.mem_cons.1 hinstruction with rfl | hrest
      · rcases hremoves with hsame | ⟨_, _, hsame⟩
        · cases hsame
        · exact hother info hfound (Instruction.notify.inj hsame).1
      · exact hstays ⟨instruction, hrest, hremoves⟩
  | _ => exact absurd trivial hactive

end Steps

section Order

/-- The step gives the actor priority: it is requested so, or moved to the second place. -/
def GivesPriority (s : ActionStage) (event : Event) (actor : ASActor) : Prop :=
  match event with
  | .requestActor false path true _ (some _) =>
    UserCode s ∧ path ∉ s.activeRequests ∧ path ∉ s.cancelRequestTimers ∧ actor.id = s.nextId
  | .changeActorPriority path =>
    UserCode s ∧ ∃ info, s.activeRequests.lookup path = some info ∧ info.requestBuilder = actor
  | .continues =>
    ∃ path stack, s.stack = .changeActorPriority path :: stack ∧
      ∃ info, s.activeRequests.lookup path = some info ∧ info.requestBuilder = actor
  | _ => False

/-- Who was requested before the actor stands before it. -/
def Ordered (actor : ASActor) (s : ActionStage) : Prop :=
  ∀ name queue, s.requestQueues.lookup name = some queue → actor ∈ queue →
    ∀ other ∈ queue, other.id < actor.id → [other, actor].Sublist queue

variable {s : ActionStage} {actor : ASActor}

theorem Ordered.same {s' : ActionStage} (h : Ordered actor s)
    (hqueues : s'.requestQueues = s.requestQueues) : Ordered actor s' := by
  intro name queue hlookup
  exact h name queue (hqueues ▸ hlookup)

theorem Ordered.setQueue (h : Ordered actor s) (name : String)
    (hqueue : actor ∈ queue → ∀ other ∈ queue, other.id < actor.id →
      [other, actor].Sublist queue) :
    Ordered actor { s with requestQueues := s.requestQueues.insert name queue } := by
  intro other queue' hlookup
  rcases lookup_insert_cases hlookup with ⟨_, rfl⟩ | ⟨_, hold⟩
  · exact hqueue
  · exact h other queue' hold

theorem ordered_removeRequestFromQueue (h : Ordered actor s) (ht : Tables s)
    (requestBuilder : ASActor) :
    Ordered actor (removeRequestFromQueueAndProceedIfFirst s requestBuilder).1 := by
  unfold removeRequestFromQueueAndProceedIfFirst
  split
  · exact h
  · rename_i name _
    split
    · exact h
    · exact h
    · rename_i first queue hlookup
      have hordered := h name _ hlookup
      obtain ⟨hout, _⟩ := List.nodup_cons.1 (ht.nodup hlookup)
      split
      · cases queue with
        | nil =>
          intro other queue' hother
          exact h other queue' (lookup_erase_cases hother).2
        | cons next others =>
          have hrest : actor ∈ next :: others → ∀ other ∈ next :: others,
              other.id < actor.id → [other, actor].Sublist (next :: others) := by
            intro hmem other hother hlt
            have hboth := hordered (.tail _ hmem) other
              (.tail _ hother) hlt
            rcases List.sublist_cons_iff.1 hboth with hrest | ⟨_, heq, _⟩
            · exact hrest
            · exact absurd ((List.cons.inj heq).1 ▸ hother) hout
          have hset := h.setQueue name hrest
          dsimp only
          split
          · exact hset
          · exact hset
      · refine h.setQueue name ?_
        intro hmem other hother hlt
        rw [List.mem_filter] at hmem hother
        have hboth := (hordered hmem.1 other hother.1 hlt).filter (· ≠ requestBuilder)
        have hpass : [other, actor].filter (· ≠ requestBuilder) = [other, actor] :=
          List.filter_eq_self.2 (by
            intro one hone
            rcases List.mem_pair.1 hone with rfl | rfl
            · exact hother.2
            · exact hmem.2)
        rwa [hpass] at hboth

theorem ordered_changeActorPriority (h : Ordered actor s) (ht : Tables s) {path : Path}
    (hother : ∀ info, s.activeRequests.lookup path = some info → info.requestBuilder ≠ actor) :
    Ordered actor (changeActorPriority s path).1 := by
  unfold changeActorPriority
  cases hactive : s.activeRequests.lookup path with
  | none => exact h
  | some info =>
    have hne := hother info hactive
    dsimp only
    split
    · exact h
    · rename_i name _
      split
      · exact h
      · rename_i queue hlookup
        split
        · rename_i hindex
          refine h.setQueue name ?_
          intro hmem other hbefore hlt
          have hmoves := List.idxOf_lt_length_iff.1 hindex.2
          have hperm := perm_insertIdx_erase hmoves (hindex.1.trans hindex.2)
          have hboth := h name queue hlookup (hperm.mem_iff.1 hmem) other
            (hperm.mem_iff.1 hbefore) hlt
          have hnodup := ht.nodup hlookup
          cases hqueue : queue with
          | nil => rw [hqueue] at hmoves; cases hmoves
          | cons first others =>
            rw [hqueue] at hindex hboth hnodup
            have hfirst : first ≠ info.requestBuilder := by
              grind
            have herase : (first :: others).erase info.requestBuilder =
                first :: others.erase info.requestBuilder :=
              List.erase_cons_tail (by simpa using hfirst)
            rw [herase]
            show [other, actor].Sublist
              (first :: info.requestBuilder :: others.erase info.requestBuilder)
            by_cases hmoved : other = info.requestBuilder
            · grind
            · have hkept := hboth.erase info.requestBuilder
              rw [herase, List.erase_of_not_mem (by simp [Ne.symm hmoved, hne])] at hkept
              exact hkept.trans ((List.sublist_cons_self ..).cons_cons first)
        · exact h

/-- A new actor is the last of its queue, or the second. -/
theorem ordered_startActor (h : Ordered actor s) {new : ASActor} (changePriority : Bool)
    (hlater : ∀ name queue, s.requestQueues.lookup name = some queue →
      ∀ other ∈ queue, other.id < new.id)
    (hpriority : actor = new → changePriority = false) :
    Ordered actor (startActor s new changePriority).1 := by
  have hold : ∀ name queue queue', s.requestQueues.lookup name = some queue →
      queue.Sublist queue' → (∀ other ∈ queue', other ∈ queue ∨ other = new) → actor ∈ queue →
        ∀ other ∈ queue', other.id < actor.id → [other, actor].Sublist queue' := by
    intro name queue queue' hlookup hsub hmem hactor other hother hlt
    rcases hmem other hother with hold | rfl
    · exact (h name queue hlookup hactor other hold hlt).trans hsub
    · exact absurd (hlater name queue hlookup actor hactor) (Nat.lt_asymm hlt)
  unfold startActor
  split
  · exact h
  · rename_i name _
    split
    · refine h.setQueue name ?_
      intro hmem other hother hlt
      rw [List.mem_singleton.1 hmem, List.mem_singleton.1 hother] at hlt
      exact absurd hlt (Nat.lt_irrefl _)
    · rename_i queue hlookup
      have hlast : actor ∈ queue ++ [new] → ∀ other ∈ queue ++ [new], other.id < actor.id →
          [other, actor].Sublist (queue ++ [new]) := by
        intro hmem other hother hlt
        rcases List.mem_append.1 hmem with hactor | hnew
        · grind
        · grind
      dsimp only
      split
      · split
        · rename_i hflag
          rw [Bool.and_eq_true] at hflag
          rw [List.dropLast_concat]
          refine h.setQueue name ?_
          have hne : actor ≠ new := by
            intro heq
            exact absurd (hflag.1.symm.trans (hpriority heq)) Bool.noConfusion
          intro hmem
          cases queue with
          | nil => cases hmem
          | cons first others =>
            have hin : actor ∈ first :: others := by
              grind
            refine hold name _ _ hlookup ((List.sublist_cons_self ..).cons_cons first) ?_ hin
            intro other hother
            rcases List.mem_cons.1 hother with heq | hother
            · exact .inl (heq ▸ List.mem_cons_self ..)
            · exact (List.mem_cons.1 hother).symm.imp_left (List.mem_cons_of_mem _)
        · exact h.setQueue name hlast
      · exact h.setQueue name hlast

theorem ordered_requestGeneric (h : Ordered actor s) (ht : Tables s) (joinOnly : Bool)
    (path : Path) (changePriority : Bool) (watcher : Handle)
    (builder : Option (Option String × Rat)) (hcode : UserCode s)
    (hpriority : ¬ GivesPriority s
      (.requestActor joinOnly path changePriority watcher builder) actor) :
    Ordered actor (requestGeneric s joinOnly path changePriority watcher builder).1 := by
  have hresumed : Ordered actor (resumeRequest s path) := by
    unfold resumeRequest
    split
    · exact h
    · exact h.same rfl
  have htables := (ht.resumeRequest path).1
  have hnext : (resumeRequest s path).nextId = s.nextId := by
    unfold resumeRequest
    split <;> rfl
  have habsent : (resumeRequest s path).activeRequests.lookup path = none →
      path ∉ s.activeRequests ∧ path ∉ s.cancelRequestTimers := by
    intro hnone
    rw [← AList.lookup_eq_none, ← AList.lookup_eq_none]
    unfold resumeRequest at hnone
    cases hparked : s.cancelRequestTimers.lookup path with
    | none =>
      rw [hparked] at hnone
      exact ⟨hnone, rfl⟩
    | some info =>
      simp_all
  unfold requestGeneric
  dsimp only
  generalize resumeRequest s path = r at hresumed htables hnext habsent
  cases hlookup : r.activeRequests.lookup path with
  | none =>
    dsimp only
    split
    · exact hresumed
    · rename_i hjoin
      cases builder with
      | none => exact hresumed
      | some builder =>
        obtain ⟨requestQueueName, cancelTimeout⟩ := builder
        have hadded : Ordered actor { r with
            nextId := r.nextId + 1
            activeRequests := r.activeRequests.insert path
              { requestBuilder := { id := r.nextId, path, requestQueueName, cancelTimeout },
                watchers := [watcher] } } := hresumed.same rfl
        refine ordered_startActor hadded changePriority ?_ ?_
        · exact fun name queue hqueue other hmem => (htables.queued hqueue other hmem).2
        · rintro rfl
          by_contra hflag
          rw [Bool.not_eq_false] at hflag
          rw [Bool.not_eq_true] at hjoin
          subst hflag hjoin
          exact hpriority ⟨hcode, (habsent hlookup).1, (habsent hlookup).2, hnext⟩
  | some info => exact hresumed.same rfl

theorem scheduleCancelRequest_queues (s : ActionStage) (path : Path) :
    (scheduleCancelRequest s path).1.requestQueues = s.requestQueues := by
  unfold scheduleCancelRequest
  split
  · dsimp only
    split <;> rfl
  · rfl

theorem ordered_step (h : Ordered actor s) (ht : Tables s) (event : Event)
    (hpriority : ¬ GivesPriority s event actor) : Ordered actor (step s event) := by
  rcases step_cases s event with hsame | ⟨stack, _, _, hstep⟩ |
    ⟨instruction, stack, hevent, hstack, _, hstep⟩ | ⟨hcode, _, _, hstep⟩
  · rwa [hsame]
  · rw [hstep]
    exact h.same rfl
  · rw [hstep]
    subst hevent
    have hpopped : Ordered actor { s with stack } := h.same rfl
    have htables := ht.withStack stack
    cases instruction with
    | callback => exact hpopped
    | notify other watchers status =>
      cases watchers with
      | nil => exact hpopped
      | cons handle watchers => exact hpopped
    | removeRequestFromQueue other => exact ordered_removeRequestFromQueue hpopped htables other
    | forgetTimer path => exact hpopped
    | removeWatcher handle keys =>
      cases keys with
      | nil => exact hpopped
      | cons key keys =>
        exact hpopped.same (sameQueues_removeWatcherFromKey _ handle key).1.queues
    | scheduleCancelRequest path =>
      exact hpopped.same (scheduleCancelRequest_queues _ path)
    | changeActorPriority path =>
      refine ordered_changeActorPriority hpopped htables ?_
      exact fun info hlookup heq => hpriority ⟨path, stack, hstack, info, hlookup, heq⟩
  · rw [hstep]
    cases event with
    | requestActor joinOnly path changePriority watcher builder =>
      exact ordered_requestGeneric h ht joinOnly path changePriority watcher builder hcode
        hpriority
    | changeActorPriority path =>
      refine ordered_changeActorPriority h ht ?_
      exact fun info hlookup heq => hpriority ⟨hcode, info, hlookup, heq⟩
    | reports other status =>
      refine h.same ?_
      unfold userStep actionReported
      dsimp only
      split
      · split <;> rfl
      · rfl
    | removeWatcher handle keys =>
      refine h.same ?_
      unfold userStep
      dsimp only
      split <;> rfl
    | removeWatcherFromPath handle path =>
      refine h.same ?_
      unfold userStep removeWatcherFromPath
      dsimp only
      split
      · exact (sameQueues_removeWatcherFromKey s handle path).1.queues
      · rfl
    | removeAllWatchersFromPath path =>
      refine h.same ?_
      unfold userStep removeAllWatchersFromPath
      dsimp only
      split <;> rfl
    | timerFires path =>
      refine h.same ?_
      unfold userStep performCancelRequest
      dsimp only
      split <;> rfl
    | superCancel other =>
      refine h.same ?_
      unfold userStep
      dsimp only
      split <;> rfl
    | returns => exact h
    | continues => exact h

theorem ordered_run (events : List Event) (actor : ASActor)
    (hpriority : Guarded step (fun s event => ¬ GivesPriority s event actor) initial events) :
    Ordered actor (run step initial events) := by
  have hstep : ∀ s event, ¬ GivesPriority s event actor → Tables s ∧ Ordered actor s →
      Tables (step s event) ∧ Ordered actor (step s event) :=
    fun s event hevent h => ⟨h.1.step event, ordered_step h.2 h.1 event hevent⟩
  exact (guarded_invariant hstep events initial hpriority
    ⟨tables_initial, fun _ _ hlookup => by cases hlookup⟩).2

end Order

/-- Between two functions nobody is leaving. -/
theorem Queues.idle {s : ActionStage} (h : Queues s) (hidle : s.stack = []) (name : String)
    (queue : List ASActor) (hlookup : s.requestQueues.lookup name = some queue) :
    ∃ first others, queue = first :: others ∧ first ∈ s.executed ∧ ¬ Finished s first ∧
      ∀ other ∈ others, other ∉ s.executed := by
  have hone := h.oneAtATime name queue hlookup
  cases queue with
  | nil => exact absurd rfl hone.nonempty
  | cons first others =>
    have hstays : ¬ Leaving s first := by
      rintro ⟨instruction, hmem, _⟩
      rw [hidle] at hmem
      cases hmem
    obtain ⟨hexecuted, hnot⟩ := (hone.first first rfl).resolve_left hstays
    exact ⟨first, others, rfl, hexecuted, hnot, hone.others⟩

theorem running_initial : Running initial where
  serving _ _ hlookup := by cases hlookup
  once := List.nodup_nil

/-- The queues run one actor at a time in every state that a run reaches exactly when no actor
reports from a queue without its request being active; and an actor that is never given
priority stays behind those that were requested before it. -/
theorem queues_run (events : List Event) :
    ((∀ k, Queues (run step initial (events.take k))) ↔
      Guarded step ReportsActive initial events) ∧
    (Guarded step ReportsActive initial events → (run step initial events).stack = [] →
      ∀ name queue, (run step initial events).requestQueues.lookup name = some queue →
        ∃ first others, queue = first :: others ∧ first ∈ (run step initial events).executed ∧
          ¬ Finished (run step initial events) first ∧
          ∀ other ∈ others, other ∉ (run step initial events).executed) ∧
    (∀ actor, Guarded step (fun s event => ¬ GivesPriority s event actor) initial events →
      Ordered actor (run step initial events)) := by
  have hiff := reached_iff_guarded step ReportsActive Queues
    (fun s (h : Tables s ∧ Running s) => h.2.queues)
    (fun s event h hactive => ⟨h.1.step event, running_step h.2 h.1 event hactive⟩)
    (fun s event _ hactive => not_queues_step hactive) events initial
    ⟨tables_initial, running_initial⟩
  refine ⟨hiff, ?_, ordered_run events⟩
  intro hguarded hidle name queue hlookup
  have hlast := hiff.2 hguarded events.length
  rw [List.take_length] at hlast
  exact hlast.idle hidle name queue hlookup

/-- The first actor reports while its request waits to be cancelled: the second one waits for
an actor that has finished. -/
theorem queue_blocked :
    ¬ ∀ events : List Event, Queues (run step initial events) := by
  intro hall
  have hqueues := hall
    [.requestActor false "/tg/first" false 1 (some (some "messages", 1)), .returns,
      .requestActor false "/tg/second" false 2 (some (some "messages", 0)),
      .removeWatcherFromPath 1 "/tg/first", .continues,
      .reports { id := 0, path := "/tg/first", requestQueueName := some "messages",
                 cancelTimeout := 1 } 0]
  obtain ⟨first, others, hqueue, _, hnot, _⟩ := hqueues.idle (by decide +kernel) "messages"
    [{ id := 0, path := "/tg/first", requestQueueName := some "messages", cancelTimeout := 1 },
      { id := 1, path := "/tg/second", requestQueueName := some "messages", cancelTimeout := 0 }]
    (by decide +kernel)
  rw [← (List.cons.inj hqueue).1] at hnot
  exact hnot (.inl (by decide +kernel))

end TelegramPub.Ports.ActorQueues
