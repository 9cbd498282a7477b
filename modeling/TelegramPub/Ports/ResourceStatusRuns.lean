import TelegramPub.Ports.ResourceFetches

/-!
# Subscribers know the status

In a run whose steps are `Timely`, the statuses converge: when no block is queued, each live
subscriber was told the status of its resource last (`converges`).  The conditions are on the
steps that tell something.  In `lateResult` a result runs behind the cancellation of its fetch,
and the subscriber is told that the resource is fetched; in `staleCache` a subscriber finds the
status that its context kept when the resource was completed.
-/

namespace TelegramPub.Ports.ResourceStatus

open Verified.Bytes Verified.Machine
open Ports.MediaBox (Box fileSize)

variable {R : Type*} [DecidableEq R] {contents : R → Data}

section Still

variable {s s' : State R} {blocks : List (StatusBlock R)}

/-- A step that leaves the files and the fetches as they are. -/
structure Still (s s' : State R) (blocks : List (StatusBlock R)) : Prop where
  statusContexts : s'.statusContexts = s.statusContexts
  statusQueue : s'.statusQueue = s.statusQueue ++ blocks
  box : SameFiles s.box s'.box
  fetchDisposable : s'.box.fetchDisposable = s.box.fetchDisposable
  dataQueue : ∀ block ∈ s.dataQueue, block ∈ s'.dataQueue
  about : ∀ block ∈ blocks, block.about = none

theorem Informed.of_still (h : Informed s) (hstill : Still s s' blocks)
    (hsubscribers : ∀ (x : Nat) (subscriber' : Subscriber R),
      s'.subscribers[x]? = some subscriber' → subscriber'.live →
      s.subscribers[x]? = some subscriber' ∨ s.subscribers.length ≤ x)
    (hresource : ∀ (x : Nat) (subscriber : Subscriber R), s.subscribers[x]? = some subscriber →
      ∃ subscriber', s'.subscribers[x]? = some subscriber' ∧
        subscriber'.resource = subscriber.resource)
    (hplaced : ∀ (x : Nat) (subscriber' : Subscriber R), s'.subscribers[x]? = some subscriber' →
      subscriber'.live → (∃ looked, (x, looked) ∈ s.concurrentQueue) ∨ s.subscribers.length ≤ x →
      (∃ looked, (x, looked) ∈ s'.concurrentQueue) ∨ StatusBlock.subscribe x ∈ blocks)
    (halone : ∀ x, StatusBlock.subscribe x ∈ blocks → blocks = [StatusBlock.subscribe x])
    (hremoved : ∀ (x : Nat) (subscriber' : Subscriber R), StatusBlock.remove x ∈ blocks →
      s'.subscribers[x]? = some subscriber' → subscriber'.live = false)
    (hknown : ∀ x, StatusBlock.subscribe x ∈ blocks ∨ StatusBlock.remove x ∈ blocks ∨
      (∃ looked, (x, looked) ∈ s'.concurrentQueue) → x < s'.subscribers.length) :
    Informed s' := by
  have hstatus : ∀ r, s'.status r = s.status r := fun r =>
    status_congr (hstill.box.fileSize r) (congrFun hstill.fetchDisposable r)
  have habout : ∀ r, ∀ block ∈ blocks, block.about ≠ some r := by
    intro r block hblock
    rw [hstill.about block hblock]
    exact (Option.some_ne_none r).symm
  exact h.of_growth {
    statusContexts := hstill.statusContexts
    statusQueue := hstill.statusQueue
    subscribers := hsubscribers
    resource := hresource
    placed := hplaced
    alone := halone
    removed := hremoved
    known := hknown
    complete := fun r hr => by
      rw [hstill.box.complete]
      exact hr
    tells := fun r _ => by
      rw [hstatus]
      exact Tells.of_about (habout r) _
    settles := fun r _ => by
      rw [hstatus]
      exact Settles.of_about (habout r) _
    asked := fun r _ hr => .inl (hstill.dataQueue _ hr) }

/-- `resourceStatus:` puts a subscriber on the concurrent queue. -/
theorem Informed.resourceStatus (h : Informed s) (r : R) :
    Informed { s with
      subscribers := s.subscribers ++ [{ resource := r }]
      concurrentQueue := s.concurrentQueue ++ [(s.subscribers.length, false)] } := by
  have hstill : Still s { s with
      subscribers := s.subscribers ++ [{ resource := r }]
      concurrentQueue := s.concurrentQueue ++ [(s.subscribers.length, false)] } [] :=
    ⟨rfl, (List.append_nil _).symm, SameFiles.refl _, rfl, fun _ hb => hb, fun _ hno => by cases hno⟩
  refine h.of_still hstill ?_ ?_ ?_ (fun _ hno => by cases hno) (fun _ _ hno => by cases hno) ?_
  · grind
  · intro x subscriber hx
    have hlt := (List.getElem?_eq_some_iff.1 hx).1
    exact ⟨subscriber, by rw [List.getElem?_append_left hlt, hx], rfl⟩
  · intro x subscriber' hx _ hplace
    left
    rcases hplace with ⟨looked, hlooked⟩ | hge
    · exact ⟨looked, List.mem_append_left _ hlooked⟩
    · have hlt := (List.getElem?_eq_some_iff.1 hx).1
      rw [List.length_append, List.length_singleton] at hlt
      have heq : x = s.subscribers.length := by omega
      exact ⟨false, by simp [heq]⟩
  · intro x hx
    rw [List.length_append, List.length_singleton]
    rcases hx with hno | hno | ⟨looked, hlooked⟩
    · cases hno
    · cases hno
    · rcases List.mem_append.1 hlooked with hold | hnew
      · exact Nat.lt_succ_of_lt (h.known x (.inr (.inr ⟨looked, hold⟩)))
      · rw [List.mem_singleton, Prod.mk.injEq] at hnew
        omega

/-- A subscriber is completed or disposed of, and a block may be put on the status queue. -/
theorem Informed.complete (h : Informed s) {x : Nat} (hlt : x < s.subscribers.length)
    {f : Subscriber R → Subscriber R}
    (hresource : ∀ subscriber, (f subscriber).resource = subscriber.resource)
    (hdead : ∀ subscriber, (f subscriber).live = false)
    (hblocks : blocks = [] ∨ blocks = [.remove x]) {concurrentQueue : List (Nat × Bool)}
    (hkeeps : ∀ y looked, y ≠ x → (y, looked) ∈ s.concurrentQueue → (y, looked) ∈ concurrentQueue)
    (hold : ∀ y looked, (y, looked) ∈ concurrentQueue → (y, looked) ∈ s.concurrentQueue) :
    Informed { s with
      subscribers := s.subscribers.modify x f
      concurrentQueue
      statusQueue := s.statusQueue ++ blocks } := by
  have hsubscribe : ∀ y, StatusBlock.subscribe y ∉ blocks := by
    rintro y hy
    rcases hblocks with rfl | rfl <;> simp at hy
  have hremove : ∀ y, StatusBlock.remove y ∈ blocks → y = x := by
    grind
  have hafter : ∀ (y : Nat) (subscriber' : Subscriber R),
      (s.subscribers.modify x f)[y]? = some subscriber' → subscriber'.live →
      y ≠ x ∧ s.subscribers[y]? = some subscriber' := by
    intro y subscriber' hy hlive
    rw [List.getElem?_modify] at hy
    obtain ⟨subscriber, hsubscriber, hmap⟩ := Option.map_eq_some_iff.1 hy
    by_cases hyx : x = y
    · grind
    · rw [if_neg hyx] at hmap
      exact ⟨Ne.symm hyx, hmap ▸ hsubscriber⟩
  have hstill : Still s { s with
      subscribers := s.subscribers.modify x f
      concurrentQueue
      statusQueue := s.statusQueue ++ blocks } blocks := by
    refine ⟨rfl, rfl, SameFiles.refl _, rfl, fun _ hb => hb, fun block hblock => ?_⟩
    rcases hblocks with rfl | rfl
    · cases hblock
    · rw [List.mem_singleton.1 hblock]
      rfl
  refine h.of_still hstill
    (fun y subscriber' hy hlive => .inl (hafter y subscriber' hy hlive).2) ?_ ?_
    (fun y hy => absurd hy (hsubscribe y)) ?_ ?_
  · grind
  · grind
  · grind
  · intro y hy
    show y < (s.subscribers.modify x f).length
    rw [List.length_modify]
    rcases hy with hy | hy | ⟨looked, hlooked⟩
    · exact absurd hy (hsubscribe y)
    · rw [hremove y hy]
      exact hlt
    · exact h.known y (.inr (.inr ⟨looked, hold y looked hlooked⟩))

theorem Informed.dispose (h : Informed s) (x : Nat) : Informed (s.dispose x) := by
  unfold State.dispose
  cases hx : s.subscribers[x]? with
  | none => exact h
  | some subscriber =>
    have hlt := (List.getElem?_eq_some_iff.1 hx).1
    have hdisposed := fun (blocks : List (StatusBlock R))
        (hblocks : blocks = [] ∨ blocks = [.remove x]) =>
      h.complete hlt (f := ({ · with live := false })) (fun _ => rfl) (fun _ => rfl) hblocks
        (fun _ _ _ hmem => hmem) (fun _ _ hmem => hmem)
    dsimp only
    split
    · split
      · exact hdisposed [.remove x] (.inr rfl)
      · simpa using hdisposed [] (.inl rfl)
    · exact h

/-- The entries of other subscribers stay on the concurrent queue. -/
theorem mem_eraseIdx_of_ne {queue : List (Nat × Bool)} {position x : Nat} {looked : Bool}
    (hat : queue[position]? = some (x, looked)) {y : Nat} {looked' : Bool} (hne : y ≠ x)
    (hmem : (y, looked') ∈ queue) : (y, looked') ∈ queue.eraseIdx position := by
  obtain ⟨i, hi⟩ := List.mem_iff_getElem?.1 hmem
  refine List.mem_eraseIdx_iff_getElem?.2 ⟨i, ?_, hi⟩
  rintro rfl
  rw [hat] at hi
  cases hi
  exact hne rfl

theorem Informed.look (h : Informed s) {position x : Nat}
    (hat : s.concurrentQueue[position]? = some (x, false)) : Informed (s.look position x) := by
  have hlt : x < s.subscribers.length :=
    h.known x (.inr (.inr ⟨false, List.mem_of_getElem? hat⟩))
  unfold State.look
  cases hx : s.subscribers[x]? with
  | none => exact h
  | some subscriber =>
    dsimp only
    split
    · have hcompleted := h.complete (f := fun subscriber =>
          { (if subscriber.live then { subscriber with last := some Status.statusLocal }
            else subscriber) with live := false }) hlt
        (fun subscriber => by dsimp only; split <;> rfl) (fun _ => rfl) (.inl rfl)
        (fun y looked hne hmem => mem_eraseIdx_of_ne hat hne hmem)
        (fun y looked hmem => List.mem_of_mem_eraseIdx hmem)
      simpa [State.putNext, List.modify_modify_eq, Function.comp_def] using hcompleted
    · have hmem : ∀ y looked, (y, looked) ∈ s.concurrentQueue →
          ∃ looked', (y, looked') ∈ s.concurrentQueue.set position (x, true) := by
        intro y looked hlooked
        by_cases hyx : y = x
        · exact ⟨true, by
            rw [hyx]
            exact List.mem_set (List.getElem?_eq_some_iff.1 hat).1 _⟩
        · obtain ⟨i, hi⟩ := List.mem_iff_getElem?.1 hlooked
          refine ⟨looked, List.mem_iff_getElem?.2 ⟨i, ?_⟩⟩
          rw [List.getElem?_set_ne, hi]
          rintro rfl
          rw [hat] at hi
          cases hi
          exact hyx rfl
      have hstill : Still s { s with
          concurrentQueue := s.concurrentQueue.set position (x, true) } [] :=
        ⟨rfl, (List.append_nil _).symm, SameFiles.refl _, rfl, fun _ hb => hb,
          fun _ hno => by cases hno⟩
      refine h.of_still hstill (fun _ _ hy _ => .inl hy) (fun _ old hy => ⟨old, hy, rfl⟩) ?_
        (fun _ hno => by cases hno) (fun _ _ hno => by cases hno) ?_
      · grind
      · intro y hy
        rcases hy with hno | hno | ⟨looked, hlooked⟩
        · cases hno
        · cases hno
        · rcases List.mem_or_eq_of_mem_set hlooked with hold | hnew
          · exact h.known y (.inr (.inr ⟨looked, hold⟩))
          · cases hnew
            exact hlt

theorem Informed.concurrent (h : Informed s) (position : Nat) :
    Informed (s.concurrent position) := by
  unfold State.concurrent
  split
  · exact h
  · rename_i x hat
    exact h.look hat
  · rename_i x hat
    have hstill : Still s (State.notify
        { s with concurrentQueue := s.concurrentQueue.eraseIdx position } (.subscribe x))
        [.subscribe x] :=
      ⟨rfl, rfl, SameFiles.refl _, rfl, fun _ hb => hb, fun block hblock => by
        rw [List.mem_singleton.1 hblock]
        rfl⟩
    refine h.of_still hstill (fun _ _ hy _ => .inl hy) (fun _ old hy => ⟨old, hy, rfl⟩) ?_
      (fun y hy => ?_) (fun _ _ hno => by simp at hno) ?_
    · intro y subscriber' hy _ hplace
      obtain ⟨looked, hlooked⟩ := hplace.resolve_right
        (Nat.not_le.2 (List.getElem?_eq_some_iff.1 hy).1)
      by_cases hyx : y = x
      · exact .inr (by simp [hyx])
      · exact .inl ⟨looked, mem_eraseIdx_of_ne hat hyx hlooked⟩
    · rw [List.mem_singleton.1 hy]
    · intro y hy
      rcases hy with hy | hno | ⟨looked, hlooked⟩
      · cases List.mem_singleton.1 hy
        exact h.known x (.inr (.inr ⟨true, List.mem_of_getElem? hat⟩))
      · simp at hno
      · exact h.known y (.inr (.inr ⟨looked, List.mem_of_mem_eraseIdx hlooked⟩))

omit [DecidableEq R] in
theorem SameFiles.enqueue {b b' : Box R} (h : SameFiles b b') (blocks : List (MediaBox.Block R)) :
    SameFiles b (b'.enqueue blocks) :=
  ⟨h.partialFile, h.complete, h.length, h.fetches⟩

variable {event : MediaBox.Event R}

/-- The events of the cache that do not run a block. -/
theorem step_same (contents : R → Data) (b : Box R)
    (hperform : ∀ cached, event ≠ .perform cached) (hrestart : event ≠ .restart) :
    SameFiles b (MediaBox.step contents b event) ∧
      (MediaBox.step contents b event).fetchDisposable = b.fetchDisposable := by
  cases event with
  | fetchedResource r => exact ⟨SameFiles.of_eq rfl rfl rfl, rfl⟩
  | cancelInteractiveResourceFetch r => exact ⟨SameFiles.of_eq rfl rfl rfl, rfl⟩
  | dispose subscriber =>
    unfold MediaBox.step
    dsimp only
    split
    · exact ⟨SameFiles.of_eq rfl rfl rfl, rfl⟩
    · exact ⟨SameFiles.of_eq rfl rfl rfl, rfl⟩
  | deliver f length =>
    unfold MediaBox.step MediaBox.Box.deliver
    dsimp only
    split
    · exact ⟨SameFiles.refl b, rfl⟩
    · rename_i fetch hf
      split
      · exact ⟨SameFiles.refl b, rfl⟩
      · exact ⟨SameFiles.enqueue (SameFiles.set b hf (by rfl) (by rfl)) _, rfl⟩
  | finish f =>
    unfold MediaBox.step MediaBox.Box.finish
    dsimp only
    split
    · exact ⟨SameFiles.refl b, rfl⟩
    · rename_i fetch hf
      split
      · exact ⟨SameFiles.refl b, rfl⟩
      · exact ⟨SameFiles.enqueue (SameFiles.set b hf (by rfl) (by rfl)) _, rfl⟩
  | perform cached => exact absurd rfl (hperform cached)
  | restart => exact absurd rfl hrestart

theorem Still.boxStep (contents : R → Data) (s : State R)
    (hperform : ∀ cached, event ≠ .perform cached) (hrestart : event ≠ .restart) :
    Still s (s.boxStep contents event) [] := by
  obtain ⟨hsame, hfetch⟩ := step_same contents s.box hperform hrestart
  exact {
    statusContexts := rfl
    statusQueue := (List.append_nil _).symm
    box := ⟨hsame.partialFile, hsame.complete, hsame.length, hsame.fetches⟩
    fetchDisposable := hfetch
    dataQueue := fun _ hblock => List.mem_append_left _ hblock
    about := fun _ hno => by cases hno }

theorem Informed.boxStep (h : Informed s)
    (hperform : ∀ cached, event ≠ .perform cached) (hrestart : event ≠ .restart) :
    Informed (s.boxStep contents event) := by
  refine h.of_still (Still.boxStep contents s hperform hrestart) (fun _ _ hy _ => .inl hy)
    (fun _ old hy => ⟨old, hy, rfl⟩) (fun y _ hy _ hplace => .inl (hplace.resolve_right ?_))
    (fun _ hno => by cases hno) (fun _ _ hno => by cases hno) fun y hy => ?_
  · exact Nat.not_le.2 (List.getElem?_eq_some_iff.1 hy).1
  · exact h.known y (.inr (.inr ((hy.resolve_left (by simp)).resolve_left (by simp))))

theorem Stored.boxStep (h : Stored s)
    (hperform : ∀ cached, event ≠ .perform cached) (hrestart : event ≠ .restart) :
    Stored (s.boxStep contents event) := by
  have hsame := (Still.boxStep contents s hperform hrestart).box
  exact {
    numbered := h.numbered.trans hsame.length.symm
    opened := hsame.opened h.opened
    linked := fun r hr => by
      rw [hsame.complete]
      exact h.linked r hr }

/-- The conditions on a step, which are those on the block that it runs. -/
def Timely (s : State R) : Event R → Prop
  | .runStatus =>
    match s.statusQueue with
    | .subscribe x :: _ => FindsCurrent s x
    | _ => True
  | .runData _ =>
    match s.dataQueue with
    | block :: _ => DataTimely s block
    | [] => True
  | _ => True

instance (s : State R) (event : Event R) : Decidable (Timely s event) := by
  unfold Timely
  split
  · split <;> infer_instance
  · split <;> infer_instance
  · infer_instance

theorem Informed.runStatus (h : Informed s) (hs : Stored s) (htimely : Timely s .runStatus) :
    Informed (step contents s .runStatus) ∧ Stored (step contents s .runStatus) := by
  unfold step
  cases hqueue : s.statusQueue with
  | nil => exact ⟨h, hs⟩
  | cons block statusQueue =>
    refine ⟨h.performStatus hqueue fun x hx => ?_, ?_⟩
    · grind [Timely]
    · have hsame := performStatus_data { s with statusQueue } block
      exact {
        numbered := by
          rw [hsame.fetchGenerations, hsame.box]
          exact hs.numbered
        opened := by
          rw [hsame.box]
          exact hs.opened
        linked := by
          rw [hsame.dataComplete, hsame.box]
          exact hs.linked }

theorem Informed.runData (h : Informed s) (hs : Stored s) {cached : Bool}
    (htimely : Timely s (.runData cached)) :
    Informed (step contents s (.runData cached)) ∧ Stored (step contents s (.runData cached)) := by
  unfold step
  dsimp only
  cases hqueue : s.dataQueue with
  | nil => exact ⟨h, hs⟩
  | cons block dataQueue =>
    have htimely' : DataTimely s block := by
      grind [Timely]
    have hs' : Stored { s with dataQueue } := ⟨hs.numbered, hs.opened, hs.linked⟩
    obtain ⟨blocks, hupdate, hfound⟩ :=
      Update.performData contents hs' cached htimely'
    refine ⟨h.of_growth (hupdate.growth hqueue h fun r hr last => ?_), hupdate.stored⟩
    subst hr
    rw [hfound r rfl]
    exact hear_found r _ last

/-- A timely step keeps the invariant. -/
theorem informed_step (contents : R → Data) (event : Event R) (htimely : Timely s event)
    (h : Informed s ∧ Stored s) :
    Informed (step contents s event) ∧ Stored (step contents s event) := by
  obtain ⟨h, hs⟩ := h
  cases event with
  | resourceStatus r => exact ⟨h.resourceStatus r, ⟨hs.numbered, hs.opened, hs.linked⟩⟩
  | dispose x =>
    refine ⟨h.dispose x, ?_⟩
    show Stored (s.dispose x)
    unfold State.dispose
    split
    · exact hs
    · split
      · split <;> exact ⟨hs.numbered, hs.opened, hs.linked⟩
      · exact hs
  | concurrent position =>
    refine ⟨h.concurrent position, ?_⟩
    show Stored (s.concurrent position)
    unfold State.concurrent State.look
    dsimp only
    split
    · exact hs
    · split
      · exact hs
      · split <;> exact ⟨hs.numbered, hs.opened, hs.linked⟩
    · exact ⟨hs.numbered, hs.opened, hs.linked⟩
  | runStatus => exact h.runStatus hs htimely
  | runData cached => exact h.runData hs htimely
  | fetchedResource r => exact ⟨h.boxStep (by simp) (by simp), hs.boxStep (by simp) (by simp)⟩
  | disposeFetch subscriber =>
    exact ⟨h.boxStep (by simp) (by simp), hs.boxStep (by simp) (by simp)⟩
  | cancelInteractiveResourceFetch r =>
    exact ⟨h.boxStep (by simp) (by simp), hs.boxStep (by simp) (by simp)⟩
  | deliver f length => exact ⟨h.boxStep (by simp) (by simp), hs.boxStep (by simp) (by simp)⟩
  | finish f => exact ⟨h.boxStep (by simp) (by simp), hs.boxStep (by simp) (by simp)⟩

theorem informed_start (partialFile : R → Option Data) (complete : R → Bool) :
    Informed (start partialFile complete) ∧ Stored (start partialFile complete) := by
  have hnone : ∀ r x, ¬ (start partialFile complete).Holds r x := by
    rintro r x ⟨_, hno, _⟩
    cases hno
  refine ⟨?_, ⟨rfl, fun _ hno => (List.not_mem_nil hno).elim, fun _ hno => by cases hno⟩⟩
  exact {
    registered := fun _ _ _ _ hno => by cases hno
    upcoming := fun pre x post _ _ hno => by
      cases pre <;> cases hno
    current := fun r k hno => by
      rcases hno with hno | hno <;> cases hno
    owner := fun r x hno => absurd hno (hnone r x)
    placed := fun x _ hno => by cases hno
    removed := fun _ _ hno => by cases hno
    known := fun x hno => by
      rcases hno with hno | hno | ⟨_, hno⟩ <;> cases hno }

end Still

/-- In a run of timely steps, each live subscriber was told the status of its resource last,
whenever no block is queued. -/
theorem converges (contents : R → Data) (partialFile : R → Option Data) (complete : R → Bool)
    (events : List (Event R))
    (htimely : Guarded (step contents) Timely (start partialFile complete) events) :
    Quiescent (run (step contents) (start partialFile complete) events) →
      Converged (run (step contents) (start partialFile complete) events) := by
  have hinformed := guarded_invariant
    (fun (s : State R) (event : Event R) htimely (h : Informed s ∧ Stored s) =>
      informed_step contents event htimely h)
    events _ htimely (informed_start partialFile complete)
  exact hinformed.1.converged

/-- A resource of two bytes. -/
def twoBytes (_ : Unit) : Data := [1, 2]

/-- Nothing is stored. -/
def empty : State Unit := start (fun _ => none) fun _ => false

/-- A subscriber, and a fetch with a first result. -/
def firstResult : List (Event Unit) :=
  [.resourceStatus (), .concurrent 0, .concurrent 0, .runStatus, .runData false, .runStatus,
    .fetchedResource (), .runData false, .runStatus, .deliver 0 1, .runData false, .runStatus]

/-- A first result, seen by a subscriber. -/
theorem firstResult_converges : Quiescent (run (step twoBytes) empty firstResult) ∧
    (run (step twoBytes) empty firstResult).status () = .statusFetching ∧
    Converged (run (step twoBytes) empty firstResult) :=
  ⟨by decide, by decide,
    converges twoBytes (fun _ => none) (fun _ => false) firstResult (by decide) (by decide)⟩

/-- The result is delivered before the fetch is cancelled, but runs after it. -/
def lateResult : List (Event Unit) :=
  [.resourceStatus (), .concurrent 0, .concurrent 0, .runStatus, .runData false, .runStatus,
    .fetchedResource (), .runData false, .runStatus, .cancelInteractiveResourceFetch (),
    .deliver 0 1, .runData false, .runData false, .runStatus, .runStatus]

/-- The subscriber is told that the resource is fetched, and it is not. -/
theorem lateResult_diverges : Quiescent (run (step twoBytes) empty lateResult) ∧
    (run (step twoBytes) empty lateResult).status () = .statusRemote ∧
    ¬ Converged (run (step twoBytes) empty lateResult) := by
  decide

/-- A second subscriber looks for the file before it is complete, and is added after that, while
the context is kept by the first, which was disposed of. -/
def staleCache : List (Event Unit) :=
  [.resourceStatus (), .concurrent 0, .concurrent 0, .runStatus, .runData false, .runStatus,
    .fetchedResource (), .runData false, .runStatus, .deliver 0 2, .runData false, .runStatus,
    .resourceStatus (), .concurrent 0, .finish 0, .runData false, .concurrent 0, .dispose 0,
    .runStatus, .runStatus, .runStatus, .runData false]

/-- The second subscriber is told that the resource is fetched, and it is there. -/
theorem staleCache_diverges : Quiescent (run (step twoBytes) empty staleCache) ∧
    (run (step twoBytes) empty staleCache).status () = .statusLocal ∧
    ¬ Converged (run (step twoBytes) empty staleCache) := by
  decide

end TelegramPub.Ports.ResourceStatus
