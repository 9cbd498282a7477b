import TelegramPub.Ports.ResourceStatus

/-!
# Subscribers and contexts of a status

The loops over the subscribers of a context, and the block that adds one.  A loop changes
little (`Keeps`): live subscribers stay in their contexts, contexts keep their statuses, and the
other queues and the data are as they were.  `announce_subscribers` and `subscribe_subscribers`
say what the subscribers are told, and `cache_steps` that the cache moves as `MediaBox` does.
-/

namespace TelegramPub.Ports.ResourceStatus

open Verified.Bytes Verified.Machine
open Ports.MediaBox (Box Block)

variable {R : Type*}

/-! ## What the status queue leaves -/

/-- A subscriber is in the context of a resource. -/
def State.Holds (s : State R) (r : R) (x : Nat) : Prop :=
  ∃ context, s.statusContexts r = some context ∧ x ∈ context.subscribers

/-- The status that the context of a resource keeps. -/
def State.kept (s : State R) (r : R) : Option Status := (s.statusContexts r).bind (·.status)

theorem kept_getD (s : State R) (r : R) :
    ((s.statusContexts r).getD {}).status = s.kept r := by
  unfold State.kept
  cases s.statusContexts r <;> rfl

/-- The queues and the data are the same. -/
structure SameData (s s' : State R) : Prop where
  box : s'.box = s.box
  dataComplete : s'.dataComplete = s.dataComplete
  fetchGenerations : s'.fetchGenerations = s.fetchGenerations
  concurrentQueue : s'.concurrentQueue = s.concurrentQueue
  statusQueue : s'.statusQueue = s.statusQueue
  dataQueue : ∀ block ∈ s.dataQueue, block ∈ s'.dataQueue

theorem SameData.refl (s : State R) : SameData s s := ⟨rfl, rfl, rfl, rfl, rfl, fun _ h => h⟩

theorem SameData.trans {s t u : State R} (h : SameData s t) (h' : SameData t u) : SameData s u :=
  ⟨h'.box.trans h.box, h'.dataComplete.trans h.dataComplete,
    h'.fetchGenerations.trans h.fetchGenerations, h'.concurrentQueue.trans h.concurrentQueue,
    h'.statusQueue.trans h.statusQueue, fun block hb => h'.dataQueue block (h.dataQueue block hb)⟩

theorem SameData.status {s s' : State R} (h : SameData s s') (r : R) : s'.status r = s.status r := by
  unfold State.status
  rw [h.box]

/-- Live subscribers stay in their contexts, and only some are told something or completed. -/
structure Keeps (s s' : State R) : Prop where
  data : SameData s s'
  subscribers : ∀ (x : Nat) (subscriber' : Subscriber R), s'.subscribers[x]? = some subscriber' →
    ∃ subscriber, s.subscribers[x]? = some subscriber ∧
      subscriber'.resource = subscriber.resource ∧ (subscriber'.live → subscriber.live)
  length : s'.subscribers.length = s.subscribers.length
  contexts : ∀ (r : R) (context' : Context), s'.statusContexts r = some context' →
    ∃ context, s.statusContexts r = some context ∧ context'.status = context.status ∧
      ∀ x ∈ context'.subscribers, x ∈ context.subscribers
  holds : ∀ (r : R) (x : Nat) (subscriber' : Subscriber R), s.Holds r x →
    s'.subscribers[x]? = some subscriber' →
    subscriber'.live → s'.Holds r x

theorem Keeps.refl (s : State R) : Keeps s s where
  data := SameData.refl s
  subscribers := fun _ subscriber h => ⟨subscriber, h, rfl, id⟩
  length := rfl
  contexts := fun _ context h => ⟨context, h, rfl, fun _ hx => hx⟩
  holds := fun _ _ _ h _ _ => h

theorem Keeps.trans {s t u : State R} (h : Keeps s t) (h' : Keeps t u) : Keeps s u where
  data := h.data.trans h'.data
  subscribers := by grind [h.subscribers, h'.subscribers]
  length := h'.length.trans h.length
  contexts := by grind [h.contexts, h'.contexts]
  holds := by grind [h.holds, h'.holds, h'.subscribers]

theorem Keeps.kept {s s' : State R} (h : Keeps s s') (r : R) :
    s'.kept r = s.kept r ∨ s'.statusContexts r = none := by
  cases hcontext' : s'.statusContexts r with
  | none => exact .inr rfl
  | some context' =>
    obtain ⟨context, hcontext, hstatus, _⟩ := h.contexts r context' hcontext'
    exact .inl (by simp [State.kept, hcontext', hcontext, hstatus])

theorem Keeps.holds_of {s s' : State R} (h : Keeps s s') {r : R} {x : Nat}
    (hholds : s'.Holds r x) : s.Holds r x := by
  obtain ⟨context', hcontext', hin⟩ := hholds
  obtain ⟨context, hcontext, _, hsub⟩ := h.contexts r context' hcontext'
  exact ⟨context, hcontext, hsub x hin⟩

/-- A change of one subscriber that keeps its resource and completes it at most. -/
theorem Keeps.modify (s : State R) (x : Nat) {f : Subscriber R → Subscriber R}
    (hresource : ∀ subscriber, (f subscriber).resource = subscriber.resource)
    (hlive : ∀ subscriber, (f subscriber).live → subscriber.live) :
    Keeps s { s with subscribers := s.subscribers.modify x f } where
  data := ⟨rfl, rfl, rfl, rfl, rfl, fun _ h => h⟩
  subscribers := by
    intro y subscriber' hy
    rw [List.getElem?_modify] at hy
    grind
  length := List.length_modify ..
  contexts := fun _ context h => ⟨context, h, rfl, fun _ hx => hx⟩
  holds := fun _ _ _ h _ _ => h

theorem putNext_keeps (s : State R) (x : Nat) (status : Status) : Keeps s (s.putNext x status) := by
  refine Keeps.modify s x (fun subscriber => ?_) fun subscriber => ?_
  · split <;> rfl
  · split <;> exact id

variable [DecidableEq R]

theorem removeItem_data (s : State R) (x : Nat) (r : R) : SameData s (s.removeItem x r) := by
  unfold State.removeItem
  split
  · exact SameData.refl s
  · exact ⟨rfl, rfl, rfl, rfl, rfl, fun _ h => h⟩

theorem removeItem_subscribers (s : State R) (x : Nat) (r : R) :
    (s.removeItem x r).subscribers = s.subscribers := by
  unfold State.removeItem
  split <;> rfl

theorem removeItem_keeps (s : State R) (x : Nat) (r : R)
    (hdead : ∀ subscriber, s.subscribers[x]? = some subscriber → subscriber.live = false) :
    Keeps s (s.removeItem x r) where
  data := removeItem_data s x r
  subscribers := fun y subscriber h => ⟨subscriber, by rwa [removeItem_subscribers] at h, rfl, id⟩
  length := by rw [removeItem_subscribers]
  contexts := by
    intro q context' hcontext'
    unfold State.removeItem at hcontext'
    cases hcontext : s.statusContexts r with
    | none => grind
    | some context =>
      rw [hcontext] at hcontext'
      grind [Function.update_apply, List.mem_of_mem_erase]
  holds := by
    rintro q y subscriber ⟨context', hcontext', hy⟩ hsubscriber hlive
    have hne : y ≠ x := by grind [removeItem_subscribers]
    have hkept : y ∈ context'.subscribers.erase x := (List.mem_erase_of_ne hne).2 hy
    have hsome : (context'.subscribers.erase x).isEmpty = false := by
      simp [List.ne_nil_of_mem hkept]
    by_cases hq : q = r
    · subst hq
      exact ⟨{ context' with subscribers := context'.subscribers.erase x },
        by simp [State.removeItem, hcontext', hsome], hkept⟩
    · refine ⟨context', ?_, hy⟩
      unfold State.removeItem
      split <;> simp [hq, hcontext']

theorem putCompletion_keeps (s : State R) (x : Nat) (r : R) : Keeps s (s.putCompletion x r) := by
  unfold State.putCompletion
  have hcompleted : Keeps s
      { s with subscribers := s.subscribers.modify x ({ · with live := false }) } :=
    Keeps.modify s x (fun _ => rfl) fun _ hno => by cases hno
  refine hcompleted.trans (removeItem_keeps _ x r ?_)
  intro subscriber hx
  dsimp only at hx
  rw [List.getElem?_modify_eq] at hx
  obtain ⟨subscriber, _, rfl⟩ := Option.map_eq_some_iff.1 hx
  rfl

theorem subscriberItem_keeps (s : State R) (status : Status) (x : Nat) :
    Keeps s (s.subscriberItem status x) := by
  unfold State.subscriberItem
  split
  · exact Keeps.refl s
  · split
    · dsimp only
      split
      · exact (putNext_keeps s x status).trans (putCompletion_keeps _ x _)
      · exact putNext_keeps s x status
    · exact Keeps.refl s

theorem announce_keeps (status : Status) (xs : List Nat) :
    ∀ s : State R, Keeps s (s.announce status xs) := by
  induction xs with
  | nil => intro s; exact Keeps.refl s
  | cons x xs ih => intro s; exact (subscriberItem_keeps s status x).trans (ih _)

/-- A subscriber that was told a status. -/
def Subscriber.told (status : Status) (subscriber : Subscriber R) : Subscriber R :=
  { subscriber with last := some status, live := status ≠ .statusLocal }

theorem subscriberItem_subscribers (s : State R) (status : Status) (x y : Nat) :
    (s.subscriberItem status x).subscribers[y]? = s.subscribers[y]?.map fun subscriber =>
      if y = x ∧ subscriber.live then subscriber.told status else subscriber := by
  unfold State.subscriberItem
  cases hx : s.subscribers[x]? with
  | none => grind
  | some subscriber =>
    by_cases hy : y = x <;>
      grind [State.putCompletion, removeItem_subscribers, State.putNext, Subscriber.told]

/-- What the loop tells the subscribers. -/
theorem announce_subscribers (status : Status) (xs : List Nat) (y : Nat) :
    ∀ s : State R, (s.announce status xs).subscribers[y]? = s.subscribers[y]?.map fun subscriber =>
      if y ∈ xs ∧ subscriber.live then subscriber.told status else subscriber := by
  induction xs with
  | nil => intro s; simp [State.announce]
  | cons x xs ih =>
    intro s
    have hstep : s.announce status (x :: xs) = (s.subscriberItem status x).announce status xs :=
      rfl
    rw [hstep, ih, subscriberItem_subscribers, Option.map_map]
    congr 1
    grind [Subscriber.told]

section Subscribe

variable {s : State R} {x : Nat} {subscriber : Subscriber R}

/-- The context of a resource with one more subscriber. -/
def State.addItem (s : State R) (x : Nat) (r : R) : State R :=
  { s with
    statusContexts :=
      Function.update s.statusContexts r
        (some { (s.statusContexts r).getD {} with
          subscribers := ((s.statusContexts r).getD {}).subscribers ++ [x] }) }

/-- The steps of the block. -/
theorem subscribe_eq (hx : s.subscribers[x]? = some subscriber) :
    s.subscribe x =
      let s' := match s.kept subscriber.resource with
        | some status => (s.addItem x subscriber.resource).putNext x status
        | none => { s.addItem x subscriber.resource with
            dataQueue := s.dataQueue ++ [DataBlock.status subscriber.resource] }
      if subscriber.live then
        { s' with subscribers := s'.subscribers.modify x ({ · with disposable := true }) }
      else s'.removeItem x subscriber.resource := by
  unfold State.subscribe
  rw [hx, ← kept_getD]
  rfl

theorem subscribe_subscribers (hx : s.subscribers[x]? = some subscriber) (y : Nat) :
    (s.subscribe x).subscribers[y]? = s.subscribers[y]?.map fun old =>
      if y = x ∧ old.live then
        { old with last := (s.kept subscriber.resource).or old.last, disposable := true }
      else old := by
  rw [subscribe_eq hx]
  cases s.kept subscriber.resource <;>
    grind [removeItem_subscribers, State.putNext, State.addItem]

theorem subscribe_keeps (hx : s.subscribers[x]? = some subscriber) :
    Keeps (s.addItem x subscriber.resource) (s.subscribe x) := by
  rw [subscribe_eq hx]
  have hfirst : Keeps (s.addItem x subscriber.resource) (match s.kept subscriber.resource with
        | some status => (s.addItem x subscriber.resource).putNext x status
        | none => { s.addItem x subscriber.resource with
            dataQueue := s.dataQueue ++ [DataBlock.status subscriber.resource] }) := by
    cases s.kept subscriber.resource with
    | some status => exact putNext_keeps _ x status
    | none =>
      exact {
        data := ⟨rfl, rfl, rfl, rfl, rfl, fun _ hb => List.mem_append_left _ hb⟩
        subscribers := fun _ old hold => ⟨old, hold, rfl, id⟩
        length := rfl
        contexts := fun _ context hcontext => ⟨context, hcontext, rfl, fun _ hin => hin⟩
        holds := fun _ _ _ hholds _ _ => hholds }
  dsimp only
  split
  · exact hfirst.trans (Keeps.modify _ x (fun _ => rfl) fun _ hlive => hlive)
  · rename_i hdead
    refine hfirst.trans (removeItem_keeps _ x _ fun old hold => ?_)
    obtain ⟨before, hbefore, _, hlive⟩ := hfirst.subscribers x old hold
    have hsame : before = subscriber := Option.some.inj (hbefore.symm.trans hx)
    subst hsame
    cases hl : old.live with
    | false => rfl
    | true => exact absurd (hlive hl) hdead

theorem subscribe_asks (hx : s.subscribers[x]? = some subscriber)
    (hkept : s.kept subscriber.resource = none) :
    DataBlock.status subscriber.resource ∈ (s.subscribe x).dataQueue := by
  rw [subscribe_eq hx, hkept]
  dsimp only
  split
  · simp
  · unfold State.removeItem
    split <;> simp

end Subscribe

theorem performStatus_data (s : State R) (block : StatusBlock R) :
    SameData s (s.performStatus block) := by
  have hset : ∀ r context status, SameData s (s.setStatus r context status) := by
    intro r context status
    have hkept : SameData s { s with
        statusContexts :=
          Function.update s.statusContexts r (some { context with status := some status }) } :=
      ⟨rfl, rfl, rfl, rfl, rfl, fun _ h => h⟩
    exact hkept.trans (announce_keeps status context.subscribers _).data
  cases block with
  | subscribe x =>
    show SameData s (s.subscribe x)
    cases hx : s.subscribers[x]? with
    | none =>
      unfold State.subscribe
      rw [hx]
      exact SameData.refl s
    | some subscriber =>
      have hadded : SameData s (s.addItem x subscriber.resource) :=
        ⟨rfl, rfl, rfl, rfl, rfl, fun _ h => h⟩
      exact hadded.trans (subscribe_keeps hx).data
  | progress r status =>
    have hannounce := fun (context : Context) => (announce_keeps status context.subscribers s).data
    grind [State.performStatus, SameData.refl]
  | _ => grind [State.performStatus, SameData.refl, removeItem_data]

section Cache

variable {b : Box R} (contents : R → Data)

/-- A fetch is dropped with its last subscriber. -/
def Wanted (b : Box R) : Prop := ∀ r, b.fetchSubscribers r = [] → b.fetchDisposable r = none

theorem dropFetch_fetches (r : R) :
    (b.dropFetch r).fetchSubscribers = b.fetchSubscribers ∧
      (b.dropFetch r).fetchDisposable = Function.update b.fetchDisposable r none := by
  unfold Box.dropFetch Box.disposeFetch Box.closeFile
  cases hr : b.fetchDisposable r <;> grind

theorem Wanted.dropFetch {r : R}
    (h : ∀ q ≠ r, b.fetchSubscribers q = [] → b.fetchDisposable q = none) :
    Wanted (b.dropFetch r) := by
  intro q hq
  rw [(dropFetch_fetches r).1] at hq
  rw [(dropFetch_fetches r).2]
  grind [h q]

theorem Wanted.removeSubscriber (h : Wanted b) (x : Nat) (r : R) :
    Wanted (b.removeSubscriber x r) := by
  unfold Box.removeSubscriber
  dsimp only
  split
  · exact Wanted.dropFetch (by grind [Wanted])
  · intro q hq
    grind [h q]

theorem Wanted.perform (h : Wanted b) (cached : Bool) (block : Block R) :
    Wanted (b.perform contents cached block) := by
  cases block with
  | fetchedResource x r =>
    have hadded : Wanted ((b.addSubscriber x r).ensureFetch contents r cached) := by
      intro q hq
      rw [ensureFetch_fetchSubscribers] at hq
      simp only [Box.addSubscriber, Function.update_apply] at hq
      have hother : q ≠ r := by
        rintro rfl
        simp at hq
      rw [if_neg hother] at hq
      unfold Box.ensureFetch
      split
      · exact (Function.update_of_ne hother _ _).trans (h q hq)
      · exact h q hq
    simp only [Box.perform, Box.fetchedResource, Box.setDisposable]
    split
    · exact h
    · split
      · exact hadded.removeSubscriber x r
      · exact hadded
  | dispose x r => exact h.removeSubscriber x r
  | cancel r => exact Wanted.dropFetch fun q _ => h q
  | _ =>
    intro q
    have hq := h q
    simp only [Box.perform, Box.result, Box.openFile, Box.write, Box.link, Box.closeFile]
    grind

theorem Wanted.step (h : Wanted b) (event : MediaBox.Event R) :
    Wanted (MediaBox.step contents b event) := by
  cases event with
  | perform cached =>
    simp only [MediaBox.step]
    split
    · exact h
    · next block dataQueue _ =>
        exact Wanted.perform (b := { b with dataQueue }) contents h cached block
  | restart => exact fun _ _ => rfl
  | _ =>
    intro q
    have hq := h q
    simp only [MediaBox.step, Box.deliver, Box.finish, Box.enqueue]
    grind

/-- The event of `MediaBox` that an event is, unless it concerns the statuses or a queue. -/
def boxEvent? : Event R → Option (MediaBox.Event R)
  | .fetchedResource r => some (.fetchedResource r)
  | .disposeFetch subscriber => some (.dispose subscriber)
  | .cancelInteractiveResourceFetch r => some (.cancelInteractiveResourceFetch r)
  | .deliver f length => some (.deliver f length)
  | .finish f => some (.finish f)
  | _ => none

/-- The cache takes the event of `MediaBox`, or runs the first block of its queue, or stays. -/
def State.cacheStep (s : State R) (event : Event R) : Box R :=
  match boxEvent? event with
  | some e => { MediaBox.step contents s.box e with dataQueue := [] }
  | none =>
    match event, s.dataQueue with
    | .runData cached, .box block :: _ => s.box.perform contents cached block
    | _, _ => s.box

theorem step_box {s : State R} (h : Wanted s.box) (event : Event R) :
    (step contents s event).box = s.cacheStep contents event := by
  cases event with
  | resourceStatus r => rfl
  | dispose x =>
    simp only [step, State.dispose, State.notify, State.cacheStep, boxEvent?]
    grind
  | concurrent position =>
    simp only [step, State.concurrent, State.look, State.putNext, State.notify,
      State.cacheStep, boxEvent?]
    grind
  | runStatus =>
    simp only [step, State.cacheStep, boxEvent?]
    split
    · rfl
    · exact (performStatus_data _ _).box
  | runData cached =>
    simp only [step, State.cacheStep, boxEvent?]
    cases s.dataQueue with
    | nil => rfl
    | cons block rest =>
      cases block with
      | box block => exact perform_box _ _ cached block h
      | status r => rfl
  | _ => rfl

/-- In every run, what the statuses do to the cache are steps of `MediaBox`. -/
theorem cache_steps (partialFile : R → Option Data) (complete : R → Bool)
    (events : List (Event R)) (event : Event R) :
    let s := run (step contents) (start partialFile complete) events
    (step contents s event).box = s.cacheStep contents event := by
  have hstep (s : State R) (event : Event R) (h : Wanted s.box) :
      Wanted (step contents s event).box := by
    rw [step_box contents h]
    unfold State.cacheStep
    split
    · exact h.step contents _
    · split
      · exact h.perform contents _ _
      · exact h
  exact step_box contents (run_invariant hstep events _ fun _ _ => rfl) event

end Cache

end TelegramPub.Ports.ResourceStatus
