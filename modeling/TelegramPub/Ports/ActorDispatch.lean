import TelegramPub.Ports.ActorLookups

/-!
# Dispatch to watchers

`dispatchResource:` tells the watchers of a path and then those of its generic path;
`dispatchMessageToWatchers:` tells the watchers of a request and then those of messages.
The callbacks run inside the loops, and may register or remove watchers there.  Three of the
four loops go through a copy.  The loop over the watchers of the generic path goes through
the array of `_liveNodeWatchers` itself, and raises an exception when it has been modified.

As in `ActorRequests`, what is left to do of the running functions is a stack.  Of the
requests only their watchers matter here; when a request is made, ends, or loses its last
watcher, the actor's code runs.  A watcher that does not respond is one whose callback does
nothing.
-/

namespace TelegramPub.Ports.ActorDispatch

open Verified.Machine
open Ports.ActorRequests (Path Handle)
open Ports.ActorLookups (genericStringForParametrizedPath)

/-- An `NSMutableArray` of `_liveNodeWatchers`, and how often it was modified. -/
structure WatcherArray where
  handles : List Handle := []
  mutations : Nat := 0

/-- What is left to do of a running function. -/
inductive Instruction where
  /-- User code is running. -/
  | callback
  /-- The two loops of `dispatchResource:` -/
  | deliver (path : Path)
  | deliverGeneric (genericPath : Path)
  /-- The two loops of `dispatchMessageToWatchers:` -/
  | deliverToRequest (path : Path)
  | deliverMessage (genericPath : Path)
  /-- The rest of a loop over a copy. -/
  | visit (delivery : Nat) (rest : List Handle)
  /-- The rest of a loop over an array that had been modified so often at its start. -/
  | visitLive (delivery : Nat) (array : Nat) (mutations : Nat) (rest : List Handle)
  /-- `addObject:`, perhaps only if the array does not contain the handle -/
  | addWatcher (onlyNew : Bool) (key : Path) (handle : Handle)
  | removeWatcher (handle : Handle) (key : Path)
  | removeMessagesWatcher (handle : Handle) (key : Path)
  /-- The active requests, in `removeWatcherByHandle:` -/
  | leaveRequests (handle : Handle) (keys : List Path)
  /-- The other tables. -/
  | leaveTables (handle : Handle)

/-- A loop over watchers, and the watchers that are registered when it starts. -/
structure Delivery where
  key : Path
  watchers : List Handle

/-- A turn of a loop; the watcher is called if its delegate is still there. -/
structure Visit where
  delivery : Nat
  handle : Handle
  called : Bool

/-- `ActionStage`, and what happened.  The arrays of `_liveNodeWatchers` are objects. -/
structure Stage where
  liveNodeWatchers : AList fun _ : Path => Nat := ∅
  arrays : Nat → WatcherArray := fun _ => {}
  nextArray : Nat := 0
  actorMessagesWatchers : AList fun _ : Path => List Handle := ∅
  /-- The watchers of the active requests. -/
  activeRequests : AList fun _ : Path => List Handle := ∅
  withoutDelegate : List Handle := []
  stack : List Instruction := []
  raised : Bool := false
  deliveries : List Delivery := []
  visits : List Visit := []

def initial : Stage := {}

abbrev Rest := Stage × List Instruction

/-! ## Watchers of paths -/

def setArray (s : Stage) (array : Nat) (content : WatcherArray) : Stage :=
  { s with arrays := fun a => if a = array then content else s.arrays a }

/-- `watchForPath:watcher:` adds a new handle only, `watchForGenericPath:watcher:` any. -/
def addWatcher (s : Stage) (onlyNew : Bool) (key : Path) (handle : Handle) : Stage :=
  match s.liveNodeWatchers.lookup key with
  | none =>
    setArray
      { s with
        liveNodeWatchers := s.liveNodeWatchers.insert key s.nextArray
        nextArray := s.nextArray + 1 }
      s.nextArray { handles := [handle], mutations := 1 }
  | some array =>
    let watchers := s.arrays array
    if onlyNew ∧ handle ∈ watchers.handles then s
    else
      setArray s array
        { handles := watchers.handles ++ [handle], mutations := watchers.mutations + 1 }

/-- One key of `_liveNodeWatchers`, when a watcher is removed. -/
def removeWatcher (s : Stage) (handle : Handle) (key : Path) : Stage :=
  match s.liveNodeWatchers.lookup key with
  | none => s
  | some array =>
    let watchers := s.arrays array
    let left := watchers.handles.filter (· ≠ handle)
    let s :=
      if handle ∈ watchers.handles then
        setArray s array { handles := left, mutations := watchers.mutations + 1 }
      else s
    if left.isEmpty then { s with liveNodeWatchers := s.liveNodeWatchers.erase key } else s

/-- `watchForMessagesToWatchersAtGenericPath:watcher:`. -/
def watchForMessages (s : Stage) (genericPath : Path) (handle : Handle) : Stage :=
  let watchers := (s.actorMessagesWatchers.lookup genericPath).getD []
  { s with
    actorMessagesWatchers := s.actorMessagesWatchers.insert genericPath (watchers ++ [handle]) }

/-- One key of `_actorMessagesWatchers`, when a watcher is removed. -/
def removeMessagesWatcher (s : Stage) (handle : Handle) (key : Path) : Stage :=
  let watchers := ((s.actorMessagesWatchers.lookup key).getD []).filter (· ≠ handle)
  { s with
    actorMessagesWatchers :=
      if watchers.isEmpty then s.actorMessagesWatchers.erase key
      else s.actorMessagesWatchers.insert key watchers }

/-- A request is made or joined. -/
def requestActor (s : Stage) (path : Path) (handle : Handle) : Stage :=
  let watchers := (s.activeRequests.lookup path).getD []
  { s with
    activeRequests := s.activeRequests.insert path
      (if handle ∈ watchers then watchers else watchers ++ [handle]) }

/-- The active requests lose a watcher.  Without any they are cancelled. -/
def leaveRequests (s : Stage) (handle : Handle) : List Path → Rest
  | [] => (s, [])
  | key :: keys =>
    match s.activeRequests.lookup key with
    | none => (s, [.leaveRequests handle keys])
    | some watchers =>
      let watchers := watchers.filter (· ≠ handle)
      if watchers.isEmpty then
        ({ s with activeRequests := s.activeRequests.erase key },
          [.callback, .leaveRequests handle keys])
      else
        ({ s with activeRequests := s.activeRequests.insert key watchers },
          [.leaveRequests handle keys])

def startDelivery (s : Stage) (key : Path) (watchers : List Handle) : Stage :=
  { s with deliveries := s.deliveries ++ [⟨key, watchers⟩] }

/-- A loop over a copy. -/
def deliverCopy (s : Stage) (key : Path) (watchers : List Handle) : Rest :=
  (startDelivery s key watchers, [.visit s.deliveries.length watchers])

/-- The handles of an array of `_liveNodeWatchers`. -/
def registered (s : Stage) (key : Path) : List Handle :=
  match s.liveNodeWatchers.lookup key with
  | none => []
  | some array => (s.arrays array).handles

/-- The loop over the watchers of the generic path. -/
def deliverGeneric (s : Stage) (genericPath : Path) : Rest :=
  (startDelivery s genericPath (registered s genericPath),
    match s.liveNodeWatchers.lookup genericPath with
    | none => []
    | some array =>
      [.visitLive s.deliveries.length array (s.arrays array).mutations
        (s.arrays array).handles])

/-- The turn of a watcher. -/
def visit (s : Stage) (delivery : Nat) (handle : Handle) (next : Instruction) : Rest :=
  let called := handle ∉ s.withoutDelegate
  ({ s with visits := s.visits ++ [⟨delivery, handle, called⟩] },
    if called then [.callback, next] else [next])

inductive Event where
  | watchForPaths (paths : List Path) (handle : Handle)
  | watchForGenericPath (path : Path) (handle : Handle)
  | watchForMessages (genericPath : Path) (handle : Handle)
  /-- The keys are those of `_activeRequests`, in some order. -/
  | removeWatcher (handle : Handle) (keys : List Path)
  | removeWatcherFromPath (handle : Handle) (path : Path)
  | requestActor (path : Path) (handle : Handle)
  /-- The actor reports, or all watchers of the path are removed. -/
  | requestEnds (path : Path)
  | dispatchResource (path : Path)
  | dispatchMessageToWatchers (path : Path)
  /-- The watcher is gone. -/
  | reset (handle : Handle)
  /-- A callback returns. -/
  | returns
  /-- The running function goes on. -/
  | continues

/-- What user code does. -/
def userStep (s : Stage) : Event → Rest
  | .watchForPaths paths handle => (s, paths.map (.addWatcher true · handle))
  | .watchForGenericPath path handle =>
    (s, [.addWatcher false (genericStringForParametrizedPath path) handle])
  | .watchForMessages genericPath handle => (watchForMessages s genericPath handle, [])
  | .removeWatcher handle keys =>
    if keys.Perm s.activeRequests.keys then
      (s, [.leaveRequests handle keys, .leaveTables handle])
    else (s, [])
  | .removeWatcherFromPath handle path =>
    (s, [.leaveRequests handle [path], .removeWatcher handle path,
      .removeMessagesWatcher handle path])
  | .requestActor path handle => (requestActor s path handle, [.callback])
  | .requestEnds path =>
    ({ s with activeRequests := s.activeRequests.erase path }, [.callback])
  | .dispatchResource path =>
    let genericPath := genericStringForParametrizedPath path
    (s, .deliver path :: if genericPath ≠ path then [.deliverGeneric genericPath] else [])
  | .dispatchMessageToWatchers path =>
    (s, [.deliverToRequest path, .deliverMessage (genericStringForParametrizedPath path)])
  | .reset handle => ({ s with withoutDelegate := handle :: s.withoutDelegate }, [])
  | .returns | .continues => (s, [])

/-- One instruction. -/
def perform (s : Stage) : Instruction → Rest
  | .callback => (s, [])
  | .deliver path => deliverCopy s path (registered s path)
  | .deliverGeneric genericPath => deliverGeneric s genericPath
  | .deliverToRequest path => deliverCopy s path ((s.activeRequests.lookup path).getD [])
  | .deliverMessage genericPath =>
    deliverCopy s genericPath ((s.actorMessagesWatchers.lookup genericPath).getD [])
  | .visit _ [] => (s, [])
  | .visit delivery (handle :: rest) => visit s delivery handle (.visit delivery rest)
  | .visitLive _ _ _ [] => (s, [])
  | .visitLive delivery array mutations (handle :: rest) =>
    if (s.arrays array).mutations = mutations then
      visit s delivery handle (.visitLive delivery array mutations rest)
    else ({ s with raised := true }, [])
  | .addWatcher onlyNew key handle => (addWatcher s onlyNew key handle, [])
  | .removeWatcher handle key => (removeWatcher s handle key, [])
  | .removeMessagesWatcher handle key => (removeMessagesWatcher s handle key, [])
  | .leaveRequests handle keys => leaveRequests s handle keys
  | .leaveTables handle =>
    (s, s.liveNodeWatchers.keys.map (.removeWatcher handle) ++
      s.actorMessagesWatchers.keys.map (.removeMessagesWatcher handle))

/-- The rest of a function goes on the stack. -/
def push (rest : Rest) : Stage := { rest.1 with stack := rest.2 ++ rest.1.stack }

/-- After an exception nothing goes on.  User code runs when nothing else does. -/
def step (s : Stage) (event : Event) : Stage :=
  if s.raised then s
  else
    match event, s.stack with
    | .returns, .callback :: stack => { s with stack }
    | .returns, _ => s
    | .continues, .callback :: _ => s
    | .continues, [] => s
    | .continues, instruction :: stack => push (perform { s with stack } instruction)
    | event, [] => push (userStep s event)
    | event, .callback :: _ => push (userStep s event)
    | _, _ => s

/-- What a step does: nothing, a return, an instruction, or what user code does. -/
theorem step_cases (s : Stage) (event : Event) :
    step s event = s ∨
    (∃ stack, s.stack = .callback :: stack ∧ step s event = { s with stack }) ∨
    (∃ instruction stack, event = .continues ∧ s.stack = instruction :: stack ∧
      step s event = push (perform { s with stack } instruction)) ∨
    step s event = push (userStep s event) := by
  unfold step
  split
  · exact .inl rfl
  · grind

/-- The watchers that a loop has still to call. -/
def Instruction.pendingFor (delivery : Nat) : Instruction → List Handle
  | .visit d rest => if d = delivery then rest else []
  | .visitLive d _ _ rest => if d = delivery then rest else []
  | _ => []

def pending (s : Stage) (delivery : Nat) : List Handle :=
  s.stack.flatMap (Instruction.pendingFor delivery)

def visited (s : Stage) (delivery : Nat) : List Handle :=
  (s.visits.filter (·.delivery = delivery)).map (·.handle)

/-- A loop goes through the array. -/
def Enumerated (s : Stage) (array : Nat) : Prop :=
  ∃ delivery mutations rest, .visitLive delivery array mutations rest ∈ s.stack

/-- Deliveries work on snapshots: no array has been modified since the loop over it began,
and each loop goes through the watchers that were registered when it began, and calls all
of them whose delegates are there. -/
structure Snapshots (s : Stage) : Prop where
  notRaised : s.raised = false
  unmodified : ∀ delivery array mutations rest,
    .visitLive delivery array mutations rest ∈ s.stack → (s.arrays array).mutations = mutations
  delivered : ∀ d delivery, s.deliveries[d]? = some delivery →
    visited s d ++ pending s d = delivery.watchers
  called : ∀ v ∈ s.visits, v.handle ∉ s.withoutDelegate → v.called = true

/-- The next instruction neither adds a watcher to an array nor removes one from it while a
loop goes through it. -/
def LeavesEnumerated (s : Stage) : Event → Prop
  | .continues =>
    match s.stack with
    | .addWatcher onlyNew key handle :: _ =>
      ∀ array, s.liveNodeWatchers.lookup key = some array → Enumerated s array →
        onlyNew = true ∧ handle ∈ (s.arrays array).handles
    | .removeWatcher handle key :: _ =>
      ∀ array, s.liveNodeWatchers.lookup key = some array → Enumerated s array →
        handle ∉ (s.arrays array).handles
    | _ => True
  | _ => True

/-- With the bounds of the numbers of arrays and deliveries. -/
structure Dispatching (s : Stage) : Prop extends Snapshots s where
  stored : ∀ key array, s.liveNodeWatchers.lookup key = some array → array < s.nextArray
  enumerated : ∀ array, Enumerated s array → array < s.nextArray
  fresh : ∀ d, s.deliveries.length ≤ d → visited s d = [] ∧ pending s d = []

theorem dispatching_initial : Dispatching initial where
  notRaised := rfl
  unmodified := by simp [initial]
  delivered := by simp [initial]
  called := by simp [initial]
  stored := by simp [initial]
  enumerated := by simp [Enumerated, initial]
  fresh := by simp [visited, pending, initial]

/-! ### What keeps it -/

section Keeps

variable {s : Stage}

/-- The instruction is a loop over watchers. -/
def Instruction.isLoop : Instruction → Bool
  | .visit _ _ | .visitLive _ _ _ _ => true
  | _ => false

variable {i : Instruction}

theorem pendingFor_of_not_isLoop (hi : i.isLoop = false) (d : Nat) :
    i.pendingFor d = [] := by
  cases i with
  | visit delivery rest => cases hi
  | visitLive delivery array mutations rest => cases hi
  | _ => rfl

/-- Instructions without pending watchers are replaced by others that are no loops. -/
theorem Dispatching.withStack (h : Dispatching s) {front front' stack : List Instruction}
    (hstack : s.stack = front ++ stack) (hfront : ∀ i ∈ front, ∀ d, i.pendingFor d = [])
    (hfront' : ∀ i ∈ front', i.isLoop = false) :
    Dispatching { s with stack := front' ++ stack } := by
  have hpending : ∀ d, pending { s with stack := front' ++ stack } d = pending s d := by
    intro d
    have hnone : front.flatMap (Instruction.pendingFor d) = [] :=
      List.flatMap_eq_nil_iff.2 fun i hi => hfront i hi d
    have hnone' : front'.flatMap (Instruction.pendingFor d) = [] :=
      List.flatMap_eq_nil_iff.2 fun i hi => pendingFor_of_not_isLoop (hfront' i hi) d
    unfold pending
    rw [hstack, List.flatMap_append, List.flatMap_append, hnone, hnone']
  have hlive : ∀ {d a n rest}, .visitLive d a n rest ∈ front' ++ stack →
      .visitLive d a n rest ∈ s.stack := by
    intro d a n rest hmem
    rw [hstack]
    rcases List.mem_append.1 hmem with hmem | hmem
    · cases hfront' _ hmem
    · exact List.mem_append_right _ hmem
  exact
    { h with
      unmodified := fun d a n rest hmem => h.unmodified d a n rest (hlive hmem)
      delivered := fun d delivery hd => by rw [hpending]; exact h.delivered d delivery hd
      enumerated := fun a ⟨d, n, rest, hmem⟩ => h.enumerated a ⟨d, n, rest, hlive hmem⟩
      fresh := fun d hd => by rw [hpending]; exact h.fresh d hd }

/-- Arrays that no loop goes through are modified. -/
theorem Dispatching.modify (h : Dispatching s) {s' : Stage} (hraised : s'.raised = s.raised)
    (hstack : s'.stack = s.stack) (hdeliveries : s'.deliveries = s.deliveries)
    (hvisits : s'.visits = s.visits) (hdelegates : s'.withoutDelegate = s.withoutDelegate)
    (hnext : s.nextArray ≤ s'.nextArray)
    (hstored : ∀ key array, s'.liveNodeWatchers.lookup key = some array → array < s'.nextArray)
    (hsame : ∀ array, Enumerated s array → s'.arrays array = s.arrays array) :
    Dispatching s' where
  notRaised := hraised ▸ h.notRaised
  unmodified := by
    intro d a n rest hmem
    rw [hstack] at hmem
    rw [hsame a ⟨d, n, rest, hmem⟩]
    exact h.unmodified d a n rest hmem
  delivered := by
    intro d delivery hd
    rw [hdeliveries] at hd
    unfold visited pending
    rw [hvisits, hstack]
    exact h.delivered d delivery hd
  called := by
    rw [hvisits, hdelegates]
    exact h.called
  stored := hstored
  enumerated := by
    rintro a ⟨d, n, rest, hmem⟩
    rw [hstack] at hmem
    exact (h.enumerated a ⟨d, n, rest, hmem⟩).trans_le hnext
  fresh := by
    intro d hd
    rw [hdeliveries] at hd
    unfold visited pending
    rw [hvisits, hstack]
    exact h.fresh d hd

/-- A loop begins; without an array there are no watchers, and no loop. -/
theorem Dispatching.start (h : Dispatching s) (key : Path) (watchers : List Handle)
    {front : List Instruction}
    (hpending : ∀ d, front.flatMap (Instruction.pendingFor d) =
      if d = s.deliveries.length then watchers else [])
    (hlive : ∀ d a n rest, .visitLive d a n rest ∈ front →
      (s.arrays a).mutations = n ∧ a < s.nextArray) :
    Dispatching (push (startDelivery s key watchers, front)) where
  notRaised := h.notRaised
  unmodified := by
    intro d a n rest hmem
    rcases List.mem_append.1 hmem with hmem | hmem
    · exact (hlive d a n rest hmem).1
    · exact h.unmodified d a n rest hmem
  delivered := by
    intro d delivery hd
    have hsplit : pending (push (startDelivery s key watchers, front)) d =
        (if d = s.deliveries.length then watchers else []) ++ pending s d := by
      rw [← hpending d]
      exact List.flatMap_append
    rw [hsplit]
    show visited s d ++ _ = _
    have hd : (s.deliveries ++ [⟨key, watchers⟩])[d]? = some delivery := hd
    by_cases hlast : d = s.deliveries.length
    · subst hlast
      rw [List.getElem?_concat_length] at hd
      cases hd
      obtain ⟨hvisited, hpending⟩ := h.fresh s.deliveries.length (le_refl _)
      rw [hvisited, hpending, if_pos rfl]
      simp
    · have hlt : d < s.deliveries.length := by
        have := (List.getElem?_eq_some_iff.1 hd).1
        rw [List.length_append, List.length_singleton] at this
        omega
      rw [List.getElem?_append_left hlt] at hd
      rw [if_neg hlast]
      exact h.delivered d delivery hd
  called := h.called
  stored := h.stored
  enumerated := by
    rintro a ⟨d, n, rest, hmem⟩
    rcases List.mem_append.1 hmem with hmem | hmem
    · exact (hlive d a n rest hmem).2
    · exact h.enumerated a ⟨d, n, rest, hmem⟩
  fresh := by
    intro d hd
    have hd : (s.deliveries ++ [Delivery.mk key watchers]).length ≤ d := hd
    rw [List.length_append, List.length_singleton] at hd
    obtain ⟨hvisited, hold⟩ := h.fresh d (by omega)
    refine ⟨hvisited, ?_⟩
    show (front ++ s.stack).flatMap _ = []
    rw [List.flatMap_append, hpending d, if_neg (by omega)]
    exact hold

theorem Dispatching.deliverCopy (h : Dispatching s) (key : Path) (watchers : List Handle) :
    Dispatching (push (deliverCopy s key watchers)) := by
  refine h.start key watchers (fun d => ?_) (by simp)
  by_cases hd : d = s.deliveries.length
  · simp [Instruction.pendingFor, hd]
  · have hne : ¬ s.deliveries.length = d := fun heq => hd heq.symm
    simp [Instruction.pendingFor, hd, hne]

theorem Dispatching.deliverGeneric (h : Dispatching s) (genericPath : Path) :
    Dispatching (push (deliverGeneric s genericPath)) := by
  unfold ActorDispatch.deliverGeneric registered
  cases hlookup : s.liveNodeWatchers.lookup genericPath with
  | none => exact h.start genericPath [] (by simp) (by simp)
  | some array =>
    refine h.start genericPath _ (fun d => ?_) ?_
    · grind [Instruction.pendingFor]
    · intro d a n rest hmem
      cases List.mem_singleton.1 hmem
      exact ⟨rfl, h.stored genericPath array hlookup⟩

variable {handle : Handle}

variable {stack : List Instruction}

/-- A turn: the first pending watcher of a loop is visited. -/
theorem Dispatching.visit (h : Dispatching s) {next : Instruction}
    {delivery : Nat} {rest : List Handle} (hstack : s.stack = i :: stack)
    (hi : ∀ d, i.pendingFor d = if delivery = d then handle :: rest else [])
    (hnext : ∀ d, next.pendingFor d = if delivery = d then rest else [])
    (hlive : ∀ d a n rest, next = .visitLive d a n rest → ∃ rest', i = .visitLive d a n rest') :
    Dispatching (push (visit { s with stack } delivery handle next)) := by
  have hpending : ∀ d, pending (push (ActorDispatch.visit { s with stack } delivery handle next)) d =
      (if delivery = d then rest else []) ++ stack.flatMap (Instruction.pendingFor d) := by
    intro d
    rw [← hnext d]
    unfold pending push ActorDispatch.visit
    dsimp only
    split <;> simp [Instruction.pendingFor]
  have hbefore : ∀ d, pending s d =
      (if delivery = d then handle :: rest else []) ++ stack.flatMap (Instruction.pendingFor d) := by
    intro d
    rw [← hi d]
    unfold pending
    rw [hstack]
    rfl
  have hvisited : ∀ d, visited (push (ActorDispatch.visit { s with stack } delivery handle next)) d =
      visited s d ++ if delivery = d then [handle] else [] := by
    intro d
    show ((s.visits ++ [_]).filter _).map _ = _
    rw [List.filter_append, List.map_append]
    by_cases hd : delivery = d <;> simp [visited, hd]
  have hmember : ∀ {d a n rest},
      .visitLive d a n rest ∈ (push (ActorDispatch.visit { s with stack } delivery handle next)).stack →
      ∃ rest', .visitLive d a n rest' ∈ s.stack := by
    intro d a n rest hmem
    have hcases : .visitLive d a n rest = next ∨ .visitLive d a n rest ∈ stack := by
      unfold push ActorDispatch.visit at hmem
      dsimp only at hmem
      split at hmem <;> simpa using hmem
    rw [hstack]
    rcases hcases with hnext | hold
    · obtain ⟨rest', hi⟩ := hlive d a n rest hnext.symm
      exact ⟨rest', by rw [hi]; exact .head _⟩
    · exact ⟨rest, List.mem_cons_of_mem i hold⟩
  exact
    { h with
      unmodified := by
        intro d a n rest hmem
        obtain ⟨rest', hold⟩ := hmember hmem
        exact h.unmodified d a n rest' hold
      delivered := by
        intro d other hd
        have hall := h.delivered d other hd
        rw [hbefore] at hall
        rw [hpending, hvisited, ← hall]
        by_cases hdelivery : delivery = d <;> simp [hdelivery]
      called := by
        intro v hv hthere
        have hv : v ∈ s.visits ++ [⟨delivery, handle, handle ∉ s.withoutDelegate⟩] := hv
        rcases List.mem_append.1 hv with hv | hv
        · exact h.called v hv hthere
        · cases List.mem_singleton.1 hv
          exact decide_eq_true hthere
      enumerated := by
        rintro a ⟨d, n, rest, hmem⟩
        obtain ⟨rest', hold⟩ := hmember hmem
        exact h.enumerated a ⟨d, n, rest', hold⟩
      fresh := by
        intro d hd
        obtain ⟨hold, hnone⟩ := h.fresh d hd
        rw [hbefore] at hnone
        rw [hvisited, hpending, hold]
        by_cases hdelivery : delivery = d
        · simp [hdelivery] at hnone
        · simpa [hdelivery] using hnone }

/-! ### The arrays -/

variable {onlyNew : Bool} {key : Path} {array : Nat}

theorem arrays_addWatcher (hlt : array < s.nextArray)
    (hkeeps : s.liveNodeWatchers.lookup key = some array →
      onlyNew = true ∧ handle ∈ (s.arrays array).handles) :
    (addWatcher s onlyNew key handle).arrays array = s.arrays array := by
  unfold addWatcher
  cases hlookup : s.liveNodeWatchers.lookup key with
  | none => exact if_neg hlt.ne
  | some other =>
    dsimp only
    split
    · rfl
    · rename_i hadds
      refine if_neg ?_
      rintro rfl
      exact hadds (hkeeps hlookup)

theorem mutations_addWatcher (hlookup : s.liveNodeWatchers.lookup key = some array)
    (hadds : ¬ (onlyNew = true ∧ handle ∈ (s.arrays array).handles)) :
    ((addWatcher s onlyNew key handle).arrays array).mutations =
      (s.arrays array).mutations + 1 := by
  unfold addWatcher
  rw [hlookup]
  dsimp only
  rw [if_neg hadds]
  exact congrArg WatcherArray.mutations (if_pos rfl)

theorem stack_addWatcher (s : Stage) (onlyNew : Bool) (key : Path) (handle : Handle) :
    (addWatcher s onlyNew key handle).stack = s.stack := by
  unfold addWatcher
  split
  · rfl
  · dsimp only
    split <;> rfl

theorem arrays_removeWatcher (hkeeps : s.liveNodeWatchers.lookup key = some array →
      handle ∉ (s.arrays array).handles) :
    (removeWatcher s handle key).arrays array = s.arrays array := by
  unfold removeWatcher
  cases hlookup : s.liveNodeWatchers.lookup key with
  | none => rfl
  | some other =>
    grind [setArray]

theorem mutations_removeWatcher (hlookup : s.liveNodeWatchers.lookup key = some array)
    (hmem : handle ∈ (s.arrays array).handles) :
    ((removeWatcher s handle key).arrays array).mutations = (s.arrays array).mutations + 1 := by
  unfold removeWatcher
  rw [hlookup]
  dsimp only
  rw [if_pos hmem]
  split
  · exact congrArg WatcherArray.mutations (if_pos rfl)
  · exact congrArg WatcherArray.mutations (if_pos rfl)

theorem stack_removeWatcher (s : Stage) (handle : Handle) (key : Path) :
    (removeWatcher s handle key).stack = s.stack := by
  unfold removeWatcher
  split
  · rfl
  · dsimp only
    split <;> split <;> rfl

theorem Dispatching.addWatcher (h : Dispatching s)
    (hkeeps : ∀ array, s.liveNodeWatchers.lookup key = some array →
      Enumerated s array → onlyNew = true ∧ handle ∈ (s.arrays array).handles) :
    Dispatching (addWatcher s onlyNew key handle) := by
  have hsame : ∀ array, Enumerated s array →
      (ActorDispatch.addWatcher s onlyNew key handle).arrays array = s.arrays array :=
    fun array henumerated => arrays_addWatcher (h.enumerated array henumerated)
      fun hlookup => hkeeps array hlookup henumerated
  unfold ActorDispatch.addWatcher at hsame ⊢
  cases hlookup : s.liveNodeWatchers.lookup key with
  | none =>
    rw [hlookup] at hsame
    refine h.modify rfl rfl rfl rfl rfl (Nat.le_succ _) ?_ hsame
    intro other array hother
    have hother : (s.liveNodeWatchers.insert key s.nextArray).lookup other = some array := hother
    show array < s.nextArray + 1
    rcases ActorTables.lookup_insert_cases hother with ⟨-, rfl⟩ | ⟨-, hold⟩
    · exact Nat.lt_succ_self _
    · exact Nat.lt_succ_of_lt (h.stored other array hold)
  | some array =>
    rw [hlookup] at hsame
    dsimp only at hsame ⊢
    split at hsame
    · rw [if_pos ‹_›]
      exact h
    · rw [if_neg ‹_›]
      exact h.modify rfl rfl rfl rfl rfl (le_refl _) h.stored hsame

theorem Dispatching.removeWatcher (h : Dispatching s)
    (hkeeps : ∀ array, s.liveNodeWatchers.lookup key = some array → Enumerated s array →
      handle ∉ (s.arrays array).handles) : Dispatching (removeWatcher s handle key) := by
  have hsame : ∀ array, Enumerated s array →
      (ActorDispatch.removeWatcher s handle key).arrays array = s.arrays array :=
    fun array henumerated => arrays_removeWatcher fun hlookup => hkeeps array hlookup henumerated
  unfold ActorDispatch.removeWatcher at hsame ⊢
  cases hlookup : s.liveNodeWatchers.lookup key with
  | none => exact h
  | some array =>
    rw [hlookup] at hsame
    have herase : ∀ other a, (s.liveNodeWatchers.erase key).lookup other = some a →
        a < s.nextArray :=
      fun other a hother => h.stored other a (ActorTables.lookup_erase_cases hother).2
    dsimp only at hsame ⊢
    by_cases hmem : handle ∈ (s.arrays array).handles
    · rw [if_pos hmem] at hsame ⊢
      split at hsame
      · rw [if_pos ‹_›]
        exact h.modify rfl rfl rfl rfl rfl (le_refl _) herase hsame
      · rw [if_neg ‹_›]
        exact h.modify rfl rfl rfl rfl rfl (le_refl _) h.stored hsame
    · rw [if_neg hmem] at hsame ⊢
      split at hsame
      · rw [if_pos ‹_›]
        exact h.modify rfl rfl rfl rfl rfl (le_refl _) herase hsame
      · rw [if_neg ‹_›]
        exact h

/-! ### Steps -/

theorem Dispatching.pushes (h : Dispatching s) (front : List Instruction)
    (hfront : ∀ i ∈ front, i.isLoop = false) : Dispatching (push (s, front)) :=
  h.withStack (List.nil_append _).symm (by simp) hfront

theorem Dispatching.pops (h : Dispatching s)
    (hstack : s.stack = i :: stack) (hi : ∀ d, i.pendingFor d = []) :
    Dispatching { s with stack } :=
  @withStack s h [i] [] stack hstack (by simpa using hi) (by simp)

theorem Dispatching.userStep (h : Dispatching s) (event : Event) :
    Dispatching (push (userStep s event)) := by
  cases event with
  | watchForPaths paths handle => exact h.pushes _ (by simp [Instruction.isLoop])
  | watchForGenericPath path handle => exact h.pushes _ (by simp [Instruction.isLoop])
  | watchForMessages genericPath handle =>
    exact h.modify rfl rfl rfl rfl rfl (le_refl _) h.stored fun _ _ => rfl
  | removeWatcher handle keys =>
    unfold ActorDispatch.userStep
    dsimp only
    split
    · exact h.pushes _ (by simp [Instruction.isLoop])
    · exact h
  | removeWatcherFromPath handle path => exact h.pushes _ (by simp [Instruction.isLoop])
  | requestActor path handle =>
    have hchanged : Dispatching (requestActor s path handle) :=
      h.modify rfl rfl rfl rfl rfl (le_refl _) h.stored fun _ _ => rfl
    exact hchanged.pushes _ (by simp [Instruction.isLoop])
  | requestEnds path =>
    have hchanged : Dispatching { s with activeRequests := s.activeRequests.erase path } :=
      h.modify rfl rfl rfl rfl rfl (le_refl _) h.stored fun _ _ => rfl
    exact hchanged.pushes _ (by simp [Instruction.isLoop])
  | dispatchResource path =>
    unfold ActorDispatch.userStep
    dsimp only
    split
    · exact h.pushes _ (by simp [Instruction.isLoop])
    · exact h.pushes _ (by simp [Instruction.isLoop])
  | dispatchMessageToWatchers path => exact h.pushes _ (by simp [Instruction.isLoop])
  | reset handle =>
    exact { h with
      called := fun v hv hthere =>
        h.called v hv fun hmem => hthere (.tail handle hmem) }
  | returns => exact h
  | continues => exact h

theorem Dispatching.leaveRequests (h : Dispatching s) (handle : Handle) (keys : List Path) :
    Dispatching (push (leaveRequests s handle keys)) := by
  have hchanged : ∀ activeRequests, Dispatching { s with activeRequests } := fun activeRequests =>
    h.modify rfl rfl rfl rfl rfl (le_refl _) h.stored fun _ _ => rfl
  cases keys with
  | nil => exact h
  | cons key keys =>
    unfold ActorDispatch.leaveRequests
    dsimp only
    cases s.activeRequests.lookup key with
    | none => exact h.pushes [.leaveRequests handle keys] (by simp [Instruction.isLoop])
    | some watchers =>
      dsimp only
      generalize watchers.filter (· ≠ handle) = watchers
      cases watchers with
      | nil =>
        exact (hchanged (s.activeRequests.erase key)).pushes
          [.callback, .leaveRequests handle keys] (by simp [Instruction.isLoop])
      | cons other watchers =>
        exact (hchanged (s.activeRequests.insert key (other :: watchers))).pushes
          [.leaveRequests handle keys] (by simp [Instruction.isLoop])

theorem Dispatching.perform (h : Dispatching s)
    (hstack : s.stack = i :: stack) (hkeeps : LeavesEnumerated s .continues) :
    Dispatching (push (perform { s with stack } i)) := by
  have hbelow : ∀ {array}, Enumerated { s with stack } array → Enumerated s array := by
    rintro array ⟨d, n, rest, hmem⟩
    exact ⟨d, n, rest, by rw [hstack]; exact .tail i hmem⟩
  unfold LeavesEnumerated at hkeeps
  rw [hstack] at hkeeps
  cases i with
  | callback => exact h.pops hstack fun _ => rfl
  | deliver path => exact (h.pops hstack fun _ => rfl).deliverCopy path _
  | deliverGeneric genericPath => exact (h.pops hstack fun _ => rfl).deliverGeneric genericPath
  | deliverToRequest path => exact (h.pops hstack fun _ => rfl).deliverCopy path _
  | deliverMessage genericPath => exact (h.pops hstack fun _ => rfl).deliverCopy genericPath _
  | visit delivery rest =>
    cases rest with
    | nil => exact h.pops hstack fun d => by simp [Instruction.pendingFor]
    | cons handle rest =>
      exact h.visit hstack (fun _ => rfl) (fun _ => rfl) fun d a n r hnext => by cases hnext
  | visitLive delivery array mutations rest =>
    cases rest with
    | nil => exact h.pops hstack fun d => by simp [Instruction.pendingFor]
    | cons handle rest =>
      have hsame : (s.arrays array).mutations = mutations :=
        h.unmodified delivery array mutations _ (by rw [hstack]; exact .head _)
      unfold ActorDispatch.perform
      dsimp only
      rw [if_pos hsame]
      refine h.visit hstack (fun _ => rfl) (fun _ => rfl) fun d a n r hnext => ?_
      cases hnext
      exact ⟨_, rfl⟩
  | addWatcher onlyNew key handle =>
    have hpopped := h.pops hstack fun _ => rfl
    exact hpopped.addWatcher fun array hlookup henumerated =>
      hkeeps array hlookup (hbelow henumerated)
  | removeWatcher handle key =>
    have hpopped := h.pops hstack fun _ => rfl
    exact hpopped.removeWatcher fun array hlookup henumerated =>
      hkeeps array hlookup (hbelow henumerated)
  | removeMessagesWatcher handle key =>
    exact (h.pops hstack fun _ => rfl).modify rfl rfl rfl rfl rfl (le_refl _) h.stored
      fun _ _ => rfl
  | leaveRequests handle keys => exact (h.pops hstack fun _ => rfl).leaveRequests handle keys
  | leaveTables handle =>
    refine (h.pops hstack fun _ => rfl).pushes _ fun i hi => ?_
    rcases List.mem_append.1 hi with hi | hi
    · obtain ⟨key, -, rfl⟩ := List.mem_map.1 hi
      rfl
    · obtain ⟨key, -, rfl⟩ := List.mem_map.1 hi
      rfl

theorem Dispatching.step (h : Dispatching s) {event : Event} (hkeeps : LeavesEnumerated s event) :
    Dispatching (ActorDispatch.step s event) := by
  rcases step_cases s event with hsame | ⟨stack, hstack, hstep⟩ |
    ⟨i, stack, rfl, hstack, hstep⟩ | hstep
  · rwa [hsame]
  · rw [hstep]
    exact h.pops hstack fun _ => rfl
  · rw [hstep]
    exact h.perform hstack hkeeps
  · rw [hstep]
    exact h.userStep event

/-- An array is modified while a loop goes through it. -/
theorem Dispatching.not_snapshots (h : Dispatching s) {event : Event}
    (hmodifies : ¬ LeavesEnumerated s event) : ¬ Snapshots (ActorDispatch.step s event) := by
  cases event with
  | continues =>
    have hstep : ∀ {i stack}, s.stack = i :: stack → i ≠ .callback →
        ActorDispatch.step s .continues = push (ActorDispatch.perform { s with stack } i) := by
      intro i stack hstack hi
      unfold ActorDispatch.step
      rw [h.notRaised, hstack]
      cases i with
      | callback => exact absurd rfl hi
      | _ => rfl
    have hcount : ∀ {i stack} {s' : Stage} {array : Nat}, s.stack = i :: stack →
        i.isLoop = false → s'.stack = stack → Enumerated s array →
        (s'.arrays array).mutations = (s.arrays array).mutations + 1 → ¬ Snapshots s' := by
      intro i stack s' array hstack hi hstack' henumerated hcount hsnapshots
      obtain ⟨d, n, rest, hmem⟩ := henumerated
      have hbefore := h.unmodified d array n rest hmem
      rw [hstack] at hmem
      rcases List.mem_cons.1 hmem with rfl | hmem
      · cases hi
      · have hafter := hsnapshots.unmodified d array n rest (hstack' ▸ hmem)
        omega
    unfold LeavesEnumerated at hmodifies
    cases hstack : s.stack with
    | nil => simp [hstack] at hmodifies
    | cons i stack =>
      rw [hstack] at hmodifies
      cases i with
      | addWatcher onlyNew key handle =>
        simp only [not_forall] at hmodifies
        obtain ⟨array, hlookup, henumerated, hadds⟩ := hmodifies
        rw [hstep hstack Instruction.noConfusion]
        exact hcount hstack rfl (stack_addWatcher _ onlyNew key handle) henumerated
          (mutations_addWatcher hlookup hadds)
      | removeWatcher handle key =>
        simp only [not_forall, not_not] at hmodifies
        obtain ⟨array, hlookup, henumerated, hmem⟩ := hmodifies
        rw [hstep hstack Instruction.noConfusion]
        exact hcount hstack rfl (stack_removeWatcher _ handle key) henumerated
          (mutations_removeWatcher hlookup hmem)
      | _ => exact absurd trivial hmodifies
  | _ => exact absurd trivial hmodifies

end Keeps

/-- In every state that a run reaches the deliveries work on snapshots, exactly if no watcher
is added to an array or removed from it while a loop goes through it. -/
theorem snapshots_iff (events : List Event) :
    (∀ k, Snapshots (run step initial (events.take k))) ↔
      Guarded step LeavesEnumerated initial events :=
  reached_iff_guarded step LeavesEnumerated Snapshots (fun _ h => h.toSnapshots)
    (fun _ _ h hkeeps => h.step hkeeps) (fun _ _ h hmodifies => h.not_snapshots hmodifies)
    events initial dispatching_initial

/-- Two watchers of a generic path; the first removes itself when it is called. -/
def watcherLeaves : List Event :=
  [.watchForGenericPath "/tg/user/(1)" 1, .continues, .watchForGenericPath "/tg/user/(1)" 2,
    .continues, .dispatchResource "/tg/user/(1)", .continues, .continues, .continues, .continues,
    .removeWatcherFromPath 1 "/tg/user/@", .continues, .continues, .continues, .continues,
    .returns, .continues]

/-- The exception is raised, and the second watcher was not called. -/
theorem delivery_raises :
    let s := run step initial watcherLeaves
    s.raised = true ∧ visited s 1 = [1] ∧ (s.deliveries[1]?.map (·.watchers)) = some [1, 2] ∧
      ¬ ∀ k, Snapshots (run step initial (watcherLeaves.take k)) := by
  have hraised : (run step initial watcherLeaves).raised = true := by decide +kernel
  refine ⟨hraised, by decide +kernel, by decide +kernel, fun h => ?_⟩
  have hlast := (h watcherLeaves.length).notRaised
  rw [List.take_length, hraised] at hlast
  cases hlast

end TelegramPub.Ports.ActorDispatch
