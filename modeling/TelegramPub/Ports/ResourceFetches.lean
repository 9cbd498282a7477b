import TelegramPub.Ports.ResourceFiles

/-!
# What the data queue tells

Each operation of the data queue on a resource changes the status of this resource only, and
puts blocks about it on the status queue (`Update`).  Three of them need a condition: a result
that is not the last is told as a fetch (`ResultTimely`), data may make a complete file that was
empty count (`ResultTimely`), and when a fetch is dropped, what is told is the completeness that
the data context remembers (`DropTimely`).
-/

namespace TelegramPub.Ports.ResourceStatus

open Verified.Bytes Ports.MediaBox

variable {R : Type*} [DecidableEq R]

/-! ## Blocks about a resource -/

/-- The resource that a block is about, if it tells something. -/
def StatusBlock.about : StatusBlock R → Option R
  | .subscribe _ => none
  | .remove _ => none
  | .fetching r => some r
  | .progress r _ => some r
  | .changed r _ => some r
  | .found r _ => some r

theorem hear_about {r : R} {block : StatusBlock R} (h : block.about ≠ some r) (v : View) :
    hear r v block = some v := by
  cases block with
  | subscribe x => rfl
  | remove x => rfl
  | fetching q => exact if_neg fun hq => h (congrArg some hq)
  | progress q status => exact if_neg fun hq => h (congrArg some hq)
  | changed q status => exact if_neg fun hq => h (congrArg some hq.1)
  | found q status => exact if_neg fun hq => h (congrArg some hq.1)

theorem keep_about {r : R} {block : StatusBlock R} (h : block.about ≠ some r)
    (kept : Option Status) : keep r kept block = kept := by
  cases block with
  | subscribe x => rfl
  | remove x => rfl
  | fetching q => exact if_neg fun hq => h (congrArg some hq)
  | progress q status => rfl
  | changed q status => exact if_neg fun hq => h (congrArg some hq)
  | found q status => exact if_neg fun hq => h (congrArg some hq.1)

/-- Blocks that are not about a resource tell nothing of it. -/
theorem Tells.of_about {r : R} {blocks : List (StatusBlock R)}
    (h : ∀ block ∈ blocks, block.about ≠ some r) (status : Status) :
    Tells r status status blocks := by
  induction blocks with
  | nil => exact Tells.refl r status
  | cons block blocks ih =>
    have hhead := Tells.of_silent status (hear_about (h block (by simp)))
    exact hhead.trans (ih fun b hb => h b (.tail block hb))

theorem Settles.of_about {r : R} {blocks : List (StatusBlock R)}
    (h : ∀ block ∈ blocks, block.about ≠ some r) (status : Status) :
    Settles r status status blocks := by
  induction blocks with
  | nil => exact Settles.refl r status
  | cons block blocks ih =>
    have hhead := Settles.of_silent status (keep_about (h block (by simp)))
    exact hhead.trans (ih fun b hb => h b (.tail block hb))

/-- What is known of the data between two blocks. -/
structure Stored (s : State R) : Prop where
  numbered : s.fetchGenerations.length = s.box.fetches.length
  opened : Opened s.box
  linked : ∀ r, s.dataComplete r → s.box.complete r

/-- What an operation of the data queue does. -/
structure Update (s s' : State R) (blocks : List (StatusBlock R)) : Prop where
  statusContexts : s'.statusContexts = s.statusContexts
  subscribers : s'.subscribers = s.subscribers
  concurrentQueue : s'.concurrentQueue = s.concurrentQueue
  dataQueue : s'.dataQueue = s.dataQueue
  statusQueue : s'.statusQueue = s.statusQueue ++ blocks
  about : ∀ block ∈ blocks, block.about.isSome
  complete : ∀ r, s.box.complete r → s'.box.complete r
  tells : ∀ r, s.Watched r → Tells r (s.status r) (s'.status r) blocks
  settles : ∀ r, s'.box.complete r = false → Settles r (s.status r) (s'.status r) blocks
  stored : Stored s'

section Updates

variable {s s' s'' : State R} {blocks blocks' : List (StatusBlock R)}

theorem Update.refl (h : Stored s) : Update s s [] where
  statusContexts := rfl
  subscribers := rfl
  concurrentQueue := rfl
  dataQueue := rfl
  statusQueue := (List.append_nil _).symm
  about := fun _ hno => by cases hno
  complete := fun _ hcomplete => hcomplete
  tells := fun r _ => Tells.refl r _
  settles := fun r _ => Settles.refl r _
  stored := h

theorem Update.watched (h : Update s s' blocks) {r : R} (hr : s.Watched r) : s'.Watched r := by
  unfold State.Watched at hr ⊢
  rw [h.statusContexts, h.subscribers, h.statusQueue]
  obtain ⟨x, hx, subscriber, hsubscriber, hlive, hplace⟩ := hr
  exact ⟨x, hx, subscriber, hsubscriber, hlive, hplace.imp_right (List.mem_append_left _)⟩

theorem Update.trans (h : Update s s' blocks) (h' : Update s' s'' blocks') :
    Update s s'' (blocks ++ blocks') where
  statusContexts := h'.statusContexts.trans h.statusContexts
  subscribers := h'.subscribers.trans h.subscribers
  concurrentQueue := h'.concurrentQueue.trans h.concurrentQueue
  dataQueue := h'.dataQueue.trans h.dataQueue
  statusQueue := by rw [h'.statusQueue, h.statusQueue, List.append_assoc]
  about := fun block hblock => (List.mem_append.1 hblock).elim (h.about block) (h'.about block)
  complete := fun r hr => h'.complete r (h.complete r hr)
  tells := fun r hr => (h.tells r hr).trans (h'.tells r (h.watched hr))
  settles := by
    intro r hr
    refine Settles.trans (h.settles r ?_) (h'.settles r hr)
    cases hc : s'.box.complete r with
    | false => rfl
    | true => simp [h'.complete r hc] at hr
  stored := h'.stored

/-- An update is a step of the data queue. -/
theorem Update.growth {block : DataBlock R} {dataQueue : List (DataBlock R)}
    (hqueue : s.dataQueue = block :: dataQueue) (h : Update { s with dataQueue } s' blocks)
    (hinformed : Informed s)
    (hasked : ∀ r, block = .status r → ∀ last,
      Knows (s'.status r) False (hearAll r ⟨none, last⟩ blocks)) : Growth s s' blocks where
  statusContexts := h.statusContexts
  statusQueue := h.statusQueue
  subscribers := fun x subscriber' hx _ => .inl (by rwa [h.subscribers] at hx)
  resource := fun x subscriber hx => ⟨subscriber, by rw [h.subscribers]; exact hx, rfl⟩
  placed := by
    intro x subscriber' hx _ hplace
    rw [h.concurrentQueue]
    refine .inl (hplace.resolve_right (Nat.not_le.2 ?_))
    rw [h.subscribers] at hx
    exact (List.getElem?_eq_some_iff.1 hx).1
  alone := fun x hx => absurd (h.about _ hx) (by simp [StatusBlock.about])
  removed := fun x _ hx => absurd (h.about _ hx) (by simp [StatusBlock.about])
  known := by
    intro x hx
    rw [h.subscribers]
    rw [h.concurrentQueue] at hx
    rcases hx with hx | hx | hx
    · exact absurd (h.about _ hx) (by simp [StatusBlock.about])
    · exact absurd (h.about _ hx) (by simp [StatusBlock.about])
    · exact hinformed.known x (.inr (.inr hx))
  complete := h.complete
  tells := h.tells
  settles := h.settles
  asked := by
    intro r _ hr
    rw [hqueue] at hr
    rw [h.dataQueue]
    rcases List.mem_cons.1 hr with heq | hr
    · exact .inr (hasked r heq.symm)
    · exact .inl hr

/-- An operation on a resource whose blocks are about it. -/
theorem Update.of_about {r : R} (hrest : s' = { s with
      box := s'.box
      generation := s'.generation
      dataComplete := s'.dataComplete
      fetchGenerations := s'.fetchGenerations
      statusQueue := s.statusQueue ++ blocks })
    (habout : ∀ block ∈ blocks, block.about = some r)
    (hcomplete : ∀ q, s.box.complete q → s'.box.complete q)
    (hother : ∀ q, q ≠ r → s.Watched q ∨ s'.box.complete q = false → s'.status q = s.status q)
    (htells : s.Watched r → Tells r (s.status r) (s'.status r) blocks)
    (hsettles : s'.box.complete r = false → Settles r (s.status r) (s'.status r) blocks)
    (hstored : Stored s') : Update s s' blocks := by
  have habout' : ∀ q, q ≠ r → ∀ block ∈ blocks, block.about ≠ some q := by
    grind
  exact {
    statusContexts := by rw [hrest]
    subscribers := by rw [hrest]
    concurrentQueue := by rw [hrest]
    dataQueue := by rw [hrest]
    statusQueue := by rw [hrest]
    about := fun block hblock => by rw [habout block hblock]; rfl
    complete := hcomplete
    tells := by
      intro q hq
      by_cases hqr : q = r
      · subst hqr
        exact htells hq
      · rw [hother q hqr (.inl hq)]
        exact Tells.of_about (habout' q hqr) _
    settles := by
      intro q hq
      by_cases hqr : q = r
      · subst hqr
        exact hsettles hq
      · rw [hother q hqr (.inr hq)]
        exact Settles.of_about (habout' q hqr) _
    stored := hstored }

/-- An operation without blocks that changes neither a file nor which fetches there are. -/
theorem Update.of_sameFiles (hs : Stored s) {b : Box R} (hsame : SameFiles s.box b)
    (hfetch : b.fetchDisposable = s.box.fetchDisposable) : Update s { s with box := b } [] := by
  have hstatus : ∀ q, ({ s with box := b } : State R).status q = s.status q := fun q =>
    status_congr (hsame.fileSize q) (congrFun hfetch q)
  exact {
    statusContexts := rfl
    subscribers := rfl
    concurrentQueue := rfl
    dataQueue := rfl
    statusQueue := (List.append_nil _).symm
    about := fun _ hno => by cases hno
    complete := fun r hr => by
      show b.complete r
      rw [hsame.complete]
      exact hr
    tells := fun r _ => by
      rw [hstatus]
      exact Tells.refl r _
    settles := fun r _ => by
      rw [hstatus]
      exact Settles.refl r _
    stored := {
      numbered := hs.numbered.trans hsame.length.symm
      opened := hsame.opened hs.opened
      linked := fun r hr => by
        show b.complete r
        rw [hsame.complete]
        exact hs.linked r hr } }

/-- A fetch that is dropped was completed as the data context remembers. -/
def DropTimely (s : State R) (r : R) : Prop :=
  s.Watched r → s.dataComplete r = false → s.status r ≠ .statusLocal

instance (s : State R) (r : R) : Decidable (DropTimely s r) := by
  unfold DropTimely
  infer_instance

/-- A fetch is dropped. -/
theorem Update.drop (hs : Stored s) {r : R} {b : Box R} (hsame : SameFiles s.box b)
    (hfetch : b.fetchDisposable = Function.update s.box.fetchDisposable r none)
    (htimely : DropTimely s r) :
    Update s (({ s with box := b } : State R).notify (.changed r (s.droppedStatus r)))
      [.changed r (s.droppedStatus r)] := by
  have hcomplete : b.complete = s.box.complete := hsame.complete
  have hafter : (({ s with box := b } : State R).notify (.changed r (s.droppedStatus r))).status r =
      if fileSize (s.box.completeFile r) ≠ 0 then .statusLocal else .statusRemote := by
    unfold State.status State.notify
    dsimp only
    rw [hsame.fileSize, hfetch, Function.update_self]
    simp
  refine Update.of_about (r := r) rfl (fun block hblock => ?_) (fun q hq => ?_) (fun q hq _ => ?_)
    (fun hwatched => ?_) (fun hopen => ?_) ?_
  · rw [List.mem_singleton.1 hblock]
    rfl
  · show b.complete q
    rw [hcomplete]
    exact hq
  · refine status_congr (hsame.fileSize q) ?_
    show b.fetchDisposable q = _
    rw [hfetch, Function.update_of_ne hq]
  · rw [hafter]
    refine Tells.changed r ?_ ?_
    · rw [status_eq_local]
      split <;> simp [*]
    · unfold State.droppedStatus
      cases hdata : s.dataComplete r with
      | true => exact .inr rfl
      | false =>
        have hempty := htimely hwatched hdata
        rw [ne_eq, status_eq_local] at hempty
        rw [if_neg hempty]
        exact .inl rfl
  · have hopen' : s.box.complete r = false := hcomplete ▸ hopen
    have hdata : s.dataComplete r = false := by
      cases hd : s.dataComplete r with
      | false => rfl
      | true => simp [hs.linked r hd] at hopen'
    have hkept : s.droppedStatus r = .statusRemote := by
      unfold State.droppedStatus
      rw [hdata]
      rfl
    rw [hafter, fileSize_completeFile, hopen', hkept]
    exact Settles.of_keep (by simp [keep]) (by simp [keep])
  · exact {
      numbered := hs.numbered.trans hsame.length.symm
      opened := hsame.opened hs.opened
      linked := fun q hq => by
        show b.complete q
        rw [hcomplete]
        exact hs.linked q hq }

theorem Update.removeSubscriber (hs : Stored s) (subscriber : Nat) (r : R)
    (htimely : s.box.fetchSubscribers r ≠ [] →
      (s.box.fetchSubscribers r).erase subscriber = [] → DropTimely s r) :
    ∃ blocks, Update s (s.removeSubscriber subscriber r) blocks := by
  have hsame := removeSubscriber_same s.box subscriber r
  have hfetch := removeSubscriber_fetchDisposable s.box subscriber r
  unfold State.removeSubscriber
  dsimp only
  rw [removeSubscriber_fetchSubscribers]
  split
  · exact ⟨[], Update.refl hs⟩
  · rename_i hsubscribers
    split
    · rename_i hlast
      rw [if_pos hlast] at hfetch
      exact ⟨_, Update.drop hs hsame hfetch (htimely hsubscribers hlast)⟩
    · rename_i hlast
      rw [if_neg hlast] at hfetch
      exact ⟨_, Update.of_sameFiles hs hsame hfetch⟩

theorem Update.cancel (hs : Stored s) (r : R)
    (htimely : s.box.fetchDisposable r ≠ none → DropTimely s r) :
    ∃ blocks, Update s (s.cancel r) blocks := by
  unfold State.cancel
  split
  · exact ⟨[], Update.refl hs⟩
  · rename_i hfetch
    exact ⟨_, Update.drop hs (dropFetch_same s.box r) (dropFetch_fetchDisposable s.box r)
      (htimely hfetch)⟩

theorem Update.dataContext (hs : Stored s) (r : R) : Update s (s.dataContext r) [] := by
  unfold State.dataContext
  split
  · exact {
      statusContexts := rfl
      subscribers := rfl
      concurrentQueue := rfl
      dataQueue := rfl
      statusQueue := (List.append_nil _).symm
      about := fun _ hno => by cases hno
      complete := fun _ hr => hr
      tells := fun q _ => Tells.refl q _
      settles := fun q _ => Settles.refl q _
      stored := {
        numbered := hs.numbered
        opened := hs.opened
        linked := fun q hq => by
          by_cases hqr : q = r
          · simp [hqr] at hq
          · exact hs.linked q (by simpa [hqr] using hq) } }
  · exact Update.refl hs

/-- A fetch is started, if there is none. -/
theorem Update.ensureFetch (contents : R → Data) (hs : Stored s) (r : R) (cached : Bool)
    (hempty : fileSize (s.box.completeFile r) = 0) :
    ∃ blocks, Update s (s.ensureFetch contents r cached) blocks := by
  unfold State.ensureFetch
  split
  · have hstarted := startFetch_started contents hs.opened r cached
    have hlength := hs.numbered
    have hsize : ∀ q, q ≠ r ∨ cached = false →
        fileSize ((s.box.startFetch contents r cached).completeFile q) =
          fileSize (s.box.completeFile q) := by
      intro q hq
      have hcomplete : (s.box.startFetch contents r cached).complete q = s.box.complete q := by
        rw [hstarted.complete]
        rcases hq with hq | hq <;> simp [hq]
      rw [fileSize_completeFile, fileSize_completeFile, hstarted.size q hq, hcomplete]
    have hcomplete : ∀ q, s.box.complete q → (s.box.startFetch contents r cached).complete q := by
      intro q hq
      rw [hstarted.complete, hq]
      rfl
    cases cached with
    | false =>
      have hafter : (({ s with
          box := s.box.startFetch contents r false
          fetchGenerations := s.fetchGenerations ++ [s.generation r] } : State R).notify
            (.fetching r)).status r = .statusFetching := by
        unfold State.status State.notify
        rw [hsize r (.inr rfl), if_neg (not_not.2 hempty), if_pos hstarted.current]
      refine ⟨[.fetching r], Update.of_about (r := r) rfl (by simp [StatusBlock.about]) hcomplete
        (fun q hq _ => status_congr (hsize q (.inl hq)) (hstarted.fetchDisposable q hq))
        (fun _ => ?_) (fun _ => ?_) ?_⟩
      · rw [if_neg (by simp), hafter]
        exact Tells.fetching r _
      · rw [if_neg (by simp), hafter]
        exact Settles.of_keep (by simp [keep]) (by simp [keep])
      · exact {
          numbered := by simp [State.notify, hlength, hstarted.length]
          opened := hstarted.opened
          linked := fun q hq => hcomplete q (hs.linked q hq) }
    | true =>
      have hlinked : (s.box.startFetch contents r true).complete r := by
        rw [hstarted.complete]
        simp
      refine ⟨[.fetching r, .progress r .statusLocal], ?_⟩
      rw [if_pos rfl]
      unfold State.storeComplete
      rw [if_pos (by simp [State.notify, ← hlength])]
      refine Update.of_about (r := r) (by simp [State.notify]) (by simp [StatusBlock.about])
        hcomplete
        (fun q hq _ => status_congr (hsize q (.inl hq)) (hstarted.fetchDisposable q hq))
        (fun _ => (Tells.fetching r _).trans (Tells.progress_local r _ _))
        (fun hopen => ?_) ?_
      · exact absurd hlinked (by simpa [State.notify] using hopen)
      · exact {
          numbered := by simp [State.notify, hlength, hstarted.length]
          opened := hstarted.opened
          linked := fun q hq => by
            by_cases hqr : q = r
            · rw [hqr]
              exact hlinked
            · exact hcomplete q (hs.linked q (by simpa [State.notify, hqr] using hq)) }
  · exact ⟨[], Update.refl hs⟩

theorem ensureFetch_dropTimely (contents : R → Data) (hs : Stored s) (r : R) (cached : Bool)
    (hempty : fileSize (s.box.completeFile r) = 0) :
    DropTimely (s.ensureFetch contents r cached) r := by
  intro _ hdata
  rw [ne_eq, status_eq_local, not_not]
  unfold State.ensureFetch at hdata ⊢
  dsimp only at hdata ⊢
  split at hdata
  · rename_i hnone
    rw [if_pos hnone]
    have hstarted := startFetch_started contents hs.opened r cached
    cases cached with
    | false =>
      show fileSize ((s.box.startFetch contents r false).completeFile r) = 0
      have hcomplete : (s.box.startFetch contents r false).complete r = s.box.complete r := by
        rw [hstarted.complete]
        simp
      rw [fileSize_completeFile, hstarted.size r (.inr rfl), hcomplete, ← fileSize_completeFile]
      exact hempty
    | true =>
      rw [if_pos rfl] at hdata
      unfold State.storeComplete at hdata
      rw [if_pos (by simp [State.notify, ← hs.numbered])] at hdata
      simp [State.notify] at hdata
  · rename_i hsome
    rw [if_neg hsome]
    exact hempty

theorem Update.fetchedResource (contents : R → Data) (hs : Stored s) (subscriber : Nat) (r : R) (cached : Bool) :
    ∃ blocks, Update s (s.fetchedResource contents subscriber r cached) blocks := by
  unfold State.fetchedResource
  split
  · exact ⟨[], Update.refl hs⟩
  · rename_i hempty
    have hcontext := Update.dataContext hs r
    have hadded := Update.of_sameFiles hcontext.stored
      (b := (s.dataContext r).box.addSubscriber subscriber r) (SameFiles.of_eq rfl rfl rfl) rfl
    have hempty' : fileSize (((s.dataContext r).box.addSubscriber subscriber r).completeFile r) =
        0 := by
      have hbox : (s.dataContext r).box = s.box := by
        unfold State.dataContext
        split <;> rfl
      rw [hbox]
      exact not_not.1 hempty
    obtain ⟨blocks, hfetch⟩ := Update.ensureFetch contents hadded.stored r cached hempty'
    have hbefore := (hcontext.trans hadded).trans hfetch
    dsimp only
    unfold State.setDisposable
    split
    · obtain ⟨blocks', hremoved⟩ := Update.removeSubscriber hfetch.stored subscriber r
        fun _ _ => ensureFetch_dropTimely contents hadded.stored r cached hempty'
      exact ⟨_, hbefore.trans hremoved⟩
    · rename_i hearly
      rw [Box.setDisposable, if_neg hearly]
      exact ⟨_, hbefore.trans
        (Update.of_sameFiles hfetch.stored (SameFiles.of_eq rfl rfl rfl) rfl)⟩

/-- A result that is not the last runs while its resource is fetched, and no data goes to an
empty complete file, except by the last result of its resource. -/
def ResultTimely (s : State R) (f : Nat) (data : Data) (complete : Bool) : Prop :=
  ∀ fetch ∈ s.box.fetches[f]?,
    (complete = false → s.Watched fetch.resource →
      s.status fetch.resource = .statusFetching) ∧
    ∀ q ∈ target s.box fetch, q ≠ fetch.resource ∨ complete = false → s.Watched q →
      s.box.complete q → fileSize (s.box.partialFile q) = 0 → data = []

instance (s : State R) (f : Nat) (data : Data) (complete : Bool) :
    Decidable (ResultTimely s f data complete) := by
  unfold ResultTimely
  infer_instance

theorem Update.result (hs : Stored s) (f : Nat) (data : Data) (complete : Bool)
    (htimely : ResultTimely s f data complete) :
    ∃ blocks, Update s (s.result f data complete) blocks := by
  unfold State.result
  cases hf : s.box.fetches[f]? with
  | none => exact ⟨[], Update.refl hs⟩
  | some fetch =>
    obtain ⟨hfetching, hfiles⟩ := htimely fetch hf
    have hwritten := result_written hf hs.opened data complete
    dsimp only
    generalize s.box.result f data complete = b at *
    generalize ht : ({ s with box := b } : State R).storeComplete f fetch.resource complete = t
    have hrest : t = { s with box := b, dataComplete := t.dataComplete } := by
      rw [← ht]
      unfold State.storeComplete
      split <;> rfl
    have hbox : t.box = b := by rw [hrest]
    have hcomplete : ∀ q, s.box.complete q → b.complete q := by
      intro q hq
      rw [hwritten.complete, hq]
      rfl
    have hsame : ∀ q, q ≠ fetch.resource ∨ complete = false →
        s.Watched q ∨ b.complete q = false → t.status q = s.status q := by
      intro q hq hplace
      have hcompleteq : b.complete q = s.box.complete q := by
        rw [hwritten.complete]
        rcases hq with hq | hq <;> simp [hq]
      have hfetch : t.box.fetchDisposable q = s.box.fetchDisposable q := by
        rw [hbox, hwritten.fetchDisposable]
      cases hlinked : s.box.complete q with
      | false =>
        refine status_congr ?_ hfetch
        rw [hbox, fileSize_completeFile, fileSize_completeFile, hcompleteq, hlinked]
        rfl
      | true =>
        have hwatched := hplace.resolve_right (by simp [hcompleteq, hlinked])
        by_cases hempty : fileSize (s.box.partialFile q) = 0
        · refine status_congr ?_ hfetch
          rw [hbox, fileSize_completeFile, fileSize_completeFile, hcompleteq, hwritten.size]
          by_cases htarget : target s.box fetch = some q
          · rw [hfiles q htarget hq hwatched hlinked hempty]
            simp
          · rw [if_neg htarget]
            rfl
        · have hlocal : t.status q = .statusLocal := by
            rw [status_eq_local, hbox, fileSize_completeFile, hcompleteq, hlinked,
              if_pos rfl, hwritten.size]
            omega
          rw [hlocal, status_eq_local.2]
          rwa [fileSize_completeFile, hlinked, if_pos rfl]
    have hstatus : ∀ q, (t.notify (.progress fetch.resource (resultStatus complete))).status q =
        t.status q := fun _ => rfl
    refine ⟨[.progress fetch.resource (resultStatus complete)],
      Update.of_about (r := fetch.resource) ?_ (by simp [StatusBlock.about]) ?_ ?_
        (fun hwatched => ?_) (fun hopen => ?_) ?_⟩
    · rw [hrest]
      rfl
    · intro q hq
      show t.box.complete q
      rw [hbox]
      exact hcomplete q hq
    · intro q hq hplace
      refine hsame q (.inl hq) (hplace.imp_right fun hopen => ?_)
      rw [← hbox]
      exact hopen
    · cases complete with
      | true => exact Tells.progress_local _ _ _
      | false =>
        rw [hstatus, hsame _ (.inr rfl) (.inl hwatched), hfetching rfl hwatched]
        exact Tells.progress_fetching _
    · have hopen' : b.complete fetch.resource = false := hbox ▸ hopen
      have hmore : complete = false := by
        cases hc : complete with
        | false => rfl
        | true => simp [hwritten.complete, hc] at hopen'
      rw [hstatus, hsame _ (.inr hmore) (.inr hopen')]
      exact Settles.of_silent _ fun _ => rfl
    · refine {
        numbered := ?_
        opened := ?_
        linked := fun q hq => ?_ }
      · rw [hrest]
        exact hs.numbered.trans hwritten.length.symm
      · rw [hrest]
        exact hwritten.opened
      · show t.box.complete q
        have hq' : t.dataComplete q := hq
        rw [hbox]
        unfold State.storeComplete at ht
        split at ht
        · rw [← ht] at hq'
          by_cases hqr : q = fetch.resource
          · have hlast : complete = true := by simpa [hqr] using hq'
            rw [hwritten.complete, hlast, hqr]
            simp
          · exact hcomplete q (hs.linked q (by simpa [hqr] using hq'))
        · rw [← ht] at hq'
          exact hcomplete q (hs.linked q hq')

/-- The block that looks for a status. -/
theorem Update.status (hs : Stored s) (r : R) :
    Update s (s.notify (.found r (s.status r))) [.found r (s.status r)] := by
  refine Update.of_about (r := r) rfl (by simp [StatusBlock.about]) (fun _ hq => hq)
    (fun _ _ _ => rfl) (fun _ => Tells.found r _) (fun _ => ?_)
    ⟨hs.numbered, hs.opened, hs.linked⟩
  show Settles r (s.status r) (s.status r) _
  exact Settles.of_keep (by simp [keep]) (by simp [keep])

/-- The conditions on the next block of the data queue. -/
def DataTimely (s : State R) : DataBlock R → Prop
  | .box (.result f data complete) => ResultTimely s f data complete
  | .box (.dispose subscriber r) => s.box.fetchSubscribers r ≠ [] →
      (s.box.fetchSubscribers r).erase subscriber = [] → DropTimely s r
  | .box (.cancel r) => s.box.fetchDisposable r ≠ none → DropTimely s r
  | _ => True

instance (s : State R) (block : DataBlock R) : Decidable (DataTimely s block) := by
  unfold DataTimely
  split <;> infer_instance

/-- A block of the data queue. -/
theorem Update.performData (contents : R → Data) (hs : Stored s) (cached : Bool) {block : DataBlock R}
    (htimely : DataTimely s block) :
    ∃ blocks, Update s (s.performData contents cached block) blocks ∧
      ∀ r, block = .status r → blocks = [.found r (s.status r)] := by
  cases block with
  | status r => exact ⟨_, Update.status hs r, fun q hq => by cases hq; rfl⟩
  | box block =>
    suffices hupdate : ∃ blocks, Update s (s.performData contents cached (.box block)) blocks by
      obtain ⟨blocks, hupdate⟩ := hupdate
      exact ⟨blocks, hupdate, fun r hr => by cases hr⟩
    cases block with
    | fetchedResource subscriber r => exact Update.fetchedResource contents hs subscriber r cached
    | result f data complete => exact Update.result hs f data complete htimely
    | close f =>
      exact ⟨[], Update.of_sameFiles hs (closeFile_same s.box f)
        (closeFile_fetchDisposable s.box f)⟩
    | dispose subscriber r => exact Update.removeSubscriber hs subscriber r htimely
    | cancel r => exact Update.cancel hs r htimely

end Updates

end TelegramPub.Ports.ResourceStatus
