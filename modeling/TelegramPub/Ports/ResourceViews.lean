import TelegramPub.Ports.ResourceSubscribers

/-!
# What subscribers of a status are told

`hear` is what a block of the status queue does to one live subscriber: to the status of its
context and to what it was told last.  `Informed` is the invariant: when the blocks that are
queued have run, each live subscriber knows the status of its resource, or is completed, or it
is still looked for.  A new subscriber is told what its context keeps, which may have become
`Stale` when the complete file was linked, since that is told but not kept.
`Informed.performStatus` says that the blocks of the status queue keep the invariant, if no new
subscriber finds a stale status that no queued block corrects (`FindsCurrent`).
-/

namespace TelegramPub.Ports.ResourceStatus

variable {R : Type*} [DecidableEq R]

/-- The status of a context, and what one of its live subscribers was told last. -/
structure View where
  status : Option Status
  last : Option Status
  deriving DecidableEq

/-- A subscriber is told a status; the local one completes it. -/
def View.told (kept : Option Status) (status : Status) : Option View :=
  if status = .statusLocal then none else some ⟨kept, some status⟩

/-- What a block of the status queue does to a live subscriber of a resource.  There is no view
of a subscriber that is completed. -/
def hear (r : R) (v : View) : StatusBlock R → Option View
  | .subscribe _ => some v
  | .remove _ => some v
  | .fetching q => if q = r then some ⟨some .statusFetching, some .statusFetching⟩ else some v
  | .progress q status => if q = r then View.told v.status status else some v
  | .changed q status =>
    if q = r ∧ v.status ≠ some status then View.told (some status) status else some v
  | .found q status =>
    if q = r ∧ v.status = none then View.told (some status) status else some v

/-- What the queued blocks do. -/
def hearAll (r : R) (v : View) (blocks : List (StatusBlock R)) : Option View :=
  blocks.foldlM (hear r) v

@[simp] theorem hearAll_nil (r : R) (v : View) : hearAll r v [] = some v := rfl

theorem hearAll_cons (r : R) (v : View) (block : StatusBlock R) (blocks : List (StatusBlock R)) :
    hearAll r v (block :: blocks) = (hear r v block).bind fun w => hearAll r w blocks :=
  List.foldlM_cons ..

theorem hearAll_append (r : R) (v : View) (xs ys : List (StatusBlock R)) :
    hearAll r v (xs ++ ys) = (hearAll r v xs).bind fun w => hearAll r w ys :=
  List.foldlM_append ..

/-- The subscriber knows the status, or is completed, or the status is still awaited. -/
def Knows (status : Status) (awaited : Prop) : Option View → Prop
  | none => True
  | some v => v = ⟨some status, some status⟩ ∨ v.status = none ∧ awaited

theorem Knows.mono {status : Status} {awaited awaited' : Prop} (himp : awaited → awaited')
    {v : Option View} (h : Knows status awaited v) : Knows status awaited' v := by
  cases v with
  | none => trivial
  | some v => exact h.imp_right fun hv => ⟨hv.1, himp hv.2⟩

/-- The local status completes a subscriber, whatever comes before it. -/
theorem hearAll_local {r : R} {blocks : List (StatusBlock R)}
    (h : StatusBlock.progress r .statusLocal ∈ blocks) (v : View) : hearAll r v blocks = none := by
  induction blocks generalizing v with
  | nil => cases h
  | cons block blocks ih =>
    rw [hearAll_cons]
    rcases List.mem_cons.1 h with rfl | h
    · simp [hear, View.told]
    · simp_all

/-- What a block of the status queue makes of the status that a context keeps. -/
def keep (r : R) (kept : Option Status) : StatusBlock R → Option Status
  | .subscribe _ => kept
  | .remove _ => kept
  | .fetching q => if q = r then some .statusFetching else kept
  | .progress _ _ => kept
  | .changed q status => if q = r then some status else kept
  | .found q status => if q = r ∧ kept = none then some status else kept

theorem hear_keep {r : R} {v w : View} {block : StatusBlock R} (hw : hear r v block = some w) :
    w.status = keep r v.status block := by
  cases block <;> grind [hear, View.told, keep]

/-- The statuses that a context may keep when some blocks have run.  It may be removed and made
again before each of them. -/
def Arises (r : R) : Option Status → List (StatusBlock R) → Option Status → Prop
  | kept, [], c => c = kept ∨ c = none
  | kept, block :: blocks, c => Arises r (keep r kept block) blocks c ∨ Arises r none blocks c

theorem Arises.self (r : R) (kept : Option Status) : Arises r kept [] kept := .inl rfl

/-- What may be kept after some blocks and more. -/
theorem Arises.of_append {r : R} {xs ys : List (StatusBlock R)} {kept c : Option Status}
    (h : Arises r kept (xs ++ ys) c) : ∃ k, Arises r kept xs k ∧ Arises r k ys c := by
  induction xs generalizing kept with
  | nil => exact ⟨kept, Arises.self r kept, h⟩
  | cons block xs ih =>
    rcases h with h | h
    · obtain ⟨k, hk, hc⟩ := ih h
      exact ⟨k, .inl hk, hc⟩
    · obtain ⟨k, hk, hc⟩ := ih h
      exact ⟨k, .inr hk, hc⟩

/-- A status that is kept while the complete file is linked, unless both are local. -/
def Stale (s : State R) (r : R) (k : Status) : Prop :=
  s.box.complete r ∧ ¬ (k = .statusLocal ∧ s.status r = .statusLocal)

instance (s : State R) (r : R) (k : Status) : Decidable (Stale s r k) := by
  unfold Stale
  infer_instance

/-- What a subscriber will know that finds a status kept, or none. -/
def Finds (s : State R) (r : R) (blocks : List (StatusBlock R)) : Option Status → Prop
  | none => ∀ last, Knows (s.status r) True (hearAll r ⟨none, last⟩ blocks)
  | some k => Stale s r k ∨ Knows (s.status r) False (hearAll r ⟨some k, some k⟩ blocks)

/-- The states in which all subscribers are told. -/
structure Informed (s : State R) : Prop where
  registered : ∀ r x subscriber, s.Holds r x → s.subscribers[x]? = some subscriber →
    subscriber.live → Knows (s.status r) (DataBlock.status r ∈ s.dataQueue)
      (hearAll r ⟨s.kept r, subscriber.last⟩ s.statusQueue)
  upcoming : ∀ pre x post subscriber c, s.statusQueue = pre ++ StatusBlock.subscribe x :: post →
    s.subscribers[x]? = some subscriber → subscriber.live →
    Arises subscriber.resource (s.kept subscriber.resource) pre c →
    Finds s subscriber.resource post c
  current : ∀ r k, Arises r (s.kept r) s.statusQueue (some k) → s.box.complete r = false →
    k = s.status r
  owner : ∀ r x, s.Holds r x → ∃ subscriber, s.subscribers[x]? = some subscriber ∧
    subscriber.resource = r
  placed : ∀ x subscriber, s.subscribers[x]? = some subscriber → subscriber.live →
    (∃ looked, (x, looked) ∈ s.concurrentQueue) ∨ StatusBlock.subscribe x ∈ s.statusQueue ∨
      s.Holds subscriber.resource x
  removed : ∀ x subscriber, StatusBlock.remove x ∈ s.statusQueue →
    s.subscribers[x]? = some subscriber → subscriber.live = false
  known : ∀ x, StatusBlock.subscribe x ∈ s.statusQueue ∨ StatusBlock.remove x ∈ s.statusQueue ∨
    (∃ looked, (x, looked) ∈ s.concurrentQueue) → x < s.subscribers.length

/-- With nothing queued, the subscribers know the statuses. -/
theorem Informed.converged {s : State R} (h : Informed s) (hquiet : Quiescent s) :
    Converged s := by
  obtain ⟨hconcurrent, hdata, hstatus⟩ := hquiet
  intro subscriber hmem hlive
  obtain ⟨x, hx⟩ := List.mem_iff_getElem?.1 hmem
  have hplaced := h.placed x subscriber hx hlive
  rw [hconcurrent, hstatus] at hplaced
  rcases hplaced with ⟨_, hno⟩ | hno | hin
  · cases hno
  · cases hno
  · have hknows := h.registered _ x subscriber hin hx hlive
    rw [hstatus, hdata, hearAll_nil] at hknows
    rcases hknows with heq | ⟨_, hno⟩
    · exact congrArg View.last heq
    · cases hno

section StatusQueue

variable {s t s' : State R} {block : StatusBlock R} {rest : List (StatusBlock R)}

/-- What a block does to the contexts, before anything is told. -/
structure StatusStep (s t : State R) (block : StatusBlock R) (rest : List (StatusBlock R)) :
    Prop where
  queue : s.statusQueue = block :: rest
  data : SameData { s with statusQueue := rest } t
  subscribers : t.subscribers = s.subscribers
  holds : ∀ r x, t.Holds r x ↔ s.Holds r x ∨ block = .subscribe x ∧
    ∃ subscriber, s.subscribers[x]? = some subscriber ∧ subscriber.resource = r
  kept : ∀ r, t.kept r = keep r (s.kept r) block ∨ t.statusContexts r = none

theorem SameData.finds (h : SameData s s') {r : R} {blocks : List (StatusBlock R)}
    {c : Option Status} (hfinds : Finds s r blocks c) : Finds s' r blocks c := by
  cases c with
  | none =>
    intro last
    rw [h.status]
    exact hfinds last
  | some k => grind [Finds, Stale, h.status, h.box]

/-- The invariant after a block, if it holds for the subscribers that are registered. -/
theorem Informed.of_step (h : Informed s) (hstep : StatusStep s t block rest) (hkeeps : Keeps t s')
    (hregistered : ∀ r x old new, s.subscribers[x]? = some old → old.live → old.resource = r →
      s'.subscribers[x]? = some new → new.live → s.Holds r x ∨ block = .subscribe x →
      Knows (s.status r) (DataBlock.status r ∈ s'.dataQueue)
        (hearAll r ⟨keep r (s.kept r) block, new.last⟩ rest)) : Informed s' := by
  have hdata := hstep.data.trans hkeeps.data
  have hqueue : s'.statusQueue = rest := hdata.statusQueue
  have hstatus : ∀ r, s'.status r = s.status r := hdata.status
  have hmem : ∀ b, b ∈ rest → b ∈ s.statusQueue := by
    intro b hb
    rw [hstep.queue]
    exact .tail block hb
  have hbefore : ∀ (x : Nat) (new : Subscriber R), s'.subscribers[x]? = some new →
      ∃ old, s.subscribers[x]? = some old ∧ new.resource = old.resource ∧ (new.live → old.live) :=
    hstep.subscribers ▸ hkeeps.subscribers
  have howner : ∀ r x, t.Holds r x → ∃ old, s.subscribers[x]? = some old ∧ old.resource = r := by
    intro r x hholds
    rcases (hstep.holds r x).1 hholds with hold | ⟨_, hnew⟩
    · exact h.owner r x hold
    · exact hnew
  have hkept : ∀ r, s'.kept r = keep r (s.kept r) block ∨ s'.statusContexts r = none := by
    intro r
    rcases hkeeps.kept r with hsame | hnone
    · rcases hstep.kept r with hkeep | hnone
      · exact .inl (hsame.trans hkeep)
      · refine .inr (Option.eq_none_iff_forall_not_mem.2 fun context' hcontext' => ?_)
        obtain ⟨context, hcontext, _⟩ := hkeeps.contexts r context' hcontext'
        simp [hnone] at hcontext
    · exact .inr hnone
  have harises : ∀ r blocks c, Arises r (s'.kept r) blocks c →
      Arises r (s.kept r) (block :: blocks) c := by
    intro r blocks c hc
    rcases hkept r with heq | hnone
    · rw [heq] at hc
      exact .inl hc
    · have hnone' : s'.kept r = none := by simp [State.kept, hnone]
      rw [hnone'] at hc
      exact .inr hc
  refine {
    registered := ?_
    upcoming := ?_
    current := ?_
    owner := ?_
    placed := ?_
    removed := ?_
    known := ?_ }
  · intro r x new hholds hx hlive
    obtain ⟨old, hold, hresource, himp⟩ := hbefore x new hx
    obtain ⟨owned, howned, hr⟩ := howner r x (hkeeps.holds_of hholds)
    rw [hold] at howned
    cases howned
    have hsame : s'.kept r = keep r (s.kept r) block := by
      obtain ⟨context, hcontext, _⟩ := hholds
      exact (hkept r).resolve_right (by simp [hcontext])
    rw [hstatus, hqueue, hsame]
    refine hregistered r x old new hold (himp hlive) hr hx hlive ?_
    exact ((hstep.holds r x).1 (hkeeps.holds_of hholds)).imp_right And.left
  · intro pre x post new c hpre hx hlive hc
    obtain ⟨old, hold, hresource, himp⟩ := hbefore x new hx
    have hqueue' : s.statusQueue = (block :: pre) ++ StatusBlock.subscribe x :: post := by
      rw [hstep.queue, ← hqueue, hpre]
      rfl
    rw [hresource] at hc ⊢
    exact hdata.finds (h.upcoming (block :: pre) x post old c hqueue' hold (himp hlive)
      (harises _ _ _ hc))
  · intro r k hk hcomplete
    rw [hqueue] at hk
    rw [hdata.box] at hcomplete
    rw [hstatus]
    refine h.current r k ?_ hcomplete
    rw [hstep.queue]
    exact harises r _ _ hk
  · intro r x hholds
    obtain ⟨old, hold, hr⟩ := howner r x (hkeeps.holds_of hholds)
    have hlt : x < s'.subscribers.length := by
      rw [hkeeps.length, hstep.subscribers]
      exact (List.getElem?_eq_some_iff.1 hold).1
    obtain ⟨old', hold', hresource, _⟩ := hbefore x _ (List.getElem?_eq_getElem hlt)
    rw [hold] at hold'
    cases hold'
    exact ⟨_, List.getElem?_eq_getElem hlt, hresource.trans hr⟩
  · intro x new hx hlive
    obtain ⟨old, hold, hresource, himp⟩ := hbefore x new hx
    have hholds : s.Holds old.resource x ∨ block = .subscribe x → s'.Holds new.resource x := by
      intro hplace
      refine hkeeps.holds _ x new ((hstep.holds _ x).2 ?_) hx hlive
      rw [hresource]
      exact hplace.imp_right fun hblock => ⟨hblock, old, hold, rfl⟩
    rw [hdata.concurrentQueue, hqueue]
    rcases h.placed x old hold (himp hlive) with hconcurrent | hsubscribe | hin
    · exact .inl hconcurrent
    · rw [hstep.queue] at hsubscribe
      rcases List.mem_cons.1 hsubscribe with hnow | hlater
      · exact .inr (.inr (hholds (.inr hnow.symm)))
      · exact .inr (.inl hlater)
    · exact .inr (.inr (hholds (.inl hin)))
  · grind [h.removed]
  · intro x hx
    rw [hqueue, hdata.concurrentQueue] at hx
    rw [hkeeps.length, hstep.subscribers]
    exact h.known x (hx.imp (hmem _) (Or.imp_left (hmem _)))

theorem Informed.next (h : Informed s) (hqueue : s.statusQueue = block :: rest) {r : R} {x : Nat}
    {subscriber : Subscriber R} (hin : s.Holds r x) (hx : s.subscribers[x]? = some subscriber)
    (hlive : subscriber.live) {v : Option View}
    (hhear : hear r ⟨s.kept r, subscriber.last⟩ block = v) :
    Knows (s.status r) (DataBlock.status r ∈ s.dataQueue) (v.bind fun w => hearAll r w rest) := by
  have hknows := h.registered r x subscriber hin hx hlive
  rw [hqueue, hearAll_cons, hhear] at hknows
  exact hknows

theorem Informed.skip (h : Informed s) (hqueue : s.statusQueue = block :: rest)
    (hblock : ∀ x, block ≠ .subscribe x)
    (hhear : ∀ r last, s.statusContexts r ≠ none →
      hear r ⟨s.kept r, last⟩ block = some ⟨s.kept r, last⟩)
    (hkeeps : Keeps { s with statusQueue := rest } s') (hsame : s'.subscribers = s.subscribers) :
    Informed s' := by
  have hkept : ∀ r, s.statusContexts r ≠ none → keep r (s.kept r) block = s.kept r := fun r hr =>
    (hear_keep (hhear r none hr)).symm
  refine h.of_step {
    queue := hqueue
    data := SameData.refl _
    subscribers := rfl
    holds := fun r x => ⟨.inl, fun hplace => hplace.resolve_right fun hno => hblock x hno.1⟩
    kept := ?_ } hkeeps ?_
  · intro r
    by_cases hr : s.statusContexts r = none
    · exact .inr hr
    · exact .inl (hkept r hr).symm
  · intro r x old new hold hlive _ hnew _ hplace
    have hin : s.Holds r x := hplace.resolve_right (hblock x)
    have hr : s.statusContexts r ≠ none := by
      obtain ⟨context, hcontext, _⟩ := hin
      simp [hcontext]
    rw [hsame, hold] at hnew
    cases hnew
    rw [hkept r hr]
    exact (h.next hqueue hin hold hlive (hhear r old.last hr)).mono (hkeeps.data.dataQueue _)

theorem Informed.absent (h : Informed s) (hqueue : s.statusQueue = block :: rest)
    (hblock : ∀ x, block ≠ .subscribe x) {q : R} (hcontext : s.statusContexts q = none)
    (hother : ∀ r v, r ≠ q → hear r v block = some v) : Informed { s with statusQueue := rest } :=
  h.skip hqueue hblock (fun r _ hr => hother r _ fun heq => hr (heq ▸ hcontext)) (Keeps.refl _)
    rfl

theorem Informed.tell (h : Informed s) (hqueue : s.statusQueue = block :: rest)
    (hblock : ∀ x, block ≠ .subscribe x) {q : R} {context : Context}
    (hcontext : s.statusContexts q = some context) {kept : Option Status} {status : Status}
    (hother : ∀ r v, r ≠ q → hear r v block = some v)
    (hself : ∀ last, hear q ⟨context.status, last⟩ block = View.told kept status)
    (hkeep : keep q context.status block = kept) :
    Informed
      ({ s with
        statusQueue := rest
        statusContexts :=
          Function.update s.statusContexts q
            (some { context with status := kept }) }.announce status context.subscribers) := by
  generalize ht : ({ s with
      statusQueue := rest
      statusContexts :=
        Function.update s.statusContexts q (some { context with status := kept }) } : State R) = t
  have hcontexts : ∀ r, t.statusContexts r =
      if r = q then some { context with status := kept } else s.statusContexts r := by
    intro r
    rw [← ht]
    exact Function.update_apply ..
  have hsubscribers : t.subscribers = s.subscribers := by rw [← ht]
  have hq : s.kept q = context.status := by simp [State.kept, hcontext]
  have hkeepOther : ∀ r, r ≠ q → keep r (s.kept r) block = s.kept r := fun r hr =>
    (hear_keep (hother r ⟨s.kept r, none⟩ hr)).symm
  refine h.of_step {
    queue := hqueue
    data := ?_
    subscribers := hsubscribers
    holds := ?_
    kept := ?_ } (announce_keeps status context.subscribers t) ?_
  · rw [← ht]
    exact ⟨rfl, rfl, rfl, rfl, rfl, fun _ hb => hb⟩
  · intro r x
    have hsame : t.Holds r x ↔ s.Holds r x := by
      unfold State.Holds
      rw [hcontexts]
      by_cases hr : r = q
      · subst hr
        simp [hcontext]
      · rw [if_neg hr]
    rw [hsame]
    exact ⟨.inl, fun hplace => hplace.resolve_right fun hno => hblock x hno.1⟩
  · intro r
    left
    unfold State.kept
    rw [hcontexts]
    by_cases hr : r = q
    · subst hr
      rw [if_pos rfl, hcontext]
      exact hkeep.symm
    · rw [if_neg hr]
      exact (hkeepOther r hr).symm
  · intro r x old new hold hlive hresource hnew hnewLive hplace
    have hin : s.Holds r x := hplace.resolve_right (hblock x)
    have hdata : ∀ b ∈ s.dataQueue, b ∈ (t.announce status context.subscribers).dataQueue := by
      intro b hb
      apply (announce_keeps status context.subscribers t).data.dataQueue b
      rw [← ht]
      exact hb
    rw [announce_subscribers, hsubscribers, hold] at hnew
    cases hnew
    dsimp only at hnewLive ⊢
    have hmem : x ∈ context.subscribers ↔ r = q := by
      constructor
      · intro hx
        obtain ⟨owned, howned, heq⟩ := h.owner q x ⟨context, hcontext, hx⟩
        rw [hold] at howned
        cases howned
        exact hresource.symm.trans heq
      · rintro rfl
        obtain ⟨context', hcontext', hx⟩ := hin
        rw [hcontext] at hcontext'
        cases hcontext'
        exact hx
    by_cases hr : r = q
    · subst hr
      rw [if_pos ⟨hmem.2 rfl, hlive⟩] at hnewLive ⊢
      have hlocal : status ≠ .statusLocal := of_decide_eq_true hnewLive
      have hknows := h.next hqueue hin hold hlive (hq ▸ hself old.last)
      rw [View.told, if_neg hlocal] at hknows
      rw [hq, hkeep]
      exact hknows.mono (hdata _)
    · rw [if_neg fun hno => hr (hmem.1 hno.1)]
      rw [hkeepOther r hr]
      exact (h.next hqueue hin hold hlive (hother r _ hr)).mono (hdata _)

/-- A new subscriber does not find a stale status that no queued block corrects. -/
def FindsCurrent (s : State R) (x : Nat) : Prop :=
  ∀ subscriber ∈ s.subscribers[x]?, subscriber.live →
    ∀ k ∈ s.kept subscriber.resource, Stale s subscriber.resource k →
      StatusBlock.progress subscriber.resource .statusLocal ∈ s.statusQueue

instance (s : State R) (x : Nat) : Decidable (FindsCurrent s x) := by
  unfold FindsCurrent
  infer_instance

/-- The block of a new subscriber. -/
theorem Informed.subscribe (h : Informed s) {x : Nat}
    (hqueue : s.statusQueue = .subscribe x :: rest) (hfinds : FindsCurrent s x) :
    Informed (({ s with statusQueue := rest } : State R).subscribe x) := by
  have hlt : x < s.subscribers.length := h.known x (.inl (by simp [hqueue]))
  obtain ⟨subscriber, hx⟩ : ∃ subscriber, s.subscribers[x]? = some subscriber :=
    ⟨_, List.getElem?_eq_getElem hlt⟩
  generalize ht : ({ s with statusQueue := rest } : State R) = t
  have hsubscribers : t.subscribers = s.subscribers := by rw [← ht]
  have hcontexts : t.statusContexts = s.statusContexts := by rw [← ht]
  have hkept : ∀ r, t.kept r = s.kept r := by
    intro r
    unfold State.kept
    rw [hcontexts]
  have htx : t.subscribers[x]? = some subscriber := by rw [hsubscribers, hx]
  have hkeeps := subscribe_keeps htx
  have hadded : ∀ q, (t.addItem x subscriber.resource).statusContexts q =
      if q = subscriber.resource then some { (s.statusContexts q).getD {} with
        subscribers := ((s.statusContexts q).getD {}).subscribers ++ [x] }
      else s.statusContexts q := by
    intro q
    unfold State.addItem
    rw [hcontexts]
    by_cases hq : q = subscriber.resource <;> simp [hq]
  have hstep : StatusStep s (t.addItem x subscriber.resource) (.subscribe x) rest := {
    queue := hqueue
    data := by
      rw [ht]
      exact ⟨rfl, rfl, rfl, rfl, rfl, fun _ hb => hb⟩
    subscribers := hsubscribers
    holds := by
      intro q y
      unfold State.Holds
      rw [hadded]
      by_cases hq : q = subscriber.resource
      · subst hq
        cases hcontext : s.statusContexts subscriber.resource with
        | none => grind
        | some context => grind
      · grind
    kept := by
      intro q
      left
      show (t.addItem x subscriber.resource).kept q = s.kept q
      rw [State.kept, hadded]
      by_cases hq : q = subscriber.resource
      · rw [if_pos hq]
        exact kept_getD s q
      · rw [if_neg hq]
        rfl }
  refine h.of_step hstep hkeeps ?_
  intro r y old new hold hlive hresource hnew _ hplace
  have hdata : ∀ b ∈ s.dataQueue, b ∈ (t.subscribe x).dataQueue := by
    intro b hb
    apply hkeeps.data.dataQueue b
    rw [← ht]
    exact hb
  rw [subscribe_subscribers htx, hsubscribers, hkept, hold] at hnew
  cases hnew
  show Knows _ _ (hearAll r ⟨s.kept r, _⟩ rest)
  by_cases hyx : y = x
  · subst hyx
    rw [hx] at hold
    cases hold
    subst hresource
    dsimp only
    rw [if_pos ⟨rfl, hlive⟩]
    have hfound : Finds s subscriber.resource rest (s.kept subscriber.resource) :=
      h.upcoming [] y rest subscriber _ hqueue hx hlive (Arises.self _ _)
    have hasks := subscribe_asks htx
    rw [hkept] at hasks
    cases hk : s.kept subscriber.resource with
    | none =>
      rw [hk] at hfound
      exact (hfound _).mono fun _ => hasks hk
    | some k =>
      rw [hk] at hfound
      rcases hfound with hstale | hknows
      · have hlocal := hfinds subscriber hx hlive k hk hstale
        rw [hqueue] at hlocal
        rw [hearAll_local (List.mem_of_ne_of_mem (by simp) hlocal)]
        trivial
      · exact hknows.mono False.elim
  · dsimp only
    rw [if_neg fun hno => hyx hno.1]
    have hin : s.Holds r y := hplace.resolve_right fun hno => hyx (by cases hno; rfl)
    exact (h.next hqueue hin hold hlive rfl).mono (hdata _)

theorem Informed.performStatus (h : Informed s) (hqueue : s.statusQueue = block :: rest)
    (hfinds : ∀ x, block = .subscribe x → FindsCurrent s x) :
    Informed (({ s with statusQueue := rest } : State R).performStatus block) := by
  have hkept : ∀ {r context}, s.statusContexts r = some context → s.kept r = context.status := by
    intro r context hcontext
    simp [State.kept, hcontext]
  unfold State.performStatus
  cases block with
  | subscribe x => exact h.subscribe hqueue (hfinds x rfl)
  | remove x =>
    have hlt : x < s.subscribers.length := h.known x (.inr (.inl (by simp [hqueue])))
    have hx := List.getElem?_eq_getElem hlt
    dsimp only
    rw [hx]
    refine h.skip hqueue (fun _ => by simp) (fun _ _ _ => rfl) (removeItem_keeps _ x _ ?_)
      (removeItem_subscribers _ x _)
    exact fun subscriber => h.removed x subscriber (by simp [hqueue])
  | fetching q =>
    have hother : ∀ r v, r ≠ q → hear r v (.fetching q) = some v := fun r v hr =>
      if_neg (Ne.symm hr)
    dsimp only
    cases hcontext : s.statusContexts q with
    | none => exact h.absent hqueue (fun _ => by simp) hcontext hother
    | some context =>
      exact h.tell hqueue (fun _ => by simp) hcontext hother (fun _ => if_pos rfl) (if_pos rfl)
  | progress q status =>
    have hother : ∀ r v, r ≠ q → hear r v (.progress q status) = some v := fun r v hr =>
      if_neg (Ne.symm hr)
    dsimp only
    cases hcontext : s.statusContexts q with
    | none => exact h.absent hqueue (fun _ => by simp) hcontext hother
    | some context =>
      have htold := h.tell hqueue (fun _ => by simp) hcontext hother (fun _ => if_pos rfl) rfl
      rwa [Function.update_eq_self_iff.2 hcontext.symm] at htold
  | changed q status =>
    have hother : ∀ r v, r ≠ q → hear r v (.changed q status) = some v := fun r v hr =>
      if_neg fun hno => hr hno.1.symm
    dsimp only
    cases hcontext : s.statusContexts q with
    | none => exact h.absent hqueue (fun _ => by simp) hcontext hother
    | some context =>
      dsimp only
      split
      · rename_i hne
        exact h.tell hqueue (fun _ => by simp) hcontext hother (fun _ => if_pos ⟨rfl, hne⟩)
          (if_pos rfl)
      · refine h.skip hqueue (fun _ => by simp) (fun r _ _ => if_neg ?_) (Keeps.refl _) rfl
        grind
  | found q status =>
    have hother : ∀ r v, r ≠ q → hear r v (.found q status) = some v := fun r v hr =>
      if_neg fun hno => hr hno.1.symm
    dsimp only
    cases hcontext : s.statusContexts q with
    | none => exact h.absent hqueue (fun _ => by simp) hcontext hother
    | some context =>
      dsimp only
      split
      · rename_i hnone
        exact h.tell hqueue (fun _ => by simp) hcontext hother
          (fun _ => if_pos ⟨rfl, hnone⟩) (if_pos ⟨rfl, hnone⟩)
      · refine h.skip hqueue (fun _ => by simp) (fun r _ _ => if_neg ?_) (Keeps.refl _) rfl
        grind

end StatusQueue

end TelegramPub.Ports.ResourceStatus
