import TelegramPub.Ports.ResourceViews

/-!
# What is put on the status queue

A step of the data queue changes the status of a resource and puts blocks on the status queue.
If these tell the change to the subscribers (`Tells`), and make contexts keep the new status
while the complete file is not linked (`Settles`), the invariant holds again.
`Informed.of_growth` says this for all steps that put blocks on the status queue.
-/

namespace TelegramPub.Ports.ResourceStatus

variable {R : Type*} [DecidableEq R]

/-! ## Blocks that tell a change -/

/-- Blocks that tell the subscribers of a resource a change of its status. -/
structure Tells (r : R) (status status' : Status) (blocks : List (StatusBlock R)) : Prop where
  told : Knows status' False (hearAll r ⟨some status, some status⟩ blocks)
  awaited : ∀ last, Knows status' True (hearAll r ⟨none, last⟩ blocks)
  completed : status ≠ .statusLocal → status' = .statusLocal → ∀ v, hearAll r v blocks = none

variable {r : R} {status status' : Status}

/-- What a subscriber knows that hears such blocks. -/
theorem Knows.tells {blocks : List (StatusBlock R)} {awaited : Prop} {v : Option View}
    (h : Knows status awaited v) (htells : Tells r status status' blocks) :
    Knows status' awaited (v.bind fun w => hearAll r w blocks) := by
  cases v with
  | none => trivial
  | some v =>
    rcases h with rfl | ⟨hnone, hawaited⟩
    · exact htells.told.mono False.elim
    · obtain ⟨kept, last⟩ := v
      subst hnone
      exact (htells.awaited last).mono fun _ => hawaited

theorem Knows.answered {blocks : List (StatusBlock R)} {awaited : Prop} {v : Option View}
    (h : Knows status awaited v) (htells : Tells r status status' blocks)
    (hanswer : ∀ last, Knows status' False (hearAll r ⟨none, last⟩ blocks)) :
    Knows status' False (v.bind fun w => hearAll r w blocks) := by
  cases v with
  | none => trivial
  | some v =>
    rcases h with rfl | ⟨hnone, _⟩
    · exact htells.told
    · obtain ⟨kept, last⟩ := v
      subst hnone
      exact hanswer last

theorem Tells.refl (r : R) (status : Status) : Tells r status status [] where
  told := .inl rfl
  awaited := fun _ => .inr ⟨rfl, trivial⟩
  completed := fun hne heq => absurd heq hne

theorem Tells.trans {a b c : Status} {xs ys : List (StatusBlock R)} (h : Tells r a b xs)
    (h' : Tells r b c ys) : Tells r a c (xs ++ ys) where
  told := by
    rw [hearAll_append]
    exact h.told.tells h'
  awaited := by
    intro last
    rw [hearAll_append]
    exact (h.awaited last).tells h'
  completed := by
    intro hne heq v
    rw [hearAll_append]
    by_cases hb : b = .statusLocal
    · rw [h.completed hne hb v]
      rfl
    · cases hearAll r v xs with
      | none => rfl
      | some w => exact h'.completed hb heq w

theorem hearAll_singleton (r : R) (v : View) (block : StatusBlock R) :
    hearAll r v [block] = hear r v block := by
  rw [hearAll_cons]
  cases hear r v block <;> rfl

variable {block : StatusBlock R}

theorem Tells.of_silent (status : Status) (hsilent : ∀ v, hear r v block = some v)
    : Tells r status status [block] where
  told := by
    rw [hearAll_singleton, hsilent]
    exact .inl rfl
  awaited := by
    intro last
    rw [hearAll_singleton, hsilent]
    exact .inr ⟨rfl, trivial⟩
  completed := fun hne heq => absurd heq hne

theorem Tells.fetching (r : R) (status : Status) :
    Tells r status .statusFetching [.fetching r] where
  told := by simp [hearAll_singleton, hear, Knows]
  awaited := by simp [hearAll_singleton, hear, Knows]
  completed := fun _ hno => by cases hno

theorem Tells.progress_local (r : R) (status status' : Status) :
    Tells r status status' [.progress r .statusLocal] where
  told := by simp [hearAll_singleton, hear, View.told, Knows]
  awaited := by simp [hearAll_singleton, hear, View.told, Knows]
  completed := by simp [hearAll_singleton, hear, View.told]

theorem Tells.progress_fetching (r : R) :
    Tells r .statusFetching .statusFetching [.progress r .statusFetching] where
  told := by simp [hearAll_singleton, hear, View.told, Knows]
  awaited := by simp [hearAll_singleton, hear, View.told, Knows]
  completed := fun _ hno => by cases hno

/-- A fetch is dropped, which makes no file complete. -/
theorem Tells.changed (r : R) {k : Status} (hlocal : status = .statusLocal ↔ status' = .statusLocal)
    (hk : k = status' ∨ k = .statusLocal) : Tells r status status' [.changed r k] where
  told := by
    rw [hearAll_singleton]
    grind [hear, View.told, Knows]
  awaited := by
    intro last
    rw [hearAll_singleton]
    grind [hear, View.told, Knows]
  completed := fun hne heq => absurd (hlocal.2 heq) hne

theorem hear_found (r : R) (status : Status) (last : Option Status) :
    Knows status False (hearAll r ⟨none, last⟩ [.found r status]) := by
  rw [hearAll_singleton]
  grind [hear, View.told, Knows]

theorem Tells.found (r : R) (status : Status) : Tells r status status [.found r status] where
  told := by
    rw [hearAll_singleton]
    simp [hear, Knows]
  awaited := fun last => (hear_found r status last).mono False.elim
  completed := fun hne heq => absurd heq hne

/-! ## Blocks that settle what is kept -/

/-- Blocks after which a context keeps the new status, if it kept the old one or none. -/
def Settles (r : R) (status status' : Status) (blocks : List (StatusBlock R)) : Prop :=
  ∀ kept k, (∀ j, kept = some j → j = status) → Arises r kept blocks (some k) → k = status'

theorem Settles.refl (r : R) (status : Status) : Settles r status status [] := by
  intro kept k hkept harises
  rcases harises with heq | hno
  · exact hkept k heq.symm
  · cases hno

theorem Settles.trans {a b c : Status} {xs ys : List (StatusBlock R)} (h : Settles r a b xs)
    (h' : Settles r b c ys) : Settles r a c (xs ++ ys) := by
  intro kept k hkept harises
  obtain ⟨mid, hmid, harises⟩ := Arises.of_append harises
  exact h' mid k (fun j hj => h kept j hkept (hj ▸ hmid)) harises

/-- A single block. -/
theorem Settles.of_keep (hnone : ∀ k, keep r none block = some k → k = status')
    (hsome : ∀ k, keep r (some status) block = some k → k = status') :
    Settles r status status' [block] := by
  intro kept k hkept harises
  have hkeep : keep r kept block = some k := by
    rcases harises with (h | h) | h | h
    · exact h.symm
    all_goals cases h
  cases kept with
  | none => exact hnone k hkeep
  | some j =>
    rw [hkept j rfl] at hkeep
    exact hsome k hkeep

theorem Settles.of_silent (status : Status) (hsilent : ∀ kept, keep r kept block = kept)
    : Settles r status status [block] :=
  Settles.of_keep (fun k hk => by rw [hsilent] at hk; cases hk) fun k hk => by
    rw [hsilent] at hk
    exact (Option.some.inj hk).symm

section Growth

variable {s s' : State R} {blocks : List (StatusBlock R)}

/-- A live subscriber of the resource is in its context or will be. -/
def State.Watched (s : State R) (r : R) : Prop :=
  ∃ x < s.subscribers.length, ∃ subscriber ∈ s.subscribers[x]?,
    (subscriber.live ∧ subscriber.resource = r) ∧
      (x ∈ ((s.statusContexts r).elim [] Context.subscribers) ∨
        StatusBlock.subscribe x ∈ s.statusQueue)

instance (s : State R) (r : R) : Decidable (s.Watched r) := by
  unfold State.Watched
  infer_instance

omit [DecidableEq R] in
theorem State.Watched.intro {s : State R} {x : Nat} {subscriber : Subscriber R}
    (hx : s.subscribers[x]? = some subscriber) (hlive : subscriber.live)
    (hplace : s.Holds subscriber.resource x ∨ StatusBlock.subscribe x ∈ s.statusQueue) :
    s.Watched subscriber.resource := by
  refine ⟨x, (List.getElem?_eq_some_iff.1 hx).1, subscriber, hx, ⟨hlive, rfl⟩, ?_⟩
  refine hplace.imp_left fun hholds => ?_
  obtain ⟨context, hcontext, hin⟩ := hholds
  rw [hcontext]
  exact hin

/-- A step that puts blocks on the status queue. -/
structure Growth (s s' : State R) (blocks : List (StatusBlock R)) : Prop where
  statusContexts : s'.statusContexts = s.statusContexts
  statusQueue : s'.statusQueue = s.statusQueue ++ blocks
  subscribers : ∀ (x : Nat) (subscriber' : Subscriber R), s'.subscribers[x]? = some subscriber' →
    subscriber'.live → s.subscribers[x]? = some subscriber' ∨ s.subscribers.length ≤ x
  resource : ∀ (x : Nat) (subscriber : Subscriber R), s.subscribers[x]? = some subscriber →
    ∃ subscriber', s'.subscribers[x]? = some subscriber' ∧
      subscriber'.resource = subscriber.resource
  placed : ∀ (x : Nat) (subscriber' : Subscriber R), s'.subscribers[x]? = some subscriber' →
    subscriber'.live → (∃ looked, (x, looked) ∈ s.concurrentQueue) ∨ s.subscribers.length ≤ x →
    (∃ looked, (x, looked) ∈ s'.concurrentQueue) ∨ StatusBlock.subscribe x ∈ blocks
  alone : ∀ x, StatusBlock.subscribe x ∈ blocks → blocks = [StatusBlock.subscribe x]
  removed : ∀ (x : Nat) (subscriber' : Subscriber R), StatusBlock.remove x ∈ blocks →
    s'.subscribers[x]? = some subscriber' → subscriber'.live = false
  known : ∀ x, StatusBlock.subscribe x ∈ blocks ∨ StatusBlock.remove x ∈ blocks ∨
    (∃ looked, (x, looked) ∈ s'.concurrentQueue) → x < s'.subscribers.length
  complete : ∀ r, s.box.complete r → s'.box.complete r
  tells : ∀ r, s.Watched r → Tells r (s.status r) (s'.status r) blocks
  settles : ∀ r, s'.box.complete r = false → Settles r (s.status r) (s'.status r) blocks
  asked : ∀ r, s.Watched r → DataBlock.status r ∈ s.dataQueue →
    DataBlock.status r ∈ s'.dataQueue ∨
      ∀ last, Knows (s'.status r) False (hearAll r ⟨none, last⟩ blocks)

/-- What a subscriber finds, when more is told. -/
theorem Finds.tells {r : R} {post : List (StatusBlock R)} {c : Option Status}
    (h : Finds s r post c) (htells : Tells r (s.status r) (s'.status r) blocks)
    (hcomplete : s.box.complete r → s'.box.complete r) : Finds s' r (post ++ blocks) c := by
  cases c with
  | none =>
    intro last
    rw [hearAll_append]
    exact (h last).tells htells
  | some k =>
    by_cases hstale' : Stale s' r k
    · exact .inl hstale'
    right
    rw [hearAll_append]
    rcases h with hstale | hknows
    · have hlocal : k = .statusLocal ∧ s'.status r = .statusLocal :=
        not_not.1 fun hno => hstale' ⟨hcomplete hstale.1, hno⟩
      have hnone := htells.completed (fun hno => hstale.2 ⟨hlocal.1, hno⟩) hlocal.2
      cases hearAll r ⟨some k, some k⟩ post with
      | none => trivial
      | some w =>
        rw [Option.bind_some, hnone]
        trivial
    · exact hknows.tells htells

/-- Where an element of a queue was before it grew. -/
theorem append_eq_split {α : Type*} {xs ys pre post : List α} {a : α}
    (h : xs ++ ys = pre ++ a :: post) :
    (∃ rest, xs = pre ++ a :: rest ∧ post = rest ++ ys) ∨
      ∃ rest, pre = xs ++ rest ∧ ys = rest ++ a :: post := by
  rcases List.append_eq_append_iff.1 h with ⟨rest, hpre, hys⟩ | ⟨rest, hxs, hrest⟩
  · exact .inr ⟨rest, hpre, hys⟩
  · cases rest with
    | nil => exact .inr ⟨[], by simpa using hxs.symm, by simpa using hrest.symm⟩
    | cons b rest =>
      grind

/-- Such a step keeps the invariant. -/
theorem Informed.of_growth (h : Informed s) (hgrowth : Growth s s' blocks) : Informed s' := by
  have hkept : ∀ r, s'.kept r = s.kept r := by
    intro r
    unfold State.kept
    rw [hgrowth.statusContexts]
  have hholds : ∀ r x, s'.Holds r x ↔ s.Holds r x := by
    intro r x
    unfold State.Holds
    rw [hgrowth.statusContexts]
  have hold : ∀ x subscriber', s'.subscribers[x]? = some subscriber' → subscriber'.live →
      x < s.subscribers.length → s.subscribers[x]? = some subscriber' := by
    intro x subscriber' hx hlive hlt
    exact (hgrowth.subscribers x subscriber' hx hlive).resolve_right (Nat.not_le.2 hlt)
  have hlt : ∀ r x, s.Holds r x → x < s.subscribers.length := by
    intro r x hin
    obtain ⟨_, hx, _⟩ := h.owner r x hin
    exact (List.getElem?_eq_some_iff.1 hx).1
  refine {
    registered := ?_
    upcoming := ?_
    current := ?_
    owner := ?_
    placed := ?_
    removed := ?_
    known := ?_ }
  · intro r x subscriber' hin' hx hlive
    have hin : s.Holds r x := (hholds r x).1 hin'
    have hx' := hold x subscriber' hx hlive (hlt r x hin)
    obtain ⟨owned, howned, hresource⟩ := h.owner r x hin
    rw [hx'] at howned
    cases howned
    have hwatched : s.Watched r := hresource ▸ State.Watched.intro hx' hlive
      (.inl (hresource.symm ▸ hin))
    have hknows := h.registered r x subscriber' hin hx' hlive
    rw [hkept, hgrowth.statusQueue, hearAll_append]
    by_cases hasked : DataBlock.status r ∈ s.dataQueue
    · rcases hgrowth.asked r hwatched hasked with hstill | hanswer
      · exact (hknows.tells (hgrowth.tells r hwatched)).mono fun _ => hstill
      · exact (hknows.answered (hgrowth.tells r hwatched) hanswer).mono False.elim
    · exact (hknows.tells (hgrowth.tells r hwatched)).mono fun hno => absurd hno hasked
  · intro pre x post subscriber' c hpre hx hlive harises
    rw [hkept] at harises
    rw [hgrowth.statusQueue] at hpre
    rcases append_eq_split hpre with ⟨rest, hqueue, rfl⟩ | ⟨rest, rfl, hblocks⟩
    · have hmem : StatusBlock.subscribe x ∈ s.statusQueue := by rw [hqueue]; simp
      have hx' := hold x subscriber' hx hlive (h.known x (.inl hmem))
      have hwatched := State.Watched.intro hx' hlive (.inr hmem)
      exact (h.upcoming pre x rest subscriber' c hqueue hx' hlive harises).tells
        (hgrowth.tells _ hwatched) (hgrowth.complete _)
    · have hmem : StatusBlock.subscribe x ∈ blocks := by rw [hblocks]; simp
      have halone := hgrowth.alone x hmem
      rw [halone] at hblocks
      obtain ⟨rfl, rfl⟩ : rest = [] ∧ post = [] := by
        cases rest with
        | nil => simpa using hblocks
        | cons b rest => simp at hblocks
      rw [List.append_nil] at harises
      cases c with
      | none => exact fun last => .inr ⟨rfl, trivial⟩
      | some k =>
        by_cases hstale : Stale s' subscriber'.resource k
        · exact .inl hstale
        refine .inr (.inl ?_)
        have hk : k = s'.status subscriber'.resource := by
          cases hcomplete : s'.box.complete subscriber'.resource with
          | false =>
            have hsettles := hgrowth.settles _ hcomplete
            rw [halone] at hsettles
            refine hsettles (some k) k (fun j hj => ?_) (.inl (.inl rfl))
            cases hj
            refine h.current _ k harises ?_
            cases hc : s.box.complete subscriber'.resource with
            | false => rfl
            | true => simp [hgrowth.complete _ hc] at hcomplete
          | true =>
            obtain ⟨hlocal, hstatus⟩ := not_not.1 fun hno => hstale ⟨hcomplete, hno⟩
            rw [hlocal, hstatus]
        rw [← hk]
  · intro r k harises hcomplete'
    rw [hkept, hgrowth.statusQueue] at harises
    have hcomplete : s.box.complete r = false := by
      cases hc : s.box.complete r with
      | false => rfl
      | true => simp [hgrowth.complete r hc] at hcomplete'
    obtain ⟨mid, hmid, harises⟩ := Arises.of_append harises
    refine hgrowth.settles r hcomplete' mid k (fun j hj => ?_) harises
    exact h.current r j (hj ▸ hmid) hcomplete
  · intro r x hin
    obtain ⟨subscriber, hx, hresource⟩ := h.owner r x ((hholds r x).1 hin)
    obtain ⟨subscriber', hx', hresource'⟩ := hgrowth.resource x subscriber hx
    exact ⟨subscriber', hx', hresource'.trans hresource⟩
  · intro x subscriber' hx hlive
    rw [hholds, hgrowth.statusQueue]
    rcases hgrowth.subscribers x subscriber' hx hlive with hx' | hnew
    · rcases h.placed x subscriber' hx' hlive with hconcurrent | hsubscribe | hin
      · rcases hgrowth.placed x subscriber' hx hlive (.inl hconcurrent) with hplace | hplace
        · exact .inl hplace
        · exact .inr (.inl (List.mem_append_right _ hplace))
      · exact .inr (.inl (List.mem_append_left _ hsubscribe))
      · exact .inr (.inr hin)
    · rcases hgrowth.placed x subscriber' hx hlive (.inr hnew) with hplace | hplace
      · exact .inl hplace
      · exact .inr (.inl (List.mem_append_right _ hplace))
  · intro x subscriber' hremove hx
    rw [hgrowth.statusQueue] at hremove
    rcases List.mem_append.1 hremove with hremove | hremove
    · cases hlive : subscriber'.live with
      | false => rfl
      | true =>
        have hx' := hold x subscriber' hx hlive (h.known x (.inr (.inl hremove)))
        exact absurd (h.removed x subscriber' hremove hx') (by simp [hlive])
    · exact hgrowth.removed x subscriber' hremove hx
  · intro x hx
    have hbefore : x < s.subscribers.length → x < s'.subscribers.length := by
      intro hlt
      obtain ⟨_, hx', _⟩ := hgrowth.resource x _ (List.getElem?_eq_getElem hlt)
      exact (List.getElem?_eq_some_iff.1 hx').1
    rw [hgrowth.statusQueue, List.mem_append, List.mem_append] at hx
    rcases hx with (hold | hnew) | (hold | hnew) | hconcurrent
    · exact hbefore (h.known x (.inl hold))
    · exact hgrowth.known x (.inl hnew)
    · exact hbefore (h.known x (.inr (.inl hold)))
    · exact hgrowth.known x (.inr (.inl hnew))
    · exact hgrowth.known x (.inr (.inr hconcurrent))

end Growth

end TelegramPub.Ports.ResourceStatus
