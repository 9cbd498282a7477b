import TelegramPub.Ports.SecretMessageRuns

/-!
# One poll over several actions, and a poll for each

A poll gathers all messages before it looks at the other actions.  So in one poll a deletion
also meets the messages that come after it, a flush misses the screenshots before it, and of
the messages with one random id all are stored.  When the messages are still the same is
`BatchAgrees`: it is about what the actions say and the random ids that are in the table
(`sameMessages_iff`).
-/

namespace TelegramPub.Ports.SecretHistory

open Verified Verified.KeyedQueue Ports.SecretIncoming

variable {δ ε β : Type}

/-- The stored messages are the same.  Which ids of their own they have does not count. -/
def SameMessages (h h' : History β) : Prop :=
  (h.messages.map fun row => (row.cid, row.message)).Perm
    (h'.messages.map fun row => (row.cid, row.message))

/-! ## What a list of actions says -/

def flushStep (items : List (Said β)) : Said β → List (Said β)
  | .flush => []
  | item => items ++ [item]

/-- The actions behind the last flush. -/
def afterFlush (items : List (Said β)) : List (Said β) := items.foldl flushStep []

theorem afterFlush_append_singleton (items : List (Said β)) (item : Said β) :
    afterFlush (items ++ [item]) = flushStep (afterFlush items) item := List.foldl_append

/-- The messages with a random id. -/
def messagesWith (r : Int) (items : List (Said β)) : List (Message β) :=
  items.filterMap fun
    | .message m => if m.randomId = r then some m else none
    | _ => none

def screenshots (items : List (Said β)) : List (Message β) :=
  items.filterMap fun
    | .screenshot randomIds date => some (screenshotMessage randomIds date)
    | _ => none

/-- How often the deletions name a random id. -/
def namings (r : Int) (items : List (Said β)) : Nat :=
  (items.flatMap fun
    | .deletion randomIds => randomIds
    | _ => []).count r

/-- A stored message with the random id is deleted. -/
def Said.Removes (r : Int) : Said β → Prop
  | .deletion randomIds => r ∈ randomIds.take 128
  | .flush => True
  | _ => False

/-- One poll leaves the messages that polls after each action leave. -/
structure BatchAgrees (known : Int → Bool) (items : List (Said β)) : Prop where
  /-- The first message with a new random id that is deleted later: the deletions name the
  random id as often as messages with it are gathered. -/
  removed : ∀ front m back, items = front ++ .message m :: back → m.randomId ≠ 0 →
    known m.randomId = false → messagesWith m.randomId front = [] →
    (∃ item ∈ back, item.Removes m.randomId) →
    (messagesWith m.randomId (afterFlush items)).length ≤ namings m.randomId items
  /-- One that is not: it is the only one, and no deletion names its random id. -/
  kept : ∀ front m back, items = front ++ .message m :: back → m.randomId ≠ 0 →
    known m.randomId = false → messagesWith m.randomId front = [] →
    (∀ item ∈ back, ¬ item.Removes m.randomId) →
    messagesWith m.randomId back = [] ∧ namings m.randomId items = 0
  /-- Messages without a random id: no screenshot is flushed, and no deletion names zero. -/
  withoutId : messagesWith 0 (afterFlush items) ≠ [] →
    screenshots items = screenshots (afterFlush items) ∧ namings 0 items = 0
  /-- Only screenshots: as many are named by deletions behind them as are flushed. -/
  onlyScreenshots : messagesWith 0 (afterFlush items) = [] →
    (∀ front back, items = front ++ back →
      (screenshots back).length ≤ (screenshots (afterFlush items)).length + namings 0 back) ∧
    ∃ front back, items = front ++ back ∧
      (screenshots back).length = (screenshots (afterFlush items)).length + namings 0 back

section Queue

variable (r : Int)

/-- The operations on the queue of a random id. -/
def opsOf (items : List (Said β)) : List (Option (Message β)) :=
  (items.flatMap queueOps).filterMap (about (·.randomId) r)

theorem opsOf_append (items items' : List (Said β)) :
    opsOf r (items ++ items') = opsOf r items ++ opsOf r items' := by
  unfold opsOf
  rw [List.flatMap_append, List.filterMap_append]

theorem opsOf_cons (item : Said β) (items : List (Said β)) :
    opsOf r (item :: items) = opsOf r [item] ++ opsOf r items := opsOf_append r [item] items

theorem opsOf_deletion (randomIds : List Int) :
    opsOf r [(.deletion randomIds : Said β)] = List.replicate (randomIds.count r) none := by
  show (randomIds.map Op.erase ++ []).filterMap (about (fun m : Message β => m.randomId) r) = _
  rw [List.append_nil]
  induction randomIds with
  | nil => rfl
  | cons r' randomIds ih =>
    rw [List.map_cons, List.filterMap_cons, ih, List.count_cons]
    by_cases hr : r' = r
    · simp [about, hr, List.replicate_succ]
    · simp [about, hr]

theorem taken_opsOf (items : List (Said β)) : taken (opsOf r items) = namings r items := by
  induction items with
  | nil => rfl
  | cons item items ih =>
    rw [opsOf_cons, taken_append, ih]
    unfold namings
    rw [List.flatMap_cons, List.count_append]
    congr 1
    cases item with
    | deletion randomIds =>
      rw [opsOf_deletion]
      simp [KeyedQueue.taken, List.countP_replicate]
    | screenshot randomIds date =>
      by_cases hr : 0 = r <;> simp [opsOf, queueOps, about, screenshotMessage, hr]
    | message m => rfl
    | flush => rfl
    | nothing => rfl

theorem pushed_opsOf (items : List (Said β)) :
    pushed (opsOf r items) = if r = 0 then screenshots items else [] := by
  induction items with
  | nil => simp [opsOf, screenshots]
  | cons item items ih =>
    rw [opsOf_cons, pushed_append, ih]
    cases item with
    | deletion randomIds =>
      rw [opsOf_deletion]
      by_cases hr : r = 0 <;> simp [pushed, screenshots, hr]
    | screenshot randomIds date =>
      by_cases hr : r = 0
      · simp [opsOf, queueOps, about, screenshotMessage, screenshots, hr]
      · have hne : ¬ (0 : Int) = r := fun h => hr h.symm
        simp [opsOf, queueOps, about, screenshotMessage, hr, hne]
    | message m => rfl
    | flush => rfl
    | nothing => rfl

theorem filter_collect (items : List (Said β)) :
    (items.foldl collect []).filter (·.randomId = r) = messagesWith r (afterFlush items) := by
  induction items using List.reverseRecOn with
  | nil => rfl
  | append_singleton items item ih =>
    rw [List.foldl_append, afterFlush_append_singleton]
    cases item with
    | message m =>
      show (items.foldl collect [] ++ [m]).filter _ =
        messagesWith r (afterFlush items ++ [Said.message m])
      rw [List.filter_append, ih]
      by_cases hr : m.randomId = r <;> simp [messagesWith, hr]
    | flush => rfl
    | screenshot randomIds date => simpa [messagesWith, flushStep, collect] using ih
    | deletion randomIds => simpa [messagesWith, flushStep, collect] using ih
    | nothing => simpa [messagesWith, flushStep, collect] using ih

/-- The messages with a random id that are added. -/
theorem filter_added (items : List (Said β)) :
    (added items).filter (·.randomId = r) =
      drain (messagesWith r (afterFlush items)) (opsOf r items) := by
  unfold added
  rw [filter_run, filter_collect]
  rfl

/-- With a random id nothing comes into the queue: the first messages are lost. -/
theorem filter_added_of_ne (hr : r ≠ 0) (items : List (Said β)) :
    (added items).filter (·.randomId = r) =
      (messagesWith r (afterFlush items)).drop (namings r items) := by
  rw [filter_added, drain_of_pushed_eq_nil, taken_opsOf]
  rw [pushed_opsOf, if_neg hr]

end Queue

section Kept

theorem keepStep_zero (items : List (Said β)) :
    ∃ l, items.foldl (keepStep 0) (false, []) = (false, l) ∧
      l.Perm (messagesWith 0 (afterFlush items) ++ screenshots (afterFlush items)) := by
  induction items using List.reverseRecOn with
  | nil => exact ⟨[], rfl, List.Perm.refl _⟩
  | append_singleton items item ih =>
    obtain ⟨l, hl, hperm⟩ := ih
    rw [List.foldl_append, hl, afterFlush_append_singleton]
    cases item with
    | message m =>
      by_cases hm : m.randomId = 0
      · refine ⟨l ++ [m], by simp [keepStep, hm], ?_⟩
        have hmessages : messagesWith 0 (afterFlush items ++ [Said.message m]) =
            messagesWith 0 (afterFlush items) ++ [m] := by simp [messagesWith, hm]
        have hshots : screenshots (afterFlush items ++ [Said.message m]) =
            screenshots (afterFlush items) := by simp [screenshots]
        show (l ++ [m]).Perm (messagesWith 0 (afterFlush items ++ [Said.message m]) ++
          screenshots (afterFlush items ++ [Said.message m]))
        rw [hmessages, hshots, List.append_assoc]
        have h := hperm.append_right [m]
        rw [List.append_assoc] at h
        exact h.trans (List.Perm.append_left _ List.perm_append_comm)
      · exact ⟨l, by simp [keepStep, hm], by
          simpa [messagesWith, screenshots, flushStep, hm] using hperm⟩
    | screenshot randomIds date =>
      refine ⟨l ++ [screenshotMessage randomIds date], by simp [keepStep], ?_⟩
      have h := hperm.append_right [screenshotMessage randomIds date]
      simpa [messagesWith, screenshots, flushStep] using h
    | deletion randomIds =>
      exact ⟨l, by simp [keepStep], by
        simpa [messagesWith, screenshots, flushStep] using hperm⟩
    | flush => exact ⟨[], rfl, List.Perm.refl _⟩
    | nothing =>
      exact ⟨l, rfl, by simpa [messagesWith, screenshots, flushStep] using hperm⟩

variable {r : Int} (hr : r ≠ 0)
include hr

/-- Nothing is stored before the first message. -/
theorem keepStep_of_none : ∀ {items : List (Said β)}, messagesWith r items = [] →
    items.foldl (keepStep r) (false, []) = (false, []) := by
  intro items
  induction items with
  | nil => intro _; rfl
  | cons item items ih =>
    intro hnone
    cases item with
    | message m =>
      by_cases hm : m.randomId = r
      · simp [messagesWith, hm] at hnone
      · rw [List.foldl_cons]
        simpa [keepStep, hm] using ih (by simpa [messagesWith, hm] using hnone)
    | screenshot randomIds date =>
      rw [List.foldl_cons]
      simpa [keepStep, hr] using ih (by simpa [messagesWith] using hnone)
    | deletion randomIds => exact ih (by simpa [messagesWith] using hnone)
    | flush => exact ih (by simpa [messagesWith] using hnone)
    | nothing => exact ih (by simpa [messagesWith] using hnone)

variable {l : List (Message β)}

theorem keepStep_of_not_removes {item : Said β} (h : ¬ item.Removes r) :
    keepStep r (true, l) item = (true, l) := by
  cases item with
  | message m => simp [keepStep]
  | screenshot randomIds date => simp [keepStep, hr]
  | deletion randomIds =>
    have hmem : r ∉ randomIds.take 128 := h
    simp [keepStep, hmem]
  | flush => exact absurd trivial h
  | nothing => rfl

omit hr in
theorem keepStep_of_removes {item : Said β} (h : item.Removes r) :
    keepStep r (true, l) item = (true, []) := by
  cases item with
  | message m => exact h.elim
  | screenshot randomIds date => exact h.elim
  | deletion randomIds =>
    have hmem : r ∈ randomIds.take 128 := h
    simp [keepStep, hmem]
  | flush => rfl
  | nothing => exact h.elim

theorem keepStep_of_known (items : List (Said β)) :
    items.foldl (keepStep r) (true, []) = (true, []) := by
  induction items with
  | nil => rfl
  | cons item items ih =>
    by_cases h : item.Removes r
    · rw [List.foldl_cons, keepStep_of_removes h, ih]
    · rw [List.foldl_cons, keepStep_of_not_removes hr h, ih]

theorem keepStep_of_not_removed {items : List (Said β)}
    (h : ∀ item ∈ items, ¬ item.Removes r) : items.foldl (keepStep r) (true, l) = (true, l) := by
  induction items with
  | nil => rfl
  | cons item items ih =>
    rw [List.foldl_cons, keepStep_of_not_removes hr (h item (.head _)),
      ih fun i hi => h i (.tail item hi)]

theorem keepStep_of_removed {items : List (Said β)}
    (h : ∃ item ∈ items, item.Removes r) : items.foldl (keepStep r) (true, l) = (true, []) := by
  induction items with
  | nil => simp at h
  | cons item items ih =>
    by_cases hitem : item.Removes r
    · rw [List.foldl_cons, keepStep_of_removes hitem, keepStep_of_known hr]
    · grind [keepStep_of_not_removes]

end Kept

section Agree

/-- The messages of one poll and of several, for a random id. -/
def AgreeOn (known : Bool) (r : Int) (items : List (Said β)) : Prop :=
  (if known then [] else (added items).filter (·.randomId = r)).Perm
    (items.foldl (keepStep r) (known, [])).2

theorem messagesWith_append (r : Int) (items items' : List (Said β)) :
    messagesWith r (items ++ items') = messagesWith r items ++ messagesWith r items' :=
  List.filterMap_append

theorem messagesWith_message (m : Message β) (items : List (Said β)) :
    messagesWith m.randomId (.message m :: items) = m :: messagesWith m.randomId items := by
  simp [messagesWith]

/-- A message with the random id, or none. -/
theorem messagesWith_cases (r : Int) (items : List (Said β)) :
    messagesWith r items = [] ∨ ∃ front m back, items = front ++ .message m :: back ∧
      m.randomId = r ∧ messagesWith r front = [] := by
  induction items with
  | nil => exact .inl rfl
  | cons item items ih =>
    have hlater : ∀ item : Said β, messagesWith r [item] = [] →
        (messagesWith r (item :: items) = [] ∨ ∃ front m back,
          item :: items = front ++ .message m :: back ∧ m.randomId = r ∧
            messagesWith r front = []) := by
      intro item hitem
      rcases ih with h | ⟨front, m, back, rfl, hm, hfront⟩
      · left
        rw [← List.singleton_append, messagesWith_append, hitem, h]
        rfl
      · right
        refine ⟨item :: front, m, back, rfl, hm, ?_⟩
        rw [← List.singleton_append, messagesWith_append, hitem, hfront]
        rfl
    cases item with
    | message m =>
      grind [messagesWith]
    | screenshot randomIds date => exact hlater _ rfl
    | deletion randomIds => exact hlater _ rfl
    | flush => exact hlater _ rfl
    | nothing => exact hlater _ rfl

/-- Without a flush behind it a part stays as it is. -/
theorem afterFlush_append {items back : List (Said β)} (h : Said.flush ∉ back) :
    afterFlush (items ++ back) = afterFlush items ++ back := by
  induction back using List.reverseRecOn with
  | nil => simp
  | append_singleton back item ih =>
    have hback : Said.flush ∉ back := fun hmem => h (List.mem_append_left _ hmem)
    rw [← List.append_assoc, afterFlush_append_singleton, ih hback, ← List.append_assoc]
    cases item with
    | flush => exact absurd (List.mem_append_right _ (.head _)) h
    | message m => rfl
    | screenshot randomIds date => rfl
    | deletion randomIds => rfl
    | nothing => rfl

theorem afterFlush_suffix (items : List (Said β)) : afterFlush items <:+ items := by
  induction items using List.reverseRecOn with
  | nil => exact List.suffix_refl _
  | append_singleton items item ih =>
    rw [afterFlush_append_singleton]
    obtain ⟨front, hfront⟩ := ih
    have hkeeps : afterFlush items ++ [item] <:+ items ++ [item] :=
      ⟨front, by rw [← List.append_assoc, hfront]⟩
    cases item with
    | flush => exact List.nil_suffix
    | message m => exact hkeeps
    | screenshot randomIds date => exact hkeeps
    | deletion randomIds => exact hkeeps
    | nothing => exact hkeeps

theorem agreeOn_known {r : Int} (hr : r ≠ 0) (items : List (Said β)) : AgreeOn true r items := by
  unfold AgreeOn
  rw [keepStep_of_known hr]
  exact List.Perm.refl _

theorem agreeOn_of_none {r : Int} (hr : r ≠ 0) {items : List (Said β)}
    (hnone : messagesWith r items = []) : AgreeOn false r items := by
  have hrest : messagesWith r (afterFlush items) = [] := by
    obtain ⟨front, hfront⟩ := afterFlush_suffix items
    rw [← hfront, messagesWith_append] at hnone
    exact (List.append_eq_nil_iff.1 hnone).2
  unfold AgreeOn
  rw [keepStep_of_none hr hnone, filter_added_of_ne r hr, hrest, List.drop_nil]
  exact List.Perm.refl _

section First

variable {items front back : List (Said β)} {m : Message β}
  (hitems : items = front ++ .message m :: back) (hr : m.randomId ≠ 0)
  (hfront : messagesWith m.randomId front = [])
include hitems hr hfront

theorem keepStep_first :
    items.foldl (keepStep m.randomId) (false, []) =
      back.foldl (keepStep m.randomId) (true, [m]) := by
  rw [hitems, List.foldl_append, List.foldl_cons, keepStep_of_none hr hfront]
  simp [keepStep, hr]

theorem agreeOn_removed (h : ∃ item ∈ back, item.Removes m.randomId) :
    AgreeOn false m.randomId items ↔
      (messagesWith m.randomId (afterFlush items)).length ≤ namings m.randomId items := by
  unfold AgreeOn
  rw [keepStep_first hitems hr hfront, keepStep_of_removed hr h, filter_added_of_ne _ hr]
  exact List.perm_nil.trans List.drop_eq_nil_iff

theorem agreeOn_kept (h : ∀ item ∈ back, ¬ item.Removes m.randomId)
    (hdistinct : m ∉ messagesWith m.randomId back) :
    AgreeOn false m.randomId items ↔
      messagesWith m.randomId back = [] ∧ namings m.randomId items = 0 := by
  have hflush : Said.flush ∉ back := fun hmem => h .flush hmem trivial
  have hgathered : messagesWith m.randomId (afterFlush items) =
      m :: messagesWith m.randomId back := by
    have hnone : messagesWith m.randomId (afterFlush front) = [] := by
      obtain ⟨l, hl⟩ := afterFlush_suffix front
      rw [← hl, messagesWith_append] at hfront
      exact (List.append_eq_nil_iff.1 hfront).2
    have hrest : Said.flush ∉ .message m :: back := by simpa using hflush
    rw [hitems, afterFlush_append hrest, messagesWith_append, hnone, List.nil_append,
      messagesWith_message]
  unfold AgreeOn
  rw [keepStep_first hitems hr hfront, keepStep_of_not_removed hr h, filter_added_of_ne _ hr,
    hgathered]
  show ((m :: messagesWith m.randomId back).drop _).Perm [m] ↔ _
  rw [List.perm_singleton]
  generalize messagesWith m.randomId back = l at *
  cases namings m.randomId items with
  | zero => simp
  | succ n =>
    rw [List.drop_succ_cons]
    constructor
    · intro hdrop
      have hmem : m ∈ l.drop n := by
        rw [hdrop]
        exact List.mem_singleton_self m
      exact absurd (List.mem_of_mem_drop hmem) hdistinct
    · rintro ⟨-, hzero⟩
      cases hzero

end First

/-! ### Messages without a random id -/

theorem screenshots_append (items items' : List (Said β)) :
    screenshots (items ++ items') = screenshots items ++ screenshots items' :=
  List.filterMap_append

theorem screenshots_suffix (items : List (Said β)) :
    screenshots (afterFlush items) <:+ screenshots items := by
  obtain ⟨front, hfront⟩ := afterFlush_suffix items
  exact ⟨screenshots front, by rw [← screenshots_append, hfront]⟩

theorem agreeOn_zero_iff (items : List (Said β)) :
    AgreeOn false 0 items ↔
      (drain (messagesWith 0 (afterFlush items)) (opsOf 0 items)).Perm
        (messagesWith 0 (afterFlush items) ++ screenshots (afterFlush items)) := by
  obtain ⟨l, hl, hperm⟩ := keepStep_zero items
  unfold AgreeOn
  rw [hl, filter_added]
  exact ⟨fun h => h.trans hperm, fun h => h.trans hperm.symm⟩

/-- A message that is no screenshot. -/
def Message.isDesc (m : Message β) : Bool :=
  match m.content with
  | .desc _ => true
  | .screenshot _ _ => false

theorem countP_screenshots (items : List (Said β)) :
    (screenshots items).countP Message.isDesc = 0 := by
  refine List.countP_eq_zero.2 fun m hm => ?_
  obtain ⟨item, -, hitem⟩ := List.mem_filterMap.1 hm
  cases item with
  | screenshot randomIds date =>
    cases hitem
    exact Bool.false_ne_true
  | message m' => cases hitem
  | deletion randomIds => cases hitem
  | flush => cases hitem
  | nothing => cases hitem

/-- With a message among them: all messages and screenshots have to be left. -/
theorem agreeOn_withoutId {items : List (Said β)} (hdescs : ∀ m, .message m ∈ items → m.isDesc)
    (hsome : messagesWith 0 (afterFlush items) ≠ []) :
    AgreeOn false 0 items ↔
      screenshots items = screenshots (afterFlush items) ∧ namings 0 items = 0 := by
  have hcount : (messagesWith 0 (afterFlush items)).countP Message.isDesc =
      (messagesWith 0 (afterFlush items)).length := by
    refine List.countP_eq_length.2 fun m hm => ?_
    obtain ⟨item, hitem, hm⟩ := List.mem_filterMap.1 hm
    cases item with
    | message m' =>
      obtain ⟨-, hsame⟩ := Option.ite_none_right_eq_some.1 hm
      rw [← Option.some.inj hsame]
      exact hdescs m' ((afterFlush_suffix items).subset hitem)
    | screenshot randomIds date => cases hm
    | deletion randomIds => cases hm
    | flush => cases hm
    | nothing => cases hm
  have hpushed : pushed (opsOf 0 items) = screenshots items := by rw [pushed_opsOf, if_pos rfl]
  rw [agreeOn_zero_iff, ← taken_opsOf]
  constructor
  · intro hperm
    obtain ⟨front, hfront⟩ := drain_suffix (messagesWith 0 (afterFlush items)) (opsOf 0 items)
    rw [hpushed] at hfront
    have hnone : front.countP Message.isDesc = 0 := by
      have h := congrArg (List.countP Message.isDesc) hfront
      rw [List.countP_append, List.countP_append, hperm.countP_eq, List.countP_append, hcount,
        countP_screenshots, countP_screenshots] at h
      omega
    have hall : front = [] := by
      cases front with
      | nil => rfl
      | cons m front =>
        obtain ⟨m', l, hl⟩ := List.exists_cons_of_ne_nil hsome
        rw [hl, List.cons_append, List.cons_append] at hfront
        obtain ⟨rfl, -⟩ := List.cons.inj hfront
        rw [hl] at hcount
        have hm : m.isDesc := List.countP_eq_length.1 hcount m (.head _)
        exact absurd hm (List.countP_eq_zero.1 hnone m (.head _))
    rw [hall, List.nil_append] at hfront
    have hlength := hperm.length_eq
    rw [hfront, List.length_append, List.length_append] at hlength
    refine ⟨((screenshots_suffix items).eq_of_length (by omega)).symm, ?_⟩
    by_contra htaken
    have hlt := length_drain_lt hsome htaken
    rw [hfront, hpushed, List.length_append] at hlt
    exact lt_irrefl _ hlt
  · rintro ⟨hshots, htaken⟩
    rw [drain_of_taken_eq_zero htaken, hpushed, hshots]

/-- A part of the operations begins at an action, or in the middle of a deletion. -/
theorem opsOf_eq_append {items : List (Said β)} {front back : List (Option (Message β))}
    (h : opsOf 0 items = front ++ back) :
    ∃ items₁ items₂, items = items₁ ++ items₂ ∧ pushed back = screenshots items₂ ∧
      namings 0 items₂ ≤ taken back := by
  have hpushed : ∀ items : List (Said β), pushed (opsOf 0 items) = screenshots items :=
    fun items => by rw [pushed_opsOf, if_pos rfl]
  induction items generalizing front with
  | nil =>
    have hback : back = [] := (List.append_eq_nil_iff.1 h.symm).2
    exact ⟨[], [], rfl, by rw [hback]; rfl, Nat.zero_le _⟩
  | cons item items ih =>
    rw [opsOf_cons] at h
    rcases List.append_eq_append_iff.1 h with ⟨rest, hfront, hrest⟩ | ⟨rest, hitem, hback⟩
    · obtain ⟨items₁, items₂, hsplit, hpush, htaken⟩ := ih hrest
      exact ⟨item :: items₁, items₂, by rw [hsplit, List.cons_append], hpush, htaken⟩
    · have hpart : rest = opsOf 0 [item] ∨ pushed rest = [] := by
        cases front with
        | nil => exact .inl hitem.symm
        | cons op front =>
          right
          cases item with
          | screenshot randomIds date =>
            have hone : [some (screenshotMessage randomIds date)] = op :: front ++ rest :=
              hitem
            rw [(List.append_eq_nil_iff.1 (List.cons.inj hone).2.symm).2]
            rfl
          | deletion randomIds =>
            have h := congrArg pushed hitem
            rw [hpushed, pushed_append] at h
            exact (List.append_eq_nil_iff.1 h.symm).2
          | message m => cases hitem
          | flush => cases hitem
          | nothing => cases hitem
      rcases hpart with hwhole | hnone
      · rw [hwhole, ← opsOf_cons] at hback
        exact ⟨[], item :: items, rfl, by rw [hback, hpushed], by rw [hback, taken_opsOf]⟩
      · refine ⟨[item], items, rfl, by rw [hback, pushed_append, hnone, hpushed]; rfl, ?_⟩
        rw [hback, taken_append, taken_opsOf]
        exact Nat.le_add_left _ _

/-- Only screenshots: it is the number of them that counts. -/
theorem agreeOn_onlyScreenshots {items : List (Said β)}
    (hnone : messagesWith 0 (afterFlush items) = []) :
    AgreeOn false 0 items ↔
      (∀ front back, items = front ++ back →
        (screenshots back).length ≤ (screenshots (afterFlush items)).length + namings 0 back) ∧
      ∃ front back, items = front ++ back ∧
        (screenshots back).length =
          (screenshots (afterFlush items)).length + namings 0 back := by
  have hpushed : ∀ items : List (Said β), pushed (opsOf 0 items) = screenshots items :=
    fun items => by rw [pushed_opsOf, if_pos rfl]
  have hlength : AgreeOn false 0 items ↔
      (drain [] (opsOf 0 items)).length = (screenshots (afterFlush items)).length := by
    rw [agreeOn_zero_iff, hnone, List.nil_append]
    refine ⟨List.Perm.length_eq, fun hlength => ?_⟩
    have hsuffix := drain_suffix [] (opsOf 0 items)
    rw [List.nil_append, hpushed] at hsuffix
    rw [(List.suffix_of_suffix_length_le hsuffix (screenshots_suffix items)
      hlength.le).eq_of_length hlength]
  have hcut : ∀ front back, items = front ++ back →
      opsOf 0 items = opsOf 0 front ++ opsOf 0 back :=
    fun front back h => by rw [h, opsOf_append]
  rw [hlength, length_drain_iff]
  constructor
  · rintro ⟨hall, front, back, hops, heq⟩
    have hall' : ∀ front back, items = front ++ back →
        (screenshots back).length ≤
          (screenshots (afterFlush items)).length + namings 0 back := by
      intro front back hitems
      have h := hall _ _ (hcut front back hitems)
      rwa [hpushed, taken_opsOf] at h
    obtain ⟨items₁, items₂, hitems, hpush, htaken⟩ := opsOf_eq_append hops
    have hle := hall' items₁ items₂ hitems
    rw [hpush] at heq
    exact ⟨hall', items₁, items₂, hitems, by omega⟩
  · rintro ⟨hall, front, back, hitems, heq⟩
    constructor
    · intro front back hops
      obtain ⟨items₁, items₂, hitems, hpush, htaken⟩ := opsOf_eq_append hops
      have hle := hall items₁ items₂ hitems
      rw [hpush]
      omega
    · exact ⟨_, _, hcut front back hitems, by rw [hpushed, taken_opsOf, heq]⟩

theorem agreeOn_iff {known : Int → Bool} {items : List (Said β)} (hzero : known 0 = false)
    (hdescs : ∀ m, .message m ∈ items → m.isDesc)
    (hdistinct : ∀ front m back, items = front ++ .message m :: back →
      m ∉ messagesWith m.randomId back) :
    (∀ r, AgreeOn (known r) r items) ↔ BatchAgrees known items := by
  constructor
  · intro h
    have h0 : AgreeOn false 0 items := hzero ▸ h 0
    exact
      { removed := by
          intro front m back hitems hr hknown hfront hremoved
          exact (agreeOn_removed hitems hr hfront hremoved).1 (hknown ▸ h m.randomId)
        kept := by
          intro front m back hitems hr hknown hfront hkept
          exact (agreeOn_kept hitems hr hfront hkept (hdistinct front m back hitems)).1
            (hknown ▸ h m.randomId)
        withoutId := fun hsome => (agreeOn_withoutId hdescs hsome).1 h0
        onlyScreenshots := fun hnone => (agreeOn_onlyScreenshots hnone).1 h0 }
  · intro h r
    by_cases hr : r = 0
    · rw [hr, hzero]
      by_cases hnone : messagesWith 0 (afterFlush items) = []
      · exact (agreeOn_onlyScreenshots hnone).2 (h.onlyScreenshots hnone)
      · exact (agreeOn_withoutId hdescs hnone).2 (h.withoutId hnone)
    · cases hknown : known r with
      | true => exact agreeOn_known hr items
      | false =>
        rcases messagesWith_cases r items with hnone | ⟨front, m, back, hitems, rfl, hfront⟩
        · exact agreeOn_of_none hr hnone
        · by_cases hremoved : ∃ item ∈ back, item.Removes m.randomId
          · exact (agreeOn_removed hitems hr hfront hremoved).2
              (h.removed front m back hitems hr hknown hfront hremoved)
          · have hkept : ∀ item ∈ back, ¬ item.Removes m.randomId :=
              fun item hitem hremoves => hremoved ⟨item, hitem, hremoves⟩
            exact (agreeOn_kept hitems hr hfront hkept (hdistinct front m back hitems)).2
              (h.kept front m back hitems hr hknown hfront hkept)

end Agree

section Poll

variable (peerId : Int) (parser : Parser δ β) (isResendAction : IncomingAction δ → Bool)
  (notifiedLayer : IncomingAction δ → Nat) (decrypt : ε → Option (IncomingAction δ))

theorem sameMessages_iff_agreeOn (h : History β) (actions : List (IncomingAction δ)) :
    SameMessages (processMessages peerId parser h actions)
        (actions.foldl (fun h a => processMessages peerId parser h [a]) h) ↔
      ∀ r, AgreeOn (h.randomIds r).isSome r (actions.map (said parser)) := by
  obtain ⟨rows, hf⟩ := follows_foldl peerId parser h actions
  obtain ⟨hmessages, -, -⟩ := processMessages_spec peerId parser h actions
  generalize actions.map (said parser) = items at *
  have hbatch : (storedRows peerId h items).map (fun row => (row.cid, row.message)) =
      (h.filterExistingRandomIds (added items)).map (Prod.mk peerId) := by
    rw [← History.message_newRows peerId (h.filterExistingRandomIds (added items))
      h.nextLocalMid, List.map_map]
    exact List.map_congr_left fun row hrow => by rw [History.cid_newRows hrow]; rfl
  have heach : rows.map (fun row => (row.cid, row.message)) =
      (rows.map (·.message)).map (Prod.mk peerId) := by
    rw [List.map_map]
    exact List.map_congr_left fun row hrow => by rw [(hf.isNew row hrow).cid]; rfl
  unfold SameMessages
  rw [hmessages, hf.messages, List.map_append, List.map_append, List.perm_append_left_iff, hbatch,
    heach, List.map_perm_map_iff (Prod.mk_right_injective peerId), perm_iff_filter (·.randomId)]
  refine forall_congr' fun r => ?_
  have hseq := congrArg Prod.snd (hf.kept r)
  unfold AgreeOn
  rw [hseq]
  have hnew : (h.filterExistingRandomIds (added items)).filter (·.randomId = r) =
      if (h.randomIds r).isSome then [] else (added items).filter (·.randomId = r) := by
    unfold History.filterExistingRandomIds
    rw [List.filter_filter]
    split
    · rename_i hknown
      refine List.filter_eq_nil_iff.2 fun m _ => ?_
      by_cases hm : m.randomId = r
      · simpa [hm] using Option.isSome_iff_ne_none.1 hknown
      · simp [hm]
    · rename_i hknown
      refine List.filter_congr fun m _ => ?_
      by_cases hm : m.randomId = r
      · simpa [hm] using hknown
      · simp [hm]
  rw [hnew]

theorem isDesc_of_said {a : IncomingAction δ} {m : Message β} (h : said parser a = .message m) :
    m.isDesc ∧ m.seqOut = a.seqOut.1 := by
  have hmessage : ∀ object : DecryptedMessage β,
      (if 46 ≤ a.layer then .message (parseDecryptedMessage object a.seqIn.1 a.seqOut.1)
        else .nothing : Said β) = .message m → m.isDesc ∧ m.seqOut = a.seqOut.1 := by
    intro object hobject
    split at hobject
    · cases hobject
      exact ⟨rfl, rfl⟩
    · cases hobject
  unfold said at h
  cases hobject : parser.parseObject a with
  | none => simp [hobject] at h
  | some object =>
    grind

/-- No message is there twice: its number is not. -/
theorem not_mem_messagesWith {actions : List (IncomingAction δ)}
    (hpairwise : (actions.map fun a => a.seqOut.1).Pairwise (· < ·)) {front back : List (Said β)}
    {m : Message β} (hitems : actions.map (said parser) = front ++ .message m :: back) :
    m ∉ messagesWith m.randomId back := by
  obtain ⟨as, rest, rfl, -, hrest⟩ := List.map_eq_append_iff.1 hitems
  obtain ⟨a, later, rfl, ha, rfl⟩ := List.map_eq_cons_iff.1 hrest
  intro hmem
  obtain ⟨item, hitem, hm⟩ := List.mem_filterMap.1 hmem
  obtain ⟨b, hb, rfl⟩ := List.mem_map.1 hitem
  rw [List.map_append, List.map_cons] at hpairwise
  have hlt : a.seqOut.1 < b.seqOut.1 :=
    List.rel_of_pairwise_cons (List.pairwise_append.1 hpairwise).2.1 (List.mem_map_of_mem hb)
  cases hsaid : said parser b with
  | message m' =>
    rw [hsaid] at hm
    obtain ⟨-, hsame⟩ := Option.ite_none_right_eq_some.1 hm
    cases Option.some.inj hsame
    have h := (isDesc_of_said parser hsaid).2
    rw [(isDesc_of_said parser ha).2] at h
    omega
  | screenshot randomIds date => rw [hsaid] at hm; cases hm
  | deletion randomIds => rw [hsaid] at hm; cases hm
  | flush => rw [hsaid] at hm; cases hm
  | nothing => rw [hsaid] at hm; cases hm

/-- One poll leaves the messages of polls after each action exactly if `BatchAgrees`. -/
theorem sameMessages_iff {c : Client δ ε β} (hidle : c.Idle) {arrivals : List (Arrival δ ε)}
    {actions : List (IncomingAction δ)}
    (h : InSequence decrypt c.chat.seqIn arrivals actions) :
    SameMessages (c.pollOnce peerId parser isResendAction notifiedLayer decrypt arrivals).history
        (c.pollEach peerId parser isResendAction notifiedLayer decrypt arrivals).history ↔
      BatchAgrees (fun r => (c.history.randomIds r).isSome) (actions.map (said parser)) := by
  obtain ⟨hhistory, -, -⟩ :=
    pollOnce_eq peerId parser isResendAction notifiedLayer decrypt hidle h
  rw [hhistory, pollEach_eq peerId parser isResendAction notifiedLayer decrypt hidle h,
    sameMessages_iff_agreeOn]
  have hzero : (c.history.randomIds 0).isSome = false := by
    rw [c.history.randomIds_zero]
    rfl
  refine agreeOn_iff hzero ?_ ?_
  · intro m hm
    obtain ⟨a, -, ha⟩ := List.mem_map.1 hm
    exact (isDesc_of_said parser ha).1
  · intro front m back hitems
    exact not_mem_messagesWith parser (counted_lt h.counted).1 hitems

end Poll

/-! ### A deletion, and a message after it -/

/-- The peer deletes the message 7, and sends a message with this random id. -/
def deletionAndMessage : List (IncomingAction (DecryptedMessage Nat)) :=
  [{ layer := 46, data := ⟨1, 0, some (.deleteMessages [7])⟩, seqIn := ⟨0, by decide⟩,
     seqOut := ⟨0, by decide⟩ },
   { layer := 46, data := ⟨7, 5, none⟩, seqIn := ⟨0, by decide⟩, seqOut := ⟨1, by decide⟩ }]

def dataParser : Parser (DecryptedMessage Nat) Nat where
  parseObject := fun a => some a.data
  date := fun _ => 0

/-- A client with nothing stored. -/
def newClient : Client (DecryptedMessage Nat) Unit Nat where
  chat := { incoming := RowTable.empty, incomingEncrypted := RowTable.empty, seqIn := 0,
            peerLayer := 46 }
  history :=
    { messages := [], randomIds := fun _ => none, nextLocalMid := 800000000
      randomIds_zero := rfl
      unused := fun n _ => ⟨by simp, by simp⟩ }

theorem inSequence_deletionAndMessage :
    InSequence (fun _ => none) newClient.chat.seqIn
      (deletionAndMessage.map (Arrival.decrypted (ε := Unit))) deletionAndMessage where
  decrypted := rfl
  numbered := by decide
  counted := ⟨rfl, rfl, rfl⟩

/-- A deletion before a message of the same poll. -/
theorem sameMessages_deletionAndMessage :
    SameMessages (newClient.pollOnce 1 dataParser (fun _ => false) (fun _ => 46) (fun _ => none)
          (deletionAndMessage.map .decrypted)).history
        (newClient.pollEach 1 dataParser (fun _ => false) (fun _ => 46) (fun _ => none)
          (deletionAndMessage.map .decrypted)).history ↔
      BatchAgrees (fun _ => false) [.deletion [7], .message ⟨7, 0, 1, .desc 5⟩] :=
  sameMessages_iff 1 dataParser (fun _ => false) (fun _ => 46) (fun _ => none) ⟨rfl, rfl⟩
    inSequence_deletionAndMessage

/-- The message is lost in one poll, and not in two. -/
theorem messages_differ :
    newClient.Idle ∧
      InSequence (fun _ => none) newClient.chat.seqIn
        (deletionAndMessage.map (Arrival.decrypted (ε := Unit))) deletionAndMessage ∧
      ¬ SameMessages
        (newClient.pollOnce 1 dataParser (fun _ => false) (fun _ => 46) (fun _ => none)
          (deletionAndMessage.map .decrypted)).history
        (newClient.pollEach 1 dataParser (fun _ => false) (fun _ => 46) (fun _ => none)
          (deletionAndMessage.map .decrypted)).history := by
  refine ⟨⟨rfl, rfl⟩, inSequence_deletionAndMessage, ?_⟩
  unfold SameMessages
  decide

end TelegramPub.Ports.SecretHistory
