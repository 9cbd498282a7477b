import TelegramPub.Ports.FetchWindow

/-!
# Runs of a fetch

In a run (`fetchStep`, `Allowed`) the fetch is started once, and each request is answered by
the file's own datacenter, with the bytes from its offset up to its limit or the end of the
file.  All that happens is `checkState`, at the start and after each answer.  `Tables.run` is
the induction: if each of these calls moves on (`MovesOn`) and leaves fewer answers to come,
then what has been delivered is always a beginning of the file from the location on, and the
fetch completes once, when it waits for nothing.
-/

namespace TelegramPub.Ports.PartFetch

open Verified.Bytes Verified.Machine Verified.Pieces
open Ports.PartDownload (preferredPartSize updatedLimit slice)

/-- A manager, and what it has called. -/
structure Fetch where
  manager : Manager
  isStarted : Bool := false
  outputs : List Output := []

def Fetch.create (size : Option Nat) (location length : Nat) : Fetch :=
  { manager := initWithResource size location length }

/-- The bytes of a file from the offset of a part up to the limit of its request. -/
def answerTo (file : Data) (part : PendingPart) : Data :=
  slice file part.offset (updatedLimit part.size)

/-- An event of a fetch that is started once, and is answered with the file. -/
def Allowed (file : Data) (s : Fetch) : Event → Prop
  | .start => s.isStarted = false
  | .requestData => True
  | .answered offset answer =>
    s.manager.ended = false ∧
      ∃ part, awaited s.manager offset = some (part, .file) ∧ answer = .file (answerTo file part)
  | .reuploaded => False

/-- The fetch was started, and waits for nothing any more. -/
def Fetch.IsFinished (s : Fetch) : Prop :=
  s.isStarted = true ∧ (s.manager.ended = true ∨ s.manager.fetchingParts = [])

def Event.isAnswer : Event → Bool
  | .answered _ _ => true
  | .start | .requestData | .reuploaded => false

section Runs

variable (sha256 : Data → Data) (aes : Data → Equiv.Perm (BitVec 128))

def fetchStep (s : Fetch) (event : Event) : Fetch :=
  { manager := (step sha256 aes s.manager event).1
    isStarted := s.isStarted || decide (event = .start)
    outputs := s.outputs ++ (step sha256 aes s.manager event).2 }

/-! ## What a call of `checkState` does -/

/-- The requests go to the file's own datacenter. -/
structure Plain (m : Manager) : Prop where
  goes : m.ended = false
  hashes : m.cdnFilePartHashes = none
  source : m.requestData = .file
  requests : ∀ p ∈ m.fetchingParts, p.request = if m.hasValue then some .file else none

/-- The next bytes are delivered, and the fetch is completed if it waits for nothing. -/
structure MovesOn (file : Data) (m : Manager) (result : Manager × List Output) : Prop where
  plain : Plain result.1
  le : m.committedOffset ≤ result.1.committedOffset
  outputs : ∃ ready,
    result.2 = ready ++ (if result.1.fetchingParts = [] then [.completed] else []) ∧
      AllReady ready ∧
      delivered ready = span file m.committedOffset result.1.committedOffset

/-- What is to be shown of the tables of a fetch: `tables left` holds when at most `left`
answers are to come.  The assertion fails only if `mayEnd` holds. -/
structure Tables (file : Data) (m : Manager) (left : Nat) (mayEnd : Prop)
    (tables : Nat → Manager → Prop) : Prop where
  start : ∀ hasValue, MovesOn file { m with hasValue } (checkState sha256 { m with hasValue }) ∧
    tables left (checkState sha256 { m with hasValue }).1
  answer : ∀ left m part, tables left m → Plain m → part ∈ m.fetchingParts → ∃ left', left' < left ∧
    (mayEnd ∧ partFetched sha256 m part (answerTo file part) = ({ m with ended := true }, []) ∨
      MovesOn file m (partFetched sha256 m part (answerTo file part)) ∧
        tables left' (partFetched sha256 m part (answerTo file part)).1)
  requestData : ∀ left m, tables left m →
    tables left
      { m with
        hasValue := true
        fetchingParts := m.fetchingParts.map fun p => { p with request := some m.requestData } }

/-- A fetch that has been started. -/
structure Calls (file : Data) (location : Nat) (s : Fetch) : Prop where
  started : s.isStarted = true
  plain : Plain s.manager
  le : location ≤ s.manager.committedOffset
  outputs : ∃ ready,
    s.outputs = ready ++ (if s.manager.fetchingParts = [] then [.completed] else []) ∧
      AllReady ready ∧ delivered ready = span file location s.manager.committedOffset

/-- The states of a fetch, with the number of answers that may be to come. -/
inductive Stage (file : Data) (m : Manager) (most : Nat) (mayEnd : Prop)
    (tables : Nat → Manager → Prop) : Nat → Fetch → Prop where
  | created (hasValue : Bool) :
      Stage file m most mayEnd tables most { manager := { m with hasValue } }
  | fetching {left : Nat} {s : Fetch} (calls : Calls file m.committedOffset s)
      (holds : tables left s.manager) : Stage file m most mayEnd tables left s
  | ended {left : Nat} {s : Fetch} (may : mayEnd) (started : s.isStarted = true)
      (ended : s.manager.ended = true) : Stage file m most mayEnd tables left s

variable {m : Manager} {most : Nat}

theorem Stage.start {file : Data} {mayEnd : Prop} {tables : Nat → Manager → Prop}
    (h : m.hasValue = false) :
    Stage file m most mayEnd tables most { manager := m } := by
  cases m
  cases h
  exact .created false

/-- A manager as it is created. -/
structure Fresh (m : Manager) : Prop where
  goes : m.ended = false
  hashes : m.cdnFilePartHashes = none
  source : m.requestData = .file
  fetching : m.fetchingParts = []

variable {sha256} {file : Data} {m₀ : Manager} {mayEnd : Prop} {tables : Nat → Manager → Prop}

/-- What is called before and in a step that moves on. -/
theorem Calls.movesOn {location : Nat} {s : Fetch} (h : Calls file location s)
    (hfetching : s.manager.fetchingParts ≠ []) {result : Manager × List Output}
    (hmoves : MovesOn file s.manager result) :
    Calls file location ⟨result.1, true, s.outputs ++ result.2⟩ := by
  obtain ⟨before, houtputs, hbefore, hdata⟩ := h.outputs
  obtain ⟨ready, hresult, hready, hnew⟩ := hmoves.outputs
  rw [if_neg hfetching, List.append_nil] at houtputs
  refine ⟨rfl, hmoves.plain, h.le.trans hmoves.le, before ++ ready, ?_, hbefore.append hready, ?_⟩
  · dsimp only
    rw [houtputs, hresult, List.append_assoc]
  · rw [delivered_append, hdata, hnew]
    exact span_append file h.le hmoves.le

/-- The value of `_requestData` arrives. -/
def withRequests (m : Manager) : Manager :=
  { m with
    hasValue := true
    fetchingParts := m.fetchingParts.map fun p => { p with request := some m.requestData } }

theorem step_requestData (h : m₀.ended = false) :
    step sha256 aes m₀ .requestData = (if m₀.hasValue then m₀ else withRequests m₀, []) := by
  unfold step
  rw [if_neg (by rw [h]; exact Bool.false_ne_true)]
  dsimp only
  split <;> rfl

theorem Plain.withRequests (h : Plain m) : Plain (withRequests m) := by
  refine ⟨h.goes, h.hashes, h.source, fun p hp => ?_⟩
  obtain ⟨q, _, rfl⟩ := List.mem_map.1 hp
  rw [h.source]
  rfl

theorem Calls.withRequests {location : Nat} {s : Fetch} (h : Calls file location s) :
    Calls file location { s with manager := withRequests s.manager } := by
  obtain ⟨ready, houtputs, hready, hdata⟩ := h.outputs
  refine ⟨h.started, h.plain.withRequests, h.le, ready, ?_, hready, hdata⟩
  dsimp only [PartFetch.withRequests]
  simp only [List.map_eq_nil_iff]
  exact houtputs

variable {part : PendingPart}

theorem awaited_spec {offset : Nat} {source : Source} (h : awaited m offset = some (part, source)) :
    part ∈ m.fetchingParts ∧ part.offset = offset := by
  unfold awaited at h
  obtain ⟨found, hfind, hmap⟩ := Option.bind_eq_some_iff.1 h
  obtain ⟨_, _, heq⟩ := Option.map_eq_some_iff.1 hmap
  cases heq
  exact ⟨List.mem_of_find?_eq_some hfind, by simpa using List.find?_some hfind⟩

theorem step_answered {offset : Nat} {data : Data} (hgoes : m.ended = false)
    (h : awaited m offset = some (part, .file)) :
    step sha256 aes m (.answered offset (.file data)) = partFetched sha256 m part data := by
  unfold step
  rw [if_neg (by rw [hgoes]; exact Bool.false_ne_true)]
  dsimp only
  rw [h]
  rfl

theorem step_start (h : m.ended = false) :
    step sha256 aes m .start = checkState sha256 m := by
  unfold step
  rw [if_neg (by rw [h]; exact Bool.false_ne_true)]

/-- One event of the run. -/
theorem Tables.step (htables : Tables sha256 file m₀ most mayEnd tables) (hfresh : Fresh m₀)
    {left : Nat} {s : Fetch} (h : Stage file m₀ most mayEnd tables left s) {event : Event}
    (hallowed : Allowed file s event) :
    ∃ left', left' + (if event.isAnswer then 1 else 0) ≤ left ∧
      Stage file m₀ most mayEnd tables left' (fetchStep sha256 aes s event) := by
  cases h with
  | ended hmay hstarted hended =>
    have hidle : PartFetch.step sha256 aes s.manager event = (s.manager, []) := by
      unfold PartFetch.step
      rw [if_pos hended]
    refine ⟨left, ?_, .ended hmay ?_ ?_⟩
    · cases event with
      | answered offset answer => exact absurd (hended.symm.trans hallowed.1) (by decide)
      | _ => exact Nat.le_refl _
    · show (s.isStarted || _) = true
      rw [hstarted]
      rfl
    · show (PartFetch.step sha256 aes s.manager event).1.ended = true
      rw [hidle]
      exact hended
  | created hasValue =>
    have hgoes : ({ m₀ with hasValue } : Manager).ended = false := hfresh.goes
    cases event with
    | start =>
      obtain ⟨hmoves, hholds⟩ := htables.start hasValue
      obtain ⟨ready, hresult, hready, hdata⟩ := hmoves.outputs
      have hstep : fetchStep sha256 aes { manager := { m₀ with hasValue } } .start =
          ⟨(checkState sha256 { m₀ with hasValue }).1, true,
            (checkState sha256 { m₀ with hasValue }).2⟩ := by
        unfold fetchStep
        rw [step_start aes hgoes]
        rfl
      rw [hstep]
      exact ⟨most, Nat.le_refl _,
        .fetching ⟨rfl, hmoves.plain, hmoves.le, ready, hresult, hready, hdata⟩ hholds⟩
    | requestData =>
      have hstep : fetchStep sha256 aes { manager := { m₀ with hasValue } } .requestData =
          { manager := { m₀ with hasValue := true } } := by
        unfold fetchStep
        rw [step_requestData aes hgoes]
        cases hasValue with
        | true => rfl
        | false =>
          simp [withRequests, hfresh.fetching]
      rw [hstep]
      exact ⟨most, Nat.le_refl _, .created true⟩
    | answered offset answer =>
      obtain ⟨_, part, hawaited, _⟩ := hallowed
      have hnone := (awaited_spec hawaited).1
      dsimp only at hnone
      rw [hfresh.fetching] at hnone
      cases hnone
    | reuploaded => exact absurd hallowed id
  | fetching hcalls hholds =>
    have hgoes := hcalls.plain.goes
    cases event with
    | start => exact absurd (hcalls.started.symm.trans hallowed) (by decide)
    | requestData =>
      have hstep : fetchStep sha256 aes s .requestData =
          { s with manager := if s.manager.hasValue then s.manager
              else withRequests s.manager } := by
        unfold fetchStep
        rw [step_requestData aes hgoes]
        simp [hcalls.started]
      rw [hstep]
      refine ⟨left, Nat.le_refl _, ?_⟩
      by_cases hvalue : s.manager.hasValue = true
      · rw [if_pos hvalue]
        exact .fetching hcalls hholds
      · rw [if_neg hvalue]
        exact .fetching hcalls.withRequests (htables.requestData left s.manager hholds)
    | answered offset answer =>
      obtain ⟨_, part, hawaited, rfl⟩ := hallowed
      obtain ⟨hpart, _⟩ := awaited_spec hawaited
      obtain ⟨left', hless, hresult⟩ :=
        htables.answer left s.manager part hholds hcalls.plain hpart
      have hstep : fetchStep sha256 aes s (.answered offset (.file (answerTo file part))) =
          ⟨(partFetched sha256 s.manager part (answerTo file part)).1, true,
            s.outputs ++ (partFetched sha256 s.manager part (answerTo file part)).2⟩ := by
        unfold fetchStep
        rw [step_answered aes hgoes hawaited, hcalls.started]
        rfl
      rw [hstep]
      refine ⟨left', hless, ?_⟩
      rcases hresult with ⟨hmay, hended⟩ | ⟨hmoves, hholds'⟩
      · rw [hended]
        exact .ended hmay rfl rfl
      · exact .fetching (hcalls.movesOn (List.ne_nil_of_mem hpart) hmoves) hholds'
    | reuploaded => exact absurd hallowed id

theorem Tables.run (htables : Tables sha256 file m₀ most mayEnd tables) (hfresh : Fresh m₀)
    (events : List Event) :
    ∀ (left : Nat) (s : Fetch), Stage file m₀ most mayEnd tables left s →
      Guarded (fetchStep sha256 aes) (Allowed file) s events →
      ∃ left', left' + events.countP (·.isAnswer) ≤ left ∧
        Stage file m₀ most mayEnd tables left' (Verified.Machine.run (fetchStep sha256 aes) s events) := by
  induction events with
  | nil => exact fun left s h _ => ⟨left, Nat.le_refl _, h⟩
  | cons event events ih =>
    intro left s h hguarded
    obtain ⟨mid, hmid, hstage⟩ := htables.step aes hfresh h hguarded.1
    obtain ⟨left', hleft, hlast⟩ := ih mid _ hstage hguarded.2
    refine ⟨left', ?_, hlast⟩
    rw [List.countP_cons]
    omega

/-- A part that is waited for can be answered. -/
theorem Plain.awaited (h : Plain m) (hvalue : m.hasValue = true) {parts : List PendingPart}
    (hparts : m.fetchingParts = part :: parts) :
    awaited m part.offset = some (part, .file) := by
  have hrequest := h.requests part (hparts ▸ List.mem_cons_self)
  rw [if_pos hvalue] at hrequest
  unfold PartFetch.awaited
  rw [hparts, List.find?_cons_of_pos (by simp), Option.bind_some, hrequest]
  rfl

/-- A fetch that was started can be answered until it waits for nothing. -/
theorem Tables.finishes (htables : Tables sha256 file m₀ most mayEnd tables) (hfresh : Fresh m₀)
    (left : Nat) :
    ∀ s : Fetch, s.isStarted = true → Stage file m₀ most mayEnd tables left s →
      ∃ events, Guarded (fetchStep sha256 aes) (Allowed file) s events ∧
        (Verified.Machine.run (fetchStep sha256 aes) s events).IsFinished := by
  induction left using Nat.strongRecOn with
  | ind left ih =>
    intro s hstarted h
    by_cases hfinished : s.IsFinished
    · exact ⟨[], trivial, hfinished⟩
    have hrequested : Allowed file s .requestData := trivial
    obtain ⟨left', hle, h'⟩ := htables.step aes hfresh h hrequested
    have hstarted' : (fetchStep sha256 aes s .requestData).isStarted = true := by
      show (s.isStarted || _) = true
      rw [hstarted]
      rfl
    have hvalue : s.manager.ended = false →
        (fetchStep sha256 aes s .requestData).manager.hasValue = true := by
      intro hgoes
      show (PartFetch.step sha256 aes s.manager .requestData).1.hasValue = true
      rw [step_requestData aes hgoes]
      split
      · assumption
      · rfl
    generalize hnext : fetchStep sha256 aes s .requestData = s' at h' hstarted' hvalue
    have hone : Guarded (fetchStep sha256 aes) (Allowed file) s [.requestData] :=
      ⟨hrequested, trivial⟩
    cases h' with
    | created hasValue => cases hstarted'
    | ended _ _ hended =>
      refine ⟨[.requestData], hone, ?_⟩
      rw [run_cons, run_nil, hnext]
      exact ⟨hstarted', .inl hended⟩
    | fetching hcalls hholds =>
      have hgoes : s.manager.ended = false := by
        by_contra hended
        exact hfinished ⟨hstarted, .inl (by simpa using hended)⟩
      cases hparts : s'.manager.fetchingParts with
      | nil =>
        refine ⟨[.requestData], hone, ?_⟩
        rw [run_cons, run_nil, hnext]
        exact ⟨hstarted', .inr hparts⟩
      | cons part parts =>
        have hawaited := hcalls.plain.awaited (hvalue hgoes) hparts
        have hanswer : Allowed file s' (.answered part.offset (.file (answerTo file part))) :=
          ⟨hcalls.plain.goes, part, hawaited, rfl⟩
        obtain ⟨left'', hless, h''⟩ :=
          htables.step aes hfresh (.fetching hcalls hholds) hanswer
        have hstarted'' : (fetchStep sha256 aes s'
            (.answered part.offset (.file (answerTo file part)))).isStarted = true := by
          show (s'.isStarted || _) = true
          rw [hstarted']
          rfl
        have hlt : left'' < left := by
          have hless' : left'' + 1 ≤ left' := hless
          have hle' : left' + 0 ≤ left := hle
          omega
        obtain ⟨events, hguarded, hlast⟩ := ih left'' hlt _ hstarted'' h''
        refine ⟨.requestData :: .answered part.offset (.file (answerTo file part)) :: events,
          ⟨hrequested, ?_⟩, ?_⟩
        · rw [hnext]
          exact ⟨hanswer, hguarded⟩
        · rw [run_cons, run_cons, hnext]
          exact hlast

end Runs

end TelegramPub.Ports.PartFetch
