import TelegramPub.Ports.CdnChecks
import TelegramPub.Ports.PartFetch

/-!
# Blocks from a CDN that are delivered

`MultipartFetchManager` has a table of hashes and a check of its own, but
`switchToCdnWithFileData:partHashes:`, which fills the table, is never called: a redirect
leads to `switchToCdn:` at once.  So nothing it delivers is checked (`step_unchecked`).

`cdn_blocks_checked` collects what holds of the three downloads.
-/

namespace TelegramPub.Ports.PartFetch

open Verified.Bytes Verified.Machine
open Ports.PartDownload (Audit Answer CdnFileData Kind Verified hashesMatch)

section Statement

variable (sha256 : Data → Data) (aes : Data → Equiv.Perm (BitVec 128))

/-- The place at a CDN. -/
def Source.fileData : Source → Option CdnFileData
  | .file => none
  | .cdn fileData => some fileData

/-- What is said with an event. -/
def auditAfter (audit : Audit) (m : Manager) : Event → Audit
  | .answered offset answer =>
    match awaited m offset with
    | none => audit
    | some (part, source) =>
      audit.answered aes .video source.fileData.isSome source.fileData part.offset answer
  | _ => audit

/-- A block from the CDN is only delivered if it is verified. -/
def OutputVerified (audit : Audit) : Output → Prop
  | .partReady offset data =>
    (offset, data) ∈ audit.cdnBlocks → Verified sha256 audit.given offset data
  | _ => True

/-- A manager, what was said about its file, and whether it has failed. -/
structure Audited where
  manager : Manager
  audit : Audit
  hasFailed : Bool

def auditedStep (s : Audited) (event : Event) : Audited :=
  { manager := (step sha256 aes s.manager event).1
    audit := auditAfter aes s.audit s.manager event
    hasFailed := s.hasFailed || decide (.failed ∈ (step sha256 aes s.manager event).2) }

def auditedStart (size : Option Nat) (location length : Nat) : Audited :=
  { manager := initWithResource size location length, audit := {}, hasFailed := false }

/-- What is to hold of every step: after a failure nothing is delivered. -/
structure Checks (s : Audited) (event : Event) : Prop where
  ready : ∀ output ∈ (step sha256 aes s.manager event).2,
    OutputVerified sha256 (auditedStep sha256 aes s event).audit output
  last : ∀ before after, (step sha256 aes s.manager event).2 = before ++ .failed :: after →
    after = []
  ended : s.hasFailed = true → (step sha256 aes s.manager event).2 = []

/-- The answers of the CDN that are checked: none is. -/
def Checkable (m : Manager) : Event → Prop
  | .answered offset answer =>
    ∀ asked ∈ awaited m offset, asked.2.fileData.isSome → answer.bytes = none
  | _ => True

instance (m : Manager) : ∀ event, Decidable (Checkable m event)
  | .answered offset answer =>
    inferInstanceAs (Decidable (∀ asked ∈ awaited m offset,
      asked.2.fileData.isSome → answer.bytes = none))
  | .start | .requestData | .reuploaded => isTrue trivial

end Statement

section Runs

variable (sha256 : Data → Data) (aes : Data → Equiv.Perm (BitVec 128))

/-- Without a table there is nothing to fail. -/
theorem commitParts_unchecked (offsets : List Nat) :
    ∀ m : Manager, m.cdnFilePartHashes = none →
      (commitParts sha256 offsets m).1.cdnFilePartHashes = none ∧
        .failed ∉ (commitParts sha256 offsets m).2.1 := by
  induction offsets with
  | nil => exact fun m h => ⟨h, List.not_mem_nil⟩
  | cons offset offsets ih =>
    intro m h
    rw [commitParts]
    split
    · exact ih m h
    · split
      · exact ih m h
      · rename_i data _
        have hmatch : hashesMatch sha256 m.cdnFilePartHashes offset data = true := by
          rw [h]
          rfl
        rw [if_pos hmatch]
        obtain ⟨hnone, hno⟩ := ih
          { m with
            committedOffset := m.committedOffset + data.length
            fetchedParts := m.fetchedParts.filter (·.1 ≠ offset) } h
        refine ⟨hnone, fun hmem => ?_⟩
        rcases List.mem_cons.1 hmem with hhead | htail
        · cases hhead
        · exact hno htail

theorem fetchLoop_hashes (n : Nat) :
    ∀ m : Manager, (fetchLoop n m).cdnFilePartHashes = m.cdnFilePartHashes := by
  induction n with
  | zero => exact fun _ => rfl
  | succ n ih =>
    intro m
    rw [fetchLoop]
    split
    · rw [ih]
    · rfl

theorem checkState_unchecked {m : Manager} (h : m.cdnFilePartHashes = none) :
    (checkState sha256 m).1.cdnFilePartHashes = none ∧ .failed ∉ (checkState sha256 m).2 := by
  obtain ⟨hnone, hno⟩ := commitParts_unchecked sha256
    ((m.fetchedParts.map (·.1)).insertionSort (· ≤ ·)) m h
  unfold checkState
  dsimp only
  split
  · exact ⟨hnone, hno⟩
  · grind [fetchLoop_hashes]

theorem partFetched_unchecked {m : Manager} (h : m.cdnFilePartHashes = none) (part : PendingPart)
    (data : Data) :
    (partFetched sha256 m part data).1.cdnFilePartHashes = none ∧
      .failed ∉ (partFetched sha256 m part data).2 := by
  unfold partFetched
  split
  · exact ⟨h, List.not_mem_nil⟩
  · apply checkState_unchecked
    split <;> exact h

/-- The table of hashes is never filled, whatever is answered. -/
theorem step_unchecked {m : Manager} (h : m.cdnFilePartHashes = none) (event : Event) :
    (step sha256 aes m event).1.cdnFilePartHashes = none ∧
      .failed ∉ (step sha256 aes m event).2 := by
  have hidle : ∀ m' : Manager, m'.cdnFilePartHashes = m.cdnFilePartHashes →
      m'.cdnFilePartHashes = none ∧ .failed ∉ ([] : List Output) :=
    fun m' hsame => ⟨hsame.trans h, List.not_mem_nil⟩
  unfold step
  split
  · exact hidle m rfl
  · cases event with
    | start => exact checkState_unchecked sha256 h
    | requestData =>
      dsimp only
      split <;> exact hidle _ rfl
    | reuploaded =>
      dsimp only
      split <;> exact hidle _ rfl
    | answered offset answer =>
      dsimp only
      split
      · exact hidle m rfl
      · rename_i part source _
        cases answer with
        | file bytes => exact partFetched_unchecked sha256 h part bytes
        | cdnFile bytes =>
          cases source with
          | file => exact hidle _ rfl
          | cdn fileData => exact partFetched_unchecked sha256 h part _
        | cdnRedirect fileData hashes =>
          show (switchToCdn (dropRequest m part) fileData).cdnFilePartHashes = none ∧ _
          unfold switchToCdn
          split <;> exact hidle _ rfl
        | cdnFileReuploadNeeded =>
          cases source with
          | file => exact hidle _ rfl
          | cdn fileData =>
            show (reuploadToCdn (dropRequest m part) fileData).cdnFilePartHashes = none ∧ _
            unfold reuploadToCdn
            split <;> exact hidle _ rfl
        | other => exact hidle _ rfl
        | error => exact hidle _ rfl

/-- A run in which the CDN delivers nothing. -/
theorem guarded_checks (size : Option Nat) (location length : Nat) (events : List Event)
    (hcheck : Guarded (auditedStep sha256 aes) (fun s => Checkable s.manager)
      (auditedStart size location length) events) :
    Guarded (auditedStep sha256 aes) (Checks sha256 aes) (auditedStart size location length)
      events := by
  have hstep : ∀ s event,
      (s.manager.cdnFilePartHashes = none ∧ s.audit.cdnBlocks = [] ∧ s.hasFailed = false) →
      Checkable s.manager event →
      Checks sha256 aes s event ∧
        (auditedStep sha256 aes s event).manager.cdnFilePartHashes = none ∧
          (auditedStep sha256 aes s event).audit.cdnBlocks = [] ∧
          (auditedStep sha256 aes s event).hasFailed = false := by
    rintro s event ⟨hnone, hblocks, hgoes⟩ hcheck
    obtain ⟨hnone', hno⟩ := step_unchecked sha256 aes hnone event
    have hblocks' : (auditAfter aes s.audit s.manager event).cdnBlocks = [] := by
      unfold auditAfter
      split
      · rename_i offset answer
        split
        · exact hblocks
        · rename_i part source hawaited
          unfold Audit.answered
          cases source with
          | file =>
            cases answer <;> exact hblocks
          | cdn fileData =>
            have hbytes := hcheck (part, .cdn fileData) hawaited rfl
            have hno : PartDownload.receivedBlock aes .video (Source.cdn fileData).fileData
                part.offset answer = none := by
              rw [Option.eq_none_iff_forall_ne_some]
              intro block hblock
              obtain ⟨bytes, hsome, _⟩ := PartDownload.length_receivedBlock hblock
              rw [hbytes] at hsome
              cases hsome
            rw [if_pos (show (Source.cdn fileData).fileData.isSome = true from rfl), hno,
              hblocks]
            rfl
      · exact hblocks
    refine ⟨⟨?_, ?_, ?_⟩, hnone', hblocks', ?_⟩
    · intro output _
      unfold OutputVerified
      split
      · grind [auditedStep]
      · trivial
    · grind
    · intro hfailed
      rw [hgoes] at hfailed
      cases hfailed
    · show (s.hasFailed || decide _) = false
      rw [hgoes, decide_eq_false hno]
      rfl
  refine guarded_mono hstep events _ ?_ hcheck
  unfold auditedStart initWithResource
  cases size <;> exact ⟨rfl, rfl, rfl⟩

end Runs

/-! ## The three downloads -/

/-- A download writes or delivers only verified blocks of a CDN, and none after a check has
failed, in every run whose CDN answers are checked. -/
theorem cdn_blocks_checked (sha256 : Data → Data) (aes : Data → Equiv.Perm (BitVec 128)) :
    (∀ kind o files events,
      Guarded (PartDownload.auditedStep sha256 aes kind)
          (fun s => PartDownload.Checkable kind s.actor)
          (PartDownload.auditedStart kind o files) events →
        Guarded (PartDownload.auditedStep sha256 aes kind) (PartDownload.Checks sha256 aes kind)
          (PartDownload.auditedStart kind o files) events) ∧
      ∀ size location length events,
        Guarded (auditedStep sha256 aes) (fun s => Checkable s.manager)
            (auditedStart size location length) events →
          Guarded (auditedStep sha256 aes) (Checks sha256 aes)
            (auditedStart size location length) events :=
  ⟨fun _ o files events => PartDownload.guarded_checks o files events, guarded_checks sha256 aes⟩

/-- The own datacenter gives the hash of a byte, and the CDN sends another byte.  Only
`TGMultipartFileDownloadActor` would notice, but lets the CDN replace the hash. -/
theorem unverified_blocks :
    (∃ o events, ¬ Guarded (PartDownload.auditedStep id (fun _ => Equiv.refl _) .video)
        (PartDownload.Checks id (fun _ => Equiv.refl _) .video)
        (PartDownload.auditedStart .video o {}) events) ∧
      (∃ o events, ¬ Guarded (PartDownload.auditedStep id (fun _ => Equiv.refl _) .multipart)
        (PartDownload.Checks id (fun _ => Equiv.refl _) .multipart)
        (PartDownload.auditedStart .multipart o {}) events) ∧
      ∃ size location length events, ¬ Guarded (auditedStep id (fun _ => Equiv.refl _))
        (Checks id (fun _ => Equiv.refl _)) (auditedStart size location length) events := by
  refine ⟨⟨{ size := 1 }, [.worker1, .answered 0 (.cdnRedirect PartDownload.zeroCdn [(0, [1])]),
      .worker1, .answered 0 (.cdnFile [7])], fun h => ?_⟩,
    ⟨{ size := 1 }, [.worker1, .answered 0 (.cdnRedirect PartDownload.zeroCdn [(0, [1])]),
      .worker1, .answered 0 (.cdnRedirect PartDownload.zeroCdn [(0, [7])]), .worker2,
      .answered 0 (.cdnFile [7])], fun h => ?_⟩,
    ⟨some 1, 0, 1, [.start, .requestData,
      .answered 0 (.cdnRedirect PartDownload.zeroCdn [(0, [1])]), .requestData,
      .answered 0 (.cdnFile [7])], fun h => ?_⟩⟩
  · have hwrite := h.2.2.2.1.writes (.appendPartial ⟨0, 1, some [7], false⟩ [7])
      (by decide +kernel) [7] rfl (by decide +kernel)
    exact absurd hwrite.2 (by decide +kernel)
  · have hwrite := h.2.2.2.2.2.1.writes (.appendPartial ⟨0, 1, some [7], false⟩ [7])
      (by decide +kernel) [7] rfl (by decide +kernel)
    exact absurd hwrite.2 (by decide +kernel)
  · have hready := h.2.2.2.2.1.ready (.partReady 0 [7]) (by decide +kernel) (by decide +kernel)
    exact absurd hready (by decide +kernel)

/-- A block of a CDN that has the hash which was given. -/
theorem verified_block :
    Guarded (PartDownload.auditedStep id (fun _ => Equiv.refl _) .multipart)
      (PartDownload.Checks id (fun _ => Equiv.refl _) .multipart)
      (PartDownload.auditedStart .multipart { size := 1 } {})
      [.worker1, .answered 0 (.cdnRedirect PartDownload.zeroCdn [(0, [1])]), .worker1,
        .answered 0 (.cdnFile [1])] ∧
      Guarded (auditedStep id (fun _ => Equiv.refl _)) (Checks id (fun _ => Equiv.refl _))
        (auditedStart (some 1) 0 1) [.start, .requestData, .answered 0 (.file [1])] :=
  ⟨(cdn_blocks_checked id (fun _ => Equiv.refl _)).1 .multipart { size := 1 } {} _
      (by decide +kernel),
    (cdn_blocks_checked id (fun _ => Equiv.refl _)).2 (some 1) 0 1 _ (by decide +kernel)⟩

end TelegramPub.Ports.PartFetch
