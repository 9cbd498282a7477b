import TelegramPub.Ports.PartAnswers

/-!
# Whole downloads

A download starts with the files that an earlier one has left.

For a download that starts without a partial file, `download_correct` says that whatever
the order of the answers, the partial file holds a beginning of the contents, what is
stored in the end are the contents, and a download that waits for nothing is over.  A late
redirect breaks the last of these (`late_redirect_stalls`).

The decrypted size must lie in the last part (`CutsLastPart`): only a part that reaches
over it is cut, and those behind it are written as they are.
-/

namespace TelegramPub.Ports.PartDownload

open Verified.Bytes Verified.IgeChain Verified.Machine

variable (sha256 : Data → Data) (aes : Data → Equiv.Perm (BitVec 128)) (kind : Kind)
  (o : Options) (file : Data)

/-- What is to hold in every state of a download. -/
structure Correct (w : World) : Prop where
  partialFile : ∀ data, w.files.partialFile = some data → data <+: plaintext aes o file
  stored : ∀ data, w.files.stored = some data → data = plaintext aes o file
  completed : w.actor.status = .completed → w.files.stored = some (plaintext aes o file)
  noStall : ¬ Outstanding w.actor → w.actor.status ≠ .running

section Starts

variable {sha256} {aes} {kind} {o} {file} {L : Prop}

theorem encryption_iv (o : Options) :
    (o.encryptionKey.bind fun _ => o.encryptionIv) = o.encryption.map Prod.snd := by
  unfold Options.encryption
  cases o.encryptionKey <;> cases o.encryptionIv <;> rfl

/-- Where a download goes on. -/
def resumeOffset (kind : Kind) (o : Options) (files : Files) : Nat :=
  if isUnusable kind o files then 0 else files.partialSize

/-- The vector that a download goes on with. -/
def resumeIv (kind : Kind) (o : Options) (files : Files) : Option Iv :=
  o.encryption.map fun (_, iv) =>
    match kind with
    | .multipart => (storedIv files).getD iv
    | .video => iv

/-- Before the end of the contents a download with a key goes on with the right vector: the
`.info` file has one for each part, or the download begins anew. -/
def Resumable (aes : Data → Equiv.Perm (BitVec 128)) (kind : Kind) (o : Options) (file : Data)
    (files : Files) : Prop :=
  o.encryption ≠ none → resumeOffset kind o files < (plaintext aes o file).length →
    match kind with
    | .multipart => infoCount files = resumeOffset kind o files / preferredPartSize
    | .video => resumeOffset kind o files = 0

theorem storedIv_eq_none_iff (files : Files) : storedIv files = none ↔ infoCount files = 0 := by
  unfold storedIv infoCount
  cases files.info with
  | none => exact ⟨fun _ => rfl, fun _ => rfl⟩
  | some previousData =>
    grind

/-- What `execute:` makes of the files. -/
theorem execute_eq (kind : Kind) (o : Options) (files : Files) :
    (execute kind o files).1 =
        { size := o.size, decryptedSize := o.decryptedSize, encryptionKey := o.encryptionKey,
          runningEncryptionIv := resumeIv kind o files,
          downloadedFileSize := resumeOffset kind o files } ∧
      ((execute kind o files).2 = (if isUnusable kind o files then [.createPartial] else []) ∨
        (execute kind o files).2 =
          (if isUnusable kind o files then [.createPartial] else []) ++ [.openInfo]) := by
  unfold execute resumeIv resumeOffset
  rw [encryption_iv]
  cases kind with
  | video =>
    refine ⟨?_, .inl rfl⟩
    cases o.encryption <;> rfl
  | multipart =>
    cases o.encryption with
    | none => exact ⟨rfl, .inl rfl⟩
    | some pair => exact ⟨rfl, .inr rfl⟩

theorem openInfo_info (files : Files) :
    infoCount (files.apply .openInfo) = infoCount files ∧
      storedIv (files.apply .openInfo) = storedIv files := by
  unfold infoCount storedIv
  cases hinfo : files.info with
  | none => exact ⟨by simp [Files.apply, hinfo], by simp [Files.apply, hinfo]⟩
  | some previousData => exact ⟨by simp [Files.apply, hinfo], by simp [Files.apply, hinfo]⟩

variable {files : Files}

/-- The vector of the committed bytes. -/
theorem resumeIv_eq (hdisk : Disk aes kind o file files)
    (hresumable : Resumable aes kind o file files)
    (hless : resumeOffset kind o files < (plaintext aes o file).length) :
    resumeIv kind o files = ivAfter aes o (file.take (resumeOffset kind o files)) := by
  unfold resumeIv
  cases henc : o.encryption with
  | none =>
    unfold ivAfter
    rw [henc]
    rfl
  | some pair =>
    obtain ⟨key, iv⟩ := pair
    have hsome : o.encryption ≠ none := by
      rw [henc]
      exact Option.some_ne_none _
    have hfresh : resumeOffset kind o files = 0 →
        some iv = ivAfter aes o (file.take (resumeOffset kind o files)) := by
      intro hzero
      have hnil := decryptIv_nil (aes key).symm iv.2
      unfold ivAfter
      rw [henc, hzero, Option.map_some, List.take_zero]
      simp only [hnil]
    have hcount := hresumable hsome hless
    cases kind with
    | video => exact hfresh hcount
    | multipart =>
      dsimp only at hcount
      rw [Option.map_some]
      by_cases hzero : resumeOffset .multipart o files = 0
      · rw [hzero, Nat.zero_div] at hcount
        rw [(storedIv_eq_none_iff files).2 hcount]
        exact hfresh hzero
      · have husable : ¬ isUnusable .multipart o files = true := by
          intro hunusable
          unfold resumeOffset at hzero
          rw [if_pos hunusable] at hzero
          exact hzero rfl
        cases hdisk with
        | unusable hunusable _ => exact absurd hunusable husable
        | contents n hle hbegun _ hinfo _ =>
          have hoffset : resumeOffset .multipart o files = n := by
            unfold resumeOffset Files.partialSize
            rw [if_neg husable, hbegun, Option.getD_some, List.length_take, min_eq_left hle]
          rw [hoffset] at hless hcount hzero ⊢
          have hlast := hinfo rfl hsome hless hzero hcount
          obtain ⟨running, hrunning⟩ :
              ∃ running, ivAfter aes o (file.take n) = some running := by
            unfold ivAfter
            rw [henc]
            exact ⟨_, rfl⟩
          rw [hlast, hrunning]
          rfl

theorem resumed_partialFile {files' : Files} (hdisk : Disk aes kind o file files)
    (hfiles : files'.partialFile =
      if isUnusable kind o files then some [] else files.partialFile) :
    files'.partialFile = some ((plaintext aes o file).take (resumeOffset kind o files)) ∧
      resumeOffset kind o files ≤ (plaintext aes o file).length ∧
      Placed o file (resumeOffset kind o files) := by
  unfold resumeOffset
  by_cases hunusable : isUnusable kind o files = true
  · rw [if_pos hunusable] at hfiles ⊢
    exact ⟨hfiles, Nat.zero_le _, fun _ => .inl rfl⟩
  · rw [if_neg hunusable] at hfiles ⊢
    cases hdisk with
    | unusable hno _ => exact absurd hno hunusable
    | contents n hle hbegun hplaced _ _ =>
      have hsize : files.partialSize = n := by
        unfold Files.partialSize
        rw [hbegun, Option.getD_some, List.length_take, min_eq_left hle]
      rw [hsize]
      refine ⟨hfiles.trans hbegun, hle, fun hlt => ?_⟩
      rcases hplaced with haligned | hwhole
      · exact .inl haligned
      · right
        by_cases hnone : o.encryption = none ∨ o.decryptedSize = 0
        · rw [hwhole, length_plaintext_of_whole aes hnone] at hlt
          exact absurd hlt (Nat.lt_irrefl _)
        · have hsome : o.encryption ≠ none := fun h => hnone (.inl h)
          have hne : o.decryptedSize ≠ 0 := fun h => hnone (.inr h)
          rw [length_plaintext_of_cut aes hsome hne] at hwhole
          exact ⟨hsome, hne, by omega⟩

theorem Disk.stored_or (h : Disk aes kind o file files) :
    files.stored = none ∨ files.stored = some (plaintext aes o file) := by
  cases h with
  | unusable _ hstored => exact hstored
  | contents _ _ _ _ _ hstored => exact hstored

theorem createPartial_disk (h : Disk aes kind o file files) :
    Disk aes kind o file (files.apply .createPartial) :=
  .contents 0 (Nat.zero_le _) rfl (.inl rfl) (fun _ _ _ hne => absurd rfl hne) h.stored_or

/-- The actor that goes on. -/
theorem resumed_core (hserved : Served kind o file) {files' : Files}
    (hdisk : Disk aes kind o file files) (hstored : kind = .video → files.stored = none)
    (hresumable : Resumable aes kind o file files) (hfiles : files'.partialFile =
      if isUnusable kind o files then some [] else files.partialFile)
    (hcount : infoCount files' = infoCount files) (hiv : storedIv files' = storedIv files)
    (hsame : files'.stored = files.stored) :
    Core aes kind o file
      { size := o.size, decryptedSize := o.decryptedSize, encryptionKey := o.encryptionKey,
        runningEncryptionIv := resumeIv kind o files,
        downloadedFileSize := resumeOffset kind o files } files' := by
  obtain ⟨hbegun, hle, hplaced⟩ := resumed_partialFile hdisk hfiles
  refine {
    running := rfl
    size := hserved.size
    keyed := ⟨rfl, rfl, Option.isSome_map, fun hless => resumeIv_eq hdisk hresumable hless⟩
    explicitParts := rfl
    row := ⟨_, trivial, .inl rfl⟩
    parts := fun p hp => by cases hp
    downloaded_le := hle.trans (length_plaintext aes o file)
    placed := hplaced
    partialFile := hbegun
    info := ?_
    stored := ?_ }
  · intro hkind hsome hless
    dsimp only at hless ⊢
    have hnow := hresumable hsome hless
    have hright := resumeIv_eq hdisk hresumable hless
    obtain ⟨⟨key, iv⟩, henc⟩ := Option.ne_none_iff_exists'.1 hsome
    subst hkind
    refine ⟨hcount.trans hnow, fun hne => ?_⟩
    rw [hiv]
    cases hlast : storedIv files with
    | none =>
      have hzero := (storedIv_eq_none_iff files).1 hlast
      have haligned := hplaced.aligned hless
      dsimp only at hnow
      unfold preferredPartSize at hnow haligned
      omega
    | some running =>
      unfold resumeIv
      rw [henc, hlast]
      rfl
  · rw [hsame]
    cases kind with
    | multipart => exact hdisk.stored_or.imp_right fun hsome => ⟨rfl, hsome⟩
    | video => exact .inl (hstored rfl)

theorem execute_files (kind : Kind) (o : Options) (files : Files) :
    (files.applyAll (execute kind o files).2).partialFile =
        (if isUnusable kind o files then some [] else files.partialFile) ∧
      infoCount (files.applyAll (execute kind o files).2) = infoCount files ∧
      storedIv (files.applyAll (execute kind o files).2) = storedIv files ∧
      (files.applyAll (execute kind o files).2).stored = files.stored := by
  have hcreate : ∀ b : Bool, (files.applyAll (if b then [.createPartial] else [])).partialFile =
      (if b then some [] else files.partialFile) ∧
      (files.applyAll (if b then [.createPartial] else [])).info = files.info ∧
      (files.applyAll (if b then [.createPartial] else [])).stored = files.stored := by
    intro b
    cases b <;> exact ⟨rfl, rfl, rfl⟩
  obtain ⟨hpart, hinfo, hkept⟩ := hcreate (isUnusable kind o files)
  have hcount : infoCount
      (files.applyAll (if isUnusable kind o files then [.createPartial] else [])) =
        infoCount files := by
    unfold infoCount
    rw [hinfo]
  have hiv : storedIv (files.applyAll (if isUnusable kind o files then [.createPartial] else [])) =
      storedIv files := by
    unfold storedIv
    rw [hinfo]
  rcases (execute_eq kind o files).2 with hops | hops
  · rw [hops]
    exact ⟨hpart, hcount, hiv, hkept⟩
  · rw [hops, applyAll_append]
    obtain ⟨hcount', hiv'⟩ :=
      openInfo_info (files.applyAll (if isUnusable kind o files then [.createPartial] else []))
    exact ⟨hpart, hcount'.trans hcount, hiv'.trans hiv, hkept⟩

/-- The process may end while an actor starts. -/
theorem execute_safe (hdisk : Disk aes kind o file files) :
    Safe aes kind o file files (execute kind o files).2 := by
  have hopened : ∀ files', Disk aes kind o file files' →
      Disk aes kind o file (files'.apply .openInfo) := by
    intro files' hdisk'
    obtain ⟨hcount, hiv⟩ := openInfo_info files'
    cases hdisk' with
    | unusable hunusable hstored => exact .unusable hunusable hstored
    | contents n hle hbegun hplaced hinfo hstored =>
      refine .contents n hle hbegun hplaced ?_ hstored
      rw [hcount, hiv]
      exact hinfo
  have hcreate : Safe aes kind o file files
      (if isUnusable kind o files then [.createPartial] else []) := by
    split
    · exact ⟨hdisk, createPartial_disk hdisk⟩
    · exact hdisk
  rcases (execute_eq kind o files).2 with hops | hops
  · rw [hops]
    exact hcreate
  · rw [hops]
    exact hcreate.append _ ⟨hcreate.last, hopened _ hcreate.last⟩

/-- A start where an earlier download has ended. -/
theorem start_spec (hserved : Served kind o file) (hdisk : Disk aes kind o file files)
    (hstored : kind = .video → files.stored = none) (hresumable : Resumable aes kind o file files) :
    Right aes kind o file L (start kind o files) := by
  obtain ⟨hpart, hcount, hiv, hkept⟩ := execute_files kind o files
  have hcore := resumed_core hserved hdisk hstored hresumable hpart hcount hiv hkept
  show Right aes kind o file L
    ⟨(execute kind o files).1, files.applyAll (execute kind o files).2⟩
  rw [(execute_eq kind o files).1]
  exact .running {
    core := hcore
    notReady := fun p hp => by cases hp
    requests := {
      part := fun r hr => by cases hr
      limit := fun r hr => by cases hr
      requested := fun p hp => by cases hp
      nodup := List.nodup_nil }
    worker := fun _ => Nat.one_ne_zero
    reuploading := fun hfalse => by cases hfalse } fun _ => .inr (.inl Nat.one_ne_zero)

theorem stored_eq (h : files.stored = none ∨ files.stored = some (plaintext aes o file))
    (data : Data) (hdata : files.stored = some data) : data = plaintext aes o file := by
  rcases h with hnone | hsome
  · rw [hnone] at hdata
    cases hdata
  · rw [hsome] at hdata
    exact (Option.some.inj hdata).symm

theorem prefix_of_begun {n : Nat} (h : files.partialFile = some ((plaintext aes o file).take n))
    (data : Data) (hdata : files.partialFile = some data) : data <+: plaintext aes o file := by
  rw [h] at hdata
  cases hdata
  exact List.take_prefix n _

theorem Right.correct {w : World} (h : Right aes kind o file True w) : Correct aes o file w := by
  cases h with
  | running h hwaits =>
    refine ⟨prefix_of_begun h.core.partialFile, stored_eq h.core.stored_or, ?_,
      fun hnone => absurd (hwaits trivial) hnone⟩
    intro hstatus
    rw [h.core.running] at hstatus
    cases hstatus
  | failed hstatus hstopped _ =>
    obtain ⟨⟨n, hbegun⟩, hstored⟩ := hstopped
    refine ⟨prefix_of_begun hbegun, stored_eq hstored, ?_, fun _ => by rw [hstatus]; decide⟩
    intro hcompleted
    rw [hstatus] at hcompleted
    cases hcompleted
  | completed hstatus hgone hstored =>
    refine ⟨?_, stored_eq (.inr hstored), fun _ => hstored, fun _ => by rw [hstatus]; decide⟩
    intro data hdata
    rw [hgone] at hdata
    cases hdata

theorem resumable_of_new (hnew : files.partialFile = none)
    (hinfo : kind = .multipart → storedIv files = none) : Resumable aes kind o file files := by
  intro _ _
  unfold resumeOffset
  rw [if_pos (isUnusable_of_none hnew)]
  cases kind with
  | multipart => exact (storedIv_eq_none_iff files).1 (hinfo rfl)
  | video => rfl

/-- Alive or not, what a download stores are the contents. -/
theorem Right.stored {w : World} (h : Right aes kind o file L w) :
    (∀ data, w.files.stored = some data → data = plaintext aes o file) ∧
      (w.actor.status = .completed → w.files.stored = some (plaintext aes o file)) := by
  cases h with
  | running h _ => exact ⟨stored_eq h.core.stored_or, by simp [h.core.running]⟩
  | failed hstatus hstopped _ => exact ⟨stored_eq hstopped.stored, by simp [hstatus]⟩
  | completed _ _ hstored => exact ⟨stored_eq (.inr hstored), fun _ => hstored⟩

theorem execute_size (files : Files) : (execute kind o files).1.size = o.size := by
  unfold execute
  dsimp only
  split <;> rfl

/-- A download whose size is known needs no order of the answers. -/
theorem run_right_of_size (hserved : Served kind o file) (hcut : CutsLastPart o file)
    (hsize : o.size ≠ 0) {events : List Event}
    (hhonest : Guarded (step sha256 aes kind) (fun w => Honest aes kind file w.actor)
      (start kind o {}) events)
    (hwaits : Guarded (step sha256 aes kind) (fun w event => L → Accompanied kind w.actor event)
      (start kind o {}) events) :
    Right aes kind o file L (run (step sha256 aes kind) (start kind o {}) events) := by
  have hdisk : Disk aes kind o file {} := .unusable (isUnusable_of_none rfl) (.inl rfl)
  have hfirst := start_spec (L := L) hserved hdisk (fun _ => rfl)
    (resumable_of_new rfl fun _ => rfl)
  have hknown : (start kind o {}).actor.size ≠ 0 := by
    show (execute kind o {}).1.size ≠ 0
    rw [execute_size]
    exact hsize
  have hstep : ∀ w event,
      Honest aes kind file w.actor event ∧ (L → Accompanied kind w.actor event) →
      Right aes kind o file L w ∧ w.actor.size ≠ 0 →
      Right aes kind o file L (step sha256 aes kind w event) ∧
        (step sha256 aes kind w event).actor.size ≠ 0 := by
    intro w event hg hw
    refine ⟨(step_right hserved.blocks hcut hw.1 hg.1 (inTurn_of_size hw.2 event) hg.2).1, ?_⟩
    exact (actorStep_size hw.2 event).symm ▸ hw.2
  exact (guarded_invariant hstep events _ (hhonest.and hwaits) ⟨hfirst, hknown⟩).1

end Starts

/-- In every run whose answers come at the right time, a download is right in every state. -/
theorem download_correct (hserved : Served kind o file) (hcut : CutsLastPart o file)
    (files : Files) (hnew : files.partialFile = none) (hstored : files.stored = none)
    (hinfo : kind = .multipart → storedIv files = none) (events : List Event)
    (hhonest : Guarded (step sha256 aes kind) (fun w => Honest aes kind file w.actor)
      (start kind o files) events)
    (hturn : Guarded (step sha256 aes kind) (fun w => InTurn kind file w.actor)
      (start kind o files) events)
    (hwaits : Guarded (step sha256 aes kind) (fun w => Accompanied kind w.actor)
      (start kind o files) events) :
    Correct aes o file (run (step sha256 aes kind) (start kind o files) events) := by
  have hdisk : Disk aes kind o file files :=
    .unusable (isUnusable_of_none hnew) (.inl hstored)
  have hfirst := start_spec (L := True) hserved hdisk (fun _ => hstored)
    (resumable_of_new hnew hinfo)
  refine Right.correct (guarded_invariant ?_ events _ ((hhonest.and hturn).and hwaits) hfirst)
  intro w event hg hright
  exact (step_right hserved.blocks hcut hright hg.1.1 hg.1.2 fun _ => hg.2).1

/-- The data of a CDN whose key stream is zero on the first byte of a part. -/
def zeroCdn : CdnFileData :=
  { cdnId := 1, token := [], encryptionKey := [], encryptionIv := List.replicate 16 0 }

/-- The last of two parts comes first. -/
def lastFirst : List Event := [.worker1, .answered 1 (.file [0])]

/-- The first part is still waited for. -/
def firstAwaited : World where
  actor :=
    { size := 131073, decryptedSize := 0, encryptionKey := none, runningEncryptionIv := none
      downloadedFileSize := 0, worker1 := true, worker1Requests := 0
      downloadingParts := [{ partOffset := 0, partLength := 131072 },
        { partOffset := 131072, partLength := 131072, downloadedData := some [0] }]
      partRequests := [{ offset := 0, length := 131072, limit := 131072, cdnToken := none }] }
  files := { partialFile := some [] }

theorem run_lastFirst : run (step (fun _ => []) (fun _ => Equiv.refl _) .multipart)
    (start .multipart { size := 131073 } {}) lastFirst = firstAwaited := rfl

theorem completed_of_firstAwaited {bytes : Data} (hbytes : bytes.length = 131072) :
    (step (fun _ => []) (fun _ => Equiv.refl _) .multipart firstAwaited
      (.answered 0 (.file bytes))).actor.status = .completed := by
  unfold step actorStep
  simp [firstAwaited, runningStep, answered, filePartDownloadSuccess, Actor.part, List.find?,
    storeData, sortedDownloadingParts, commitLoop, commitPass, commitPart, decryptPart,
    hashesMatch, hbytes, downloadFileParts, complete]

/-- A file that is redirected and has to be uploaded to the CDN first, and a file of two parts
that come in the other order. -/
theorem redirected_download :
    (run (step (fun _ => []) (fun _ => Equiv.refl _) .multipart)
      (start .multipart { size := 2 } {})
      [.worker1, .answered 0 (.cdnRedirect zeroCdn [(0, [])]), .worker1,
        .answered 0 .cdnFileReuploadNeeded, .reuploaded,
        .answered 0 (.cdnFile [1, 2])]).files.stored = some [1, 2] ∧
    (run (step (fun _ => []) (fun _ => Equiv.refl _) .multipart)
      (start .multipart { size := 131073 } {})
      (lastFirst ++ [.answered 0 (.file (List.replicate 131072 0))])).files.stored =
        some (List.replicate 131073 0) := by
  constructor
  · exact (download_correct (fun _ => []) (fun _ => Equiv.refl _) .multipart { size := 2 } [1, 2]
      ⟨.inl rfl, fun hno => absurd rfl hno⟩ (.inl rfl) {} rfl rfl (fun _ => rfl) _
      (by decide +kernel) (by decide +kernel) (by decide +kernel)).completed (by decide +kernel)
  · refine (download_correct (fun _ => []) (fun _ => Equiv.refl _) .multipart { size := 131073 }
      (List.replicate 131073 0) ⟨.inl (by rw [List.length_replicate]), fun hno => absurd rfl hno⟩
      (.inl rfl) {} rfl rfl (fun _ => rfl) _ ?_ ?_ ?_).completed ?_
    · rw [guarded_append, run_lastFirst]
      refine ⟨⟨trivial, ?_, trivial⟩, ?_, trivial⟩
      · show [0] = slice (List.replicate 131073 0) 131072 131072
        rw [slice_zeros]
        rfl
      · show List.replicate 131072 0 = slice (List.replicate 131073 0) 0 131072
        rw [slice_zeros]
        rfl
    · rw [guarded_append, run_lastFirst]
      exact ⟨⟨trivial, inTurn_of_size (by decide) _, trivial⟩, inTurn_of_size (by decide) _, trivial⟩
    · exact ⟨trivial, trivial, trivial, trivial⟩
    · rw [run_append, run_lastFirst, run_cons, run_nil]
      exact completed_of_firstAwaited List.length_replicate

/-! ## A late redirect -/

/-- The second part is redirected, and comes from the CDN.  Then the first part, asked
for before the switch, is redirected too. -/
def lateRedirect : List Event :=
  [.worker1, .answered 1 (.cdnRedirect zeroCdn [(131072, [])]), .worker1,
    .answered 1 (.cdnFile [0]), .worker2, .worker2,
    .answered 0 (.cdnRedirect zeroCdn [(131072, [])])]

/-- An event that is honest in every state. -/
def Harmless : Event → Bool
  | .answered _ (.cdnRedirect _ _) => true
  | .answered _ _ => false
  | _ => true

theorem guarded_of_harmless {aes : Data → Equiv.Perm (BitVec 128)} {kind : Kind} {file : Data}
    {events : List Event} (h : ∀ event ∈ events, Harmless event) (next : World → Event → World)
    (w : World) : Guarded next (fun w => Honest aes kind file w.actor) w events := by
  induction events generalizing w with
  | nil => trivial
  | cons event events ih =>
    have hfirst := h event (.head _)
    refine ⟨?_, ih (fun e he => h e (.tail event he)) _⟩
    cases event with
    | answered index answer =>
      cases answer with
      | cdnRedirect fileData hashes =>
        unfold Honest
        dsimp only
        split <;> trivial
      | _ => cases hfirst
    | _ => trivial

theorem honest_cdnFile {aes : Data → Equiv.Perm (BitVec 128)} {kind : Kind} {file : Data}
    {a : Actor} {index : Nat} {r : PartRequest} (hr : a.partRequests[index]? = some r)
    {f : CdnFileData} (hdata : a.cdnFileData = some f) {bytes : Data}
    (hexact : cdnData aes kind f r.offset bytes = slice file r.offset r.limit) :
    Honest aes kind file a (.answered index (.cdnFile bytes)) := by
  unfold Honest AnswersExactly
  dsimp only
  rw [hr]
  rw [hdata]
  exact hexact

/-- The answers of `lateRedirect` are exact for a file of two parts that ends with a zero. -/
theorem lateRedirect_honest (kind : Kind) {file : Data} (hlast : slice file 131072 131072 = [0]) :
    Guarded (step (fun _ => []) (fun _ => Equiv.refl _) kind)
      (fun w => Honest (fun _ => Equiv.refl _) kind file w.actor)
      (start kind { size := 131073 } {}) lateRedirect := by
  have hdecrypt : cdnData (fun _ => Equiv.refl _) kind zeroCdn 131072 [0] = [0] := by
    cases kind <;> decide +kernel
  have hrequest : (run (step (fun _ => []) (fun _ => Equiv.refl _) kind)
          (start kind { size := 131073 } {}) (lateRedirect.take 3)).actor.partRequests[1]? =
        some { offset := 131072, length := 131072, limit := 131072, cdnToken := some [] } ∧
      (run (step (fun _ => []) (fun _ => Equiv.refl _) kind)
          (start kind { size := 131073 } {}) (lateRedirect.take 3)).actor.cdnFileData =
        some zeroCdn := by
    cases kind <;> decide +kernel
  rw [← List.take_append_drop 3 lateRedirect, guarded_append]
  refine ⟨guarded_of_harmless (by decide) _ _, ?_, guarded_of_harmless (by decide) _ _⟩
  exact honest_cdnFile hrequest.1 hrequest.2 (hdecrypt.trans hlast.symm)

/-- Exact answers can leave an actor that runs and waits for nothing. -/
theorem late_redirect_stalls :
    ∃ (file : Data) (o : Options) (events : List Event), ∀ kind,
      Served kind o file ∧ CutsLastPart o file ∧
        Guarded (step (fun _ => []) (fun _ => Equiv.refl _) kind)
          (fun w => Honest (fun _ => Equiv.refl _) kind file w.actor) (start kind o {}) events ∧
        ¬ Correct (fun _ => Equiv.refl _) o file
          (run (step (fun _ => []) (fun _ => Equiv.refl _) kind) (start kind o {}) events) := by
  refine ⟨List.replicate 131073 0, { size := 131073 }, lateRedirect, fun kind => ⟨?_, ?_, ?_, ?_⟩⟩
  · exact ⟨.inl (by rw [List.length_replicate]), fun hno => absurd rfl hno⟩
  · exact .inl rfl
  · apply lateRedirect_honest
    unfold slice
    rw [List.drop_replicate, List.take_replicate]
    rfl
  · intro hcorrect
    have hend : ¬ Outstanding (run (step (fun _ => []) (fun _ => Equiv.refl _) kind)
          (start kind { size := 131073 } {}) lateRedirect).actor ∧
        (run (step (fun _ => []) (fun _ => Equiv.refl _) kind)
          (start kind { size := 131073 } {}) lateRedirect).actor.status = .running := by
      cases kind <;> decide +kernel
    exact hcorrect.noStall hend.1 hend.2

end TelegramPub.Ports.PartDownload
