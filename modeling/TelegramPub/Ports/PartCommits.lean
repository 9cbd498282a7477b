import TelegramPub.Ports.PartLayout

/-!
# Committing parts

What the commit loop does to a row of parts whose data are bytes of the file: it
appends the next bytes of the contents to the partial file and carries the running
initialization vector along, until the first part is one without data, or the check of
the hashes fails.

`Core` is the invariant of the parts and the partial file; `commitLoop_spec` is the
result.  The row usually begins where the committed bytes end.  Only behind the end of
the file it may begin later.
-/

namespace TelegramPub.Ports.PartDownload

open Verified.Bytes Verified.IgeChain

variable (sha256 : Data → Data) (aes : Data → Equiv.Perm (BitVec 128))

/-- Where a part may begin: on a multiple of the part size, at the decrypted size, or
behind the file. -/
def Placed (o : Options) (file : Data) (offset : Nat) : Prop :=
  offset < file.length → offset % preferredPartSize = 0 ∨
    o.encryption ≠ none ∧ o.decryptedSize ≠ 0 ∧ offset = o.decryptedSize

theorem length_plaintext (o : Options) (file : Data) :
    (plaintext aes o file).length ≤ file.length := by
  unfold plaintext
  split
  · dsimp only
    split
    · rw [length_decryptBytes]
    · rw [List.length_take, length_decryptBytes]
      exact Nat.min_le_right _ _
  · exact Nat.le_refl _

theorem length_plaintext_of_cut {o : Options} {file : Data} (h : o.encryption ≠ none)
    (hsize : o.decryptedSize ≠ 0) :
    (plaintext aes o file).length = min o.decryptedSize file.length := by
  unfold plaintext
  obtain ⟨⟨key, iv⟩, heq⟩ := Option.ne_none_iff_exists'.1 h
  rw [heq]
  dsimp only
  rw [if_neg hsize, List.length_take, length_decryptBytes]

theorem length_plaintext_of_whole {o : Options} {file : Data}
    (h : o.encryption = none ∨ o.decryptedSize = 0) :
    (plaintext aes o file).length = file.length := by
  unfold plaintext
  split
  · simp_all
  · rfl

/-- What the actor knows of the encryption agrees with its options. -/
structure Keyed (o : Options) (file : Data) (a : Actor) : Prop where
  key : a.encryptionKey = o.encryptionKey
  decryptedSize : a.decryptedSize = o.decryptedSize
  given : a.runningEncryptionIv.isSome = o.encryption.isSome
  running : a.downloadedFileSize < (plaintext aes o file).length →
    a.runningEncryptionIv = ivAfter aes o (file.take a.downloadedFileSize)

/-- The bytes up to an offset and the piece that follows. -/
theorem take_append_piece (data : Data) (offset length : Nat) :
    data.take offset ++ slice data offset length =
      data.take (offset + (slice data offset length).length) := by
  rw [take_append_slice, length_slice]
  rcases Nat.le_total length (data.length - offset) with hle | hle
  · rw [min_eq_left hle]
  · rw [min_eq_right hle, List.take_of_length_le (by omega), List.take_of_length_le (by omega)]

section Part

variable {aes} {kind : Kind} {o : Options} {file : Data} (hblocks : o.encryption ≠ none →
    file.length % 16 = 0) {a : Actor} (hkeyed : Keyed aes o file a)
  {n : Nat} (hn : a.downloadedFileSize = n) (hle : n ≤ file.length)
  (hblock : o.encryption ≠ none → n < (plaintext aes o file).length → n % 16 = 0)
  (hover : o.encryption ≠ none → o.decryptedSize ≠ 0 → o.decryptedSize ≤ n → n < file.length →
    n = o.decryptedSize)
  {length : Nat} (hend : o.encryption ≠ none → length % 16 = 0 ∨ file.length ≤ n + length)

/-- What `decryptPart` is to do: the data of the next part become the next bytes of the
contents. -/
def DecryptsNext (aes : Data → Equiv.Perm (BitVec 128)) (kind : Kind) (o : Options)
    (file : Data) (a : Actor) (n length : Nat) : Prop :=
  ∃ iv ops dataToWrite,
    decryptPart aes kind a (slice file n length) =
      ({ a with runningEncryptionIv := iv }, dataToWrite, ops) ∧
    iv.isSome = o.encryption.isSome ∧
    (n + (slice file n length).length < (plaintext aes o file).length →
      iv = ivAfter aes o (file.take (n + (slice file n length).length))) ∧
    (plaintext aes o file).take n ++ dataToWrite =
      (plaintext aes o file).take (n + (slice file n length).length) ∧
    ops = (iv.map (storeIv kind)).getD []

include hkeyed in
theorem decryptPart_plain (henc : o.encryption = none) :
    DecryptsNext aes kind o file a n length := by
  have hiv : a.runningEncryptionIv = none := by
    rw [← Option.not_isSome_iff_eq_none, hkeyed.given, henc]
    exact Bool.false_ne_true
  have hplain : plaintext aes o file = file := by
    unfold plaintext
    rw [henc]
  refine ⟨none, [], slice file n length, ?_, by rw [henc]; rfl, ?_, ?_, rfl⟩
  · unfold decryptPart
    rw [hiv]
    split
    · rename_i hnone
      cases hnone
    · rw [← hiv]
  · intro _
    unfold ivAfter
    rw [henc]
    rfl
  · rw [hplain, take_append_piece]

include hle hover in
/-- Behind the end of the contents nothing is left of a part. -/
theorem cutPart_behind (henc : o.encryption ≠ none)
    (hbehind : (plaintext aes o file).length ≤ n) {decryptedData : Data}
    (hlength : n + decryptedData.length ≤ file.length) :
    cutPart o.decryptedSize n decryptedData = [] := by
  by_cases hempty : decryptedData = []
  · rw [hempty]
    unfold cutPart
    split <;> simp
  · have hpos : 0 < decryptedData.length := List.length_pos_iff.2 hempty
    by_cases hsize : o.decryptedSize = 0
    · rw [length_plaintext_of_whole aes (.inr hsize)] at hbehind
      omega
    · rw [length_plaintext_of_cut aes henc hsize] at hbehind
      have hat : n = o.decryptedSize := hover henc hsize (by omega) (by omega)
      unfold cutPart
      rw [if_pos ⟨hsize, by omega, by omega⟩, hat, Nat.sub_self, List.take_zero]

/-- Before the end of the contents the part is the next bytes of them. -/
theorem cutPart_before {dec : Data} {decryptedSize : Nat}
    (hsize : decryptedSize ≠ 0 → n < decryptedSize) :
    (if decryptedSize = 0 then dec else dec.take decryptedSize).take n ++
        cutPart decryptedSize n (slice dec n length) =
      (if decryptedSize = 0 then dec else dec.take decryptedSize).take
        (n + (slice dec n length).length) := by
  unfold cutPart
  by_cases hzero : decryptedSize = 0
  · rw [if_pos hzero, if_neg (fun hcut => hcut.1 hzero), take_append_piece]
  · have hlt := hsize hzero
    rw [if_neg hzero, List.take_take, min_eq_left (by omega), List.take_take]
    by_cases hover : decryptedSize < n + (slice dec n length).length
    · rw [if_pos ⟨hzero, by omega, hover⟩, min_eq_right (by omega)]
      have htake : (slice dec n length).take (decryptedSize - n) =
          slice dec n (decryptedSize - n) := by
        rw [length_slice] at hover
        unfold slice
        rw [List.take_take, min_eq_left (by omega)]
      rw [htake, take_append_slice, Nat.add_sub_of_le (by omega)]
    · rw [if_neg (fun hcut => hover hcut.2.2), min_eq_left (by omega), take_append_piece]

theorem length_decryptRunning (key : Data) (iv : Iv) (data : Data) :
    (decryptRunning aes kind key iv data).1.length = data.length := by
  unfold decryptRunning
  split
  · exact length_decryptBytes _ _ _
  · rfl

theorem ivAfter_append {key : Data} {iv : Iv} (henc : o.encryption = some (key, iv))
    {xs : Data} (ys : Data) (hxs : xs.length % 16 = 0) :
    ivAfter aes o (xs ++ ys) =
      some ⟨decryptIv (aes key).symm (decryptIv (aes key).symm iv.1 xs) ys,
        length_decryptIv _ _ _⟩ := by
  unfold ivAfter
  rw [henc, Option.map_some]
  simp only [decryptIv_append _ iv.1 ys hxs]

include hblocks hkeyed hn hblock hend in
/-- Before the end of the contents a part begins on a block, and the vector is the one of
the bytes before it. -/
theorem decryptRunning_before {key : Data} {iv running : Iv}
    (henc : o.encryption = some (key, iv)) (hrunning : a.runningEncryptionIv = some running)
    (hless : n < (plaintext aes o file).length) :
    decryptRunning aes kind key running (slice file n length) =
      (slice (decryptBytes (aes key).symm iv.1 file) n length,
        (decryptRunning aes kind key running (slice file n length)).2) ∧
      some (decryptRunning aes kind key running (slice file n length)).2 =
        ivAfter aes o (file.take (n + (slice file n length).length)) := by
  have hsome : o.encryption ≠ none := by
    rw [henc]
    exact Option.some_ne_none _
  have hfile : n < file.length := hless.trans_le (length_plaintext aes o file)
  have hblock := hblock hsome hless
  have hend := hend hsome
  have hwhole : (slice file n length).length % 16 = 0 := by
    have hfile16 := hblocks hsome
    rw [length_slice]
    omega
  have hbefore : (file.take n).length % 16 = 0 := by
    rw [List.length_take]
    omega
  have hvector : running =
      ⟨decryptIv (aes key).symm iv.1 (file.take n), length_decryptIv _ _ _⟩ := by
    have hafter := hkeyed.running (by rw [hn]; exact hless)
    unfold ivAfter at hafter
    rw [hrunning, henc, hn] at hafter
    exact Option.some.inj hafter
  have hdecrypt : decryptRunning aes kind key running (slice file n length) =
      (decryptBytes (aes key).symm running.1 (slice file n length),
        ⟨decryptIv (aes key).symm running.1 (slice file n length), length_decryptIv _ _ _⟩) :=
    if_pos (.inr hwhole)
  rw [hdecrypt, ← take_append_piece, ivAfter_append henc _ hbefore, hvector]
  exact ⟨congrArg (·, _) (decryptBytes_piece (aes key).symm iv.1 file hblock hend).symm, rfl⟩

include hblocks hkeyed hn hle hblock hover hend in
theorem decryptPart_encrypted {key : Data} {iv : Iv} (henc : o.encryption = some (key, iv)) :
    DecryptsNext aes kind o file a n length := by
  have hsome : o.encryption ≠ none := by
    rw [henc]
    exact Option.some_ne_none _
  have hkey : a.encryptionKey = some key := by
    rw [hkeyed.key]
    unfold Options.encryption at henc
    split at henc
    · rename_i key' iv' hkey' hiv'
      cases henc
      exact hkey'
    · cases henc
  obtain ⟨running, hrunning⟩ : ∃ running, a.runningEncryptionIv = some running := by
    rw [← Option.isSome_iff_exists, hkeyed.given, henc]
    rfl
  have hdecrypt : decryptPart aes kind a (slice file n length) =
      ({ a with
          runningEncryptionIv :=
            some (decryptRunning aes kind key running (slice file n length)).2 },
        cutPart o.decryptedSize n (decryptRunning aes kind key running (slice file n length)).1,
        storeIv kind (decryptRunning aes kind key running (slice file n length)).2) := by
    unfold decryptPart
    rw [hkey, hrunning, hkeyed.decryptedSize, hn]
  refine ⟨_, _, _, hdecrypt, by rw [henc]; rfl, ?_, ?_, rfl⟩
  · intro hlt
    exact (decryptRunning_before hblocks hkeyed hn hblock hend henc hrunning (by omega)).2
  · by_cases hless : n < (plaintext aes o file).length
    · have hplain : plaintext aes o file =
          if o.decryptedSize = 0 then decryptBytes (aes key).symm iv.1 file
          else (decryptBytes (aes key).symm iv.1 file).take o.decryptedSize := by
        unfold plaintext
        rw [henc]
      have hsame : (slice file n length).length =
          (slice (decryptBytes (aes key).symm iv.1 file) n length).length := by
        rw [length_slice, length_slice, length_decryptBytes]
      rw [(decryptRunning_before hblocks hkeyed hn hblock hend henc hrunning hless).1, hplain,
        hsame]
      apply cutPart_before
      intro hsize
      rw [length_plaintext_of_cut aes hsome hsize] at hless
      omega
    · have hbehind : (plaintext aes o file).length ≤ n := Nat.not_lt.1 hless
      rw [cutPart_behind hle hover hsome hbehind, List.append_nil,
        List.take_of_length_le hbehind, List.take_of_length_le (by omega)]
      rw [length_decryptRunning, length_slice]
      omega

include hblocks hkeyed hn hle hblock hover hend in
theorem decryptPart_spec : DecryptsNext aes kind o file a n length := by
  cases henc : o.encryption with
  | none => exact decryptPart_plain hkeyed henc
  | some pair => exact decryptPart_encrypted hblocks hkeyed hn hle hblock hover hend henc

end Part

/-- A part that is waited for, or whose data are bytes of the file. -/
structure PartOk (o : Options) (file : Data) (p : PartInfo) : Prop where
  placed : Placed o file p.partOffset
  length_le : p.partLength ≤ preferredPartSize
  full : p.partLength = preferredPartSize ∨ file.length ≤ p.partOffset + p.partLength
  data : ∀ data, p.downloadedData = some data →
    p.restart = false ∧ data = slice file p.partOffset p.partLength

/-- How many vectors the `.info` file holds. -/
def infoCount (files : Files) : Nat := (files.info.getD []).length / 32

/-- The parts and the files of a download that runs.  The `.info` file holds a vector for
each part that is written. -/
structure Core (aes : Data → Equiv.Perm (BitVec 128)) (kind : Kind) (o : Options) (file : Data)
    (a : Actor) (files : Files) : Prop where
  running : a.status = .running
  size : a.size = file.length ∨ kind = .multipart ∧ a.size = 0
  keyed : Keyed aes o file a
  explicitParts : a.explicitDownloadParts = []
  row : ∃ start, Tiles start a.downloadingParts ∧
    (start = a.downloadedFileSize ∨
      a.downloadedFileSize = file.length ∧ a.downloadedFileSize ≤ start)
  parts : ∀ p ∈ a.downloadingParts, PartOk o file p
  downloaded_le : a.downloadedFileSize ≤ file.length
  placed : Placed o file a.downloadedFileSize
  partialFile : files.partialFile = some ((plaintext aes o file).take a.downloadedFileSize)
  info : kind = .multipart → o.encryption ≠ none →
    a.downloadedFileSize < (plaintext aes o file).length →
      infoCount files = a.downloadedFileSize / preferredPartSize ∧
        (a.downloadedFileSize ≠ 0 → storedIv files = a.runningEncryptionIv)
  stored : files.stored = none ∨
    kind = .multipart ∧ files.stored = some (plaintext aes o file)

/-- The next part to write is one without data. -/
def HeadNotReady (a : Actor) : Prop :=
  ∀ p ∈ a.downloadingParts, p.partOffset = a.downloadedFileSize → p.downloadedData = none

/-- Parts at the front of the row are written, and nothing else is changed. -/
def Wrote (a a' : Actor) : Prop :=
  ∃ done parts n iv, a.downloadingParts = done ++ parts ∧
    (∀ p ∈ done, p.downloadedData.isSome) ∧
    a' = { a with downloadedFileSize := n, downloadingParts := parts, runningEncryptionIv := iv }

theorem Wrote.refl (a : Actor) : Wrote a a :=
  ⟨[], a.downloadingParts, a.downloadedFileSize, a.runningEncryptionIv, rfl, by simp, rfl⟩

theorem Wrote.trans {a b c : Actor} (hab : Wrote a b) (hbc : Wrote b c) : Wrote a c := by
  obtain ⟨done, parts, n, iv, hparts, hdone, rfl⟩ := hab
  obtain ⟨done', parts', n', iv', hparts', hdone', rfl⟩ := hbc
  dsimp only at hparts'
  refine ⟨done ++ done', parts', n', iv', ?_, ?_, rfl⟩
  · rw [hparts, hparts', List.append_assoc]
  · intro p hp
    exact (List.mem_append.1 hp).elim (hdone p) (hdone' p)

theorem applyAll_append (files : Files) (ops ops' : List FileOp) :
    files.applyAll (ops ++ ops') = (files.applyAll ops).applyAll ops' :=
  List.foldl_append

/-- A file whose download has failed: it holds a beginning of the contents. -/
structure Stopped (aes : Data → Equiv.Perm (BitVec 128)) (o : Options) (file : Data)
    (files : Files) : Prop where
  partialFile : ∃ n, files.partialFile = some ((plaintext aes o file).take n)
  stored : files.stored = none ∨ files.stored = some (plaintext aes o file)

/-! ## The files between two writes -/

variable {files : Files}

theorem isUnusable_of_none {kind : Kind} {o : Options}
    (h : files.partialFile = none) : isUnusable kind o files = true := by
  unfold isUnusable
  rw [h]
  cases kind <;> rfl

/-- The files that a process may leave when it ends: nothing that can be resumed, or a
beginning of the contents.  There the last vector is the one to go on with, if the `.info`
file holds as many as there are parts. -/
inductive Disk (aes : Data → Equiv.Perm (BitVec 128)) (kind : Kind) (o : Options) (file : Data)
    (files : Files) : Prop where
  | unusable (partialFile : isUnusable kind o files)
      (stored : files.stored = none ∨ files.stored = some (plaintext aes o file))
  | contents (n : Nat) (le : n ≤ (plaintext aes o file).length)
      (partialFile : files.partialFile = some ((plaintext aes o file).take n))
      (placed : n % preferredPartSize = 0 ∨ n = (plaintext aes o file).length)
      (info : kind = .multipart → o.encryption ≠ none → n < (plaintext aes o file).length →
        n ≠ 0 → infoCount files = n / preferredPartSize →
          storedIv files = ivAfter aes o (file.take n))
      (stored : files.stored = none ∨ files.stored = some (plaintext aes o file))

/-- The process may end before, between and after the operations. -/
def Safe (aes : Data → Equiv.Perm (BitVec 128)) (kind : Kind) (o : Options) (file : Data) :
    Files → List FileOp → Prop
  | files, [] => Disk aes kind o file files
  | files, op :: ops => Disk aes kind o file files ∧ Safe aes kind o file (files.apply op) ops

variable {a : Actor}

section Files

variable {aes} {kind : Kind} {o : Options} {file : Data}

theorem Safe.append {ops' : List FileOp} (ops : List FileOp) :
    ∀ {files : Files}, Safe aes kind o file files ops →
      Safe aes kind o file (files.applyAll ops) ops' →
      Safe aes kind o file files (ops ++ ops') := by
  induction ops with
  | nil => intro files _ h'; exact h'
  | cons op ops ih => intro files h h'; exact ⟨h.1, ih h.2 h'⟩

/-- The process ends after some of the operations. -/
theorem Safe.take (ops : List FileOp) :
    ∀ {files : Files} (k : Nat), Safe aes kind o file files ops →
      Disk aes kind o file (files.applyAll (ops.take k)) := by
  induction ops with
  | nil => intro files k h; rw [List.take_nil]; exact h
  | cons op ops ih =>
    intro files k h
    cases k with
    | zero => exact h.1
    | succ k => exact ih k h.2

theorem Safe.last {ops : List FileOp} (h : Safe aes kind o file files ops) :
    Disk aes kind o file (files.applyAll ops) := by
  have hall := h.take ops ops.length
  rw [List.take_length] at hall
  exact hall

theorem Core.stored_or (h : Core aes kind o file a files) :
    files.stored = none ∨ files.stored = some (plaintext aes o file) :=
  h.stored.imp_right And.right

/-- Before the end of the contents parts begin on multiples of the part size. -/
theorem Placed.aligned {offset : Nat} (h : Placed o file offset)
    (hless : offset < (plaintext aes o file).length) : offset % preferredPartSize = 0 := by
  rcases h (hless.trans_le (length_plaintext aes o file)) with haligned | ⟨hsome, hsize, hat⟩
  · exact haligned
  · rw [length_plaintext_of_cut aes hsome hsize] at hless
    omega

theorem Core.disk_of_info {files files' : Files} (h : Core aes kind o file a files)
    (hbegun : files'.partialFile = files.partialFile) (hstored : files'.stored = files.stored)
    (hinfo : kind = .multipart → o.encryption ≠ none →
      a.downloadedFileSize < (plaintext aes o file).length → a.downloadedFileSize ≠ 0 →
      infoCount files' = a.downloadedFileSize / preferredPartSize →
        storedIv files' = ivAfter aes o (file.take a.downloadedFileSize)) :
    Disk aes kind o file files' := by
  have hsame := hstored ▸ h.stored_or
  by_cases hless : a.downloadedFileSize < (plaintext aes o file).length
  · exact .contents a.downloadedFileSize hless.le (hbegun.trans h.partialFile)
      (.inl (h.placed.aligned hless)) hinfo hsame
  · refine .contents (plaintext aes o file).length (Nat.le_refl _) ?_ (.inr rfl)
      (fun _ _ hfalse => absurd hfalse (Nat.lt_irrefl _)) hsame
    rw [hbegun, h.partialFile, List.take_length, List.take_of_length_le (Nat.not_lt.1 hless)]

theorem Core.disk (h : Core aes kind o file a files) :
    Disk aes kind o file files := by
  refine h.disk_of_info rfl rfl ?_
  intro hkind hsome hless hne _
  rw [← h.keyed.running hless]
  exact (h.info hkind hsome hless).2 hne

theorem infoCount_append (files : Files) (iv : Iv) :
    infoCount (files.apply (.appendInfo iv.1)) = infoCount files + 1 := by
  have hiv := iv.2
  show (files.info.getD [] ++ iv.1).length / 32 = (files.info.getD []).length / 32 + 1
  rw [List.length_append, hiv]
  omega

theorem storedIv_append (files : Files) (iv : Iv) :
    storedIv (files.apply (.appendInfo iv.1)) = some iv := by
  have hiv := iv.2
  have hlength : (files.info.getD [] ++ iv.1).length = (files.info.getD []).length + 32 := by
    rw [List.length_append, hiv]
  show (if h : 32 ≤ (files.info.getD [] ++ iv.1).length then _ else none) = some iv
  rw [dif_pos (by omega)]
  congr 1
  apply Subtype.ext
  show (files.info.getD [] ++ iv.1).drop ((files.info.getD [] ++ iv.1).length - 32) = iv.1
  rw [hlength, Nat.add_sub_cancel, List.drop_left]

theorem applyAll_storeIv (kind : Kind) (iv : Option Iv) (files : Files) :
    (files.applyAll ((iv.map (storeIv kind)).getD [])).partialFile = files.partialFile ∧
      (files.applyAll ((iv.map (storeIv kind)).getD [])).stored = files.stored ∧
      (kind = .multipart → iv.isSome →
        infoCount (files.applyAll ((iv.map (storeIv kind)).getD [])) = infoCount files + 1 ∧
          storedIv (files.applyAll ((iv.map (storeIv kind)).getD [])) = iv) := by
  cases iv with
  | none => exact ⟨rfl, rfl, fun _ hnone => by cases hnone⟩
  | some iv =>
    cases kind with
    | multipart =>
      exact ⟨rfl, rfl, fun _ _ => ⟨infoCount_append files iv, storedIv_append files iv⟩⟩
    | video => exact ⟨rfl, rfl, fun hkind => by cases hkind⟩

/-- If the process ends between the two, the `.info` file is one vector ahead. -/
theorem Core.safe_storeIv (h : Core aes kind o file a files)
    (iv : Option Iv) : Safe aes kind o file files ((iv.map (storeIv kind)).getD []) := by
  cases iv with
  | none => exact h.disk
  | some iv =>
    cases kind with
    | multipart =>
      refine ⟨h.disk, h.disk_of_info rfl rfl ?_⟩
      intro hkind hsome hless _ hcount
      have hbefore := (h.info hkind hsome hless).1
      rw [infoCount_append] at hcount
      omega
    | video => exact h.disk

end Files

section Row

variable {aes} {kind : Kind} {o : Options} {file : Data}

/-- A part before the end of the contents begins on a block. -/
theorem Placed.block {n : Nat} (h : Placed o file n) (hsome : o.encryption ≠ none)
    (hless : n < (plaintext aes o file).length) : n % 16 = 0 := by
  rcases h (hless.trans_le (length_plaintext aes o file)) with haligned | ⟨_, hsize, hat⟩
  · unfold preferredPartSize at haligned
    omega
  · rw [length_plaintext_of_cut aes hsome hsize] at hless
    omega

theorem Placed.over {n : Nat} (h : Placed o file n) (hcut : CutsLastPart o file)
    (hsome : o.encryption ≠ none) (hsize : o.decryptedSize ≠ 0) (hover : o.decryptedSize ≤ n)
    (hless : n < file.length) : n = o.decryptedSize := by
  rcases h hless with haligned | ⟨_, _, hat⟩
  · rcases hcut with hnone | hzero | hlast
    · exact absurd hnone hsome
    · exact absurd hzero hsize
    · unfold preferredPartSize at haligned hlast
      omega
  · exact hat

theorem blocks_of_full {n length : Nat}
    (hfull : length = preferredPartSize ∨ file.length ≤ n + length) :
    length % 16 = 0 ∨ file.length ≤ n + length := by
  unfold preferredPartSize at hfull
  omega

/-- The part behind one of the row may begin where that ends. -/
theorem Placed.next (hcut : CutsLastPart o file) {offset length : Nat}
    (hplaced : Placed o file offset)
    (hfull : length = preferredPartSize ∨ file.length ≤ offset + length) :
    Placed o file (offset + length) := by
  intro hlt
  rcases hfull with rfl | hend
  · rcases hplaced (by omega) with haligned | ⟨hsome, hsize, hat⟩
    · left
      rw [Nat.add_mod_right]
      exact haligned
    · rcases hcut with hnone | hzero | hlast
      · exact absurd hnone hsome
      · exact absurd hzero hsize
      · unfold preferredPartSize at hlast hlt
        omega
  · omega

theorem PartOk.next (hcut : CutsLastPart o file) {p : PartInfo} (h : PartOk o file p) :
    Placed o file (p.partOffset + p.partLength) :=
  h.placed.next hcut h.full

/-- The first part of the row is the only one that can be written next. -/
theorem Core.head (h : Core aes kind o file a files) {p : PartInfo}
    (hp : p ∈ a.downloadingParts) (hat : p.partOffset = a.downloadedFileSize) :
    ∃ ps, a.downloadingParts = p :: ps ∧ 0 < p.partLength ∧
      Tiles (a.downloadedFileSize + p.partLength) ps := by
  obtain ⟨start, htiles, hstart⟩ := h.row
  cases hparts : a.downloadingParts with
  | nil =>
    rw [hparts] at hp
    cases hp
  | cons q qs =>
    rw [hparts] at hp htiles
    have hmem := htiles.mem p hp
    have heq : start = a.downloadedFileSize := by omega
    have hsame : p = q :=
      htiles.inj hp (.head _) (by rw [hat, htiles.1, heq])
    rw [hsame]
    exact ⟨qs, rfl, htiles.2.1, heq ▸ htiles.2.2⟩

end Row

section Loops

variable {aes} {kind : Kind} {o : Options} {file : Data} (hblocks : o.encryption ≠ none →
    file.length % 16 = 0) (hcut : CutsLastPart o file)

include hblocks hcut in
theorem commitPart_spec (h : Core aes kind o file a files)
    {p : PartInfo} {ps : List PartInfo} (hparts : a.downloadingParts = p :: ps)
    (hat : p.partOffset = a.downloadedFileSize) {data : Data} (hdata : p.downloadedData = some data)
    {r : Actor × List FileOp} (hr : commitPart sha256 aes kind a p data = r) :
    Safe aes kind o file files r.2 ∧
      ((r.1.status = .failed ∧ Stopped aes o file (files.applyAll r.2)) ∨
        (Core aes kind o file r.1 (files.applyAll r.2) ∧ Wrote a r.1 ∧
          r.1.downloadingParts = ps)) := by
  have hp : p ∈ a.downloadingParts := by
    rw [hparts]
    exact .head _
  have hok := h.parts p hp
  obtain ⟨_, hslice⟩ := hok.data data hdata
  obtain ⟨ps', hparts', hpos, htiles⟩ := h.head hp hat
  rw [hparts] at hparts'
  cases hparts'
  have hfull := hok.full
  have hplaced := hok.placed
  rw [hat] at hslice hfull hplaced
  have hspec : DecryptsNext aes kind o file a a.downloadedFileSize p.partLength :=
    decryptPart_spec hblocks h.keyed rfl h.downloaded_le hplaced.block (hplaced.over hcut)
      fun _ => blocks_of_full hfull
  obtain ⟨iv, ops, dataToWrite, hdecrypt, hgiven, hrunning, hwrite, hops⟩ := hspec
  rw [← hslice] at hdecrypt hrunning hwrite
  obtain ⟨hbegun, hstored, hinfo⟩ := applyAll_storeIv kind iv files
  have hsafe := h.safe_storeIv iv
  rw [← hops] at hbegun hstored hinfo hsafe
  have hbound := h.downloaded_le
  have hlength : data.length = min p.partLength (file.length - a.downloadedFileSize) := by
    rw [hslice, length_slice]
  unfold commitPart at hr
  rw [hdecrypt] at hr
  dsimp only at hr
  split at hr
  · have hshort : data.length < p.partLength →
        a.downloadedFileSize + data.length = file.length := by
      omega
    have hgap : (if a.size ≠ 0 ∧ data.length < p.partLength ∧
          a.downloadedFileSize + data.length + data.length < a.size then
        [(a.downloadedFileSize + data.length, p.partLength - data.length)] else []) = [] := by
      rw [if_neg]
      rintro ⟨hne, hless, hover⟩
      have hend := hshort hless
      rcases h.size with hsize | ⟨_, hsize⟩
      · omega
      · exact hne hsize
    have hrest : a.downloadingParts.filter (·.partOffset ≠ p.partOffset) = ps := by
      rw [hparts, List.filter_cons_of_neg (by simp), List.filter_eq_self]
      intro q hq
      have hbehind := htiles.mem q hq
      simp only [decide_eq_true_eq]
      omega
    have hend : data.length = p.partLength ∨
        a.downloadedFileSize + data.length = file.length := by
      omega
    have hwritten : (files.applyAll (ops ++ [FileOp.appendPartial p dataToWrite])).partialFile =
        some ((plaintext aes o file).take (a.downloadedFileSize + data.length)) := by
      rw [applyAll_append]
      show some ((files.applyAll ops).partialFile.getD [] ++ dataToWrite) = _
      rw [hbegun, h.partialFile]
      exact congrArg some hwrite
    have hcore : Core aes kind o file
        { a with
          runningEncryptionIv := iv
          downloadedFileSize := a.downloadedFileSize + data.length
          downloadingParts := ps }
        (files.applyAll (ops ++ [FileOp.appendPartial p dataToWrite])) := by
      refine {
        running := h.running
        size := h.size
        keyed := ⟨h.keyed.key, h.keyed.decryptedSize, hgiven, hrunning⟩
        explicitParts := h.explicitParts
        row := ⟨_, htiles, ?_⟩
        parts := fun q hq => h.parts q (by rw [hparts]; exact .tail p hq)
        downloaded_le := ?_
        placed := ?_
        partialFile := hwritten
        info := ?_
        stored := ?_ }
      · grind
      · dsimp only
        omega
      · rcases hend with hwhole | hend
        · dsimp only
          rw [hwhole, ← hat]
          exact hok.next hcut
        · intro hlt
          dsimp only at hlt
          omega
      · intro hkind hsome hless
        dsimp only at hless ⊢
        have hfile := length_plaintext aes o file
        have hpart : data.length = preferredPartSize := by
          grind
        have hcount := (h.info hkind hsome (by omega)).1
        have hiv : iv.isSome := by
          rw [hgiven]
          exact Option.isSome_iff_ne_none.2 hsome
        obtain ⟨hone, hlast⟩ := hinfo hkind hiv
        rw [applyAll_append]
        refine ⟨?_, fun _ => hlast⟩
        rw [hpart, Nat.add_div_right _ (by decide), ← hcount]
        exact hone
      · rw [applyAll_append]
        exact hstored ▸ h.stored
    rw [← hr, hgap, hrest, List.append_nil]
    refine ⟨hsafe.append ops ⟨hsafe.last, ?_⟩, .inr ⟨hcore, ?_, rfl⟩⟩
    · have hdisk := hcore.disk
      rw [applyAll_append] at hdisk
      exact hdisk
    · exact ⟨[p], ps, _, iv, hparts, by simp [hdata], rfl⟩
  · rw [← hr]
    exact ⟨hsafe, .inl ⟨rfl, ⟨_, hbegun.trans h.partialFile⟩, hstored ▸ h.stored_or⟩⟩

theorem commitPass_of_notReady (h : HeadNotReady a) (offsets : List Nat) :
    commitPass sha256 aes kind offsets a = (false, a, []) := by
  induction offsets with
  | nil => rfl
  | cons offset offsets ih =>
    rw [commitPass]
    split
    · exact ih
    · rename_i hat
      have hat : offset = a.downloadedFileSize := not_not.1 hat
      cases hpart : a.part offset with
      | none => rfl
      | some part =>
        have hfound := List.find?_some hpart
        have hnone := h part (List.mem_of_find?_eq_some hpart)
          ((beq_iff_eq.1 hfound).trans hat)
        simp [hnone]

include hblocks hcut in
/-- A pass over the row: it writes the first parts, up to one without data. -/
theorem commitPass_spec (offsets : List Nat) :
    ∀ {a : Actor} {files : Files}, Core aes kind o file a files →
      a.downloadingParts.map (·.partOffset) = offsets →
      ∀ {hadCommit : Bool} {r : Actor × List FileOp},
        commitPass sha256 aes kind offsets a = (hadCommit, r) →
        Safe aes kind o file files r.2 ∧
          ((r.1.status = .failed ∧ Stopped aes o file (files.applyAll r.2)) ∨
            (Core aes kind o file r.1 (files.applyAll r.2) ∧ HeadNotReady r.1 ∧
              Wrote a r.1)) := by
  induction offsets with
  | nil =>
    intro a files h hoffsets hadCommit r hr
    rw [commitPass] at hr
    cases hr
    refine ⟨h.disk, .inr ⟨h, ?_, Wrote.refl a⟩⟩
    intro p hp
    rw [List.map_eq_nil_iff.1 hoffsets] at hp
    cases hp
  | cons offset offsets ih =>
    intro a files h hoffsets hadCommit r hr
    obtain ⟨p, ps, hparts, rfl, hrest⟩ := List.map_eq_cons_iff.1 hoffsets
    by_cases hready : p.partOffset = a.downloadedFileSize ∧ p.downloadedData.isSome
    · obtain ⟨hat, hsome⟩ := hready
      obtain ⟨data, hdata⟩ := Option.isSome_iff_exists.1 hsome
      have hpart : a.part p.partOffset = some p := by
        unfold Actor.part
        rw [hparts, List.find?_cons_of_pos (by simp)]
      rw [commitPass, if_neg (not_not.2 hat), hpart, Option.bind_some, hdata,
        Option.map_some] at hr
      dsimp only at hr
      obtain ⟨hsafe, ⟨hfailed, hstopped⟩ | ⟨hcore, hwrote, hps⟩⟩ :=
        commitPart_spec sha256 hblocks hcut h hparts hat hdata rfl
      · rw [if_pos hfailed] at hr
        cases hr
        exact ⟨hsafe, .inl ⟨hfailed, hstopped⟩⟩
      · rw [if_neg (by rw [hcore.running]; decide)] at hr
        cases hr
        obtain ⟨hsafe', hend⟩ := ih hcore (by rw [hps]; exact hrest) rfl
        refine ⟨hsafe.append _ hsafe', ?_⟩
        dsimp only
        rw [applyAll_append]
        refine hend.imp_right ?_
        rintro ⟨hcore', hnot, hwrote'⟩
        exact ⟨hcore', hnot, hwrote.trans hwrote'⟩
    · have hnot : HeadNotReady a := by
        intro q hq hat
        obtain ⟨ps', hparts', _⟩ := h.head hq hat
        rw [hparts] at hparts'
        cases hparts'
        exact Option.not_isSome_iff_eq_none.1 fun hsome => hready ⟨hat, hsome⟩
      rw [commitPass_of_notReady sha256 hnot] at hr
      cases hr
      exact ⟨h.disk, .inr ⟨h, hnot, Wrote.refl a⟩⟩

/-- When a pass leaves nothing that could be written, the loop is this pass. -/
theorem commitLoop_of_pass {offsets : List Nat} (fuel : Nat) {hadCommit : Bool}
    {pass : Actor × List FileOp} (hpass : commitPass sha256 aes kind offsets a = (hadCommit, pass))
    (hnot : pass.1.status ≠ .failed → HeadNotReady pass.1) :
    commitLoop sha256 aes kind offsets (fuel + 1) a = pass := by
  rw [commitLoop, hpass]
  dsimp only
  split
  · rename_i hgoes
    have hidle : commitLoop sha256 aes kind offsets fuel pass.1 = (pass.1, []) := by
      cases fuel with
      | zero => rfl
      | succ fuel => rw [commitLoop, commitPass_of_notReady sha256 (hnot hgoes.2)]; rfl
    rw [hidle, List.append_nil]
  · rfl

include hblocks hcut in
/-- All passes: the second finds nothing to write. -/
theorem commitLoop_spec (h : Core aes kind o file a files) (fuel : Nat) {r : Actor × List FileOp}
    (hr : commitLoop sha256 aes kind (sortedDownloadingParts a) (fuel + 1) a = r) :
    Safe aes kind o file files r.2 ∧
      ((r.1.status = .failed ∧ Stopped aes o file (files.applyAll r.2)) ∨
        (Core aes kind o file r.1 (files.applyAll r.2) ∧ HeadNotReady r.1 ∧ Wrote a r.1)) := by
  obtain ⟨start, htiles, _⟩ := h.row
  have hsorted : sortedDownloadingParts a = a.downloadingParts.map (·.partOffset) := by
    unfold sortedDownloadingParts
    exact (List.pairwise_map.2 (htiles.pairwise.imp Nat.le_of_lt)).insertionSort_eq
  rw [hsorted] at hr
  cases hpass : commitPass sha256 aes kind (a.downloadingParts.map (·.partOffset)) a with
  | mk hadCommit pass =>
    have hspec := commitPass_spec sha256 hblocks hcut _ h rfl hpass
    have hsame : r = pass := by
      grind [commitLoop_of_pass]
    rw [hsame]
    exact hspec

end Loops

end TelegramPub.Ports.PartDownload
