import TelegramPub.Ports.PartRequests

/-!
# Answers to a download

The server answers with the bytes of the requested range, with a redirect to a CDN, or
with a demand to upload the file to the CDN first (`AnswersExactly`).  `step_right` is what
a step does to a download that is right, with two conditions on the answer:

* without a known size, a short answer is for the next part: the size is computed from
  `_downloadedFileSize` instead of the offset of the part (`InTurn`);
* a redirect that comes after the switch to the CDN is not the last thing that is waited
  for: its part is marked, and `switchToCdn` returns at once, so that nobody would ask for
  the part again (`Accompanied`).
-/

namespace TelegramPub.Ports.PartDownload

open Verified.Bytes

variable (sha256 : Data → Data) (aes : Data → Equiv.Perm (BitVec 128)) (kind : Kind)
  (o : Options) (file : Data)

/-- The exact bytes, up to the end of the file, or a turn to the CDN. -/
def AnswersExactly (a : Actor) (r : PartRequest) : Answer → Prop
  | .file bytes => bytes = slice file r.offset r.limit
  | .cdnRedirect _ _ => True
  | .cdnFile bytes =>
    match a.cdnFileData with
    | some fileData => cdnData aes kind fileData r.offset bytes = slice file r.offset r.limit
    | none => False
  | .cdnFileReuploadNeeded => r.cdnToken.isSome
  | .other => False
  | .error => False

/-- The answers of the servers. -/
def Honest (a : Actor) : Event → Prop
  | .answered index answer =>
    match a.partRequests[index]? with
    | some r => AnswersExactly aes kind file a r answer
    | none => True
  | _ => True

def Answer.carriesData : Answer → Bool
  | .file _ => true
  | .cdnFile _ => true
  | _ => false

/-- While the size is unknown, the last part is answered when the others are written. -/
def InTurn (a : Actor) : Event → Prop
  | .answered index answer =>
    match a.partRequests[index]? with
    | some r =>
      answer.carriesData → kind = .multipart → a.size = 0 →
        file.length < r.offset + r.length →
          r.offset = a.downloadedFileSize ∨ a.downloadedFileSize = file.length
    | none => True
  | _ => True

/-- After the switch to the CDN, a redirect is not the last thing that is waited for. -/
def Accompanied (a : Actor) : Event → Prop
  | .answered index (.cdnRedirect _ hashes) =>
    a.cdnFileData = none ∨
      Outstanding { a with partRequests := a.partRequests.eraseIdx index } ∨
      kind = .multipart ∧ maxOffset hashes < a.size
  | .hashesReceived hashes =>
    match a.hashRequest with
    | some (_, known) =>
      a.cdnFileData = none ∨ Outstanding { a with hashRequest := none } ∨
        maxOffset (known ++ hashes) < a.size
    | none => True
  | _ => True

instance (a : Actor) (event : Event) : Decidable (Honest aes kind file a event) := by
  unfold Honest AnswersExactly
  split
  · split
    · split
      · infer_instance
      · infer_instance
      · split <;> infer_instance
      · infer_instance
      · infer_instance
      · infer_instance
    · infer_instance
  · infer_instance

instance (a : Actor) (event : Event) : Decidable (InTurn kind file a event) := by
  unfold InTurn
  split
  · split <;> infer_instance
  · infer_instance

instance (a : Actor) (event : Event) : Decidable (Accompanied kind a event) := by
  unfold Accompanied
  split
  · infer_instance
  · split <;> infer_instance
  · infer_instance

section Steps

variable {sha256} {aes} {kind} {o} {file} {L : Prop}

/-- The same file, and the same place in it. -/
structure SameFile (a a' : Actor) : Prop where
  status : a'.status = a.status
  size : a'.size = a.size
  decryptedSize : a'.decryptedSize = a.decryptedSize
  encryptionKey : a'.encryptionKey = a.encryptionKey
  runningEncryptionIv : a'.runningEncryptionIv = a.runningEncryptionIv
  downloadedFileSize : a'.downloadedFileSize = a.downloadedFileSize
  explicitDownloadParts : a'.explicitDownloadParts = a.explicitDownloadParts

variable {a a' : Actor} {files : Files}

/-- A change of the parts that leaves offsets and lengths. -/
theorem Core.change (h : Core aes kind o file a files) (hsame : SameFile a a')
    {f : PartInfo → PartInfo} (hparts : a'.downloadingParts = a.downloadingParts.map f)
    (hoffset : ∀ p, (f p).partOffset = p.partOffset)
    (hlength : ∀ p, (f p).partLength = p.partLength)
    (hok : ∀ p ∈ a.downloadingParts, PartOk o file (f p)) : Core aes kind o file a' files := by
  obtain ⟨start, htiles, hstart⟩ := h.row
  refine {
    running := hsame.status.trans h.running
    size := by rw [hsame.size]; exact h.size
    keyed := ?_
    explicitParts := hsame.explicitDownloadParts.trans h.explicitParts
    row := ⟨start, ?_, ?_⟩
    parts := ?_
    downloaded_le := by rw [hsame.downloadedFileSize]; exact h.downloaded_le
    placed := by rw [hsame.downloadedFileSize]; exact h.placed
    partialFile := by rw [hsame.downloadedFileSize]; exact h.partialFile
    info := by rw [hsame.downloadedFileSize, hsame.runningEncryptionIv]; exact h.info
    stored := h.stored }
  · refine ⟨hsame.encryptionKey.trans h.keyed.key,
      hsame.decryptedSize.trans h.keyed.decryptedSize, ?_, ?_⟩
    · rw [hsame.runningEncryptionIv]
      exact h.keyed.given
    · rw [hsame.runningEncryptionIv, hsame.downloadedFileSize]
      exact h.keyed.running
  · rw [hparts, tiles_map hoffset hlength]
    exact htiles
  · rw [hsame.downloadedFileSize]
    exact hstart
  · grind

theorem Settled.congr (h : Settled aes kind o file a files) (hsame : SameFile a a')
    (hparts : a'.downloadingParts = a.downloadingParts)
    (hrequests : a'.partRequests = a.partRequests)
    (hworker : a'.worker1 = false → a'.worker1Requests ≠ 0)
    (hreuploading : a'.isReuploading → a'.reupload) : Settled aes kind o file a' files := by
  refine {
    core := h.core.change (f := id) hsame (by rw [hparts, List.map_id]) (fun _ => rfl)
      (fun _ => rfl) h.core.parts
    notReady := ?_
    requests := ?_
    worker := hworker
    reuploading := hreuploading }
  · unfold HeadNotReady
    rw [hparts, hsame.downloadedFileSize]
    exact h.notReady
  · refine ⟨?_, ?_, ?_, ?_⟩
    · rw [hrequests, hparts]
      exact h.requests.part
    · rw [hrequests]
      exact h.requests.limit
    · rw [hrequests, hparts]
      exact h.requests.requested
    · rw [hrequests]
      exact h.requests.nodup

variable {index : Nat} {r : PartRequest}

theorem mem_eraseIdx (h : Requested a) (hr : a.partRequests[index]? = some r) (r' : PartRequest) :
    r' ∈ a.partRequests.eraseIdx index ↔ r' ∈ a.partRequests ∧ r'.offset ≠ r.offset := by
  obtain ⟨hindex, _⟩ := List.getElem?_eq_some_iff.1 hr
  rw [List.mem_eraseIdx_iff_getElem?, List.mem_iff_getElem?]
  constructor
  · rintro ⟨i, hne, hi⟩
    refine ⟨⟨i, hi⟩, fun heq => hne ?_⟩
    have hsame : r' = r := List.inj_on_of_nodup_map h.nodup (List.mem_of_getElem? hi)
      (List.mem_of_getElem? hr) heq
    exact ((List.getElem?_inj hindex (h.nodup.of_map _)).1 (by rw [hr, hi, hsame])).symm
  · grind

theorem Requested.answered (h : Requested a) (hr : a.partRequests[index]? = some r)
    (hrequests : a'.partRequests = a.partRequests.eraseIdx index) {f : PartInfo → PartInfo}
    (hparts : a'.downloadingParts = a.downloadingParts.map f)
    (hother : ∀ p, p.partOffset ≠ r.offset → f p = p)
    (hdone : ∀ p, p.partOffset = r.offset → (f p).isActive = false) : Requested a' := by
  refine {
    part := ?_
    limit := ?_
    requested := ?_
    nodup := ?_ }
  · intro r' hr'
    rw [hrequests, mem_eraseIdx h hr] at hr'
    obtain ⟨p, hp, hactive, hat, hlength⟩ := h.part r' hr'.1
    refine ⟨p, ?_, hactive, hat, hlength⟩
    rw [hparts, ← hother p (by rw [hat]; exact hr'.2)]
    exact List.mem_map_of_mem hp
  · intro r' hr'
    rw [hrequests, mem_eraseIdx h hr] at hr'
    exact h.limit r' hr'.1
  · intro p' hp' hactive
    rw [hparts] at hp'
    obtain ⟨p, hp, rfl⟩ := List.mem_map.1 hp'
    by_cases hat : p.partOffset = r.offset
    · rw [hdone p hat] at hactive
      cases hactive
    · rw [hother p hat] at hactive ⊢
      obtain ⟨r', hr', heq⟩ := List.mem_map.1 (h.requested p hp hactive)
      refine List.mem_map.2 ⟨r', ?_, heq⟩
      rw [hrequests, mem_eraseIdx h hr]
      exact ⟨hr', by rw [heq]; exact hat⟩
  · rw [hrequests]
    exact h.nodup.sublist ((List.eraseIdx_sublist _ _).map _)

theorem Requested.keeps (h : Requested a) (hrequests : a'.partRequests =
      a.partRequests) (hsub : ∀ p ∈ a'.downloadingParts, p ∈ a.downloadingParts)
    (hkeeps : ∀ p ∈ a.downloadingParts, p.downloadedData = none → p ∈ a'.downloadingParts) :
    Requested a' := by
  refine {
    part := ?_
    limit := ?_
    requested := ?_
    nodup := ?_ }
  · intro r hr
    rw [hrequests] at hr
    obtain ⟨p, hp, hactive, hat, hlength⟩ := h.part r hr
    have hnone : p.downloadedData.isNone = true := (Bool.and_eq_true_iff.1 hactive).1
    exact ⟨p, hkeeps p hp (Option.isNone_iff_eq_none.1 hnone), hactive, hat, hlength⟩
  · rw [hrequests]
    exact h.limit
  · rw [hrequests]
    exact fun p hp hactive => h.requested p (hsub p hp) hactive
  · rw [hrequests]
    exact h.nodup

theorem Requested.wrote (h : Requested a) (hwrote : Wrote a a') :
    Requested a' := by
  obtain ⟨done, parts, n, iv, hparts, hdone, rfl⟩ := hwrote
  refine h.keeps rfl ?_ ?_
  · grind
  · grind

theorem settled_of_wrote (hcore : Core aes kind o file a' files) (hnot : HeadNotReady a')
    (hwrote : Wrote a a') (hrequests : Requested a)
    (hworker : a.worker1 = false → a.worker1Requests ≠ 0)
    (hreuploading : a.isReuploading → a.reupload) : Settled aes kind o file a' files := by
  have hrequests' := hrequests.wrote hwrote
  obtain ⟨done, parts, n, iv, _, _, rfl⟩ := hwrote
  exact ⟨hcore, hnot, hrequests', hworker, hreuploading⟩

theorem le_updatedLimit (length : Nat) : length ≤ updatedLimit length := by
  unfold updatedLimit
  generalize 1048576 - length = fuel
  induction fuel generalizing length with
  | zero => exact Nat.le_refl length
  | succ fuel ih =>
    rw [updatedLimitFrom]
    split
    · exact (Nat.le_succ length).trans (ih (length + 1))
    · exact Nat.le_refl length

theorem updatedLimitFrom_admissible (fuel : Nat) :
    ∀ limit, limit + fuel = 1048576 → updatedLimitFrom fuel limit % 4096 = 0 ∧
      1048576 % updatedLimitFrom fuel limit = 0 := by
  induction fuel with
  | zero =>
    intro limit hsum
    have hlimit : limit = 1048576 := hsum
    rw [hlimit]
    decide
  | succ fuel ih =>
    intro limit hsum
    rw [updatedLimitFrom]
    split
    · exact ih (limit + 1) (by omega)
    · rename_i hstops
      omega

/-- The loop that rounds a limit up ends. -/
theorem updatedLimit_admissible {length : Nat} (h : length ≤ 1048576) :
    updatedLimit length % 4096 = 0 ∧ 1048576 % updatedLimit length = 0 :=
  updatedLimitFrom_admissible _ _ (Nat.add_sub_of_le h)

theorem updatedLimit_preferred : updatedLimit preferredPartSize = preferredPartSize := by
  unfold updatedLimit
  generalize 1048576 - preferredPartSize = fuel
  cases fuel with
  | zero => rfl
  | succ fuel => exact if_neg (by decide)

theorem slice_limit (h : Settled aes kind o file a files) (hr : r ∈ a.partRequests) :
    ∃ p ∈ a.downloadingParts, p.isActive ∧ p.partOffset = r.offset ∧ p.partLength = r.length ∧
      slice file r.offset r.limit = slice file p.partOffset p.partLength := by
  obtain ⟨p, hp, hactive, hat, hlength⟩ := h.requests.part r hr
  refine ⟨p, hp, hactive, hat, hlength, ?_⟩
  have hlimit := h.requests.limit r hr
  rw [← hlength] at hlimit
  rw [← hat, hlimit]
  rcases (h.core.parts p hp).full with hwhole | hend
  · rw [hwhole, updatedLimit_preferred]
  · have hle := le_updatedLimit p.partLength
    unfold slice
    rw [List.take_of_length_le (by rw [List.length_drop]; omega),
      List.take_of_length_le (by rw [List.length_drop]; omega)]

variable {next : Actor × List FileOp}

theorem filePartDownloadSuccess_spec (hblocks : o.encryption ≠ none → file.length % 16 = 0)
    (hcut : CutsLastPart o file) (h : Settled aes kind o file a files)
    (hr : a.partRequests[index]? = some r)
    (hturn : kind = .multipart → a.size = 0 → file.length < r.offset + r.length →
      r.offset = a.downloadedFileSize ∨ a.downloadedFileSize = file.length)
    (hnext : filePartDownloadSuccess sha256 aes kind
      { a with partRequests := a.partRequests.eraseIdx index } r.offset r.length
      (slice file r.offset r.limit) = next) :
    Right aes kind o file L ⟨next.1, files.applyAll next.2⟩ ∧
      Safe aes kind o file files next.2 := by
  obtain ⟨p, hp, hactive, hat, hlength, hslice⟩ := slice_limit h (List.mem_of_getElem? hr)
  obtain ⟨start, htiles, hstart⟩ := h.core.row
  have hmem := htiles.mem p hp
  have hdownloaded := h.core.downloaded_le
  unfold filePartDownloadSuccess at hnext
  dsimp only at hnext
  generalize hsized : (if kind = .multipart ∧ a.size = 0 ∧
      (slice file r.offset r.limit).length < r.length then _ else _ : Actor) = b at hnext
  obtain ⟨size, hsize, hb⟩ : ∃ size, (size = file.length ∨ kind = .multipart ∧ size = 0) ∧
      b = { a with partRequests := a.partRequests.eraseIdx index, size } := by
    rw [← hsized]
    split
    · rename_i hshort
      refine ⟨_, .inl ?_, rfl⟩
      have hless := hshort.2.2
      rw [hslice, length_slice, ← hlength] at hless
      have hcase := hturn hshort.1 hshort.2.1 (by omega)
      rw [hslice, length_slice]
      omega
    · exact ⟨a.size, h.core.size, rfl⟩
  have hfound : (b.part r.offset).isSome := by
    rw [hb]
    exact List.find?_isSome.2 ⟨p, hp, by simp [hat]⟩
  rw [if_pos hfound] at hnext
  have hcoreB : Core aes kind o file b files := by
    rw [hb]
    exact ⟨h.core.running, hsize,
      ⟨h.core.keyed.key, h.core.keyed.decryptedSize, h.core.keyed.given, h.core.keyed.running⟩,
      h.core.explicitParts, h.core.row, h.core.parts, hdownloaded, h.core.placed,
      h.core.partialFile, h.core.info, h.core.stored⟩
  have hpartsB : b.downloadingParts = a.downloadingParts := by rw [hb]
  generalize hc : storeData b r.offset (slice file r.offset r.limit) = c at hnext
  have hparts : c.downloadingParts = a.downloadingParts.map fun q =>
      if q.partOffset = r.offset then
        { q with downloadedData := some (slice file r.offset r.limit) }
      else q := by
    rw [← hc, ← hpartsB]
    rfl
  have hcore : Core aes kind o file c files := by
    refine hcoreB.change ?_ (hparts.trans (by rw [hpartsB])) ?_ ?_ ?_
    · rw [← hc]
      exact ⟨rfl, rfl, rfl, rfl, rfl, rfl, rfl⟩
    · intro q
      split <;> rfl
    · intro q
      split <;> rfl
    · intro q hq
      have hok := hcoreB.parts q hq
      split
      · rename_i hqat
        rw [hpartsB] at hq
        have hsame : q = p := htiles.inj hq hp (hqat.trans hat.symm)
        refine ⟨hok.placed, hok.length_le, hok.full, ?_⟩
        rintro data ⟨⟩
        rw [hslice, hsame]
        exact ⟨by simpa using (Bool.and_eq_true_iff.1 hactive).2, rfl⟩
      · exact hok
  have hrequests : Requested c := by
    refine h.requests.answered hr (by rw [← hc, hb]; rfl) hparts ?_ ?_
    · intro q hq
      rw [if_neg hq]
    · intro q hq
      rw [if_pos hq]
      rfl
  have hworker : c.worker1 = false → c.worker1Requests ≠ 0 := by
    rw [← hc, hb]
    exact h.worker
  have hreuploading : c.isReuploading → c.reupload := by
    rw [← hc, hb]
    exact h.reuploading
  obtain ⟨hsafe, ⟨hfailed, hstopped⟩ | ⟨hcore', hnot, hwrote⟩⟩ :=
    commitLoop_spec sha256 hblocks hcut hcore c.downloadingParts.length rfl
  · rw [if_pos hfailed] at hnext
    subst hnext
    exact ⟨.failed hfailed hstopped hsafe.last, hsafe⟩
  · rw [if_neg (by rw [hcore'.running]; decide)] at hnext
    subst hnext
    have hsettled := settled_of_wrote hcore' hnot hwrote hrequests hworker hreuploading
    obtain ⟨hright, hsafe'⟩ := downloadFileParts_spec (L := L) hcut hsettled
    rw [← applyAll_append] at hright
    exact ⟨hright, hsafe.append _ hsafe'⟩

theorem markRestart_spec (h : Settled aes kind o file a files)
    (hr : a.partRequests[index]? = some r) :
    Settled aes kind o file
      (markRestart { a with partRequests := a.partRequests.eraseIdx index } r.offset) files := by
  obtain ⟨p, hp, hactive, hat, _⟩ := h.requests.part r (List.mem_of_getElem? hr)
  obtain ⟨start, htiles, _⟩ := h.core.row
  refine {
    core := h.core.change ⟨rfl, rfl, rfl, rfl, rfl, rfl, rfl⟩ rfl ?_ ?_ ?_
    notReady := ?_
    requests := h.requests.answered hr rfl rfl ?_ ?_
    worker := h.worker
    reuploading := h.reuploading }
  · intro q
    split <;> rfl
  · intro q
    split <;> rfl
  · intro q hq
    have hok := h.core.parts q hq
    split
    · rename_i hqat
      have hsame : q = p := htiles.inj hq hp (hqat.trans hat.symm)
      refine ⟨hok.placed, hok.length_le, hok.full, ?_⟩
      intro data hdata
      simp [PartInfo.isActive, ← hsame, show q.downloadedData = some data from hdata] at hactive
    · exact hok
  · intro q' hq' hqat
    obtain ⟨q, hq, rfl⟩ := List.mem_map.1 hq'
    split at hqat
    · rw [if_pos (by assumption)]
      exact h.notReady q hq hqat
    · rw [if_neg (by assumption)]
      exact h.notReady q hq hqat
  · intro q hq
    rw [if_neg hq]
  · intro q hq
    rw [if_pos hq]
    exact Bool.and_false _

theorem switchToCdn_spec (h : Settled aes kind o file a files) (fileData : CdnFileData)
    (hwaits : L → a.cdnFileData = none ∨ Outstanding a) :
    Right aes kind o file L ⟨switchToCdn a fileData, files⟩ := by
  unfold switchToCdn
  split
  · rename_i hsome
    refine .running h fun hl => (hwaits hl).resolve_left ?_
    exact Option.isSome_iff_ne_none.1 hsome
  · refine .running ?_ fun _ => .inr (.inl (Nat.succ_ne_zero _))
    exact h.congr ⟨rfl, rfl, rfl, rfl, rfl, rfl, rfl⟩ rfl rfl (fun _ => Nat.succ_ne_zero _)
      h.reuploading

theorem switchToCdnWithFileData_spec (h : Settled aes kind o file a files) (fileData : CdnFileData)
    (hashes : PartHashes)
    (hwaits : L → a.cdnFileData = none ∨ Outstanding a ∨ maxOffset hashes < a.size) :
    Right aes kind o file L ⟨switchToCdnWithFileData a fileData hashes, files⟩ := by
  unfold switchToCdnWithFileData
  split
  · refine .running ?_ fun _ => .inr (.inr (.inr (.inl rfl)))
    exact h.congr ⟨rfl, rfl, rfl, rfl, rfl, rfl, rfl⟩ rfl rfl h.worker h.reuploading
  · rename_i hover
    refine switchToCdn_spec ?_ fileData fun hl => (hwaits hl).imp_right (·.resolve_right hover)
    exact h.congr ⟨rfl, rfl, rfl, rfl, rfl, rfl, rfl⟩ rfl rfl h.worker h.reuploading

theorem reuploadToCdn_spec (h : Settled aes kind o file a files) :
    Right aes kind o file L ⟨reuploadToCdn a, files⟩ := by
  unfold reuploadToCdn
  split
  · rename_i hreuploading
    exact .running h fun _ => .inr (.inr (.inr (.inr (h.reuploading hreuploading))))
  · refine .running ?_ fun _ => .inr (.inr (.inr (.inr rfl)))
    exact h.congr ⟨rfl, rfl, rfl, rfl, rfl, rfl, rfl⟩ rfl rfl h.worker fun _ => rfl

theorem answered_spec (hblocks : o.encryption ≠ none → file.length % 16 = 0)
    (hcut : CutsLastPart o file) (h : Settled aes kind o file a files)
    (hr : a.partRequests[index]? = some r) {answer : Answer}
    (hexact : AnswersExactly aes kind file a r answer)
    (hturn : InTurn kind file a (.answered index answer))
    (hwaits : L → Accompanied kind a (.answered index answer))
    (hnext : answered sha256 aes kind { a with partRequests := a.partRequests.eraseIdx index } r
      answer = next) :
    Right aes kind o file L ⟨next.1, files.applyAll next.2⟩ ∧
      Safe aes kind o file files next.2 := by
  have hmarked := markRestart_spec h hr
  unfold InTurn at hturn
  dsimp only at hturn
  rw [hr] at hturn
  cases answer with
  | file bytes =>
    subst hexact
    exact filePartDownloadSuccess_spec hblocks hcut h hr (hturn rfl) hnext
  | cdnRedirect fileData hashes =>
    cases kind with
    | multipart =>
      subst hnext
      refine ⟨switchToCdnWithFileData_spec hmarked fileData hashes ?_, h.core.disk⟩
      exact fun hl => (hwaits hl).imp_right (·.imp_right And.right)
    | video =>
      subst hnext
      refine ⟨switchToCdn_spec hmarked fileData ?_, h.core.disk⟩
      exact fun hl => (hwaits hl).imp_right (·.resolve_right fun hno => by cases hno.1)
  | cdnFile bytes =>
    unfold AnswersExactly at hexact
    unfold answered at hnext
    dsimp only at hexact hnext
    cases hdata : a.cdnFileData with
    | none =>
      rw [hdata] at hexact
      exact hexact.elim
    | some fileData =>
      rw [hdata] at hexact hnext
      dsimp only at hexact hnext
      rw [hexact, ← hdata] at hnext
      exact filePartDownloadSuccess_spec hblocks hcut h hr (hturn rfl) hnext
  | cdnFileReuploadNeeded =>
    subst hnext
    exact ⟨reuploadToCdn_spec hmarked, h.core.disk⟩
  | other => exact hexact.elim
  | error => exact hexact.elim

theorem runningStep_spec (hblocks : o.encryption ≠ none → file.length % 16 = 0)
    (hcut : CutsLastPart o file) (h : Settled aes kind o file a files) (hl : L → Outstanding a)
    {event : Event} (hhonest : Honest aes kind file a event) (hturn : InTurn kind file a event)
    (hwaits : L → Accompanied kind a event) (hnext : runningStep sha256 aes kind a event = next) :
    Right aes kind o file L ⟨next.1, files.applyAll next.2⟩ ∧
      Safe aes kind o file files next.2 := by
  have hsame : Right aes kind o file L ⟨a, files.applyAll []⟩ ∧ Safe aes kind o file files [] :=
    ⟨.running h hl, h.core.disk⟩
  cases event with
  | worker1 =>
    unfold runningStep at hnext
    dsimp only at hnext
    split at hnext
    · subst hnext
      exact hsame
    · subst hnext
      apply downloadFileParts_spec hcut
      exact h.congr ⟨rfl, rfl, rfl, rfl, rfl, rfl, rfl⟩ rfl rfl (fun hfalse => by cases hfalse)
        h.reuploading
  | worker2 =>
    unfold runningStep at hnext
    dsimp only at hnext
    split at hnext
    · subst hnext
      exact hsame
    · subst hnext
      apply downloadFileParts_spec hcut
      exact h.congr ⟨rfl, rfl, rfl, rfl, rfl, rfl, rfl⟩ rfl rfl h.worker h.reuploading
  | answered index answer =>
    unfold Honest at hhonest
    unfold runningStep at hnext
    dsimp only at hhonest hnext
    cases hr : a.partRequests[index]? with
    | none =>
      rw [hr] at hnext
      subst hnext
      exact hsame
    | some r =>
      rw [hr] at hhonest hnext
      exact answered_spec hblocks hcut h hr hhonest hturn hwaits hnext
  | hashesReceived hashes =>
    unfold Accompanied at hwaits
    unfold runningStep hashesReceived at hnext
    dsimp only at hwaits hnext
    cases hhashes : a.hashRequest with
    | none =>
      rw [hhashes] at hnext
      subst hnext
      exact hsame
    | some pair =>
      obtain ⟨fileData, known⟩ := pair
      rw [hhashes] at hwaits hnext
      subst hnext
      refine ⟨switchToCdnWithFileData_spec ?_ fileData (known ++ hashes) hwaits, h.core.disk⟩
      exact h.congr ⟨rfl, rfl, rfl, rfl, rfl, rfl, rfl⟩ rfl rfl h.worker h.reuploading
  | reuploaded =>
    unfold runningStep at hnext
    dsimp only at hnext
    split at hnext
    · subst hnext
      apply downloadFileParts_spec hcut
      exact h.congr ⟨rfl, rfl, rfl, rfl, rfl, rfl, rfl⟩ rfl rfl h.worker
        fun hfalse => by cases hfalse
    · subst hnext
      exact hsame

theorem Right.disk {w : World} (h : Right aes kind o file L w) : Disk aes kind o file w.files := by
  cases h with
  | running h _ => exact h.core.disk
  | failed _ _ hdisk => exact hdisk
  | completed _ hgone hstored => exact .unusable (isUnusable_of_none hgone) (.inr hstored)

theorem step_right (hblocks : o.encryption ≠ none → file.length % 16 = 0)
    (hcut : CutsLastPart o file) {w : World} (h : Right aes kind o file L w) {event : Event}
    (hhonest : Honest aes kind file w.actor event) (hturn : InTurn kind file w.actor event)
    (hwaits : L → Accompanied kind w.actor event) :
    Right aes kind o file L (step sha256 aes kind w event) ∧
      Safe aes kind o file w.files (actorStep sha256 aes kind w.actor event).2 := by
  have hdone : w.actor.status ≠ .running →
      Right aes kind o file L (step sha256 aes kind w event) ∧
        Safe aes kind o file w.files (actorStep sha256 aes kind w.actor event).2 := by
    intro hnot
    unfold step actorStep
    rw [if_neg hnot]
    exact ⟨h, h.disk⟩
  cases h with
  | running hsettled hl =>
    unfold step actorStep
    rw [if_pos hsettled.core.running]
    exact runningStep_spec hblocks hcut hsettled hl hhonest hturn hwaits rfl
  | failed hstatus _ _ => exact hdone (by rw [hstatus]; decide)
  | completed hstatus _ _ => exact hdone (by rw [hstatus]; decide)

end Steps

section KnownSize

variable {sha256} {aes} {kind} {file}

theorem inTurn_of_size {a : Actor} (h : a.size ≠ 0) (event : Event) : InTurn kind file a event := by
  unfold InTurn
  split
  · grind
  · trivial

theorem requestLoop_size (n : Nat) (a : Actor) (requestList : List (Nat × Nat)) :
    (requestLoop n a requestList).1.size = a.size := by
  induction n generalizing a requestList with
  | zero => rfl
  | succ n ih =>
    unfold requestLoop
    split
    · exact ih _ _
    · dsimp only
      split
      · rfl
      · exact ih _ _

theorem downloadFileParts_size (a : Actor) : (downloadFileParts kind a).1.size = a.size := by
  unfold downloadFileParts
  cases kind with
  | multipart =>
    dsimp only
    split
    · rfl
    · split
      · rfl
      · exact requestLoop_size _ a []
  | video =>
    dsimp only
    split
    · rfl
    · split
      · rfl
      · exact requestLoop_size _ a []

theorem switchToCdn_size (a : Actor) (fileData : CdnFileData) :
    (switchToCdn a fileData).size = a.size := by
  unfold switchToCdn
  split <;> rfl

theorem switchToCdnWithFileData_size (a : Actor) (fileData : CdnFileData) (hashes : PartHashes) :
    (switchToCdnWithFileData a fileData hashes).size = a.size := by
  unfold switchToCdnWithFileData
  split
  · rfl
  · exact switchToCdn_size _ _

theorem commitPart_size (a : Actor) (part : PartInfo) (data : Data) :
    (commitPart sha256 aes kind a part data).1.size = a.size := by
  have hdecrypt : (decryptPart aes kind a data).1.size = a.size := by
    unfold decryptPart
    split <;> rfl
  unfold commitPart
  dsimp only
  split <;> exact hdecrypt

theorem commitPass_size (offsets : List Nat) (a : Actor) :
    (commitPass sha256 aes kind offsets a).2.1.size = a.size := by
  induction offsets generalizing a with
  | nil => rfl
  | cons offset offsets ih =>
    unfold commitPass
    split
    · exact ih a
    · grind [commitPart_size]

theorem commitLoop_size (offsets : List Nat) (fuel : Nat) (a : Actor) :
    (commitLoop sha256 aes kind offsets fuel a).1.size = a.size := by
  induction fuel generalizing a with
  | zero => rfl
  | succ fuel ih =>
    unfold commitLoop
    dsimp only
    split
    · exact (ih _).trans (commitPass_size _ _)
    · exact commitPass_size _ _

theorem filePartDownloadSuccess_size {a : Actor} (h : a.size ≠ 0) (offset length : Nat)
    (data : Data) :
    (filePartDownloadSuccess sha256 aes kind a offset length data).1.size = a.size := by
  have hnot : ¬ (kind = .multipart ∧ a.size = 0 ∧ data.length < length) := fun hzero => h hzero.2.1
  simp only [filePartDownloadSuccess, if_neg hnot]
  split
  · split
    · exact commitLoop_size _ _ _
    · exact (downloadFileParts_size _).trans (commitLoop_size _ _ _)
  · rfl

theorem answered_size {a : Actor} (h : a.size ≠ 0) (r : PartRequest) (answer : Answer) :
    (answered sha256 aes kind a r answer).1.size = a.size := by
  cases answer with
  | file bytes => exact filePartDownloadSuccess_size h _ _ _
  | cdnRedirect fileData hashes =>
    cases kind with
    | multipart => exact switchToCdnWithFileData_size _ _ _
    | video => exact switchToCdn_size _ _
  | cdnFile bytes =>
    unfold answered
    dsimp only
    split
    · exact filePartDownloadSuccess_size h _ _ _
    · rfl
  | cdnFileReuploadNeeded =>
    unfold answered reuploadToCdn
    dsimp only
    split <;> rfl
  | other => rfl
  | error => rfl

theorem actorStep_size {a : Actor} (h : a.size ≠ 0) (event : Event) :
    (actorStep sha256 aes kind a event).1.size = a.size := by
  unfold actorStep
  split
  · unfold runningStep
    cases event with
    | worker1 =>
      dsimp only
      split
      · rfl
      · exact downloadFileParts_size _
    | worker2 =>
      dsimp only
      split
      · rfl
      · exact downloadFileParts_size _
    | answered index answer =>
      grind [answered_size]
    | hashesReceived hashes =>
      unfold hashesReceived
      dsimp only
      split
      · rfl
      · exact switchToCdnWithFileData_size _ _ _
    | reuploaded =>
      dsimp only
      split
      · exact downloadFileParts_size _
      · rfl
  · rfl

end KnownSize

end TelegramPub.Ports.PartDownload
