import TelegramPub.Verified.FirstMatch
import TelegramPub.Ports.PartAnswers

/-!
# Short parts

A part may be answered with fewer bytes than were asked for.  When it is committed, a request
for the rest is put into `_explicitDownloadParts`, if the condition on the lengths holds; it
adds the length of the data to `_downloadedFileSize`, which has been advanced by it already.
The limit of such a request is rounded up, so that its answer may be longer than the rest.

`GapCore` is the invariant of the parts: the pending request and the parts, in the order of
their offsets, begin at the committed bytes and leave nothing out.  `commitLoop_gap` is what
the commit loop does to it, if the data of each part are filled up (`Fills`) and end before
the decrypted size (`EndsBefore`).
-/

namespace TelegramPub.Ports.PartDownload

open Verified.Bytes Verified.FirstMatch

/-- The requests for the rest of a part. -/
def pending (a : Actor) : List PartInfo :=
  a.explicitDownloadParts.map fun (offset, length) => { partOffset := offset, partLength := length }

/-- What is behind the data of a part is asked for: the file ends with them; the part is
whole; or they are short, and it is the last part or the condition for a request holds. -/
def Fills (file : Data) (offset length dataLength : Nat) : Prop :=
  offset + dataLength = file.length ∨ dataLength = length ∨
    dataLength < length ∧
      (file.length ≤ offset + length ∨ offset + dataLength + dataLength < file.length)

/-- Only the last data of a file reach over the decrypted size. -/
def EndsBefore (o : Options) (file : Data) (offset dataLength : Nat) : Prop :=
  o.encryption ≠ none → o.decryptedSize ≠ 0 →
    offset + dataLength = file.length ∨ offset + dataLength ≤ o.decryptedSize

/-- Data that can be committed. -/
structure Committable (o : Options) (file : Data) (p : PartInfo) (data : Data) : Prop where
  bytes : data = slice file p.partOffset data.length
  pos : 0 < data.length
  block : data.length % 16 = 0 ∨ p.partOffset + data.length = file.length
  fills : Fills file p.partOffset p.partLength data.length
  before : EndsBefore o file p.partOffset data.length

/-- The parts and the partial file of a download that runs and is not complete. -/
structure GapCore (aes : Data → Equiv.Perm (BitVec 128)) (o : Options) (file : Data)
    (row : List PartInfo) (a : Actor) (files : Files) : Prop where
  running : a.status = .running
  size : a.size = file.length
  keyed : Keyed aes o file a
  unchecked : a.cdnFilePartHashes = none
  perm : row.Perm a.downloadingParts
  tiles : Tiles a.downloadedFileSize (pending a ++ row)
  one : a.explicitDownloadParts.length ≤ 1
  inside : ∀ p ∈ pending a ++ row, p.partOffset < file.length
  unmarked : ∀ p ∈ row, p.restart = false
  data : ∀ p ∈ row, ∀ data, p.downloadedData = some data → Committable o file p data
  less : a.downloadedFileSize < file.length
  block : a.downloadedFileSize % 16 = 0
  before : o.encryption ≠ none → o.decryptedSize ≠ 0 → a.downloadedFileSize ≤ o.decryptedSize
  partialFile : files.partialFile = some ((plaintext aes o file).take a.downloadedFileSize)
  stored : files.stored = none

/-- The last data of the file are committed. -/
structure Ended (aes : Data → Equiv.Perm (BitVec 128)) (o : Options) (file : Data) (a : Actor)
    (files : Files) : Prop where
  running : a.status = .running
  size : a.size = file.length
  whole : a.downloadedFileSize = file.length
  inside : ∀ p ∈ a.downloadingParts, p.partOffset < file.length
  partialFile : files.partialFile = some (plaintext aes o file)
  stored : files.stored = none

/-- Parts with data are taken away, and nothing but the place in the file is changed. -/
def Commits (a a' : Actor) : Prop :=
  ∃ downloadedFileSize parts explicitDownloadParts iv,
    (∀ p ∈ parts, p ∈ a.downloadingParts) ∧
    (∀ p ∈ a.downloadingParts, p.downloadedData = none → p ∈ parts) ∧
    a' = { a with
      downloadedFileSize
      downloadingParts := parts
      explicitDownloadParts
      runningEncryptionIv := iv }

theorem Commits.refl (a : Actor) : Commits a a :=
  ⟨_, _, _, _, fun _ hp => hp, fun _ hp _ => hp, rfl⟩

theorem Commits.trans {a b c : Actor} (hab : Commits a b) (hbc : Commits b c) : Commits a c := by
  obtain ⟨n, parts, gaps, iv, hsub, hkeeps, rfl⟩ := hab
  obtain ⟨n', parts', gaps', iv', hsub', hkeeps', rfl⟩ := hbc
  refine ⟨n', parts', gaps', iv', fun p hp => hsub p (hsub' p hp), ?_, rfl⟩
  intro p hp hnone
  exact hkeeps' p (hkeeps p hp hnone) hnone

section Commits

variable {sha256 : Data → Data} {aes : Data → Equiv.Perm (BitVec 128)} {kind : Kind}
  {o : Options} {file : Data} {row : List PartInfo} {a : Actor} {files : Files}

variable {p : PartInfo} {data : Data}

theorem Committable.within (h : Committable o file p data) :
    p.partOffset + data.length ≤ file.length := by
  have hlength := congrArg List.length h.bytes
  have hpos := h.pos
  rw [length_slice] at hlength
  omega

/-- Nothing of what is left can be committed. -/
theorem Ended.notReady (h : Ended aes o file a files) : HeadNotReady a := by
  intro p hp hat
  have hinside := h.inside p hp
  have hwhole := h.whole
  omega

/-- The first part of the row, when it begins at the committed bytes: nothing is pending. -/
theorem GapCore.head (h : GapCore aes o file row a files) (hp : p ∈ row)
    (hat : p.partOffset = a.downloadedFileSize) :
    a.explicitDownloadParts = [] ∧ ∃ ps, row = p :: ps ∧
      Tiles (a.downloadedFileSize + p.partLength) ps := by
  have htiles := h.tiles
  have hnone : a.explicitDownloadParts = [] := by
    cases hexplicit : a.explicitDownloadParts with
    | nil => rfl
    | cons gap gaps =>
      unfold pending at htiles
      rw [hexplicit] at htiles
      have hmem := htiles.2.2.mem p (List.mem_append_right _ hp)
      have hpos := htiles.2.1
      omega
  refine ⟨hnone, ?_⟩
  unfold pending at htiles
  rw [hnone, List.map_nil, List.nil_append] at htiles
  cases row with
  | nil => cases hp
  | cons q qs =>
    have hsame : p = q := htiles.inj hp (.head _) (hat.trans htiles.1.symm)
    rw [hsame]
    exact ⟨qs, rfl, htiles.2.2⟩

/-- The request that is made for the rest of a part of a file whose size is known. -/
def gapOf (p : PartInfo) (size offset dataLength : Nat) : List (Nat × Nat) :=
  if dataLength < p.partLength ∧ offset + dataLength + dataLength < size then
    [(offset + dataLength, p.partLength - dataLength)]
  else []

variable {ps : List PartInfo}

/-- The rest of a part and the parts behind it leave nothing out. -/
theorem Committable.rest (h : Committable o file p data)
    (hless : p.partOffset + data.length < file.length)
    (htiles : Tiles (p.partOffset + p.partLength) ps)
    (hinside : ∀ q ∈ ps, q.partOffset < file.length) :
    Tiles (p.partOffset + data.length)
      ((gapOf p file.length p.partOffset data.length).map (fun (offset, length) =>
        ({ partOffset := offset, partLength := length } : PartInfo)) ++ ps) := by
  have hlast : file.length ≤ p.partOffset + p.partLength → ps = [] := by
    intro hend
    refine List.eq_nil_iff_forall_not_mem.2 fun q hq => ?_
    have hmem := htiles.mem q hq
    have hq' := hinside q hq
    omega
  unfold gapOf
  split
  · rename_i hgap
    refine ⟨rfl, ?_, ?_⟩
    · show 0 < p.partLength - data.length
      omega
    · show Tiles (p.partOffset + data.length + (p.partLength - data.length)) ps
      rw [show p.partOffset + data.length + (p.partLength - data.length) =
        p.partOffset + p.partLength by omega]
      exact htiles
  · rename_i hgap
    rcases h.fills with hend | hwhole | ⟨hshort, hend | hasked⟩
    · omega
    · rw [hwhole]
      exact htiles
    · rw [hlast hend]
      trivial
    · exact absurd ⟨hshort, hasked⟩ hgap

theorem perm_filter {parts : List PartInfo} {start : Nat} (hperm : (p :: ps).Perm parts)
    (hpos : p.partOffset < start) (htiles : Tiles start ps) :
    ps.Perm (parts.filter (·.partOffset ≠ p.partOffset)) := by
  have hrest : (p :: ps).filter (·.partOffset ≠ p.partOffset) = ps := by
    rw [List.filter_cons_of_neg (by simp), List.filter_eq_self]
    intro q hq
    have hbehind := htiles.mem q hq
    simp only [decide_eq_true_eq]
    omega
  have hfilter := hperm.filter (fun q => decide (q.partOffset ≠ p.partOffset))
  rw [hrest] at hfilter
  exact hfilter

variable {r : Actor × List FileOp}

theorem commitPart_writes (hblocks : o.encryption ≠ none → file.length % 16 = 0)
    (h : GapCore aes o file row a files) (hp : p ∈ row) (hat : p.partOffset = a.downloadedFileSize)
    (hdata : p.downloadedData = some data) (hr : commitPart sha256 aes kind a p data = r) :
    ∃ iv, iv.isSome = o.encryption.isSome ∧
      (a.downloadedFileSize + data.length < (plaintext aes o file).length →
        iv = ivAfter aes o (file.take (a.downloadedFileSize + data.length))) ∧
      (files.applyAll r.2).partialFile =
        some ((plaintext aes o file).take (a.downloadedFileSize + data.length)) ∧
      (files.applyAll r.2).stored = none ∧
      r.1 = { a with
        downloadedFileSize := a.downloadedFileSize + data.length
        downloadingParts := a.downloadingParts.filter (·.partOffset ≠ p.partOffset)
        explicitDownloadParts := gapOf p file.length a.downloadedFileSize data.length
        runningEncryptionIv := iv } := by
  have hcommit := h.data p hp data hdata
  have hless := h.less
  have hblock := hcommit.block
  have hbytes : slice file a.downloadedFileSize data.length = data := by
    rw [← hat]
    exact hcommit.bytes.symm
  have hspec : DecryptsNext aes kind o file a a.downloadedFileSize data.length := by
    refine decryptPart_spec hblocks h.keyed rfl hless.le (fun _ _ => h.block) ?_ ?_
    · intro hsome hsize hbehind _
      have hbefore := h.before hsome hsize
      omega
    · intro _
      omega
  obtain ⟨iv, ops, dataToWrite, hdecrypt, hgiven, hrunning, hwrite, hops⟩ := hspec
  rw [hbytes] at hdecrypt hrunning hwrite
  obtain ⟨hbegun, hstored, _⟩ := applyAll_storeIv kind iv files
  rw [← hops] at hbegun hstored
  have hgap : (if a.size ≠ 0 ∧ data.length < p.partLength ∧
        a.downloadedFileSize + data.length + data.length < a.size then
      [(a.downloadedFileSize + data.length, p.partLength - data.length)] else []) =
      gapOf p file.length a.downloadedFileSize data.length := by
    unfold gapOf
    rw [h.size]
    exact if_congr (and_iff_right (by omega)) rfl rfl
  have hmatch : hashesMatch sha256 none p.partOffset dataToWrite = true := rfl
  unfold commitPart at hr
  rw [hdecrypt] at hr
  dsimp only at hr
  rw [h.unchecked, if_pos hmatch, hgap, (h.head hp hat).1, List.nil_append] at hr
  refine ⟨iv, hgiven, hrunning, ?_, ?_, by rw [← hr, h.unchecked]⟩
  · rw [← hr, applyAll_append]
    show some ((files.applyAll ops).partialFile.getD [] ++ dataToWrite) = _
    rw [hbegun, h.partialFile]
    exact congrArg some hwrite
  · rw [← hr, applyAll_append]
    exact hstored.trans h.stored

/-- What is left when parts are committed. -/
def Left (aes : Data → Equiv.Perm (BitVec 128)) (o : Options) (file : Data)
    (row : List PartInfo) (a : Actor) (files : Files) : Prop :=
  GapCore aes o file row a files ∨ Ended aes o file a files

/-- A commit of the first part of the row. -/
theorem commitPart_gap (hblocks : o.encryption ≠ none → file.length % 16 = 0)
    (h : GapCore aes o file (p :: ps) a files) (hat : p.partOffset = a.downloadedFileSize)
    (hdata : p.downloadedData = some data) (hr : commitPart sha256 aes kind a p data = r) :
    Left aes o file ps r.1 (files.applyAll r.2) ∧ Commits a r.1 := by
  have hp : p ∈ p :: ps := List.mem_cons_self
  have hcommit := h.data p hp data hdata
  have hwithin := hcommit.within
  have hblock := hcommit.block
  have hover := hcommit.before
  have hblocked := h.block
  have hinside : ∀ q ∈ p :: ps, q.partOffset < file.length := fun q hq =>
    h.inside q (List.mem_append_right _ hq)
  obtain ⟨_, ps', hrow, htiles⟩ := h.head hp hat
  cases hrow
  have hpos := (h.tiles.mem p (List.mem_append_right _ hp)).2.1
  have hfilter : ps.Perm (a.downloadingParts.filter (·.partOffset ≠ p.partOffset)) :=
    perm_filter h.perm (by omega) htiles
  obtain ⟨iv, hgiven, hrunning, hpart, hstored, hactor⟩ :=
    commitPart_writes hblocks h hp hat hdata hr
  rw [hactor]
  constructor
  · by_cases hend : a.downloadedFileSize + data.length = file.length
    · right
      refine ⟨h.running, h.size, hend, ?_, ?_, hstored⟩
      · intro q hq
        exact hinside q (.tail p (hfilter.mem_iff.2 hq))
      · rw [hpart, List.take_of_length_le]
        rw [hend]
        exact length_plaintext aes o file
    · left
      have hrest := hcommit.rest (by omega) (by rw [hat]; exact htiles)
        fun q hq => hinside q (.tail p hq)
      rw [hat] at hrest hblock hover hwithin
      refine {
        running := h.running
        size := h.size
        keyed := ⟨h.keyed.key, h.keyed.decryptedSize, hgiven, hrunning⟩
        unchecked := h.unchecked
        perm := hfilter
        tiles := hrest
        one := ?_
        inside := ?_
        unmarked := fun q hq => h.unmarked q (.tail p hq)
        data := fun q hq => h.data q (.tail p hq)
        less := by dsimp only; omega
        block := by dsimp only; omega
        before := fun hsome hsize => (hover hsome hsize).resolve_left hend
        partialFile := hpart
        stored := hstored }
      · show (gapOf p file.length a.downloadedFileSize data.length).length ≤ 1
        unfold gapOf
        split <;> simp
      · grind [gapOf, pending]
  · refine ⟨_, _, _, iv, ?_, ?_, rfl⟩
    · intro q hq
      exact List.mem_of_mem_filter hq
    · intro q hq hnone
      refine List.mem_filter.2 ⟨hq, decide_eq_true fun hsame => ?_⟩
      have hq' := h.tiles.inj (List.mem_append_right _ (h.perm.mem_iff.2 hq))
        (List.mem_append_right _ hp) hsame
      rw [hq', hdata] at hnone
      cases hnone

theorem GapCore.nodup (h : GapCore aes o file row a files) :
    (a.downloadingParts.map (·.partOffset)).Nodup := by
  have hrow := ((tiles_append _ _ _).1 h.tiles).2.nodup
  exact (h.perm.map (·.partOffset)).nodup_iff.1 hrow

theorem GapCore.part_eq (h : GapCore aes o file row a files) (hp : p ∈ a.downloadingParts)
    : a.part p.partOffset = some p :=
  find_of_nodup h.nodup hp

/-- A pass over the row: it commits the first parts, up to one without data or a request for
the rest of one. -/
theorem commitPass_gap (hblocks : o.encryption ≠ none → file.length % 16 = 0) (offsets : List Nat) :
    ∀ {row : List PartInfo} {a : Actor} {files : Files}, GapCore aes o file row a files →
      row.map (·.partOffset) = offsets →
      ∀ {hadCommit : Bool} {r : Actor × List FileOp},
        commitPass sha256 aes kind offsets a = (hadCommit, r) →
        (∃ row', Left aes o file row' r.1 (files.applyAll r.2)) ∧ HeadNotReady r.1 ∧
          Commits a r.1 := by
  induction offsets with
  | nil =>
    intro row a files h hoffsets hadCommit r hr
    rw [commitPass] at hr
    cases hr
    refine ⟨⟨row, .inl h⟩, ?_, Commits.refl a⟩
    intro p hp
    rw [← h.perm.mem_iff, List.map_eq_nil_iff.1 hoffsets] at hp
    cases hp
  | cons offset offsets ih =>
    intro row a files h hoffsets hadCommit r hr
    obtain ⟨p, ps, hparts, rfl, hrest⟩ := List.map_eq_cons_iff.1 hoffsets
    subst hparts
    by_cases hready : p.partOffset = a.downloadedFileSize ∧ p.downloadedData.isSome
    · obtain ⟨hat, hsome⟩ := hready
      obtain ⟨data, hdata⟩ := Option.isSome_iff_exists.1 hsome
      rw [commitPass, if_neg (not_not.2 hat), h.part_eq (h.perm.mem_iff.1 (.head _)),
        Option.bind_some, hdata, Option.map_some] at hr
      dsimp only at hr
      obtain ⟨hleft, hcommits⟩ := commitPart_gap hblocks h hat hdata rfl
      have hruns : (commitPart sha256 aes kind a p data).1.status = .running :=
        hleft.elim GapCore.running Ended.running
      rw [if_neg (by rw [hruns]; decide)] at hr
      cases hr
      rw [applyAll_append]
      rcases hleft with hcore | hended
      · obtain ⟨hleft', hnot, hcommits'⟩ := ih hcore hrest rfl
        exact ⟨hleft', hnot, hcommits.trans hcommits'⟩
      · rw [commitPass_of_notReady sha256 hended.notReady]
        exact ⟨⟨ps, .inr hended⟩, hended.notReady, hcommits⟩
    · have hnot : HeadNotReady a := by
        intro q hq hat
        obtain ⟨_, ps', hrow, _⟩ := h.head (h.perm.mem_iff.2 hq) hat
        cases hrow
        exact Option.not_isSome_iff_eq_none.1 fun hsome => hready ⟨hat, hsome⟩
      rw [commitPass_of_notReady sha256 hnot] at hr
      cases hr
      exact ⟨⟨_, .inl h⟩, hnot, Commits.refl a⟩

theorem commitLoop_gap (hblocks : o.encryption ≠ none → file.length % 16 = 0)
    (h : GapCore aes o file row a files) (fuel : Nat)
    (hr : commitLoop sha256 aes kind (sortedDownloadingParts a) (fuel + 1) a = r) :
    (∃ row', Left aes o file row' r.1 (files.applyAll r.2)) ∧ HeadNotReady r.1 ∧
      Commits a r.1 := by
  have hsorted : sortedDownloadingParts a = row.map (·.partOffset) := by
    have htiles := ((tiles_append _ _ _).1 h.tiles).2
    have hascending : (row.map (·.partOffset)).Pairwise (· ≤ ·) :=
      List.pairwise_map.2 (htiles.pairwise.imp Nat.le_of_lt)
    have hsame : (sortedDownloadingParts a).Perm (row.map (·.partOffset)) :=
      (List.perm_insertionSort _ _).trans (h.perm.symm.map _)
    exact hsame.eq_of_pairwise' (List.pairwise_insertionSort _ _) hascending
  rw [hsorted] at hr
  cases hpass : commitPass sha256 aes kind (row.map (·.partOffset)) a with
  | mk hadCommit pass =>
    have hspec := commitPass_gap hblocks _ h rfl hpass
    rw [← hr, commitLoop_of_pass sha256 fuel hpass fun _ => hspec.2.1]
    exact hspec

end Commits

end TelegramPub.Ports.PartDownload
