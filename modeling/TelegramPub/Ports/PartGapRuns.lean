import TelegramPub.Ports.PartGaps
import TelegramPub.Ports.PartRuns

/-!
# Downloads with short parts

A server may answer a request with any beginning of the range: `AnswersPrefix`.  In a run
whose answers fill their parts up (`Filled`), a download writes the file and is never left
with nothing to wait for (`fills_gaps`).  `short_part_stalls` is a run in which one answer
does not: the condition for a request for the rest adds its length twice, and the second half
of the first part is never asked for.
-/

namespace TelegramPub.Ports.PartDownload

open Verified.Bytes Verified.Machine

section Requests

variable {aes : Data → Equiv.Perm (BitVec 128)} {kind : Kind} {o : Options} {file : Data}
  {row : List PartInfo} {a : Actor} {files : Files}

theorem setPart_of_unused {parts : List PartInfo} {part : PartInfo}
    (h : ∀ p ∈ parts, p.partOffset ≠ part.partOffset) : setPart parts part = parts ++ [part] := by
  unfold setPart
  rw [if_neg]
  intro hany
  obtain ⟨p, hp, heq⟩ := List.any_eq_true.1 hany
  exact h p hp (beq_iff_eq.1 heq)

theorem nextDownloadOffset_perm (hperm : row.Perm a.downloadingParts)
    (htiles : Tiles a.downloadedFileSize row) :
    nextDownloadOffset a = tilesEnd a.downloadedFileSize row := by
  have hsame : nextDownloadOffset a =
      row.foldl (fun next p => max next (p.partOffset + p.partLength)) a.downloadedFileSize := by
    unfold nextDownloadOffset
    refine (hperm.foldl_eq' (fun p _ q _ next => ?_) _).symm
    exact max_right_comm _ _ _
  rw [hsame]
  by_cases hrow : row = []
  · rw [hrow]
    rfl
  · exact foldl_max_end htiles (Nat.le_refl _) hrow

/-- The request for the rest of a part is made. -/
def Actor.takePending (a : Actor) : Actor :=
  { a with explicitDownloadParts := [], downloadingParts := a.downloadingParts ++ pending a }

theorem GapCore.takePending (h : GapCore aes o file row a files) :
    GapCore aes o file (pending a ++ row) a.takePending files := by
  refine {
    running := h.running
    size := h.size
    keyed := ⟨h.keyed.key, h.keyed.decryptedSize, h.keyed.given, h.keyed.running⟩
    unchecked := h.unchecked
    perm := List.perm_append_comm.trans (h.perm.append_right _)
    tiles := h.tiles
    one := Nat.zero_le 1
    inside := h.inside
    unmarked := ?_
    data := ?_
    less := h.less
    block := h.block
    before := h.before
    partialFile := h.partialFile
    stored := h.stored }
  · intro p hp
    rcases List.mem_append.1 hp with hp | hp
    · obtain ⟨gap, _, rfl⟩ := List.mem_map.1 hp
      rfl
    · exact h.unmarked p hp
  · intro p hp data hdata
    rcases List.mem_append.1 hp with hp | hp
    · obtain ⟨gap, _, rfl⟩ := List.mem_map.1 hp
      cases hdata
    · exact h.data p hp data hdata

/-- The parts that are asked for: the rest of a part, and new ones. -/
def gapParts (a : Actor) (n : Nat) : List PartInfo :=
  pending a ++ freshParts a.size a.downloadedFileSize (n - (pending a).length)
    (nextDownloadOffset a.takePending)

/-- The loop on parts of which none is marked, with nothing pending. -/
theorem GapCore.requestLoop_eq (h : GapCore aes o file row a files)
    (hnone : a.explicitDownloadParts = []) (n : Nat) (requestList : List (Nat × Nat)) :
    requestLoop n a requestList =
      let fresh := freshParts a.size a.downloadedFileSize n (nextDownloadOffset a)
      ({ a with downloadingParts := a.downloadingParts ++ fresh },
        requestList ++ fresh.map fun p => (p.partOffset, p.partLength)) := by
  apply requestLoop_of_clean n a requestList hnone
  · intro p hp
    exact h.unmarked p (h.perm.mem_iff.2 hp)
  · intro p hp
    exact (h.tiles.mem p (List.mem_append_right _ (h.perm.mem_iff.2 hp))).2.1
  · intro _
    rw [h.size]
    exact h.less

theorem requestLoop_gap (h : GapCore aes o file row a files) (n : Nat) :
    requestLoop (n + 1) a [] =
      ({ a with
          explicitDownloadParts := []
          downloadingParts := a.downloadingParts ++ gapParts a (n + 1) },
        (gapParts a (n + 1)).map fun p => (p.partOffset, p.partLength)) := by
  have htake := h.takePending
  have hone := h.one
  unfold gapParts
  cases hexplicit : a.explicitDownloadParts with
  | nil =>
    have hpending : pending a = [] := by
      unfold pending
      rw [hexplicit]
      rfl
    have hsame : a.takePending = a := by
      unfold Actor.takePending
      rw [hpending, List.append_nil, ← hexplicit]
    rw [h.requestLoop_eq hexplicit, hpending, hsame, hexplicit]
    rfl
  | cons gap gaps =>
    rw [hexplicit] at hone
    have hgaps : gaps = [] := List.eq_nil_of_length_eq_zero (by simpa using hone)
    subst hgaps
    have hpending : pending a = [{ partOffset := gap.1, partLength := gap.2 }] := by
      unfold pending
      rw [hexplicit]
      rfl
    have hadd : { a with explicitDownloadParts := [] }.addPart gap.1 gap.2 = a.takePending := by
      unfold Actor.addPart Actor.takePending
      rw [hpending, setPart_of_unused]
      intro p hp
      have htiles := h.tiles
      rw [hpending] at htiles
      have hmem := htiles.2.2.mem p (h.perm.mem_iff.2 hp)
      have hpos := htiles.2.1
      have hat := htiles.1
      dsimp only at hmem hpos hat ⊢
      omega
    rw [requestLoop, hexplicit]
    dsimp only
    rw [hadd, htake.requestLoop_eq rfl, hpending]
    unfold Actor.takePending
    rw [hpending]
    simp

theorem requestParts_gap (h : GapCore aes o file row a files) {n : Nat}
    (hn : partLimit a - a.downloadingParts.countP (·.isActive) = n + 1) :
    requestParts a =
      { a with
        explicitDownloadParts := []
        downloadingParts := a.downloadingParts ++ gapParts a (n + 1)
        partRequests := a.partRequests ++ (gapParts a (n + 1)).map (partRequest a) } := by
  unfold requestParts
  dsimp only
  rw [hn, requestLoop_gap h n, List.map_map]
  rfl

theorem GapCore.next_eq (h : GapCore aes o file row a files) :
    nextDownloadOffset a.takePending = tilesEnd a.downloadedFileSize (pending a ++ row) :=
  nextDownloadOffset_perm h.takePending.perm h.takePending.tiles

theorem gapParts_mem (h : GapCore aes o file row a files) {n : Nat} {p : PartInfo}
    (hp : p ∈ gapParts a n) :
    p.partOffset < file.length ∧ p.restart = false ∧ p.downloadedData = none := by
  rcases List.mem_append.1 hp with hp | hp
  · have hinside := h.inside p (List.mem_append_left _ hp)
    obtain ⟨gap, _, rfl⟩ := List.mem_map.1 hp
    exact ⟨hinside, rfl, rfl⟩
  · have hless := h.less
    have hsize := h.size
    obtain ⟨_, hinside, hdata, hrestart, _⟩ :=
      freshParts_mem _ _ _ (nextDownloadOffset_gt a.takePending).1 p hp
    exact ⟨hsize ▸ hinside (by omega), hrestart, hdata⟩

theorem core_of_gapParts (h : GapCore aes o file row a files) (n : Nat)
    (requests : List PartRequest) :
    ∃ row', GapCore aes o file row'
      { a with
        explicitDownloadParts := []
        downloadingParts := a.downloadingParts ++ gapParts a n
        partRequests := requests } files := by
  have htake := h.takePending
  have hnext := h.next_eq
  have hmem := fun p hp => gapParts_mem (p := p) (n := n) h hp
  unfold gapParts at hmem ⊢
  generalize hfresh : freshParts a.size a.downloadedFileSize (n - (pending a).length)
    (nextDownloadOffset a.takePending) = fresh at hmem ⊢
  refine ⟨(pending a ++ row) ++ fresh, {
    running := h.running
    size := h.size
    keyed := ⟨h.keyed.key, h.keyed.decryptedSize, h.keyed.given, h.keyed.running⟩
    unchecked := h.unchecked
    perm := ?_
    tiles := ?_
    one := Nat.zero_le 1
    inside := ?_
    unmarked := ?_
    data := ?_
    less := h.less
    block := h.block
    before := h.before
    partialFile := h.partialFile
    stored := h.stored }⟩
  · rw [← List.append_assoc]
    exact htake.perm.append_right fresh
  · refine (tiles_append (pending a ++ row) fresh a.downloadedFileSize).2 ⟨h.tiles, ?_⟩
    rw [← hnext, ← hfresh]
    exact freshParts_tiles _ _ (nextDownloadOffset_gt a.takePending).1
  · intro p (hp : p ∈ (pending a ++ row) ++ fresh)
    rcases List.mem_append.1 hp with hp | hp
    · exact h.inside p hp
    · exact (hmem p (List.mem_append_right _ hp)).1
  · intro p hp
    rcases List.mem_append.1 hp with hp | hp
    · exact htake.unmarked p hp
    · exact (hmem p (List.mem_append_right _ hp)).2.1
  · intro p hp data hdata
    rcases List.mem_append.1 hp with hp | hp
    · exact htake.data p hp data hdata
    · rw [(hmem p (List.mem_append_right _ hp)).2.2] at hdata
      cases hdata

theorem Requested.ask {a a' : Actor} {asked : List PartInfo} (h : Requested a)
    (hparts : a'.downloadingParts = a.downloadingParts ++ asked)
    (hrequests : a'.partRequests = a.partRequests ++ asked.map (partRequest a))
    (hactive : ∀ p ∈ asked, p.isActive)
    (hnodup : (a'.downloadingParts.map (·.partOffset)).Nodup) : Requested a' := by
  rw [hparts, List.map_append, List.nodup_append] at hnodup
  refine {
    part := ?_
    limit := ?_
    requested := ?_
    nodup := ?_ }
  · intro r hr
    rw [hparts]
    rw [hrequests] at hr
    rcases List.mem_append.1 hr with hr | hr
    · obtain ⟨p, hp, hp'⟩ := h.part r hr
      exact ⟨p, List.mem_append_left _ hp, hp'⟩
    · obtain ⟨p, hp, rfl⟩ := List.mem_map.1 hr
      exact ⟨p, List.mem_append_right _ hp, hactive p hp, rfl, rfl⟩
  · intro r hr
    rw [hrequests] at hr
    rcases List.mem_append.1 hr with hr | hr
    · exact h.limit r hr
    · obtain ⟨p, _, rfl⟩ := List.mem_map.1 hr
      rfl
  · intro p hp hwaits
    rw [hparts] at hp
    rw [hrequests, List.map_append, List.map_map]
    rcases List.mem_append.1 hp with hp | hp
    · exact List.mem_append_left _ (h.requested p hp hwaits)
    · exact List.mem_append_right _ (List.mem_map.2 ⟨p, hp, rfl⟩)
  · rw [hrequests, List.map_append, List.map_map, List.nodup_append]
    refine ⟨h.nodup, hnodup.2.1, ?_⟩
    intro x hx y hy
    obtain ⟨r, hr, rfl⟩ := List.mem_map.1 hx
    obtain ⟨q, hq, rfl⟩ := List.mem_map.1 hy
    obtain ⟨p, hp, _, hat, _⟩ := h.part r hr
    rw [← hat]
    exact hnodup.2.2 p.partOffset (List.mem_map_of_mem hp) q.partOffset (List.mem_map_of_mem hq)

/-- A download with short parts that runs, between two steps. -/
structure GapSettled (aes : Data → Equiv.Perm (BitVec 128)) (o : Options) (file : Data)
    (a : Actor) (files : Files) : Prop where
  core : ∃ row, GapCore aes o file row a files
  notReady : HeadNotReady a
  requests : Requested a
  worker : a.worker1 = false → a.worker1Requests ≠ 0 ∧ a.partRequests = []
  idle : a.hashRequest = none ∧ a.reupload = false ∧ a.isReuploading = false

/-- The states of a download with short parts. -/
inductive GapRight (aes : Data → Equiv.Perm (BitVec 128)) (o : Options) (file : Data)
    (w : World) : Prop where
  | running (settled : GapSettled aes o file w.actor w.files)
      (waits : w.actor.partRequests ≠ [] ∨ w.actor.worker1Requests ≠ 0)
  | completed (status : w.actor.status = .completed) (partialFile : w.files.partialFile = none)
      (stored : w.files.stored = some (plaintext aes o file))

/-- As long as the file is not complete, something is asked for. -/
theorem gap_asked (h : GapSettled aes o file a files) {n : Nat} (hnone : a.partRequests = []) :
    gapParts a (n + 1) ≠ [] := by
  obtain ⟨row, hcore⟩ := h.core
  have hnext := hcore.next_eq
  have hless := hcore.less
  have hsize := hcore.size
  intro hnil
  obtain ⟨hpending, hfresh⟩ := List.append_eq_nil_iff.1 hnil
  rw [hpending] at hfresh hnext
  have hend : a.size ≤ nextDownloadOffset a.takePending :=
    ((freshParts_eq_nil hfresh).resolve_left (Nat.succ_ne_zero n)).2
  have htiles := hcore.tiles
  rw [hpending] at htiles
  cases row with
  | nil =>
    rw [hnext] at hend
    change a.size ≤ a.downloadedFileSize at hend
    omega
  | cons q qs =>
    have hq : q ∈ a.downloadingParts := hcore.perm.mem_iff.1 (.head _)
    have hactive : q.isActive := by
      simp [PartInfo.isActive, h.notReady q hq htiles.1,
        hcore.unmarked q (.head _)]
    have hrequest := h.requests.requested q hq hactive
    rw [hnone] at hrequest
    cases hrequest

theorem requestParts_settled (h : GapSettled aes o file a files) (hworker : a.worker1 = true) :
    GapRight aes o file ⟨requestParts a, files⟩ := by
  obtain ⟨row, hcore⟩ := h.core
  cases hn : partLimit a - a.downloadingParts.countP (·.isActive) with
  | zero =>
    have hsame : requestParts a = a := by
      unfold requestParts
      dsimp only
      rw [hn]
      simp [requestLoop]
    rw [hsame]
    refine .running h (.inl fun hnil => ?_)
    have hlimit : 0 < partLimit a := by
      unfold partLimit
      split <;> decide
    obtain ⟨p, hp, hactive⟩ :=
      List.countP_pos_iff.1 (Nat.lt_of_lt_of_le hlimit (Nat.le_of_sub_eq_zero hn))
    have hmem := h.requests.requested p hp hactive
    rw [hnil] at hmem
    cases hmem
  | succ n =>
    rw [requestParts_gap hcore hn]
    obtain ⟨row', hcore'⟩ := core_of_gapParts hcore (n + 1)
      (a.partRequests ++ (gapParts a (n + 1)).map (partRequest a))
    refine .running ?_ (.inl ?_)
    · refine {
        core := ⟨row', hcore'⟩
        notReady := ?_
        requests := ?_
        worker := fun hfalse => ?_
        idle := h.idle }
      · intro p hp hat
        rcases List.mem_append.1 hp with hp | hp
        · exact h.notReady p hp hat
        · exact (gapParts_mem hcore hp).2.2
      · refine h.requests.ask rfl rfl (fun p hp => ?_) hcore'.nodup
        obtain ⟨_, hrestart, hdata⟩ := gapParts_mem hcore hp
        simp [PartInfo.isActive, hrestart, hdata]
      · exact absurd (hworker.symm.trans hfalse) (by decide)
    · intro hnil
      obtain ⟨hnone, hasked⟩ := List.append_eq_nil_iff.1 hnil
      exact gap_asked h hnone (List.map_eq_nil_iff.1 hasked)

/-- The last writes. -/
theorem complete_files (kind : Kind) (a : Actor) {data : Data}
    (hpart : files.partialFile = some data) (hstored : files.stored = none) :
    (files.applyAll (complete kind a).2).partialFile = none ∧
      (files.applyAll (complete kind a).2).stored = some data := by
  cases kind with
  | multipart =>
    have hcopied : files.stored.or files.partialFile = some data := by
      rw [hstored, Option.none_or, hpart]
    unfold complete
    cases a.runningEncryptionIv.isSome with
    | true => exact ⟨rfl, hcopied⟩
    | false => exact ⟨rfl, hcopied⟩
  | video =>
    have hmove : files.apply .moveToStore =
        { files with stored := files.partialFile, partialFile := none } := by
      unfold Files.apply
      rw [hstored]
      rfl
    unfold complete
    show (files.apply .moveToStore).partialFile = none ∧
      (files.apply .moveToStore).stored = some data
    rw [hmove]
    exact ⟨rfl, hpart⟩

/-- `downloadFileParts` when the last data are committed. -/
theorem downloadFileParts_ended (h : Ended aes o file a files) (hpos : file ≠ [])
    (hworker : a.worker1 = true) :
    GapRight aes o file
      ⟨(downloadFileParts kind a).1, files.applyAll (downloadFileParts kind a).2⟩ := by
  have hsize : a.size ≠ 0 := by
    rw [h.size]
    exact fun hzero => hpos (List.eq_nil_of_length_eq_zero hzero)
  have hend : a.size ≤ a.downloadedFileSize := (h.size.trans h.whole.symm).le
  have hsame : downloadFileParts kind a = complete kind a := by
    unfold downloadFileParts
    cases kind with
    | multipart =>
      rw [hworker, if_neg (by decide), if_pos ⟨hsize, hend⟩]
    | video => exact if_pos hend
  obtain ⟨hgone, hkept⟩ := complete_files kind a h.partialFile h.stored
  rw [hsame]
  exact .completed rfl hgone hkept

/-- `downloadFileParts` when data are missing. -/
theorem downloadFileParts_settled (h : GapSettled aes o file a files) :
    GapRight aes o file
      ⟨(downloadFileParts kind a).1, files.applyAll (downloadFileParts kind a).2⟩ := by
  obtain ⟨row, hcore⟩ := h.core
  have hsize := hcore.size
  have hless := hcore.less
  cases hworker : a.worker1 with
  | false =>
    have hsame : downloadFileParts kind a = (a, []) := by
      unfold downloadFileParts
      rw [hworker]
      cases kind with
      | multipart => rfl
      | video => exact (if_neg (by omega)).trans (if_pos rfl)
    rw [hsame]
    exact .running h (.inr (h.worker hworker).1)
  | true =>
    have hsame : downloadFileParts kind a = (requestParts a, []) := by
      unfold downloadFileParts
      rw [hworker, h.idle.2.2]
      cases kind with
      | multipart => exact (if_neg (by decide)).trans (if_neg (by omega))
      | video => exact (if_neg (by omega)).trans (if_neg (by decide))
    rw [hsame]
    exact requestParts_settled h hworker

end Requests

/-- A beginning of the range that is asked for, in whole blocks unless the file ends. -/
structure BeginningOf (file : Data) (r : PartRequest) (data : Data) : Prop where
  bytes : data = slice file r.offset data.length
  pos : 0 < data.length
  le : data.length ≤ r.limit
  block : data.length % 16 = 0 ∨ r.offset + data.length = file.length

/-- The answers of the server. -/
def AnswersBeginnings (file : Data) (a : Actor) : Event → Prop
  | .answered index answer =>
    match a.partRequests[index]? with
    | some r =>
      match answer with
      | .file bytes => BeginningOf file r bytes
      | _ => False
    | none => True
  | _ => True

/-- The data of an answer fill their part up. -/
def Filled (o : Options) (file : Data) (a : Actor) : Event → Prop
  | .answered index (.file bytes) =>
    match a.partRequests[index]? with
    | some r => Fills file r.offset r.length bytes.length ∧
        EndsBefore o file r.offset bytes.length
    | none => True
  | _ => True

instance (file : Data) (r : PartRequest) (data : Data) : Decidable (BeginningOf file r data) :=
  decidable_of_iff (data = slice file r.offset data.length ∧ 0 < data.length ∧
      data.length ≤ r.limit ∧ (data.length % 16 = 0 ∨ r.offset + data.length = file.length))
    ⟨fun h => ⟨h.1, h.2.1, h.2.2.1, h.2.2.2⟩, fun h => ⟨h.bytes, h.pos, h.le, h.block⟩⟩

instance (file : Data) (a : Actor) (event : Event) : Decidable (AnswersBeginnings file a event) := by
  rcases event with _ | _ | ⟨index, answer⟩ | _ | _
  case answered =>
    dsimp only [AnswersBeginnings]
    rcases a.partRequests[index]? with _ | r
    · exact instDecidableTrue
    · rcases answer with bytes | _ <;> dsimp only <;> infer_instance
  all_goals exact instDecidableTrue

instance (o : Options) (file : Data) (a : Actor) (event : Event) :
    Decidable (Filled o file a event) := by
  rcases event with _ | _ | ⟨index, bytes | _⟩ | _ | _
  case answered.file =>
    dsimp only [Filled, Fills, EndsBefore]
    rcases a.partRequests[index]? with _ | r <;> dsimp only <;> infer_instance
  all_goals exact instDecidableTrue

section Answers

variable {sha256 : Data → Data} {aes : Data → Equiv.Perm (BitVec 128)} {kind : Kind}
  {o : Options} {file : Data} {a : Actor} {files : Files}

/-- The data of a part are stored with it. -/
theorem storeData_gap {row : List PartInfo} (h : GapCore aes o file row a files) {offset : Nat}
    {data : Data}
    (hcommit : ∀ p ∈ row, p.partOffset = offset → Committable o file p data) :
    ∃ row', GapCore aes o file row' (storeData a offset data) files := by
  obtain ⟨hpending, htiles⟩ := (tiles_append _ _ _).1 h.tiles
  refine ⟨row.map fun p =>
      if p.partOffset = offset then { p with downloadedData := some data } else p, {
    running := h.running
    size := h.size
    keyed := ⟨h.keyed.key, h.keyed.decryptedSize, h.keyed.given, h.keyed.running⟩
    unchecked := h.unchecked
    perm := h.perm.map _
    tiles := (tiles_append _ _ _).2 ⟨hpending, ?_⟩
    one := h.one
    inside := ?_
    unmarked := ?_
    data := ?_
    less := h.less
    block := h.block
    before := h.before
    partialFile := h.partialFile
    stored := h.stored }⟩
  · refine (tiles_map ?_ ?_ row _).2 htiles
    · intro p
      split <;> rfl
    · intro p
      split <;> rfl
  · intro p hp
    rcases List.mem_append.1 hp with hp | hp
    · exact h.inside p (List.mem_append_left _ hp)
    · obtain ⟨q, hq, rfl⟩ := List.mem_map.1 hp
      have hinside := h.inside q (List.mem_append_right _ hq)
      split <;> exact hinside
  · intro p hp
    obtain ⟨q, hq, rfl⟩ := List.mem_map.1 hp
    have hrestart := h.unmarked q hq
    split <;> exact hrestart
  · intro p hp data' hdata
    obtain ⟨q, hq, rfl⟩ := List.mem_map.1 hp
    split at hdata
    · rename_i hat
      cases hdata
      have hq' := hcommit q hq hat
      rw [if_pos hat]
      exact ⟨hq'.bytes, hq'.pos, hq'.block, hq'.fills, hq'.before⟩
    · rename_i hat
      rw [if_neg hat]
      exact h.data q hq data' hdata

theorem filePartDownloadSuccess_eq (hsize : a.size ≠ 0) {offset : Nat}
    (hfound : (a.part offset).isSome) (length : Nat) (data : Data) :
    filePartDownloadSuccess sha256 aes kind a offset length data =
      let b := storeData a offset data
      let (c, ops) := commitLoop sha256 aes kind (sortedDownloadingParts b)
        (b.downloadingParts.length + 1) b
      if c.status = .failed then (c, ops)
      else
        let (d, ops') := downloadFileParts kind c
        (d, ops ++ ops') := by
  have hknown : ¬ (kind = .multipart ∧ a.size = 0 ∧ data.length < length) :=
    fun hzero => hsize hzero.2.1
  simp only [filePartDownloadSuccess, if_neg hknown, if_pos hfound]

theorem filePartDownloadSuccess_gap (hblocks : o.encryption ≠ none → file.length % 16 = 0)
    (h : GapSettled aes o file a files) {index : Nat} {r : PartRequest}
    (hr : a.partRequests[index]? = some r) {bytes : Data} (hbytes : BeginningOf file r bytes)
    (hfills : Fills file r.offset r.length bytes.length)
    (hover : EndsBefore o file r.offset bytes.length) {next : Actor × List FileOp}
    (hnext : filePartDownloadSuccess sha256 aes kind
      { a with partRequests := a.partRequests.eraseIdx index } r.offset r.length bytes = next) :
    GapRight aes o file ⟨next.1, files.applyAll next.2⟩ := by
  obtain ⟨row, hcore⟩ := h.core
  have hless := hcore.less
  have hsize := hcore.size
  obtain ⟨p, hp, hactive, hat, hlength⟩ := h.requests.part r (List.mem_of_getElem? hr)
  have hworker : a.worker1 = true := by
    cases hworker : a.worker1 with
    | true => rfl
    | false =>
      rw [(h.worker hworker).2] at hr
      cases hr
  have hcoreB : GapCore aes o file row { a with partRequests := a.partRequests.eraseIdx index }
      files :=
    ⟨hcore.running, hcore.size,
      ⟨hcore.keyed.key, hcore.keyed.decryptedSize, hcore.keyed.given, hcore.keyed.running⟩,
      hcore.unchecked, hcore.perm, hcore.tiles, hcore.one, hcore.inside, hcore.unmarked,
      hcore.data, hcore.less, hcore.block, hcore.before, hcore.partialFile, hcore.stored⟩
  have hcommit : ∀ q ∈ row, q.partOffset = r.offset → Committable o file q bytes := by
    intro q hq hqat
    have hsame : q = p := hcore.tiles.inj (List.mem_append_right _ hq)
      (List.mem_append_right _ (hcore.perm.mem_iff.2 hp)) (hqat.trans hat.symm)
    subst hsame
    rw [← hat] at hfills hover
    rw [← hlength] at hfills
    refine ⟨?_, hbytes.pos, ?_, hfills, hover⟩
    · rw [hat]
      exact hbytes.bytes
    · rw [hat]
      exact hbytes.block
  obtain ⟨row', hstore⟩ := storeData_gap hcoreB hcommit
  have hstored : Requested (storeData { a with partRequests := a.partRequests.eraseIdx index }
      r.offset bytes) := by
    refine h.requests.answered hr rfl rfl ?_ ?_
    · intro q hq
      exact if_neg hq
    · intro q hq
      rw [if_pos hq]
      rfl
  have hfound : (Actor.part { a with partRequests := a.partRequests.eraseIdx index }
      r.offset).isSome := List.find?_isSome.2 ⟨p, hp, by simp [hat]⟩
  rw [filePartDownloadSuccess_eq (by rw [hcoreB.size]; omega) hfound] at hnext
  dsimp only at hnext
  generalize hb : storeData { a with partRequests := a.partRequests.eraseIdx index } r.offset
    bytes = b at hnext hstore hstored
  generalize hcommits : commitLoop sha256 aes kind (sortedDownloadingParts b)
    (b.downloadingParts.length + 1) b = c at hnext
  obtain ⟨⟨row'', hleft⟩, hnot, hcommits⟩ :=
    commitLoop_gap hblocks hstore b.downloadingParts.length hcommits
  have hruns : c.1.status = .running := hleft.elim GapCore.running Ended.running
  rw [if_neg (by rw [hruns]; decide)] at hnext
  obtain ⟨n, parts, gaps, iv, hsub, hkeeps, hc⟩ := hcommits
  have hworker' : c.1.worker1 = true := by
    rw [hc, ← hb]
    exact hworker
  subst hnext
  dsimp only
  rw [applyAll_append]
  rcases hleft with hcore' | hended
  · refine downloadFileParts_settled ⟨⟨row'', hcore'⟩, hnot, ?_, ?_, ?_⟩
    · exact hstored.keeps (by rw [hc]) (by rw [hc]; exact hsub) (by rw [hc]; exact hkeeps)
    · intro hfalse
      exact absurd (hworker'.symm.trans hfalse) (by decide)
    · rw [hc, ← hb]
      exact h.idle
  · refine downloadFileParts_ended hended ?_ hworker'
    rintro rfl
    exact absurd hless (Nat.not_lt_zero _)

theorem GapSettled.congr {a' : Actor} (h : GapSettled aes o file a files) (hsame : SameFile a a')
    (hunchecked : a'.cdnFilePartHashes = a.cdnFilePartHashes)
    (hparts : a'.downloadingParts = a.downloadingParts)
    (hrequests : a'.partRequests = a.partRequests)
    (hworker : a'.worker1 = false → a'.worker1Requests ≠ 0 ∧ a'.partRequests = [])
    (hidle : a'.hashRequest = none ∧ a'.reupload = false ∧ a'.isReuploading = false) :
    GapSettled aes o file a' files := by
  obtain ⟨row, hcore⟩ := h.core
  have hpending : pending a' = pending a := by
    unfold pending
    rw [hsame.explicitDownloadParts]
  refine {
    core := ⟨row, {
      running := hsame.status.trans hcore.running
      size := hsame.size.trans hcore.size
      keyed := ⟨hsame.encryptionKey.trans hcore.keyed.key,
        hsame.decryptedSize.trans hcore.keyed.decryptedSize, ?_, ?_⟩
      unchecked := hunchecked.trans hcore.unchecked
      perm := by rw [hparts]; exact hcore.perm
      tiles := by rw [hpending, hsame.downloadedFileSize]; exact hcore.tiles
      one := by rw [hsame.explicitDownloadParts]; exact hcore.one
      inside := by rw [hpending]; exact hcore.inside
      unmarked := hcore.unmarked
      data := hcore.data
      less := by rw [hsame.downloadedFileSize]; exact hcore.less
      block := by rw [hsame.downloadedFileSize]; exact hcore.block
      before := by rw [hsame.downloadedFileSize]; exact hcore.before
      partialFile := by rw [hsame.downloadedFileSize]; exact hcore.partialFile
      stored := hcore.stored }⟩
    notReady := ?_
    requests := ?_
    worker := hworker
    idle := hidle }
  · rw [hsame.runningEncryptionIv]
    exact hcore.keyed.given
  · rw [hsame.runningEncryptionIv, hsame.downloadedFileSize]
    exact hcore.keyed.running
  · unfold HeadNotReady
    rw [hparts, hsame.downloadedFileSize]
    exact h.notReady
  · exact h.requests.keeps hrequests (by rw [hparts]; exact fun p hp => hp)
      (by rw [hparts]; exact fun p hp _ => hp)

theorem step_gap (hblocks : o.encryption ≠ none → file.length % 16 = 0) {w : World}
    (h : GapRight aes o file w) {event : Event}
    (hanswer : AnswersBeginnings file w.actor event) (hfilled : Filled o file w.actor event) :
    GapRight aes o file (step sha256 aes kind w event) := by
  unfold step actorStep
  have hfirst := h
  cases h with
  | completed hstatus _ _ =>
    rw [if_neg (by rw [hstatus]; decide)]
    exact hfirst
  | running hsettled hwaits =>
    obtain ⟨row, hcore⟩ := hsettled.core
    rw [if_pos hcore.running]
    cases event with
    | worker1 =>
      unfold runningStep
      dsimp only
      split
      · exact hfirst
      · apply downloadFileParts_settled
        exact hsettled.congr ⟨rfl, rfl, rfl, rfl, rfl, rfl, rfl⟩ rfl rfl rfl
          (fun hfalse => by cases hfalse) hsettled.idle
    | worker2 =>
      unfold runningStep
      dsimp only
      split
      · exact hfirst
      · apply downloadFileParts_settled
        exact hsettled.congr ⟨rfl, rfl, rfl, rfl, rfl, rfl, rfl⟩ rfl rfl rfl hsettled.worker
          hsettled.idle
    | answered index answer =>
      unfold AnswersBeginnings at hanswer
      unfold runningStep
      dsimp only at hanswer ⊢
      cases hr : w.actor.partRequests[index]? with
      | none => exact hfirst
      | some r =>
        rw [hr] at hanswer
        cases answer with
        | file bytes =>
          unfold Filled at hfilled
          dsimp only at hfilled
          rw [hr] at hfilled
          exact filePartDownloadSuccess_gap hblocks hsettled hr hanswer hfilled.1
            hfilled.2 rfl
        | _ => exact hanswer.elim
    | hashesReceived hashes =>
      unfold runningStep hashesReceived
      rw [hsettled.idle.1]
      exact hfirst
    | reuploaded =>
      unfold runningStep
      rw [hsettled.idle.2.1]
      exact hfirst

end Answers

/-- The contents are written, and as long as they are not, a request is out. -/
structure Fetches (aes : Data → Equiv.Perm (BitVec 128)) (o : Options) (file : Data)
    (w : World) : Prop where
  correct : Correct aes o file w
  unfailed : w.actor.status ≠ .failed
  waits : w.actor.status = .running → w.actor.partRequests ≠ [] ∨ w.actor.worker1Requests ≠ 0

section Runs

variable {aes : Data → Equiv.Perm (BitVec 128)} {kind : Kind} {o : Options} {file : Data}

theorem GapRight.fetches {w : World} (h : GapRight aes o file w) : Fetches aes o file w := by
  cases h with
  | running hsettled hwaits =>
    obtain ⟨row, hcore⟩ := hsettled.core
    refine ⟨⟨prefix_of_begun hcore.partialFile, stored_eq (.inl hcore.stored), ?_, ?_⟩, ?_,
      fun _ => hwaits⟩
    · intro hstatus
      rw [hcore.running] at hstatus
      cases hstatus
    · intro hnone
      exact absurd (hwaits.imp id .inl) hnone
    · rw [hcore.running]
      decide
  | completed hstatus hgone hstored =>
    refine ⟨⟨?_, stored_eq (.inr hstored), fun _ => hstored, fun _ => ?_⟩, ?_, ?_⟩
    · intro data hdata
      rw [hgone] at hdata
      cases hdata
    · rw [hstatus]
      decide
    · rw [hstatus]
      decide
    · intro hruns
      rw [hstatus] at hruns
      cases hruns

/-- A download starts without parts. -/
theorem start_gap (hserved : Served kind o file) (hsize : o.size ≠ 0) {files : Files}
    (hnew : files.partialFile = none) (hstored : files.stored = none)
    (hinfo : kind = .multipart → storedIv files = none) :
    GapRight aes o file (start kind o files) := by
  have hknown : o.size = file.length := hserved.size.resolve_right fun hzero => hsize hzero.2
  have hdisk : Disk aes kind o file files :=
    .unusable (isUnusable_of_none hnew) (.inl hstored)
  obtain ⟨hpart, hcount, hiv, hkept⟩ := execute_files kind o files
  have hcore := resumed_core hserved hdisk (fun _ => hstored) (resumable_of_new hnew hinfo) hpart
    hcount hiv hkept
  have hzero : resumeOffset kind o files = 0 := if_pos (isUnusable_of_none hnew)
  show GapRight aes o file ⟨(execute kind o files).1, files.applyAll (execute kind o files).2⟩
  rw [(execute_eq kind o files).1]
  rw [hzero] at hcore ⊢
  refine .running {
    core := ⟨[], {
      running := rfl
      size := hknown
      keyed := hcore.keyed
      unchecked := rfl
      perm := List.Perm.refl []
      tiles := trivial
      one := Nat.zero_le 1
      inside := fun p hp => by cases hp
      unmarked := fun p hp => by cases hp
      data := fun p hp => by cases hp
      less := by dsimp only; omega
      block := rfl
      before := fun _ _ => Nat.zero_le _
      partialFile := hcore.partialFile
      stored := hkept.trans hstored }⟩
    notReady := fun p hp => by cases hp
    requests := {
      part := fun r hr => by cases hr
      limit := fun r hr => by cases hr
      requested := fun p hp => by cases hp
      nodup := List.nodup_nil }
    worker := fun _ => ⟨Nat.one_ne_zero, rfl⟩
    idle := ⟨rfl, rfl, rfl⟩ } (.inr Nat.one_ne_zero)

end Runs

/-- In every run whose answers are beginnings of the ranges and fill their parts up, a download
writes the file, and has a request out until it is complete. -/
theorem fills_gaps (sha256 : Data → Data) (aes : Data → Equiv.Perm (BitVec 128)) (kind : Kind)
    (o : Options) (file : Data) (hserved : Served kind o file) (hsize : o.size ≠ 0)
    (files : Files) (hnew : files.partialFile = none) (hstored : files.stored = none)
    (hinfo : kind = .multipart → storedIv files = none) (events : List Event)
    (hanswers : Guarded (step sha256 aes kind) (fun w => AnswersBeginnings file w.actor)
      (start kind o files) events)
    (hfilled : Guarded (step sha256 aes kind) (fun w => Filled o file w.actor)
      (start kind o files) events) :
    Fetches aes o file (run (step sha256 aes kind) (start kind o files) events) := by
  refine GapRight.fetches (guarded_invariant ?_ events _ (hanswers.and hfilled)
    (start_gap hserved hsize hnew hstored hinfo))
  intro w event hg hright
  exact step_gap hserved.blocks hright hg.1 hg.2

/-- The first block of a file of three blocks is answered, and then the rest. -/
theorem fetches_rest :
    (run (step (fun _ => []) (fun _ => Equiv.refl _) .video)
      (start .video { size := 48 } {})
      [.worker1, .answered 0 (.file (List.replicate 16 7)),
        .answered 0 (.file (List.replicate 32 7))]).files.stored = some (List.replicate 48 7) :=
  (fills_gaps (fun _ => []) (fun _ => Equiv.refl _) .video { size := 48 } (List.replicate 48 7)
    ⟨.inl rfl, fun hno => absurd rfl hno⟩ (by decide) {} rfl rfl (fun _ => rfl) _
    (by decide +kernel) (by decide +kernel)).correct.completed (by decide +kernel)

/-! ## A part that is not filled up -/

/-- The second part is answered with a block. -/
def secondAnswer : List Event :=
  [.worker1, .worker2, .answered 1 (.file (List.replicate 16 0))]

/-- The second part of a file of 131088 bytes is answered. -/
def secondAnswered (kind : Kind) : World :=
  run (step (fun _ => []) (fun _ => Equiv.refl _) kind) (start kind { size := 131088 } {})
    secondAnswer

/-- The first part is waited for, and the second has its data. -/
theorem secondAnswered_actor (kind : Kind) :
    (secondAnswered kind).actor =
      { size := 131088
        decryptedSize := 0
        encryptionKey := none
        runningEncryptionIv := none
        downloadedFileSize := 0
        downloadingParts :=
          [{ partOffset := 0, partLength := 131072 },
            { partOffset := 131072, partLength := 131072,
              downloadedData := some (List.replicate 16 0) }]
        worker1 := true
        worker2 := true
        worker1Requests := 0
        worker2Requests := 0
        partRequests := [{ offset := 0, length := 131072, limit := 131072, cdnToken := none }] } := by
  cases kind <;> rfl

theorem step_actor (sha256 : Data → Data) (aes : Data → Equiv.Perm (BitVec 128)) (kind : Kind)
    (w : World) (event : Event) :
    (step sha256 aes kind w event).actor = (actorStep sha256 aes kind w.actor event).1 :=
  rfl

/-- With half of the first part and a block more, no request for the rest is made. -/
theorem half_part_stalls (kind : Kind) {data : Data} (hlength : data.length = 65552) {w : World}
    (hw : step (fun _ => []) (fun _ => Equiv.refl _) kind (secondAnswered kind)
      (.answered 0 (.file data)) = w) :
    w.actor.status = .running ∧ ¬ Outstanding w.actor := by
  rw [← hw, step_actor, secondAnswered_actor]
  cases kind <;>
    simp [actorStep, runningStep, answered, filePartDownloadSuccess, Actor.part, storeData,
      sortedDownloadingParts, commitLoop, commitPass, commitPart, decryptPart, hashesMatch,
      downloadFileParts, requestParts, requestLoop, partLimit, PartInfo.isActive,
      nextDownloadOffset, restartList, Actor.clearRestart, Outstanding, hlength]

theorem beginningOf_zeros {n k : Nat} {r : PartRequest} (hpos : 0 < k) (hle : k ≤ r.limit)
    (hwithin : r.offset + k ≤ n) (hblock : k % 16 = 0) :
    BeginningOf (List.replicate n 0) r (List.replicate k 0) := by
  refine {
    bytes := ?_
    pos := by rw [List.length_replicate]; exact hpos
    le := by rw [List.length_replicate]; exact hle
    block := .inl (by rw [List.length_replicate]; exact hblock) }
  unfold slice
  rw [List.length_replicate, List.drop_replicate, List.take_replicate, min_eq_left (by omega)]

theorem answersBeginnings_of {file : Data} {a : Actor} {index : Nat} {r : PartRequest}
    (hr : a.partRequests[index]? = some r) {bytes : Data} (h : BeginningOf file r bytes) :
    AnswersBeginnings file a (.answered index (.file bytes)) := by
  unfold AnswersBeginnings
  dsimp only
  rw [hr]
  exact h

/-- Answers that are beginnings of the ranges can leave an actor that runs and waits for
nothing. -/
theorem short_part_stalls :
    ∃ (file : Data) (o : Options) (events : List Event), ∀ kind,
      Served kind o file ∧ o.size ≠ 0 ∧
        Guarded (step (fun _ => []) (fun _ => Equiv.refl _) kind)
          (fun w => AnswersBeginnings file w.actor) (start kind o {}) events ∧
        ¬ Correct (fun _ => Equiv.refl _) o file
          (run (step (fun _ => []) (fun _ => Equiv.refl _) kind) (start kind o {}) events) := by
  refine ⟨List.replicate 131088 0, { size := 131088 },
    secondAnswer ++ [.answered 0 (.file (List.replicate 65552 0))], fun kind => ?_⟩
  generalize hdata : List.replicate 65552 (0 : UInt8) = data
  refine ⟨?_, ?_, ?_, ?_⟩
  · exact ⟨.inl (by rw [List.length_replicate]), fun hno => absurd rfl hno⟩
  · decide
  · have hsecond : (run (step (fun _ => []) (fun _ => Equiv.refl _) kind)
        (start kind { size := 131088 } {}) [.worker1, .worker2]).actor.partRequests[1]? =
          some { offset := 131072, length := 131072, limit := 131072, cdnToken := none } := by
      cases kind <;> rfl
    have hfirst : (secondAnswered kind).actor.partRequests[0]? =
        some { offset := 0, length := 131072, limit := 131072, cdnToken := none } := by
      rw [secondAnswered_actor]
      rfl
    rw [guarded_append]
    refine ⟨⟨trivial, trivial, ?_, trivial⟩, ?_, trivial⟩
    · exact answersBeginnings_of hsecond
        (beginningOf_zeros (by decide) (by decide) (by decide) (by decide))
    · rw [← hdata]
      exact answersBeginnings_of hfirst
        (beginningOf_zeros (by decide) (by decide) (by decide) (by decide))
  · rw [run_append, run_cons, run_nil]
    have hlength : data.length = 65552 := by rw [← hdata, List.length_replicate]
    generalize hw : step _ _ _ _ _ = w
    intro hcorrect
    obtain ⟨hruns, hnone⟩ := half_part_stalls kind hlength hw
    exact hcorrect.noStall hnone hruns

end TelegramPub.Ports.PartDownload
