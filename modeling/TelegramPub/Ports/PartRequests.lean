import TelegramPub.Ports.PartCommits

/-!
# Requests for parts

Between two steps each part that is waited for has one part request, and no other
request is out.  `downloadFileParts_spec` says what `downloadFileParts` makes of such a
state: it completes the file, or something is outstanding.  There the parts that are
marked with `restart` are asked for again.
-/

namespace TelegramPub.Ports.PartDownload

open Verified.Bytes

/-- The actor waits for something. -/
def Outstanding (a : Actor) : Prop :=
  a.partRequests ≠ [] ∨ a.worker1Requests ≠ 0 ∨ a.worker2Requests ≠ 0 ∨
    a.hashRequest.isSome ∨ a.reupload

instance (a : Actor) : Decidable (Outstanding a) := by
  unfold Outstanding
  infer_instance

/-- The part requests are those for the parts that are waited for. -/
structure Requested (a : Actor) : Prop where
  part : ∀ r ∈ a.partRequests, ∃ p ∈ a.downloadingParts,
    p.isActive ∧ p.partOffset = r.offset ∧ p.partLength = r.length
  limit : ∀ r ∈ a.partRequests, r.limit = updatedLimit r.length
  requested : ∀ p ∈ a.downloadingParts, p.isActive →
    p.partOffset ∈ a.partRequests.map (·.offset)
  nodup : (a.partRequests.map (·.offset)).Nodup

/-- A download that runs, between two steps. -/
structure Settled (aes : Data → Equiv.Perm (BitVec 128)) (kind : Kind) (o : Options)
    (file : Data) (a : Actor) (files : Files) : Prop where
  core : Core aes kind o file a files
  notReady : HeadNotReady a
  requests : Requested a
  worker : a.worker1 = false → a.worker1Requests ≠ 0
  reuploading : a.isReuploading → a.reupload

/-- The states of a download that are right.  `L` says whether it is to be alive, that is,
to wait for something as long as it runs. -/
inductive Right (aes : Data → Equiv.Perm (BitVec 128)) (kind : Kind) (o : Options)
    (file : Data) (L : Prop) (w : World) : Prop where
  | running (settled : Settled aes kind o file w.actor w.files)
      (waits : L → Outstanding w.actor)
  | failed (status : w.actor.status = .failed) (stopped : Stopped aes o file w.files)
      (disk : Disk aes kind o file w.files)
  | completed (status : w.actor.status = .completed) (partialFile : w.files.partialFile = none)
      (stored : w.files.stored = some (plaintext aes o file))

section Rows

variable {aes : Data → Equiv.Perm (BitVec 128)} {kind : Kind} {o : Options} {file : Data} {L : Prop}

variable {a : Actor} {files : Files}

/-- The row of parts, from the end of what is written on. -/
theorem Core.nextRow (h : Core aes kind o file a files) :
    ∃ start, Tiles start a.downloadingParts ∧
      (start = a.downloadedFileSize ∨
        a.downloadedFileSize = file.length ∧ a.downloadedFileSize ≤ start) ∧
      nextDownloadOffset a = tilesEnd start a.downloadingParts := by
  obtain ⟨start, htiles, hstart⟩ := h.row
  by_cases hnil : a.downloadingParts = []
  · refine ⟨a.downloadedFileSize, ?_, .inl rfl, ?_⟩
    · rw [hnil]
      trivial
    · unfold nextDownloadOffset
      rw [hnil]
      rfl
  · exact ⟨start, htiles, hstart, nextDownloadOffset_eq htiles (by omega) hnil⟩

theorem tilesEnd_placed (hcut : CutsLastPart o file) (parts : List PartInfo) :
    ∀ start, Tiles start parts → Placed o file start → (∀ p ∈ parts, PartOk o file p) →
      Placed o file (tilesEnd start parts) := by
  induction parts with
  | nil => intro start _ hplaced _; exact hplaced
  | cons p ps ih =>
    intro start htiles _ hparts
    rw [tilesEnd_cons]
    apply ih _ htiles.2.2
    · rw [← htiles.1]
      exact (hparts p (.head _)).next hcut
    · exact fun q hq => hparts q (.tail p hq)

variable {n : Nat}

theorem freshParts_cons {size d next : Nat} (h : ¬ (size ≠ 0 ∧ size ≤ next)) :
    ∃ p : PartInfo, p.partOffset = next ∧
      freshParts size d (n + 1) next = p :: freshParts size d n (next + p.partLength) := by
  rw [freshParts, if_neg h]
  exact ⟨_, rfl, rfl⟩

theorem freshParts_ok (hcut : CutsLastPart o file) {size downloadedFileSize : Nat}
    (hsize : size = file.length ∨ size = 0) (n : Nat) :
    ∀ next, downloadedFileSize ≤ next → Placed o file next →
      ∀ p ∈ freshParts size downloadedFileSize n next, PartOk o file p := by
  induction n with
  | zero => intro next _ _ p hp; cases hp
  | succ n ih =>
    intro next hle hplaced p hp
    have hmem := freshParts_mem size (n + 1) next hle
    by_cases hend : size ≠ 0 ∧ size ≤ next
    · rw [freshParts, if_pos hend] at hp
      cases hp
    · obtain ⟨q, hq, hfresh⟩ := freshParts_cons (d := downloadedFileSize) (n := n) hend
      rw [hfresh] at hp hmem
      obtain ⟨_, _, hdata, _, _, hlength, hfull⟩ := hmem q (.head _)
      have hok : PartOk o file q := by
        refine ⟨hq ▸ hplaced, hlength, ?_, fun data hsome => by rw [hdata] at hsome; cases hsome⟩
        rcases hfull with hwhole | ⟨hne, hover⟩
        · exact .inl hwhole
        · exact .inr (by omega)
      rcases List.mem_cons.1 hp with rfl | hp
      · exact hok
      · apply ih _ (by omega) _ p hp
        rw [← hq]
        exact hok.next hcut

/-- The request for a part. -/
def partRequest (a : Actor) (p : PartInfo) : PartRequest :=
  { offset := p.partOffset, length := p.partLength, limit := updatedLimit p.partLength,
    cdnToken := a.cdnFileData.map (·.token) }

/-- The parts that `requestParts` asks for: the marked ones, and new ones. -/
def askedParts (a : Actor) (n : Nat) : List PartInfo :=
  a.downloadingParts.filter (·.restart) ++
    freshParts a.size a.downloadedFileSize n (nextDownloadOffset a)

/-- What `requestParts` does when there is room for `n` parts. -/
theorem requestParts_eq (h : Core aes kind o file a files)
    (hnot : ¬ (a.size ≠ 0 ∧ a.size ≤ a.downloadedFileSize))
    (hn : partLimit a - a.downloadingParts.countP (·.isActive) = n) (hroom : n ≠ 0) :
    requestParts a =
      { a with
        downloadingParts := a.downloadingParts.map ({ · with restart := false }) ++
          freshParts a.size a.downloadedFileSize n (nextDownloadOffset a)
        partRequests := a.partRequests ++ (askedParts a n).map (partRequest a) } := by
  obtain ⟨start, htiles, _⟩ := h.row
  unfold requestParts
  dsimp only
  rw [hn, requestLoop_eq hroom a [] h.explicitParts (fun p hp => (htiles.mem p hp).2.1)
    (fun hne => by omega)]
  simp only [List.nil_append, restartList, List.map_append, List.map_map, askedParts]
  rfl

theorem mem_parts_of_asked {p : PartInfo} (hp : p ∈ askedParts a n) :
    (p ∈ a.downloadingParts ∧ p.restart = true) ∨
      p ∈ freshParts a.size a.downloadedFileSize n (nextDownloadOffset a) := by
  rcases List.mem_append.1 hp with hp | hp
  · exact .inl (List.mem_filter.1 hp)
  · exact .inr hp

theorem askedParts_nodup (h : Core aes kind o file a files) (hrequests : Requested a) (n : Nat) :
    ((a.partRequests ++ (askedParts a n).map (partRequest a)).map (·.offset)).Nodup := by
  obtain ⟨start, htiles, _⟩ := h.row
  obtain ⟨hdownloaded, hbehind⟩ := nextDownloadOffset_gt a
  have hfresh := freshParts_mem a.size n _ hdownloaded
  have hasked : ((askedParts a n).map (·.partOffset)).Nodup := by
    unfold askedParts
    rw [List.map_append, List.nodup_append]
    refine ⟨?_, (freshParts_tiles n _ hdownloaded).nodup, ?_⟩
    · exact htiles.nodup.sublist (List.filter_sublist.map _)
    · intro x hx y hy
      obtain ⟨p, hp, rfl⟩ := List.mem_map.1 hx
      obtain ⟨q, hq, rfl⟩ := List.mem_map.1 hy
      have hp' := List.mem_of_mem_filter hp
      have hend := hbehind p hp'
      have hpos := (htiles.mem p hp').2.1
      have hnext := (hfresh q hq).1
      omega
  rw [List.map_append, List.map_map, List.nodup_append]
  refine ⟨hrequests.nodup, hasked, ?_⟩
  intro x hx y hy heq
  obtain ⟨r, hr, rfl⟩ := List.mem_map.1 hx
  obtain ⟨q, hq, rfl⟩ := List.mem_map.1 hy
  obtain ⟨p, hp, hactive, hoffset, _⟩ := hrequests.part r hr
  have heq' : p.partOffset = q.partOffset := hoffset.trans heq
  rcases mem_parts_of_asked hq with ⟨hq, hrestart⟩ | hq
  · rw [htiles.inj hp hq heq'] at hactive
    simp [PartInfo.isActive, hrestart] at hactive
  · have hend := hbehind p hp
    have hpos := (htiles.mem p hp).2.1
    have hnext := (hfresh q hq).1
    omega

theorem restart_of_data {p : PartInfo} (h : PartOk o file p) (hrestart : p.restart = true) :
    p.downloadedData = none := by
  cases hdata : p.downloadedData with
  | none => rfl
  | some data =>
    rw [(h.data data hdata).1] at hrestart
    cases hrestart

theorem requested_of_asked {a' : Actor} (h : Core aes kind o file a files) (hrequests : Requested a)
    (hparts : a'.downloadingParts = a.downloadingParts.map ({ · with restart := false }) ++
      freshParts a.size a.downloadedFileSize n (nextDownloadOffset a))
    (hasked : a'.partRequests = a.partRequests ++ (askedParts a n).map (partRequest a)) :
    Requested a' := by
  obtain ⟨hdownloaded, _⟩ := nextDownloadOffset_gt a
  have hfresh := freshParts_mem a.size n _ hdownloaded
  have hcleared : ∀ p ∈ a.downloadingParts, { p with restart := false } ∈ a'.downloadingParts := by
    intro p hp
    rw [hparts]
    exact List.mem_append_left _ (List.mem_map_of_mem hp)
  refine {
    part := ?_
    limit := ?_
    requested := ?_
    nodup := by rw [hasked]; exact askedParts_nodup h hrequests n }
  · intro r hr
    rw [hasked] at hr
    rcases List.mem_append.1 hr with hr | hr
    · obtain ⟨p, hp, hactive, hoffset, hlength⟩ := hrequests.part r hr
      have hdata : p.downloadedData.isNone = true := (Bool.and_eq_true_iff.1 hactive).1
      exact ⟨_, hcleared p hp, by simp [PartInfo.isActive, hdata], hoffset, hlength⟩
    · obtain ⟨p, hp, rfl⟩ := List.mem_map.1 hr
      rcases mem_parts_of_asked hp with ⟨hp, hrestart⟩ | hp
      · have hdata := restart_of_data (h.parts p hp) hrestart
        exact ⟨_, hcleared p hp, by simp [PartInfo.isActive, hdata], rfl, rfl⟩
      · refine ⟨p, by rw [hparts]; exact List.mem_append_right _ hp, ?_, rfl, rfl⟩
        obtain ⟨_, _, hdata, hrestart, _⟩ := hfresh p hp
        simp [PartInfo.isActive, hdata, hrestart]
  · intro r hr
    rw [hasked] at hr
    rcases List.mem_append.1 hr with hr | hr
    · exact hrequests.limit r hr
    · obtain ⟨p, _, rfl⟩ := List.mem_map.1 hr
      rfl
  · intro p' hp' hactive
    rw [hasked, List.map_append, List.map_map, List.mem_append]
    rw [hparts] at hp'
    rcases List.mem_append.1 hp' with hp' | hp'
    · obtain ⟨p, hp, rfl⟩ := List.mem_map.1 hp'
      cases hrestart : p.restart with
      | true =>
        refine .inr (List.mem_map.2 ⟨p, ?_, rfl⟩)
        exact List.mem_append_left _ (List.mem_filter.2 ⟨hp, hrestart⟩)
      | false =>
        have hdata : p.downloadedData.isNone = true := (Bool.and_eq_true_iff.1 hactive).1
        exact .inl (hrequests.requested p hp (by simp [PartInfo.isActive, hdata, hrestart]))
    · exact .inr (List.mem_map.2 ⟨p', List.mem_append_right _ hp', rfl⟩)

theorem core_of_asked (hcut : CutsLastPart o file) (h : Core aes kind o file a files) (n : Nat)
    (requests : List PartRequest) :
    Core aes kind o file
      { a with
        downloadingParts := a.downloadingParts.map ({ · with restart := false }) ++
          freshParts a.size a.downloadedFileSize n (nextDownloadOffset a)
        partRequests := requests } files := by
  obtain ⟨start, htiles, hstart, hnext⟩ := h.nextRow
  obtain ⟨hdownloaded, _⟩ := nextDownloadOffset_gt a
  have hplaced : Placed o file (nextDownloadOffset a) := by
    rw [hnext]
    refine tilesEnd_placed hcut _ start htiles ?_ h.parts
    rcases hstart with rfl | ⟨hend, hle⟩
    · exact h.placed
    · intro hlt
      omega
  refine {
    running := h.running
    size := h.size
    keyed := ⟨h.keyed.key, h.keyed.decryptedSize, h.keyed.given, h.keyed.running⟩
    explicitParts := h.explicitParts
    row := ⟨start, ?_, hstart⟩
    parts := ?_
    downloaded_le := h.downloaded_le
    placed := h.placed
    partialFile := h.partialFile
    info := h.info
    stored := h.stored }
  · have hcleared := (tiles_map (f := ({ · with restart := false })) (fun _ => rfl) (fun _ => rfl)
      a.downloadingParts start).2 htiles
    refine (tiles_append _ _ start).2 ⟨hcleared, ?_⟩
    rw [tilesEnd_map (f := ({ · with restart := false })) (fun _ => rfl), ← hnext]
    exact freshParts_tiles n _ hdownloaded
  · intro p hp
    rcases List.mem_append.1 hp with hp | hp
    · obtain ⟨q, hq, rfl⟩ := List.mem_map.1 hp
      have hok := h.parts q hq
      exact ⟨hok.placed, hok.length_le, hok.full, fun data hdata => ⟨rfl, (hok.data data hdata).2⟩⟩
    · exact freshParts_ok hcut (h.size.imp_right And.right) n _ hdownloaded hplaced p hp

theorem asked_ne_nil (h : Settled aes kind o file a files)
    (hnot : ¬ (a.size ≠ 0 ∧ a.size ≤ a.downloadedFileSize)) (hroom : n ≠ 0)
    (hnone : a.partRequests = []) : askedParts a n ≠ [] := by
  intro hnil
  obtain ⟨hmarked, hfresh⟩ := List.append_eq_nil_iff.1 hnil
  obtain ⟨hsize, hnext⟩ : a.size ≠ 0 ∧ a.size ≤ nextDownloadOffset a :=
    (freshParts_eq_nil hfresh).resolve_left hroom
  obtain ⟨start, htiles, hstart, hend⟩ := h.core.nextRow
  have hfile := h.core.size.resolve_right fun hzero => hsize hzero.2
  cases hparts : a.downloadingParts with
  | nil =>
    rw [hend, hparts] at hnext
    change a.size ≤ start at hnext
    omega
  | cons q qs =>
    have hq : q ∈ a.downloadingParts := by
      rw [hparts]
      exact .head _
    have hactive : ¬ q.isActive := by
      intro hactive
      have hmem := h.requests.requested q hq hactive
      rw [hnone] at hmem
      cases hmem
    have hrestart : ¬ q.restart := List.filter_eq_nil_iff.1 hmarked q hq
    have hdata : q.downloadedData ≠ none := by
      intro hdata
      simp [PartInfo.isActive, hdata] at hactive
      exact hrestart hactive
    rw [hparts] at htiles
    have hoffset := htiles.1
    rcases hstart with hat | ⟨hwhole, _⟩
    · exact hdata (h.notReady q hq (hoffset.trans hat))
    · omega

theorem requestParts_spec (hcut : CutsLastPart o file) (h : Settled aes kind o file a files)
    (hnot : ¬ (a.size ≠ 0 ∧ a.size ≤ a.downloadedFileSize)) :
    Settled aes kind o file (requestParts a) files ∧ Outstanding (requestParts a) := by
  cases hn : partLimit a - a.downloadingParts.countP (·.isActive) with
  | zero =>
    have hsame : requestParts a = a := by
      unfold requestParts
      dsimp only
      rw [hn]
      simp [requestLoop]
    rw [hsame]
    refine ⟨h, .inl ?_⟩
    have hlimit : 0 < partLimit a := by
      unfold partLimit
      split <;> decide
    obtain ⟨p, hp, hactive⟩ :=
      List.countP_pos_iff.1 (Nat.lt_of_lt_of_le hlimit (Nat.le_of_sub_eq_zero hn))
    exact fun hnil => by
      have hmem := h.requests.requested p hp hactive
      rw [hnil] at hmem
      cases hmem
  | succ n =>
    rw [requestParts_eq h.core hnot hn (Nat.succ_ne_zero n)]
    refine ⟨{
      core := core_of_asked hcut h.core (n + 1) _
      notReady := ?_
      requests := requested_of_asked h.core h.requests rfl rfl
      worker := h.worker
      reuploading := h.reuploading }, .inl ?_⟩
    · intro p hp hat
      rcases List.mem_append.1 hp with hp | hp
      · obtain ⟨q, hq, rfl⟩ := List.mem_map.1 hp
        exact h.notReady q hq hat
      · exact (freshParts_mem a.size (n + 1) _ (nextDownloadOffset_gt a).1 p hp).2.2.1
    · intro hnil
      obtain ⟨hnone, hasked⟩ := List.append_eq_nil_iff.1 hnil
      exact asked_ne_nil h hnot (Nat.succ_ne_zero n) hnone (List.map_eq_nil_iff.1 hasked)

/-- The last writes: whatever is done of them, the contents are there. -/
theorem complete_spec (h : Core aes kind o file a files) (hend : file.length ≤ a.downloadedFileSize)
    :
    Right aes kind o file L ⟨(complete kind a).1, files.applyAll (complete kind a).2⟩ ∧
      Safe aes kind o file files (complete kind a).2 := by
  have hlast := (length_plaintext aes o file).trans hend
  have hwhole : files.partialFile = some (plaintext aes o file) := by
    rw [h.partialFile, List.take_of_length_le hlast]
  have hcontents : ∀ files' : Files, files'.partialFile = files.partialFile →
      (files'.stored = none ∨ files'.stored = some (plaintext aes o file)) →
      Disk aes kind o file files' := by
    intro files' hbegun hstored
    refine .contents _ (Nat.le_refl _) ?_ (.inr rfl)
      (fun _ _ hfalse => absurd hfalse (Nat.lt_irrefl _)) hstored
    rw [hbegun, hwhole, List.take_length]
  have hgone : ∀ files' : Files, files'.partialFile = none →
      files'.stored = some (plaintext aes o file) → Disk aes kind o file files' := by
    intro files' hnone hstored
    exact .unusable (isUnusable_of_none hnone) (.inr hstored)
  cases kind with
  | multipart =>
    have hcopied : files.stored.or files.partialFile = some (plaintext aes o file) := by
      rw [hwhole]
      rcases h.stored_or with hnone | hsome
      · rw [hnone, Option.none_or]
      · rw [hsome]
        rfl
    unfold complete
    cases hiv : a.runningEncryptionIv.isSome with
    | true =>
      refine ⟨.completed rfl rfl hcopied, h.disk, ?_, ?_, ?_⟩
      · exact hcontents _ rfl h.stored_or
      · exact hcontents _ rfl (.inr hcopied)
      · exact hgone _ rfl hcopied
    | false =>
      refine ⟨.completed rfl rfl hcopied, h.disk, ?_, ?_⟩
      · exact hcontents _ rfl (.inr hcopied)
      · exact hgone _ rfl hcopied
  | video =>
    have hnone : files.stored = none := h.stored.resolve_right fun hno => by cases hno.1
    have hmove : files.apply .moveToStore =
        { files with stored := files.partialFile, partialFile := none } := by
      unfold Files.apply
      rw [hnone]
      rfl
    unfold complete
    refine ⟨?_, h.disk, ?_⟩
    · show Right aes .video o file L ⟨_, files.apply .moveToStore⟩
      rw [hmove]
      exact .completed rfl rfl hwhole
    · show Disk aes .video o file (files.apply .moveToStore)
      rw [hmove]
      exact hgone _ rfl hwhole

theorem downloadFileParts_spec (hcut : CutsLastPart o file) (h : Settled aes kind o file a files) :
    Right aes kind o file L
        ⟨(downloadFileParts kind a).1, files.applyAll (downloadFileParts kind a).2⟩ ∧
      Safe aes kind o file files (downloadFileParts kind a).2 := by
  have hworker : a.worker1 = false → Outstanding a :=
    fun hfalse => .inr (.inl (h.worker hfalse))
  cases kind with
  | multipart =>
    unfold downloadFileParts
    dsimp only
    split
    · rename_i hfalse
      exact ⟨.running h fun _ => hworker (by simpa using hfalse), h.core.disk⟩
    · split
      · rename_i hend
        apply complete_spec h.core
        rw [← h.core.size.resolve_right fun hzero => hend.1 hzero.2]
        exact hend.2
      · rename_i hnot
        obtain ⟨hsettled, hwaits⟩ := requestParts_spec hcut h hnot
        exact ⟨.running hsettled fun _ => hwaits, h.core.disk⟩
  | video =>
    unfold downloadFileParts
    dsimp only
    split
    · rename_i hend
      apply complete_spec h.core
      rw [← h.core.size.resolve_right fun hzero => by cases hzero.1]
      exact hend
    · rename_i hnot
      split
      · rename_i hblocked
        refine ⟨.running h fun _ => ?_, h.core.disk⟩
        rcases Bool.or_eq_true_iff.1 hblocked with hfalse | hreuploading
        · exact hworker (by simpa using hfalse)
        · exact .inr (.inr (.inr (.inr (h.reuploading hreuploading))))
      · obtain ⟨hsettled, hwaits⟩ := requestParts_spec hcut h fun hend => hnot hend.2
        exact ⟨.running hsettled fun _ => hwaits, h.core.disk⟩

end Rows

end TelegramPub.Ports.PartDownload
