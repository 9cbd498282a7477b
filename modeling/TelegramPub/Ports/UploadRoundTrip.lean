import TelegramPub.Ports.UploadLayout
import TelegramPub.Ports.PartRuns

/-!
# Files that are uploaded and downloaded again

The server puts the parts of an upload together in the order of their indices
(`assembled`).  A download with the reported key and sizes has the file again.

A file of more than 3000 parts of 512 KB is refused (`large_file_refused`).  Data of more
than 2³¹ - 2²⁰ bytes are left out: there the loop that cuts them, or the length itself,
may overflow.
-/

namespace TelegramPub.Ports.FileUpload

open Verified.Bytes Verified.IgeChain Verified.Machine

/-- The bytes that are uploaded. -/
def Source.bytes : Source → Data
  | .data bytes => bytes
  | .file contents => contents.getD []
  | .none => []

/-- How long they may be. -/
def Source.sizeLimit : Source → Nat
  | .data _ => 2 ^ 31 - 2 ^ 20
  | .file _ => 512 * 1024 * 3000
  | .none => 0

/-- The number of parts that is reported. -/
def InputFile.parts : InputFile → Nat
  | .file _ parts _ _ => parts
  | .fileBig _ parts _ => parts
  | .encryptedFile _ parts _ _ => parts
  | .encryptedFileBig _ parts _ => parts

/-- The checksum that is reported, which the type for big files does not have. -/
def InputFile.md5Checksum : InputFile → Option String
  | .file _ _ _ md5Checksum => some md5Checksum
  | .fileBig _ _ _ => none
  | .encryptedFile _ _ md5Checksum _ => some md5Checksum
  | .encryptedFileBig _ _ _ => none

/-- A run in which no upload of a part fails and nobody cancels. -/
def Undisturbed (events : List Event) : Prop :=
  ∀ event ∈ events, event ≠ .cancel ∧ ∀ partId, event ≠ .failure partId

/-- The parts that the server has, put together in the order of their indices. -/
def assembled (parts : List PartRequest) : Data :=
  (parts.insertionSort fun part part' => part.filePart ≤ part'.filePart).flatMap (·.bytes)

/-- A download with what was reported; the size is the one that the server tells. -/
def Secret.download (s : Secret) (size : Nat) : PartDownload.Options :=
  { size
    decryptedSize := s.fileSize.toNat
    encryptionKey := some s.key
    encryptionIv := some s.iv }

section Promises

variable (md5 sha256 : Data → Data) (aes : Data → Equiv.Perm (BitVec 128)) (o : Options)
  (r : Random) (bytes : Data)

/-- The file, or the encryption of the padded file. -/
def payload : Data :=
  if o.encrypt then encryptBytes (aes r.key) r.iv.1 (zeroPadded bytes) else bytes

/-- The result of an upload that is complete. -/
structure Reports (w : World) (result : Report) : Prop where
  sent : w.sent.map (·.filePart) = List.range result.file.parts
  acknowledged : w.acknowledged.Perm (List.range result.file.parts)
  assembled : ∀ received, received.Perm w.sent → assembled received = payload aes o r bytes
  md5Checksum : result.file.md5Checksum =
    if isBig bytes.length then none else some (hexString (md5 (payload aes o r bytes)))
  secret : (result.secret.map fun s => (s.key, s.iv, s.fileSize)) =
    if o.encrypt then some (r.key, r.iv, (bytes.length : Int)) else none

/-- What is to hold in every state of an upload. -/
structure Uploaded (w : World) : Prop where
  sentInOrder : w.sent.map (·.filePart) = List.range w.sent.length
  sentBytes : w.sent.flatMap (·.bytes) <+: payload aes o r bytes
  awaits : w.status = .uploading → ∃ partId, w.isAwaited partId
  unfinished : w.status ≠ .completed → w.reports = []
  completed : w.status = .completed →
    ∃ result, w.reports = [result] ∧ Reports md5 aes o r bytes w result

/-- A download that ends has stored the bytes, and nothing else is stored. -/
structure Downloaded (options : PartDownload.Options) (events : List PartDownload.Event)
    (d : PartDownload.World) : Prop where
  stored : ∀ data, d.files.stored = some data → data = bytes
  completed : d.actor.status = .completed → d.files.stored = some bytes
  noStall : Guarded (PartDownload.step sha256 aes .multipart)
      (fun d => PartDownload.Accompanied .multipart d.actor)
      (PartDownload.start .multipart options {}) events →
    ¬ PartDownload.Outstanding d.actor → d.actor.status ≠ .running

/-- The upload of some bytes, in whatever order the parts are acknowledged, and every
download of what was uploaded. -/
def Reassembled (source : Source) : Prop :=
  ∃ first, execute o r source = some first ∧
    ∀ events, Uploaded md5 aes o r source.bytes (run (step md5 aes) first events) ∧
      (.begin ∈ events → Undisturbed events →
        (∀ part ∈ (run (step md5 aes) first events).sent,
          part.filePart ∈ (run (step md5 aes) first events).acknowledged) →
        (run (step md5 aes) first events).status = .completed) ∧
      ∀ result ∈ (run (step md5 aes) first events).reports, ∀ s, result.secret = some s →
        ∀ file, file = assembled (run (step md5 aes) first events).sent →
          ∀ answers,
            Guarded (PartDownload.step sha256 aes .multipart)
              (fun d => PartDownload.Honest aes .multipart file d.actor)
              (PartDownload.start .multipart (s.download file.length) {}) answers →
            Downloaded sha256 aes source.bytes (s.download file.length) answers
              (run (PartDownload.step sha256 aes .multipart)
                (PartDownload.start .multipart (s.download file.length) {}) answers)

end Promises

section Starts

variable {md5 sha256 : Data → Data} {aes : Data → Equiv.Perm (BitVec 128)} {o : Options}
  {r : Random} {bytes : Data}

/-- The actor that is ready to upload some bytes. -/
structure Prepared (o : Options) (r : Random) (bytes : Data) (a : Actor) : Prop where
  cuts : ∃ partSize, GoodPartSize partSize ∧ Cuts partSize bytes.length 0 a.partsToUpload
  stream : a.stream = bytes
  encryption : a.encryption =
    if o.encrypt then some { key := r.key, iv := r.iv, runningIv := r.iv } else none
  partCount : a.partCount = a.partsToUpload.length
  fileSize : a.fileSize = bytes.length
  useBigFileParts : a.useBigFileParts = isBig bytes.length
  md5 : a.md5 = []

theorem prepare_spec {preferred : Nat} (hpreferred : GoodPartSize preferred)
    (hlength : bytes.length ≤ 2 ^ 31 - 2 ^ 20) :
    ∃ a, prepare o r preferred bytes = some a ∧ Prepared o r bytes a := by
  have hsize : int32 bytes.length = bytes.length := int32_of_range (by omega) (by omega)
  have hgood := partSizeFor_good hpreferred (show bytes.length < 2 ^ 31 by omega)
  obtain ⟨parts, hparts, hcuts⟩ :=
    cutFrom_spec hgood hlength 0 (show bytes.length ≤ 0 + bytes.length by omega)
  unfold prepare cutParts
  dsimp only
  rw [hsize, Int.toNat_natCast, hparts]
  exact ⟨_, rfl, ⟨_, hgood, hcuts⟩, rfl, rfl, rfl, rfl, rfl, rfl⟩

theorem photoPartSize_good : GoodPartSize photoPartSize := ⟨by decide, by decide, by decide⟩

theorem videoPartSize_good : GoodPartSize videoPartSize := ⟨by decide, by decide, by decide⟩

theorem execute_spec {source : Source} (hne : source.bytes ≠ [])
    (hsize : source.bytes.length ≤ source.sizeLimit) :
    ∃ a, execute o r source = some { actor := a, status := .prepared } ∧
      Prepared o r source.bytes a := by
  cases source with
  | data bytes =>
    have hlength : bytes.length ≠ 0 := fun hzero => hne (List.length_eq_zero_iff.1 hzero)
    obtain ⟨a, ha, hprepared⟩ := prepare_spec (o := o) (r := r) photoPartSize_good hsize
    refine ⟨a, ?_, hprepared⟩
    unfold execute
    dsimp only
    rw [if_neg hlength, show prepare o r photoPartSize bytes = some a from ha]
    rfl
  | file contents =>
    cases contents with
    | none => exact absurd rfl hne
    | some contents =>
      have hle : contents.length ≤ 512 * 1024 * 3000 := hsize
      have hlength : contents.length ≠ 0 := fun hzero => hne (List.length_eq_zero_iff.1 hzero)
      have hint : int32 contents.length = contents.length :=
        int32_of_range (by omega) (by omega)
      obtain ⟨a, ha, hprepared⟩ := prepare_spec (o := o) (r := r) videoPartSize_good
        (show contents.length ≤ 2 ^ 31 - 2 ^ 20 by omega)
      refine ⟨a, ?_, hprepared⟩
      unfold execute
      dsimp only
      rw [hint, if_neg (by omega), if_neg (by omega), ha]
      rfl
  | none => exact absurd rfl hne

variable {a : Actor}

theorem Prepared.payload_eq (h : Prepared o r bytes a) :
    payloadFrom aes a.encryption bytes = payload aes o r bytes := by
  rw [h.encryption]
  unfold payload
  cases o.encrypt <;> rfl

theorem Prepared.filePart_upcoming (h : Prepared o r bytes a) :
    (a.upcoming aes).map (·.filePart) = List.range a.partCount := by
  obtain ⟨partSize, _, hcuts⟩ := h.cuts
  unfold Actor.upcoming
  rw [hcuts.waitingOf_eq, filePart_requestsFrom (fun _ _ => rfl), hcuts.indices, h.partCount,
    List.range_eq_range']

theorem Prepared.flatMap_upcoming (h : Prepared o r bytes a) (hne : bytes ≠ []) :
    (a.upcoming aes).flatMap (·.bytes) = payload aes o r bytes := by
  obtain ⟨partSize, hgood, hcuts⟩ := h.cuts
  unfold Actor.upcoming
  rw [hcuts.waitingOf_eq, h.stream,
    flatMap_requestsFrom (fun _ _ => rfl) hgood _ hne hcuts, h.payload_eq]

/-- The upload that begins with the actor. -/
theorem Prepared.right (h : Prepared o r bytes a) :
    Right md5 aes a { actor := a, status := .prepared } := by
  obtain ⟨partSize, _, hcuts⟩ := h.cuts
  exact {
    consistent := {
      same := .refl a
      requests := rfl
      md5 := h.md5
      nodup := by rw [hcuts.indices]; exact List.nodup_range'
      answers := by rw [hcuts.uploadingOf_eq]; exact List.Perm.refl [] }
    uploading := fun hfalse => by cases hfalse
    completed := fun hfalse => by cases hfalse
    unfinished := fun _ => rfl }

end Starts

section States

variable {md5 sha256 : Data → Data} {aes : Data → Equiv.Perm (BitVec 128)} {o : Options}
  {r : Random} {bytes : Data} {a : Actor} {w : World}

/-- The order in which the server gets the parts does not matter. -/
theorem assembled_of_perm {sent received : List PartRequest} {n : Nat}
    (hsent : sent.map (·.filePart) = List.range n) (h : received.Perm sent) :
    assembled received = sent.flatMap (·.bytes) := by
  have hless : (sent.map (·.filePart)).Pairwise (· < ·) := hsent ▸ List.pairwise_lt_range
  have hinj : ∀ part ∈ sent, ∀ part' ∈ sent, part.filePart = part'.filePart → part = part' :=
    List.inj_on_of_nodup_map (hless.imp Nat.ne_of_lt)
  have hsorted := List.pairwise_insertionSort
    (fun part part' : PartRequest => part.filePart ≤ part'.filePart) received
  have hperm := (List.perm_insertionSort
    (fun part part' : PartRequest => part.filePart ≤ part'.filePart) received).trans h
  have hinOrder : sent.Pairwise fun part part' => part.filePart ≤ part'.filePart :=
    (List.pairwise_map.1 hless).imp Nat.le_of_lt
  have heq := hperm.eq_of_pairwise (fun part part' hmem hmem' hle hle' =>
    hinj part (hperm.mem_iff.1 hmem) part' hmem' (Nat.le_antisymm hle hle')) hsorted hinOrder
  unfold assembled
  rw [heq]

theorem Right.sent_prefix (h : Right md5 aes a w) : w.sent <+: a.upcoming aes :=
  ⟨w.actor.upcoming aes, h.consistent.requests⟩

theorem Right.sentInOrder (h : Right md5 aes a w) (hprepared : Prepared o r bytes a) :
    w.sent.map (·.filePart) = List.range w.sent.length := by
  have htake := List.prefix_iff_eq_take.1 h.sent_prefix
  have hlength : w.sent.length ≤ a.partCount := by
    have hle := h.sent_prefix.length_le
    have hcount : (a.upcoming aes).length = a.partCount := by
      rw [← List.length_map (·.filePart), hprepared.filePart_upcoming, List.length_range]
    omega
  calc w.sent.map (·.filePart) = ((a.upcoming aes).take w.sent.length).map (·.filePart) := by
        rw [← htake]
    _ = (List.range a.partCount).take w.sent.length := by
        rw [List.map_take, hprepared.filePart_upcoming]
    _ = List.range w.sent.length := by rw [List.take_range, Nat.min_eq_left hlength]

theorem Right.awaits (h : Right md5 aes a w) (hprepared : Prepared o r bytes a)
    (hstatus : w.status = .uploading) : ∃ partId, w.isAwaited partId := by
  obtain ⟨partId, hup⟩ := List.exists_mem_of_ne_nil _ (h.uploading hstatus)
  have hanswers := h.consistent.answers
  have hnodup : (uploadingOf w.actor.partsToUpload ++ w.acknowledged).Nodup := by
    rw [hanswers.nodup_iff, h.sentInOrder hprepared]
    exact List.nodup_range
  have hsent : partId ∈ w.sent.map (·.filePart) :=
    hanswers.mem_iff.1 (List.mem_append_left _ hup)
  have hnot : partId ∉ w.acknowledged := (List.nodup_append'.1 hnodup).2.2 hup
  obtain ⟨part, hpart, hindex⟩ := List.mem_map.1 hsent
  refine ⟨partId, ?_⟩
  unfold World.isAwaited
  simp only [Bool.and_eq_true, List.any_eq_true, beq_iff_eq, Bool.not_eq_eq_eq_not, Bool.not_true,
    List.contains_eq_mem, decide_eq_false_iff_not]
  exact ⟨⟨part, hpart, hindex⟩, hnot⟩

variable (md5) in
theorem Prepared.report_eq (h : Prepared o r bytes a) (hashed : Data) :
    (report md5 { a with md5 := hashed }).file.parts = a.partCount ∧
      (report md5 { a with md5 := hashed }).file.md5Checksum =
        (if isBig bytes.length then none else some (hexString (md5 hashed))) ∧
      ((report md5 { a with md5 := hashed }).secret.map fun s => (s.key, s.iv, s.fileSize)) =
        if o.encrypt then some (r.key, r.iv, (bytes.length : Int)) else none := by
  have hencryption := h.encryption
  have hbig := h.useBigFileParts
  unfold report
  cases hencrypt : o.encrypt <;> cases hisBig : isBig bytes.length <;>
    simp_all [InputFile.parts, InputFile.md5Checksum, h.fileSize]

theorem Right.uploaded (h : Right md5 aes a w) (hprepared : Prepared o r bytes a)
    (hne : bytes ≠ []) : Uploaded md5 aes o r bytes w where
  sentInOrder := h.sentInOrder hprepared
  sentBytes := by
    rw [← hprepared.flatMap_upcoming hne, ← h.consistent.requests, List.flatMap_append]
    exact List.prefix_append _ _
  awaits := h.awaits hprepared
  unfinished := h.unfinished
  completed := by
    intro hstatus
    obtain ⟨hempty, hreports⟩ := h.completed hstatus
    have hsent : w.sent = a.upcoming aes := by
      have hrequests := h.consistent.requests
      unfold Actor.upcoming at hrequests
      rw [hempty] at hrequests
      exact (List.append_nil _).symm.trans hrequests
    have hbytes : (a.upcoming aes).flatMap (·.bytes) = payload aes o r bytes :=
      hprepared.flatMap_upcoming hne
    rw [hsent, hbytes] at hreports
    obtain ⟨hparts, hchecksum, hsecret⟩ := hprepared.report_eq md5 (payload aes o r bytes)
    have hindices : w.sent.map (·.filePart) = List.range a.partCount := by
      rw [hsent, hprepared.filePart_upcoming]
    refine ⟨_, hreports, ?_⟩
    exact {
      sent := by rw [hindices, hparts]
      acknowledged := by
        have hanswers := h.consistent.answers
        rw [hempty, hindices] at hanswers
        rw [hparts]
        exact hanswers
      assembled := fun received hreceived => by
        rw [assembled_of_perm hindices hreceived, hsent, hbytes]
      md5Checksum := hchecksum
      secret := hsecret }

/-! ## The end of an upload -/

theorem send_status (w : World) :
    (w.send md5 aes).status = .uploading ∨ (w.send md5 aes).status = .completed := by
  unfold World.send
  split
  · exact .inl rfl
  · exact .inr rfl

theorem step_begun {event : Event} (hcancel : event ≠ .cancel)
    (hfailure : ∀ partId, event ≠ .failure partId)
    (h : w.status = .uploading ∨ w.status = .completed) :
    (step md5 aes w event).status = .uploading ∨ (step md5 aes w event).status = .completed := by
  cases event with
  | begin =>
    unfold step
    dsimp only
    split
    · exact send_status w
    · exact h
  | success partId =>
    unfold step
    dsimp only
    split
    · exact send_status _
    · exact h
  | failure partId => exact absurd rfl (hfailure partId)
  | cancel => exact absurd rfl hcancel

theorem run_begun {events : List Event} (hevents : Undisturbed events) :
    ∀ w : World, w.status = .uploading ∨ w.status = .completed →
      (run (step md5 aes) w events).status = .uploading ∨
        (run (step md5 aes) w events).status = .completed := by
  induction events with
  | nil => exact fun w h => h
  | cons event events ih =>
    intro w h
    have hfirst := hevents event (.head _)
    exact ih (fun e he => hevents e (.tail event he)) _
      (step_begun hfirst.1 hfirst.2 h)

theorem run_of_begin {events : List Event} (hevents : Undisturbed events)
    (hbegin : .begin ∈ events) (h : w.status = .prepared) :
    (run (step md5 aes) w events).status = .uploading ∨
      (run (step md5 aes) w events).status = .completed := by
  induction events generalizing w with
  | nil => cases hbegin
  | cons event events ih =>
    have hrest : Undisturbed events := fun e he => hevents e (.tail event he)
    have hfirst := hevents event (.head _)
    cases event with
    | begin =>
      refine run_begun hrest _ ?_
      unfold step
      rw [if_pos h]
      exact send_status w
    | success partId =>
      have hstay : step md5 aes w (.success partId) = w := by
        unfold step
        dsimp only
        rw [if_neg (by simp [h])]
      rw [run_cons, hstay]
      exact ih hrest ((List.mem_cons.1 hbegin).resolve_left (by simp)) h
    | failure partId => exact absurd rfl (hfirst.2 partId)
    | cancel => exact absurd rfl hfirst.1

theorem Uploaded.completed_of_acknowledged (h : Uploaded md5 aes o r bytes w)
    (hbegun : w.status = .uploading ∨ w.status = .completed)
    (hall : ∀ part ∈ w.sent, part.filePart ∈ w.acknowledged) : w.status = .completed := by
  refine hbegun.resolve_left fun huploading => ?_
  obtain ⟨partId, hawaited⟩ := h.awaits huploading
  unfold World.isAwaited at hawaited
  simp only [Bool.and_eq_true, List.any_eq_true, beq_iff_eq, Bool.not_eq_eq_eq_not, Bool.not_true,
    List.contains_eq_mem, decide_eq_false_iff_not] at hawaited
  obtain ⟨⟨part, hpart, rfl⟩, hnot⟩ := hawaited
  exact hnot (hall part hpart)

variable (aes r bytes) in
theorem length_payload (hencrypt : o.encrypt) :
    (payload aes o r bytes).length = bytes.length + (16 - bytes.length % 16) % 16 := by
  unfold payload
  rw [if_pos hencrypt, length_encryptBytes, length_zeroPadded]

variable {options : PartDownload.Options}

variable (aes) in
/-- The decryption of what was uploaded, cut to the size that is reported. -/
theorem plaintext_payload (hencrypt : o.encrypt) (hne : bytes ≠ [])
    (hencryption : options.encryption = some (r.key, r.iv))
    (hsize : options.decryptedSize = bytes.length) :
    PartDownload.plaintext aes options (payload aes o r bytes) = bytes := by
  have hlength : bytes.length ≠ 0 := fun hzero => hne (List.length_eq_zero_iff.1 hzero)
  have hblocks : (zeroPadded bytes).length % 16 = 0 := by
    rw [length_zeroPadded]
    omega
  unfold PartDownload.plaintext payload
  rw [hencryption, if_pos hencrypt]
  dsimp only
  rw [decryptBytes_encryptBytes _ _ (aes r.key).symm_apply_apply _ hblocks, hsize, if_neg hlength]
  unfold zeroPadded
  rw [List.take_left]

variable (aes r) in
theorem cutsLastPart_payload (hencrypt : o.encrypt) (hsize : options.decryptedSize = bytes.length) :
    PartDownload.CutsLastPart options (payload aes o r bytes) := by
  refine .inr (.inr ?_)
  rw [hsize, length_payload aes r bytes hencrypt]
  unfold PartDownload.preferredPartSize
  omega

theorem download_spec (hencrypt : o.encrypt) (hne : bytes ≠ [])
    (hencryption : options.encryption = some (r.key, r.iv))
    (hdecrypted : options.decryptedSize = bytes.length)
    (hsize : options.size = (payload aes o r bytes).length) {answers : List PartDownload.Event}
    (hhonest : Guarded (PartDownload.step sha256 aes .multipart)
      (fun d => PartDownload.Honest aes .multipart (payload aes o r bytes) d.actor)
      (PartDownload.start .multipart options {}) answers) :
    Downloaded sha256 aes bytes options answers
      (run (PartDownload.step sha256 aes .multipart) (PartDownload.start .multipart options {})
        answers) := by
  have hplain := plaintext_payload aes hencrypt hne hencryption hdecrypted
  have hlength := length_payload aes r bytes hencrypt
  have hserved : PartDownload.Served .multipart options (payload aes o r bytes) := {
    size := .inl hsize
    blocks := fun _ => by omega }
  have hcut := cutsLastPart_payload aes r hencrypt hdecrypted
  have hknown : options.size ≠ 0 := by
    have hpos : bytes.length ≠ 0 := fun hzero => hne (List.length_eq_zero_iff.1 hzero)
    omega
  have hright : PartDownload.Right aes .multipart options (payload aes o r bytes) False
      (run (PartDownload.step sha256 aes .multipart) (PartDownload.start .multipart options {})
        answers) :=
    PartDownload.run_right_of_size hserved hcut hknown hhonest
      (guarded_of_forall (fun _ _ hfalse => hfalse.elim) answers _)
  have hsafe := hright.stored
  rw [hplain] at hsafe
  refine ⟨hsafe.1, hsafe.2, fun hwaits => ?_⟩
  have halive : Guarded (PartDownload.step sha256 aes .multipart)
      (fun d answer => True → PartDownload.Accompanied .multipart d.actor answer)
      (PartDownload.start .multipart options {}) answers :=
    hwaits.imp fun _ _ hg _ => hg
  exact (PartDownload.run_right_of_size hserved hcut hknown hhonest halive).correct.noStall

end States

variable (md5 sha256 : Data → Data) (aes : Data → Equiv.Perm (BitVec 128)) (o : Options)
  (r : Random)

/-- The upload of every file that may be uploaded. -/
theorem uploads_reassembled (source : Source) (hne : source.bytes ≠ [])
    (hsize : source.bytes.length ≤ source.sizeLimit) :
    Reassembled md5 sha256 aes o r source := by
  obtain ⟨a, hexecute, hprepared⟩ := execute_spec (o := o) (r := r) hne hsize
  refine ⟨_, hexecute, fun events => ?_⟩
  have hright : Right md5 aes a (run (step md5 aes) { actor := a, status := .prepared } events) :=
    run_right _ events hprepared.right
  have huploaded := hright.uploaded hprepared hne
  refine ⟨huploaded, ?_, ?_⟩
  · intro hbegin hevents hall
    exact huploaded.completed_of_acknowledged (run_of_begin hevents hbegin rfl) hall
  · intro result hresult s hs file hfile answers hhonest
    have hcompleted : (run (step md5 aes) { actor := a, status := .prepared } events).status =
        .completed := by
      by_contra hnot
      rw [huploaded.unfinished hnot] at hresult
      cases hresult
    obtain ⟨result', hreports, hreported⟩ := huploaded.completed hcompleted
    rw [hreports, List.mem_singleton] at hresult
    subst hresult
    have hassembled := hfile.trans (hreported.assembled _ (List.Perm.refl _))
    have hsecret := hreported.secret
    rw [hs, Option.map_some] at hsecret
    split at hsecret
    · rename_i hencrypt
      simp only [Option.some.injEq, Prod.mk.injEq] at hsecret
      obtain ⟨hkey, hiv, hfileSize⟩ := hsecret
      subst hassembled
      refine download_spec hencrypt hne ?_ ?_ rfl hhonest
      · rw [← hkey, ← hiv]
        rfl
      · show s.fileSize.toNat = source.bytes.length
        rw [hfileSize, Int.toNat_natCast]
    · cases hsecret

/-- A file of several parts, encrypted and padded. -/
theorem parts_reassembled :
    Reassembled (fun _ => List.replicate 16 0) (fun _ => []) (fun _ => Equiv.refl _)
      { encrypt := true }
      { fileId := 1, key := List.replicate 32 0,
        iv := ⟨List.replicate 32 0, List.length_replicate⟩ }
      (.file (some (List.replicate 100001 7))) := by
  have hlength : (Source.file (some (List.replicate 100001 7))).bytes.length = 100001 :=
    List.length_replicate
  refine uploads_reassembled _ _ _ _ _ _ (List.ne_nil_of_length_pos ?_) ?_
  · rw [hlength]
    decide
  · rw [hlength]
    decide

/-! ## Files that are refused -/

/-- A file of one byte more than 3000 parts of 512 KB. -/
def largeFile : Data := List.replicate (512 * 1024 * 3000 + 1) 0

theorem length_largeFile : largeFile.length = 512 * 1024 * 3000 + 1 := List.length_replicate

/-- An upload that has failed does nothing any more. -/
theorem run_failedAtOnce (events : List Event) :
    run (step md5 aes) (failedAtOnce o r) events = failedAtOnce o r := by
  induction events with
  | nil => rfl
  | cons event events ih => cases event <;> exact ih

/-- A file that is too large is refused at once. -/
theorem large_file_refused :
    (Source.file (some largeFile)).bytes ≠ [] ∧
      (∀ o r, execute o r (.file (some largeFile)) = some (failedAtOnce o r)) ∧
      ∀ md5 sha256 aes o r, ¬ Reassembled md5 sha256 aes o r (.file (some largeFile)) := by
  have hrefused : ∀ o r, execute o r (.file (some largeFile)) = some (failedAtOnce o r) := by
    intro o r
    have hsize : int32 largeFile.length = 512 * 1024 * 3000 + 1 := by
      rw [length_largeFile]
      decide
    unfold execute
    dsimp only
    rw [hsize, if_pos (by decide)]
  refine ⟨?_, hrefused, ?_⟩
  · intro hnil
    have hlength := length_largeFile
    rw [show largeFile = [] from hnil] at hlength
    cases hlength
  · intro md5 sha256 aes o r hall
    obtain ⟨first, hfirst, hruns⟩ := hall
    rw [hrefused o r, Option.some.injEq] at hfirst
    subst hfirst
    have hcompleted := (hruns [.begin]).2.1 (by simp) (by simp [Undisturbed])
    rw [run_failedAtOnce] at hcompleted
    exact absurd (hcompleted fun _ hnone => by cases hnone) (by simp [failedAtOnce])

end TelegramPub.Ports.FileUpload
