import TelegramPub.Ports.PartRuns

/-!
# Blocks from a CDN

A CDN is not trusted: a block from it is to be checked against hashes that the file's own
datacenter has given.  `Audit` keeps what a run does not keep itself, the hashes that the
own datacenter gave so far and the blocks that came from the CDN.

`TGMultipartFileDownloadActor` checks each block against its table of hashes, which is
filled before the switch.  What the table holds was given (`Sound`) as long as no redirect
comes from the CDN itself: the class of an answer is not compared with the request.
`TGVideoDownloadActor` never fills its table, and checks nothing.  Files are shorter than
`2 ^ 31 - 2 ^ 17` bytes, as in `Ports/PartDownload`.
-/

namespace TelegramPub.Ports.PartDownload

open Verified.Bytes Verified.Machine
open Ports.MessageTransaction (dictionary_mem)

/-- What was said so far about a file. -/
structure Audit where
  /-- The hashes that the file's own datacenter gave. -/
  given : PartHashes := []
  /-- The blocks from the CDN, with their offsets. -/
  cdnBlocks : List (Nat × Data) := []
  deriving DecidableEq

section Statement

variable (sha256 : Data → Data) (aes : Data → Equiv.Perm (BitVec 128)) (kind : Kind)

/-- The block that an answer carries. -/
def receivedBlock (fileData : Option CdnFileData) (offset : Nat) : Answer → Option Data
  | .file bytes => some bytes
  | .cdnFile bytes => fileData.map fun fileData => cdnData aes kind fileData offset bytes
  | _ => none

/-- An answer of the CDN, or of the file's own datacenter. -/
def Audit.answered (audit : Audit) (fromCdn : Bool) (fileData : Option CdnFileData)
    (offset : Nat) (answer : Answer) : Audit :=
  if fromCdn then
    { audit with
      cdnBlocks := audit.cdnBlocks ++
        ((receivedBlock aes kind fileData offset answer).map (offset, ·)).toList }
  else
    match answer with
    | .cdnRedirect _ hashes => { audit with given := audit.given ++ hashes }
    | _ => audit

/-- Requests for hashes go to the file's own datacenter. -/
def Audit.after (audit : Audit) (a : Actor) : Event → Audit
  | .answered index answer =>
    match a.partRequests[index]? with
    | none => audit
    | some r => audit.answered aes kind r.cdnToken.isSome a.cdnFileData r.offset answer
  | .hashesReceived hashes =>
    if a.hashRequest.isSome then { audit with given := audit.given ++ hashes } else audit
  | _ => audit

/-- Each piece of a block has the hash that was given for its offset. -/
def Verified (given : PartHashes) (offset : Nat) (block : Data) : Prop :=
  ∀ l ∈ pieceOffsets block.length,
    ((offset + l : Int), sha256 ((block.drop l).take (128 * 1024))) ∈ given

instance (given : PartHashes) (offset : Nat) (block : Data) :
    Decidable (Verified sha256 given offset block) :=
  inferInstanceAs (Decidable (∀ l ∈ pieceOffsets block.length, _))

/-- A block from the CDN is only written as it is, and verified. -/
def WriteVerified (audit : Audit) : FileOp → Prop
  | .appendPartial part data =>
    ∀ block ∈ part.downloadedData, (part.partOffset, block) ∈ audit.cdnBlocks →
      data = block ∧ Verified sha256 audit.given part.partOffset block
  | _ => True

/-- An actor and what was said about its file. -/
structure Audited where
  actor : Actor
  audit : Audit

def auditedStep (s : Audited) (event : Event) : Audited :=
  { actor := (actorStep sha256 aes kind s.actor event).1
    audit := s.audit.after aes kind s.actor event }

/-- A download that starts. -/
def auditedStart (o : Options) (files : Files) : Audited :=
  { actor := (execute kind o files).1, audit := {} }

/-- What is to hold of every step.  A block that cannot be written, although it is the
next, ends the download. -/
structure Checks (s : Audited) (event : Event) : Prop where
  writes : ∀ op ∈ (actorStep sha256 aes kind s.actor event).2,
    WriteVerified sha256 (auditedStep sha256 aes kind s event).audit op
  failed : ∀ part ∈ (auditedStep sha256 aes kind s event).actor.part
      (auditedStep sha256 aes kind s event).actor.downloadedFileSize,
    part.downloadedData.isSome → (auditedStep sha256 aes kind s event).actor.status = .failed
  ended : s.actor.status = .failed →
    (auditedStep sha256 aes kind s event).actor = s.actor ∧
      (actorStep sha256 aes kind s.actor event).2 = []

/-- Whether the data are decrypted once more before they are checked. -/
def Actor.decrypts (a : Actor) : Bool := a.encryptionKey.isSome && a.runningEncryptionIv.isSome

/-- The bytes of an answer. -/
def Answer.bytes : Answer → Option Data
  | .file bytes => some bytes
  | .cdnFile bytes => some bytes
  | _ => none

def Answer.isRedirect : Answer → Bool
  | .cdnRedirect _ _ => true
  | _ => false

/-- Whether the pieces of a block are cut where they end.  The check compares an offset in
the file with the length of the block. -/
def CutsPieces (offset length : Nat) : Prop :=
  ∀ l ∈ pieceOffsets length, offset + l + 128 * 1024 > length → length ≤ l + 128 * 1024

/-- The answers of the CDN that are checked. -/
def Checkable (a : Actor) : Event → Prop
  | .answered index answer =>
    ∀ r ∈ a.partRequests[index]?, r.cdnToken.isSome →
      match kind with
      | .multipart =>
        answer.isRedirect = false ∧
          ∀ bytes ∈ answer.bytes, a.decrypts = false ∧ CutsPieces r.offset bytes.length
      | .video => answer.bytes = none
  | _ => True

instance (offset length : Nat) : Decidable (CutsPieces offset length) :=
  inferInstanceAs (Decidable (∀ l ∈ pieceOffsets length, _))

instance (a : Actor) : ∀ event, Decidable (Checkable kind a event)
  | .answered index answer =>
    match kind with
    | .multipart =>
      inferInstanceAs (Decidable (∀ r ∈ a.partRequests[index]?, r.cdnToken.isSome →
        answer.isRedirect = false ∧
          ∀ bytes ∈ answer.bytes, a.decrypts = false ∧ CutsPieces r.offset bytes.length))
    | .video =>
      inferInstanceAs (Decidable (∀ r ∈ a.partRequests[index]?, r.cdnToken.isSome →
        answer.bytes = none))
  | .worker1 | .worker2 | .hashesReceived _ | .reuploaded => isTrue trivial

end Statement

section Parts

variable {sha256 : Data → Data} {aes : Data → Equiv.Perm (BitVec 128)} {kind : Kind}

/-- The part that is to be written next has no data. -/
def NextNotReady (a : Actor) : Prop :=
  ∀ part ∈ a.part a.downloadedFileSize, part.downloadedData = none

theorem find_replaced (parts : List PartInfo) (part : PartInfo) (x : Nat) :
    (parts.map fun p => if p.partOffset = part.partOffset then part else p).find?
        (·.partOffset == x) =
      if x = part.partOffset then
        if parts.any (·.partOffset == part.partOffset) then some part else none
      else parts.find? (·.partOffset == x) := by
  induction parts with
  | nil => simp
  | cons p ps ih =>
    grind

theorem find_setPart (parts : List PartInfo) (part : PartInfo) (x : Nat) :
    (setPart parts part).find? (·.partOffset == x) =
      if x = part.partOffset then some part else parts.find? (·.partOffset == x) := by
  unfold setPart
  split
  · rename_i hany
    rw [find_replaced, if_pos hany]
  · grind

theorem part_addPart (a : Actor) (offset length x : Nat) :
    (a.addPart offset length).part x =
      if x = offset then some { partOffset := offset, partLength := length } else a.part x :=
  find_setPart _ _ x

theorem part_clearRestart (a : Actor) (x : Nat) :
    a.clearRestart.part x = (a.part x).map ({ · with restart := false }) := by
  unfold Actor.clearRestart Actor.part
  rw [List.find?_map]
  rfl

variable {a : Actor}

theorem NextNotReady.addPart (h : NextNotReady a) (offset length : Nat) :
    NextNotReady (a.addPart offset length) := by
  intro part hpart
  have hpart : part ∈ (a.addPart offset length).part a.downloadedFileSize := hpart
  rw [part_addPart] at hpart
  split at hpart
  · cases hpart
    rfl
  · exact h part hpart

theorem NextNotReady.clearRestart (h : NextNotReady a) :
    NextNotReady a.clearRestart := by
  intro part hpart
  have hpart : part ∈ a.clearRestart.part a.downloadedFileSize := hpart
  rw [part_clearRestart, Option.mem_map] at hpart
  obtain ⟨p, hp, rfl⟩ := hpart
  exact h p hp

/-- Nothing that concerns the CDN has changed; new requests go where the parts come from. -/
structure SameCdn (a a' : Actor) : Prop where
  fileData : a'.cdnFileData = a.cdnFileData
  hashes : a'.cdnFilePartHashes = a.cdnFilePartHashes
  hashRequest : a'.hashRequest = a.hashRequest
  decrypts : a'.decrypts = a.decrypts
  requests : ∀ r ∈ a'.partRequests, r ∈ a.partRequests ∨
    r.cdnToken = a.cdnFileData.map (·.token)

theorem SameCdn.refl (a : Actor) : SameCdn a a :=
  ⟨rfl, rfl, rfl, rfl, fun _ hr => .inl hr⟩

theorem SameCdn.trans {b c : Actor} (hab : SameCdn a b) (hbc : SameCdn b c) : SameCdn a c where
  fileData := hbc.fileData.trans hab.fileData
  hashes := hbc.hashes.trans hab.hashes
  hashRequest := hbc.hashRequest.trans hab.hashRequest
  decrypts := hbc.decrypts.trans hab.decrypts
  requests := by
    intro r hr
    rcases hbc.requests r hr with hr | htoken
    · exact hab.requests r hr
    · exact .inr (hab.fileData ▸ htoken)

theorem requestLoop_keeps (n : Nat) :
    ∀ {a : Actor} (requestList : List (Nat × Nat)), NextNotReady a →
      NextNotReady (requestLoop n a requestList).1 ∧
        ∃ parts explicitParts, (requestLoop n a requestList).1 =
          { a with downloadingParts := parts, explicitDownloadParts := explicitParts } := by
  induction n with
  | zero => exact fun _ h => ⟨h, _, _, rfl⟩
  | succ n ih =>
    intro a requestList h
    rw [requestLoop]
    split
    · rename_i offset length explicitDownloadParts _
      have hless : NextNotReady { a with explicitDownloadParts } := h
      obtain ⟨hnot, parts, explicitParts, heq⟩ :=
        ih (requestList ++ [(offset, length)]) (hless.addPart offset length)
      exact ⟨hnot, parts, explicitParts, heq⟩
    · dsimp only
      split
      · exact ⟨h.clearRestart, _, _, rfl⟩
      · obtain ⟨hnot, parts, explicitParts, heq⟩ := ih _ (h.clearRestart.addPart _ _)
        exact ⟨hnot, parts, explicitParts, heq⟩

theorem requestParts_keeps (h : NextNotReady a) :
    NextNotReady (requestParts a) ∧ SameCdn a (requestParts a) := by
  obtain ⟨hnot, parts, explicitParts, heq⟩ :=
    requestLoop_keeps (partLimit a - a.downloadingParts.countP (·.isActive)) [] h
  unfold requestParts
  dsimp only
  refine ⟨hnot, by rw [heq], by rw [heq], by rw [heq], by rw [heq]; rfl, fun r hr => ?_⟩
  rw [heq] at hr
  dsimp only at hr
  rcases List.mem_append.1 hr with hr | hr
  · exact .inl hr
  · obtain ⟨request, _, rfl⟩ := List.mem_map.1 hr
    exact .inr rfl

/-- What is appended has passed the check, and is the data of the part if these are not
decrypted. -/
def Checked (sha256 : Data → Data) (a : Actor) : FileOp → Prop
  | .appendPartial part data =>
    hashesMatch sha256 a.cdnFilePartHashes part.partOffset data = true ∧
      (a.decrypts = false → part.downloadedData = some data)
  | _ => True

theorem Checked.congr {a' : Actor} (h : SameCdn a a') {op : FileOp} (hop : Checked sha256 a' op)
    : Checked sha256 a op := by
  unfold Checked at hop ⊢
  rw [h.hashes, h.decrypts] at hop
  exact hop

variable (sha256) (aes) (kind)

theorem complete_keeps (a : Actor) :
    SameCdn a (complete kind a).1 ∧ ∀ op ∈ (complete kind a).2, Checked sha256 a op := by
  refine ⟨⟨rfl, rfl, rfl, rfl, fun _ hr => .inl hr⟩, fun op hop => ?_⟩
  unfold complete at hop
  cases kind with
  | multipart =>
    rcases List.mem_append.1 hop with hop | hop
    · split at hop
      · rw [List.mem_singleton.1 hop]
        trivial
      · cases hop
    · simp only [List.mem_cons, List.not_mem_nil, or_false] at hop
      rcases hop with rfl | rfl <;> trivial
  | video =>
    rw [List.mem_singleton.1 hop]
    trivial

/-- Requesting parts, or the end of the download, writes nothing. -/
theorem downloadFileParts_keeps (h : NextNotReady a) :
    NextNotReady (downloadFileParts kind a).1 ∧ SameCdn a (downloadFileParts kind a).1 ∧
      ∀ op ∈ (downloadFileParts kind a).2, Checked sha256 a op := by
  have hidle : NextNotReady a ∧ SameCdn a a ∧ ∀ op ∈ ([] : List FileOp), Checked sha256 a op :=
    ⟨h, SameCdn.refl a, fun _ hop => by cases hop⟩
  have hcomplete : NextNotReady (complete kind a).1 ∧ SameCdn a (complete kind a).1 ∧
      ∀ op ∈ (complete kind a).2, Checked sha256 a op := ⟨h, complete_keeps sha256 kind a⟩
  have hrequest : NextNotReady (requestParts a) ∧ SameCdn a (requestParts a) ∧
      ∀ op ∈ ([] : List FileOp), Checked sha256 a op :=
    ⟨(requestParts_keeps h).1, (requestParts_keeps h).2, fun _ hop => by cases hop⟩
  unfold downloadFileParts
  cases kind with
  | multipart =>
    grind
  | video =>
    grind

theorem decryptPart_keeps (a : Actor) (data : Data) :
    SameCdn a (decryptPart aes kind a data).1 ∧
      (decryptPart aes kind a data).1.downloadingParts = a.downloadingParts ∧
      (a.decrypts = false → (decryptPart aes kind a data).2.1 = data) ∧
      ∀ op ∈ (decryptPart aes kind a data).2.2, Checked sha256 a op := by
  unfold decryptPart
  split
  · rename_i key iv hkey hiv
    have hdecrypts : a.decrypts = true := by
      unfold Actor.decrypts
      rw [hkey, hiv]
      rfl
    refine ⟨⟨rfl, rfl, rfl, ?_, fun _ hr => .inl hr⟩, rfl, ?_, fun op hop => ?_⟩
    · unfold Actor.decrypts
      rw [hiv]
      rfl
    · intro hno
      rw [hdecrypts] at hno
      cases hno
    · unfold storeIv at hop
      cases kind with
      | multipart =>
        rw [List.mem_singleton.1 hop]
        trivial
      | video => cases hop
  · exact ⟨SameCdn.refl a, rfl, fun _ => rfl, fun _ hop => by cases hop⟩

theorem commitPart_keeps (a : Actor) {part : PartInfo} {data : Data}
    (hdata : part.downloadedData = some data) :
    SameCdn a (commitPart sha256 aes kind a part data).1 ∧
      (∀ op ∈ (commitPart sha256 aes kind a part data).2, Checked sha256 a op) ∧
      (commitPart sha256 aes kind a part data).1.downloadingParts.Sublist a.downloadingParts ∧
      ((commitPart sha256 aes kind a part data).1.status = .failed ∨
        (commitPart sha256 aes kind a part data).1.downloadingParts =
          a.downloadingParts.filter (·.partOffset ≠ part.partOffset)) := by
  obtain ⟨hsame, hparts, hplain, hops⟩ :=
    decryptPart_keeps sha256 aes kind a data
  unfold commitPart
  dsimp only
  split
  · rename_i hmatch
    rw [hsame.hashes] at hmatch
    refine ⟨⟨hsame.fileData, hsame.hashes, hsame.hashRequest, hsame.decrypts, hsame.requests⟩,
      fun op hop => ?_, by rw [hparts]; exact List.filter_sublist, .inr (by rw [hparts])⟩
    rcases List.mem_append.1 hop with hop | hop
    · exact hops op hop
    · rw [List.mem_singleton.1 hop]
      exact ⟨hmatch, fun hno => by rw [hdata, hplain hno]⟩
  · exact ⟨⟨hsame.fileData, hsame.hashes, hsame.hashRequest, hsame.decrypts, hsame.requests⟩,
      hops, hparts ▸ List.Sublist.refl _, .inl rfl⟩

/-- What a pass over some offsets does. -/
structure Passes (sha256 : Data → Data) (offsets : List Nat) (a : Actor)
    (r : Bool × Actor × List FileOp) : Prop where
  same : SameCdn a r.2.1
  ops : ∀ op ∈ r.2.2, Checked sha256 a op
  parts : r.2.1.downloadingParts.Sublist a.downloadingParts
  shrinks : r.1 = true → r.2.1.status = .failed ∨
    r.2.1.downloadingParts.length < a.downloadingParts.length
  idle : r.1 = false → r.2 = (a, []) ∧ (a.downloadedFileSize ∈ offsets → NextNotReady a)

theorem commitPass_keeps (offsets : List Nat) :
    ∀ a : Actor, Passes sha256 offsets a (commitPass sha256 aes kind offsets a) := by
  induction offsets with
  | nil =>
    intro a
    exact ⟨SameCdn.refl a, fun _ hop => (by cases hop), List.Sublist.refl _,
      fun hfalse => (by cases hfalse), fun _ => ⟨rfl, fun hmem => (by cases hmem)⟩⟩
  | cons offset offsets ih =>
    intro a
    rw [commitPass]
    split
    · rename_i hne
      have hrest := ih a
      refine ⟨hrest.same, hrest.ops, hrest.parts, hrest.shrinks, fun hidle => ?_⟩
      obtain ⟨hsame, hnot⟩ := hrest.idle hidle
      exact ⟨hsame, fun hmem => hnot ((List.mem_cons.1 hmem).resolve_left (Ne.symm hne))⟩
    · rename_i hat
      have hat : offset = a.downloadedFileSize := not_not.1 hat
      split
      · rename_i hnone
        refine ⟨SameCdn.refl a, fun _ hop => (by cases hop), List.Sublist.refl _,
          fun hfalse => (by cases hfalse), fun _ => ⟨rfl, fun _ part hpart => ?_⟩⟩
        rw [hat, Option.mem_def.1 hpart, Option.bind_some, Option.map_eq_none_iff] at hnone
        exact hnone
      · rename_i part data hsome
        obtain ⟨p, hpart, hmap⟩ := Option.bind_eq_some_iff.1 hsome
        obtain ⟨_, hdata, hpair⟩ := Option.map_eq_some_iff.1 hmap
        cases hpair
        obtain ⟨hsame, hops, hsub, hend⟩ :=
          commitPart_keeps sha256 aes kind a hdata
        dsimp only
        split
        · rename_i hfailed
          exact ⟨hsame, hops, hsub, fun _ => .inl hfailed, fun hfalse => by cases hfalse⟩
        · rename_i hgoes
          have hparts := hend.resolve_left hgoes
          have hrest := ih (commitPart sha256 aes kind a part data).1
          have hless : (commitPart sha256 aes kind a part data).1.downloadingParts.length <
              a.downloadingParts.length := by
            rw [hparts]
            exact List.length_filter_lt_length_iff_exists.2
              ⟨part, List.mem_of_find?_eq_some hpart, by simp⟩
          refine ⟨hsame.trans hrest.same, fun op hop => ?_, ?_, fun _ => .inr ?_,
            fun hfalse => by cases hfalse⟩
          · rcases List.mem_append.1 hop with hop | hop
            · exact hops op hop
            · exact (hrest.ops op hop).congr hsame
          · exact hrest.parts.trans hsub
          · exact Nat.lt_of_le_of_lt hrest.parts.length_le hless

/-- The passes write all parts that can be written, or the download fails. -/
theorem commitLoop_keeps (offsets : List Nat) (fuel : Nat) :
    ∀ a : Actor, a.downloadingParts.length < fuel →
      (∀ p ∈ a.downloadingParts, p.partOffset ∈ offsets) →
      SameCdn a (commitLoop sha256 aes kind offsets fuel a).1 ∧
        (∀ op ∈ (commitLoop sha256 aes kind offsets fuel a).2, Checked sha256 a op) ∧
        ((commitLoop sha256 aes kind offsets fuel a).1.status ≠ .failed →
          NextNotReady (commitLoop sha256 aes kind offsets fuel a).1) := by
  induction fuel with
  | zero => exact fun a hfuel => absurd hfuel (Nat.not_lt_zero _)
  | succ fuel ih =>
    intro a hfuel hoffsets
    have hpass := commitPass_keeps sha256 aes kind offsets a
    rw [commitLoop]
    generalize commitPass sha256 aes kind offsets a = r at hpass ⊢
    obtain ⟨hadCommit, a', ops⟩ := r
    dsimp only
    split
    · rename_i hgoes
      have hless := (hpass.shrinks hgoes.1).resolve_left hgoes.2
      obtain ⟨hsame, hops, hnot⟩ := ih a' (by dsimp only at hless; omega)
        fun p hp => hoffsets p (hpass.parts.subset hp)
      refine ⟨hpass.same.trans hsame, fun op hop => ?_, hnot⟩
      rcases List.mem_append.1 hop with hop | hop
      · exact hpass.ops op hop
      · exact (hops op hop).congr hpass.same
    · rename_i hends
      refine ⟨hpass.same, hpass.ops, fun hgoes => ?_⟩
      have hidle : hadCommit = false := by
        grind
      obtain ⟨hsame, hnot⟩ := hpass.idle hidle
      cases hsame
      intro part hpart
      have hfound : a.part a.downloadedFileSize = some part := hpart
      have hat : part.partOffset = a.downloadedFileSize := by
        simpa using List.find?_some hfound
      have hmem := hoffsets part (List.mem_of_find?_eq_some hfound)
      exact hnot (hat ▸ hmem) part hpart

/-- A block that arrives: what is written has passed the check, and a block that is next
and was not written has ended the download. -/
theorem filePartDownloadSuccess_keeps (a : Actor) (offset length : Nat) (data : Data) :
    SameCdn a (filePartDownloadSuccess sha256 aes kind a offset length data).1 ∧
      (∀ op ∈ (filePartDownloadSuccess sha256 aes kind a offset length data).2,
        Checked sha256 a op) ∧
      ((filePartDownloadSuccess sha256 aes kind a offset length data).1.status ≠ .failed →
        NextNotReady (filePartDownloadSuccess sha256 aes kind a offset length data).1) := by
  have hsized : SameCdn a
      (if kind = .multipart ∧ a.size = 0 ∧ data.length < length then
        { a with size := a.downloadedFileSize + data.length } else a) := by
    split
    · exact ⟨rfl, rfl, rfl, rfl, fun _ hr => .inl hr⟩
    · exact SameCdn.refl a
  unfold filePartDownloadSuccess
  dsimp only
  generalize (if kind = .multipart ∧ a.size = 0 ∧ data.length < length then
    { a with size := a.downloadedFileSize + data.length } else a) = b at hsized ⊢
  split
  · have hstored : SameCdn a (storeData b offset data) :=
      hsized.trans ⟨rfl, rfl, rfl, rfl, fun _ hr => .inl hr⟩
    have hmem : ∀ p ∈ (storeData b offset data).downloadingParts,
        p.partOffset ∈ sortedDownloadingParts (storeData b offset data) := by
      intro p hp
      exact (List.mem_insertionSort _).2 (List.mem_map_of_mem hp)
    obtain ⟨hsame, hops, hnot⟩ := commitLoop_keeps sha256 aes kind
      (sortedDownloadingParts (storeData b offset data))
      ((storeData b offset data).downloadingParts.length + 1) (storeData b offset data)
      (Nat.lt_succ_self _) hmem
    generalize commitLoop sha256 aes kind (sortedDownloadingParts (storeData b offset data))
      ((storeData b offset data).downloadingParts.length + 1) (storeData b offset data) = r
      at hsame hops hnot ⊢
    obtain ⟨c, ops⟩ := r
    dsimp only at hsame hops hnot ⊢
    have hkept := hstored.trans hsame
    split
    · rename_i hfailed
      exact ⟨hkept, fun op hop => (hops op hop).congr hstored, fun hgoes => absurd hfailed hgoes⟩
    · rename_i hgoes
      obtain ⟨hnot', hsame', hops'⟩ :=
        downloadFileParts_keeps sha256 kind (hnot hgoes)
      refine ⟨hkept.trans hsame', fun op hop => ?_, fun _ => hnot'⟩
      rcases List.mem_append.1 hop with hop | hop
      · exact (hops op hop).congr hstored
      · exact (hops' op hop).congr hkept
  · exact ⟨⟨hsized.fileData, hsized.hashes, hsized.hashRequest, hsized.decrypts, hsized.requests⟩,
      fun _ hop => (by cases hop), fun hgoes => absurd rfl hgoes⟩

end Parts

section Runs

variable {sha256 : Data → Data} {aes : Data → Equiv.Perm (BitVec 128)} {kind : Kind}

/-- The table of hashes holds what was given, and there is one before the first block comes
from the CDN. -/
structure Sound (kind : Kind) (a : Actor) (audit : Audit) : Prop where
  table : ∀ hashes, a.cdnFilePartHashes = some hashes → hashes ⊆ audit.given
  known : ∀ request, a.hashRequest = some request → request.2 ⊆ audit.given
  switched : kind = .multipart → a.cdnFileData.isSome → a.cdnFilePartHashes.isSome
  requests : ∀ r ∈ a.partRequests, r.cdnToken.isSome → a.cdnFileData.isSome
  blocks : ∀ block ∈ audit.cdnBlocks, kind = .multipart ∧ a.cdnFileData.isSome ∧
    a.decrypts = false ∧ CutsPieces block.1 block.2.length
  notReady : a.status ≠ .failed → NextNotReady a

variable {a : Actor} {audit : Audit}

theorem Sound.congr {a' : Actor} (h : Sound kind a audit) (hsame : SameCdn a a')
    (hnot : a'.status ≠ .failed → NextNotReady a') : Sound kind a' audit where
  table := by
    rw [hsame.hashes]
    exact h.table
  known := by
    rw [hsame.hashRequest]
    exact h.known
  switched := by
    rw [hsame.fileData, hsame.hashes]
    exact h.switched
  requests := by
    intro r hr htoken
    rw [hsame.fileData]
    rcases hsame.requests r hr with hr | hnew
    · exact h.requests r hr htoken
    · rw [hnew, Option.isSome_map] at htoken
      exact htoken
  blocks := by
    rw [hsame.fileData, hsame.decrypts]
    exact h.blocks
  notReady := hnot

/-- A block from the CDN that has passed the check is verified. -/
theorem Sound.writeVerified (h : Sound kind a audit) {op : FileOp} (hop : Checked sha256 a op)
    : WriteVerified sha256 audit op := by
  unfold WriteVerified
  split
  · rename_i part data
    intro block hblock hcdn
    obtain ⟨hmatch, hplain⟩ := hop
    obtain ⟨hkind, hfileData, hdecrypts, hcuts⟩ := h.blocks _ hcdn
    obtain ⟨hashes, htable⟩ := Option.isSome_iff_exists.1 (h.switched hkind hfileData)
    have hdata : data = block := by
      have heq := (hplain hdecrypts).symm.trans hblock
      exact Option.some.inj heq
    subst hdata
    refine ⟨rfl, fun l hl => h.table hashes htable ?_⟩
    have hpiece := hmatch
    unfold hashesMatch at hpiece
    rw [htable] at hpiece
    have hpiece := List.all_eq_true.1 hpiece l hl
    unfold pieceMatches at hpiece
    split at hpiece
    · cases hpiece
    · rename_i hash hfound
      have hhash := beq_iff_eq.1 hpiece
      have hlocal : (if part.partOffset + l + 128 * 1024 > data.length then data.drop l
          else (data.drop l).take (128 * 1024)) = (data.drop l).take (128 * 1024) := by
        split
        · rename_i hover
          have hcut := hcuts l hl hover
          rw [List.take_of_length_le]
          rw [List.length_drop]
          dsimp only at hcut
          omega
        · rfl
      rw [hlocal] at hhash
      rw [hhash]
      exact dictionary_mem hfound
  · trivial

theorem length_cdnData (fileData : CdnFileData) (offset : Nat) (bytes : Data) :
    (cdnData aes kind fileData offset bytes).length = bytes.length := by
  have hlength : (aesCtrDecrypt aes bytes fileData.encryptionKey
      (partIv fileData offset)).length = bytes.length := TransportCipher.length_encrypt _ _ _
  unfold cdnData
  cases kind with
  | multipart =>
    grind
  | video => exact hlength

theorem length_receivedBlock {fileData : Option CdnFileData} {offset : Nat} {answer : Answer}
    {block : Data} (h : receivedBlock aes kind fileData offset answer = some block) :
    ∃ bytes, answer.bytes = some bytes ∧ bytes.length = block.length := by
  unfold receivedBlock at h
  split at h
  · rename_i bytes
    exact ⟨bytes, rfl, congrArg List.length (Option.some.inj h)⟩
  · rename_i bytes
    obtain ⟨f, _, hblock⟩ := Option.map_eq_some_iff.1 h
    exact ⟨bytes, rfl, by rw [← hblock, length_cdnData]⟩
  · cases h

theorem Sound.given (h : Sound kind a audit) (hashes : PartHashes) :
    Sound kind a { audit with given := audit.given ++ hashes } where
  table known hknown := List.subset_append_of_subset_left _ (h.table known hknown)
  known request hrequest := List.subset_append_of_subset_left _ (h.known request hrequest)
  switched := h.switched
  requests := h.requests
  blocks := h.blocks
  notReady := h.notReady

variable (aes) in
/-- What is said with an event does not depend on what becomes of it. -/
theorem Sound.after (h : Sound kind a audit) {event : Event} (hcheck : Checkable kind a event)
    : Sound kind a (audit.after aes kind a event) := by
  unfold Audit.after
  split
  · rename_i index answer
    split
    · exact h
    · rename_i r hr
      unfold Audit.answered
      split
      · rename_i htoken
        have hfileData := h.requests r (List.mem_of_getElem? hr) htoken
        have hcheck := hcheck r hr htoken
        refine ⟨h.table, h.known, h.switched, h.requests, fun block hblock => ?_, h.notReady⟩
        rcases List.mem_append.1 hblock with hblock | hblock
        · exact h.blocks block hblock
        · obtain ⟨data, hdata, rfl⟩ := Option.map_eq_some_iff.1 (Option.mem_toList.1 hblock)
          obtain ⟨bytes, hbytes, hlength⟩ := length_receivedBlock hdata
          cases kind with
          | multipart =>
            obtain ⟨hdecrypts, hcuts⟩ := hcheck.2 bytes hbytes
            exact ⟨rfl, hfileData, hdecrypts, hlength ▸ hcuts⟩
          | video =>
            rw [show answer.bytes = none from hcheck] at hbytes
            cases hbytes
      · cases answer with
        | cdnRedirect fileData hashes => exact h.given hashes
        | _ => exact h
  · split
    · exact h.given _
    · exact h
  · exact h

theorem NextNotReady.markRestart (h : NextNotReady a) (offset : Nat) :
    NextNotReady (markRestart a offset) := by
  intro part hpart
  have hpart : (a.downloadingParts.map fun p =>
      if p.partOffset = offset then { p with restart := true } else p).find?
        (·.partOffset == a.downloadedFileSize) = some part := hpart
  rw [List.find?_map] at hpart
  obtain ⟨p, hp, rfl⟩ := Option.map_eq_some_iff.1 hpart
  have hfound : a.downloadingParts.find? (·.partOffset == a.downloadedFileSize) = some p := by
    rw [← hp]
    congr 1
    funext q
    dsimp only [Function.comp]
    split <;> rfl
  have hnone := h p hfound
  split <;> exact hnone

theorem Sound.switchToCdn (h : Sound kind a audit)
    (htable : kind = .multipart → a.cdnFilePartHashes.isSome) (fileData : CdnFileData) :
    Sound kind (switchToCdn a fileData) audit := by
  unfold PartDownload.switchToCdn
  split
  · exact h
  · exact ⟨h.table, h.known, fun hkind _ => htable hkind, fun _ _ _ => rfl,
      fun block hblock => ⟨(h.blocks block hblock).1, rfl, (h.blocks block hblock).2.2⟩, h.notReady⟩

theorem Sound.switchToCdnWithFileData (h : Sound kind a audit) {hashes : PartHashes}
    (hgiven : hashes ⊆ audit.given) (fileData : CdnFileData) :
    Sound kind (switchToCdnWithFileData a fileData hashes) audit := by
  unfold PartDownload.switchToCdnWithFileData
  split
  · refine ⟨h.table, fun request hrequest => ?_, h.switched, h.requests, h.blocks, h.notReady⟩
    cases hrequest
    exact hgiven
  · have hset : Sound kind { a with cdnFilePartHashes := some hashes } audit := by
      refine ⟨fun known hknown => ?_, h.known, fun _ _ => rfl, h.requests, h.blocks, h.notReady⟩
      cases hknown
      exact hgiven
    exact hset.switchToCdn (fun _ => rfl) fileData

theorem answered_sound (h : Sound kind a audit) (hrunning : a.status = .running) (r : PartRequest)
    {answer : Answer}
    (hredirect : kind = .multipart → ∀ fileData hashes, answer = .cdnRedirect fileData hashes →
      hashes ⊆ audit.given) :
    (∀ op ∈ (answered sha256 aes kind a r answer).2, WriteVerified sha256 audit op) ∧
      Sound kind (answered sha256 aes kind a r answer).1 audit := by
  have hnot : NextNotReady a := h.notReady (by rw [hrunning]; decide)
  have hidle : ∀ op ∈ ([] : List FileOp), WriteVerified sha256 audit op :=
    fun _ hop => by cases hop
  have hblock : ∀ data,
      (∀ op ∈ (filePartDownloadSuccess sha256 aes kind a r.offset r.length data).2,
        WriteVerified sha256 audit op) ∧
        Sound kind (filePartDownloadSuccess sha256 aes kind a r.offset r.length data).1 audit := by
    intro data
    obtain ⟨hsame, hops, hnext⟩ :=
      filePartDownloadSuccess_keeps sha256 aes kind a r.offset r.length data
    exact ⟨fun op hop => h.writeVerified (hops op hop), h.congr hsame hnext⟩
  have hrestart : Sound kind (markRestart a r.offset) audit :=
    h.congr ⟨rfl, rfl, rfl, rfl, fun _ hr => .inl hr⟩ fun _ => hnot.markRestart r.offset
  cases answer with
  | file bytes => exact hblock bytes
  | cdnFile bytes =>
    unfold answered
    cases hfileData : a.cdnFileData with
    | none => exact ⟨hidle, h⟩
    | some fileData => exact hblock _
  | cdnRedirect fileData hashes =>
    refine ⟨by cases kind <;> exact hidle, ?_⟩
    cases kind with
    | multipart => exact hrestart.switchToCdnWithFileData (hredirect rfl _ _ rfl) fileData
    | video => exact hrestart.switchToCdn (fun hkind => by cases hkind) fileData
  | cdnFileReuploadNeeded =>
    refine ⟨hidle, ?_⟩
    show Sound kind (reuploadToCdn (markRestart a r.offset)) audit
    unfold reuploadToCdn
    split
    · exact hrestart
    · exact hrestart.congr ⟨rfl, rfl, rfl, rfl, fun _ hr => .inl hr⟩ hrestart.notReady
  | other => exact ⟨hidle, h⟩
  | error =>
    exact ⟨hidle, h.congr ⟨rfl, rfl, rfl, rfl, fun _ hr => .inl hr⟩
      fun hgoes => absurd rfl hgoes⟩

theorem downloadFileParts_sound {a' : Actor} (h : Sound kind a audit)
    (hrunning : a.status = .running) (hsame : SameCdn a a') (hparts : a'.downloadingParts =
      a.downloadingParts) (hsize : a'.downloadedFileSize = a.downloadedFileSize) :
    (∀ op ∈ (downloadFileParts kind a').2, WriteVerified sha256 audit op) ∧
      Sound kind (downloadFileParts kind a').1 audit := by
  have hnot : NextNotReady a' := by
    have hbefore := h.notReady (by rw [hrunning]; decide)
    unfold NextNotReady Actor.part at hbefore ⊢
    rw [hparts, hsize]
    exact hbefore
  have h' := h.congr hsame fun _ => hnot
  obtain ⟨hnext, hkept, hops⟩ := downloadFileParts_keeps sha256 kind hnot
  exact ⟨fun op hop => h'.writeVerified (hops op hop), h'.congr hkept fun _ => hnext⟩

/-- A step of an actor that lives, after what is said with its event. -/
theorem runningStep_sound (h : Sound kind a audit) (hrunning : a.status = .running) {event : Event}
    (hcheck : Checkable kind a event) :
    (∀ op ∈ (runningStep sha256 aes kind a event).2,
        WriteVerified sha256 (audit.after aes kind a event) op) ∧
      Sound kind (runningStep sha256 aes kind a event).1 (audit.after aes kind a event) := by
  have hsaid := h.after aes hcheck
  have hidle : (∀ op ∈ ([] : List FileOp),
      WriteVerified sha256 (audit.after aes kind a event) op) ∧
        Sound kind a (audit.after aes kind a event) :=
    ⟨fun _ hop => (by cases hop), hsaid⟩
  have hsame : ∀ a' : Actor, a'.cdnFileData = a.cdnFileData →
      a'.cdnFilePartHashes = a.cdnFilePartHashes → a'.hashRequest = a.hashRequest →
      a'.decrypts = a.decrypts → a'.partRequests = a.partRequests → SameCdn a a' :=
    fun a' hdata hhashes hrequest hdecrypts hrequests =>
      ⟨hdata, hhashes, hrequest, hdecrypts, fun _ hr => .inl (hrequests ▸ hr)⟩
  cases event with
  | worker1 =>
    unfold runningStep
    dsimp only
    split
    · exact hidle
    · exact downloadFileParts_sound hsaid hrunning (hsame _ rfl rfl rfl rfl rfl) rfl rfl
  | worker2 =>
    unfold runningStep
    dsimp only
    split
    · exact hidle
    · exact downloadFileParts_sound hsaid hrunning (hsame _ rfl rfl rfl rfl rfl) rfl rfl
  | reuploaded =>
    unfold runningStep
    dsimp only
    split
    · exact downloadFileParts_sound hsaid hrunning (hsame _ rfl rfl rfl rfl rfl) rfl rfl
    · exact hidle
  | hashesReceived hashes =>
    refine ⟨hidle.1, ?_⟩
    show Sound kind (hashesReceived a hashes) _
    unfold hashesReceived
    split
    · exact hsaid
    · rename_i fileData known hrequest
      have hgiven : (audit.after aes kind a (.hashesReceived hashes)).given =
          audit.given ++ hashes := by
        unfold Audit.after
        dsimp only
        rw [if_pos (by rw [hrequest]; rfl)]
      have hcleared : Sound kind { a with hashRequest := none }
          (audit.after aes kind a (.hashesReceived hashes)) :=
        ⟨hsaid.table, fun _ hnone => (by cases hnone), hsaid.switched, hsaid.requests,
          hsaid.blocks, hsaid.notReady⟩
      refine hcleared.switchToCdnWithFileData ?_ fileData
      rw [hgiven]
      exact List.append_subset.2 ⟨List.subset_append_of_subset_left _ (h.known _ hrequest),
        List.subset_append_right _ _⟩
  | answered index answer =>
    unfold runningStep
    dsimp only
    split
    · exact hidle
    · rename_i r hr
      have hasked : Sound kind { a with partRequests := a.partRequests.eraseIdx index }
          (audit.after aes kind a (.answered index answer)) :=
        hsaid.congr ⟨rfl, rfl, rfl, rfl, fun _ hr => .inl (List.mem_of_mem_eraseIdx hr)⟩
          hsaid.notReady
      refine answered_sound hasked hrunning r ?_
      intro hkind fileData hashes hredirect
      subst hkind hredirect
      have hown : ¬ r.cdnToken.isSome = true :=
        fun htoken => Bool.noConfusion (hcheck r hr htoken).1
      have hgiven : (audit.after aes .multipart a
          (.answered index (.cdnRedirect fileData hashes))).given = audit.given ++ hashes := by
        unfold Audit.after
        dsimp only
        rw [hr]
        unfold Audit.answered
        dsimp only
        rw [if_neg hown]
      rw [hgiven]
      exact List.subset_append_right _ _

theorem step_checks {s : Audited} (h : Sound kind s.actor s.audit) {event : Event}
    (hcheck : Checkable kind s.actor event) :
    Checks sha256 aes kind s event ∧
      Sound kind (auditedStep sha256 aes kind s event).actor
        (auditedStep sha256 aes kind s event).audit := by
  have hstep : (∀ op ∈ (actorStep sha256 aes kind s.actor event).2,
      WriteVerified sha256 (s.audit.after aes kind s.actor event) op) ∧
        Sound kind (actorStep sha256 aes kind s.actor event).1
          (s.audit.after aes kind s.actor event) := by
    unfold actorStep
    split
    · rename_i hrunning
      exact runningStep_sound h hrunning hcheck
    · exact ⟨fun _ hop => (by cases hop), h.after aes hcheck⟩
  refine ⟨⟨hstep.1, ?_, ?_⟩, hstep.2⟩
  · intro part hpart hsome
    by_contra hgoes
    have hnone := hstep.2.notReady hgoes part hpart
    rw [hnone] at hsome
    cases hsome
  · intro hfailed
    have hdead : actorStep sha256 aes kind s.actor event = (s.actor, []) := by
      unfold actorStep
      rw [if_neg (by rw [hfailed]; decide)]
    exact ⟨congrArg Prod.fst hdead, congrArg Prod.snd hdead⟩

/-- In a run whose CDN answers can all be checked, all blocks are. -/
theorem guarded_checks (o : Options) (files : Files) (events : List Event)
    (hcheck : Guarded (auditedStep sha256 aes kind) (fun s => Checkable kind s.actor)
      (auditedStart kind o files) events) :
    Guarded (auditedStep sha256 aes kind) (Checks sha256 aes kind) (auditedStart kind o files)
      events := by
  have hstep : ∀ s event, Sound kind s.actor s.audit → Checkable kind s.actor event →
      Checks sha256 aes kind s event ∧ Sound kind (auditedStep sha256 aes kind s event).actor
        (auditedStep sha256 aes kind s event).audit := fun s event h hg => step_checks h hg
  refine guarded_mono hstep events _ ?_ hcheck
  show Sound kind (execute kind o files).1 {}
  rw [(execute_eq kind o files).1]
  exact ⟨fun _ hnone => (by cases hnone), fun _ hnone => (by cases hnone),
    fun _ hnone => (by cases hnone), fun _ hr => (by cases hr), fun _ hb => (by cases hb),
    fun _ _ hp => (by cases hp)⟩

end Runs

end TelegramPub.Ports.PartDownload
