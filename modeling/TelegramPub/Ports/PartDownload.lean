import TelegramPub.Verified.IgeChain
import TelegramPub.Verified.Machine
import TelegramPub.Ports.MessageTransaction
import TelegramPub.Ports.TransportCipher
import Mathlib.Data.List.Sort

/-!
# Downloads in parts

`TGMultipartFileDownloadActor` and `TGVideoDownloadActor` download a file in parts of
128 KB, up to four at a time, and append them in order to a partial file.  The two
are copies of each other; `Kind` says which one is meant where they differ.

A part is asked for with `upload.getFile`.  The datacenter may answer with a redirect
to a CDN: the part is marked with `restart`, and from then on the parts are asked for
with `upload.getCdnFile`.  The CDN in turn may ask for the file to be uploaded to it
again.

An actor lives on the stage queue.  What it waits for is part of its state: the part
requests, the requests for its two workers, the request for further hashes and the
re-upload.  Once it has completed or failed it is released, and answers that still
come find no actor.  Its changes to the file system are a list of operations.
Speed samples and progress are left out.  Sizes and offsets are natural numbers: in a file
below `2 ^ 31 - 2 ^ 17` bytes the `int` of the source does not overflow.
-/

namespace TelegramPub.Ports.PartDownload

open Verified.Bytes Verified.Ige Verified.IgeChain
open Ports.MessageTransaction (dictionary)

inductive Kind where
  /-- `TGMultipartFileDownloadActor` -/
  | multipart
  /-- `TGVideoDownloadActor` -/
  | video
  deriving DecidableEq

/-- `preferredPartSize`. -/
def preferredPartSize : Nat := 128 * 1024

/-- An initialization vector of IGE. -/
abbrev Iv := { bytes : Data // bytes.length = 32 }

/-- `TGCdnFileData`. -/
structure CdnFileData where
  cdnId : Int
  token : Data
  encryptionKey : Data
  encryptionIv : Data
  deriving DecidableEq

/-- `_cdnFilePartHashes`, a dictionary filled by the listed assignments. -/
abbrev PartHashes := List (Int × Data)

/-- `TGFilePartInfo` and `TGVideoPartData`. -/
structure PartInfo where
  partOffset : Nat
  partLength : Nat
  downloadedData : Option Data := none
  restart : Bool := false
  deriving DecidableEq

/-- A request for a part.  `cdnToken` is set for `upload.getCdnFile`. -/
structure PartRequest where
  offset : Nat
  length : Nat
  limit : Nat
  cdnToken : Option Data
  deriving DecidableEq

/-- The result of a part request.  The class of the result is all that is looked at,
whatever the request was. -/
inductive Answer where
  /-- `upload.file` -/
  | file (bytes : Data)
  /-- `upload.fileCdnRedirect` -/
  | cdnRedirect (fileData : CdnFileData) (hashes : PartHashes)
  /-- `upload.cdnFile` -/
  | cdnFile (bytes : Data)
  /-- `upload.cdnFileReuploadNeeded` -/
  | cdnFileReuploadNeeded
  /-- A result of another class. -/
  | other
  | error
  deriving DecidableEq

inductive Status where
  | running
  | completed
  | failed
  deriving DecidableEq

/-- Operations on the partial file, its `.info` file and the stored file.  Data are
appended for a part. -/
inductive FileOp where
  | createPartial
  | appendPartial (part : PartInfo) (data : Data)
  | openInfo
  | appendInfo (iv : Data)
  | removeInfo
  | copyToStore
  | removePartial
  | moveToStore
  deriving DecidableEq

/-- What an actor is asked for. -/
structure Options where
  size : Nat
  decryptedSize : Nat := 0
  encryptionKey : Option Data := none
  encryptionIv : Option Iv := none
  /-- An encrypted round message, for `TGVideoDownloadActor` -/
  roundMessage : Bool := false

/-- The instance variables, and what the actor waits for. -/
structure Actor where
  size : Nat
  decryptedSize : Nat
  encryptionKey : Option Data
  runningEncryptionIv : Option Iv
  downloadedFileSize : Nat
  downloadingParts : List PartInfo := []
  explicitDownloadParts : List (Nat × Nat) := []
  worker1 : Bool := false
  worker2 : Bool := false
  cdnFileData : Option CdnFileData := none
  cdnFilePartHashes : Option PartHashes := none
  isReuploading : Bool := false
  partRequests : List PartRequest := []
  worker1Requests : Nat := 1
  worker2Requests : Nat := 1
  /-- The request for hashes, with the hashes that are already known. -/
  hashRequest : Option (CdnFileData × PartHashes) := none
  reupload : Bool := false
  status : Status := .running

/-! ## Requesting parts -/

/-- The loop that rounds a limit up. -/
def updatedLimitFrom : Nat → Nat → Nat
  | 0, updatedLimit => updatedLimit
  | fuel + 1, updatedLimit =>
    if updatedLimit % 4096 ≠ 0 ∨ 1048576 % updatedLimit ≠ 0 then
      updatedLimitFrom fuel (updatedLimit + 1)
    else updatedLimit

/-- `updatedLimit`: the next multiple of 4096 that divides a megabyte. -/
def updatedLimit (length : Nat) : Nat := updatedLimitFrom (1048576 - length) length

/-- `_downloadingParts[@(offset)]`.  The parts are keyed by their offset. -/
def Actor.part (a : Actor) (offset : Nat) : Option PartInfo :=
  a.downloadingParts.find? (·.partOffset == offset)

/-- `_downloadingParts[@(part.partOffset)] = part`. -/
def setPart (parts : List PartInfo) (part : PartInfo) : List PartInfo :=
  if parts.any (·.partOffset == part.partOffset) then
    parts.map fun p => if p.partOffset = part.partOffset then part else p
  else parts ++ [part]

/-- A part that is waited for. -/
def PartInfo.isActive (part : PartInfo) : Bool := part.downloadedData.isNone && !part.restart

/-- `nextDownloadOffset`: the end of the last part. -/
def nextDownloadOffset (a : Actor) : Nat :=
  a.downloadingParts.foldl (fun next p => max next (p.partOffset + p.partLength))
    a.downloadedFileSize

/-- A new part and its request. -/
def Actor.addPart (a : Actor) (offset length : Nat) : Actor :=
  { a with
    downloadingParts := setPart a.downloadingParts { partOffset := offset, partLength := length } }

/-- The parts that are marked with `restart`. -/
def restartList (a : Actor) : List (Nat × Nat) :=
  (a.downloadingParts.filter (·.restart)).map fun p => (p.partOffset, p.partLength)

def Actor.clearRestart (a : Actor) : Actor :=
  { a with downloadingParts := a.downloadingParts.map ({ · with restart := false }) }

/-- The loop that fills `requestList`, for the given number of parts. -/
def requestLoop : Nat → Actor → List (Nat × Nat) → Actor × List (Nat × Nat)
  | 0, a, requestList => (a, requestList)
  | n + 1, a, requestList =>
    match a.explicitDownloadParts with
    | (offset, length) :: explicitDownloadParts =>
      requestLoop n ({ a with explicitDownloadParts }.addPart offset length)
        (requestList ++ [(offset, length)])
    | [] =>
      let next := nextDownloadOffset a
      let requestList := requestList ++ restartList a
      let a := a.clearRestart
      if a.size ≠ 0 ∧ a.size ≤ next then (a, requestList)
      else
        let partLength :=
          if a.size = 0 then preferredPartSize
          else min preferredPartSize (a.size - a.downloadedFileSize)
        requestLoop n (a.addPart next partLength) (requestList ++ [(next, partLength)])

/-- The limit of parts that are waited for at once.  The size of a video is known. -/
def partLimit (a : Actor) : Nat := if a.size ≠ 0 then 4 else 1

/-- The part of `downloadFileParts` that sends requests. -/
def requestParts (a : Actor) : Actor :=
  let activeDownloadingParts := a.downloadingParts.countP (·.isActive)
  let (a, requestList) := requestLoop (partLimit a - activeDownloadingParts) a []
  { a with
    partRequests := a.partRequests ++ requestList.map fun (offset, length) =>
      { offset, length, limit := updatedLimit length, cdnToken := a.cdnFileData.map (·.token) } }

/-- The part of `downloadFileParts` for a file that is complete. -/
def complete (kind : Kind) (a : Actor) : Actor × List FileOp :=
  ({ a with status := .completed },
    match kind with
    | .multipart =>
      (if a.runningEncryptionIv.isSome then [.removeInfo] else []) ++
        [.copyToStore, .removePartial]
    | .video => [.moveToStore])

/-- `downloadFileParts`. -/
def downloadFileParts (kind : Kind) (a : Actor) : Actor × List FileOp :=
  match kind with
  | .multipart =>
    if !a.worker1 then (a, [])
    else if a.size ≠ 0 ∧ a.size ≤ a.downloadedFileSize then complete kind a
    else (requestParts a, [])
  | .video =>
    if a.size ≤ a.downloadedFileSize then complete kind a
    else if !a.worker1 || a.isReuploading then (a, [])
    else (requestParts a, [])

/-- `switchToCdn:`. -/
def switchToCdn (a : Actor) (fileData : CdnFileData) : Actor :=
  if a.cdnFileData.isSome then a
  else
    { a with
      cdnFileData := some fileData
      worker1 := false
      worker2 := false
      worker1Requests := a.worker1Requests + 1
      worker2Requests := a.worker2Requests + 1 }

/-- `maxOffset`: the end of the last piece with a hash. -/
def maxOffset (hashes : PartHashes) : Int :=
  hashes.foldl (fun maxOffset hash => max maxOffset (hash.1 + 128 * 1024)) 0

/-- `switchToCdnWithFileData:partHashes:`.  A new request for hashes replaces the one
before. -/
def switchToCdnWithFileData (a : Actor) (fileData : CdnFileData) (hashes : PartHashes) : Actor :=
  if maxOffset hashes < a.size then { a with hashRequest := some (fileData, hashes) }
  else switchToCdn { a with cdnFilePartHashes := some hashes } fileData

/-- The answer to a request for hashes. -/
def hashesReceived (a : Actor) (hashes : PartHashes) : Actor :=
  match a.hashRequest with
  | none => a
  | some (fileData, known) =>
    switchToCdnWithFileData { a with hashRequest := none } fileData (known ++ hashes)

/-- `reuploadToCdn:`. -/
def reuploadToCdn (a : Actor) : Actor :=
  if a.isReuploading then a else { a with isReuploading := true, reupload := true }

/-- `partInfo.restart = true`, if there is such a part. -/
def markRestart (a : Actor) (offset : Nat) : Actor :=
  { a with
    downloadingParts := a.downloadingParts.map fun p =>
      if p.partOffset = offset then { p with restart := true } else p }

section Crypto

variable (sha256 : Data → Data) (aes : Data → Equiv.Perm (BitVec 128))

/-- `MTAesCtrDecrypt`. -/
def aesCtrDecrypt (data key iv : Data) : Data :=
  (TransportCipher.encrypt (fun key block => bytesOf (aes key (blockOf block)))
    (TransportCipher.initWithKey key iv) data).2

/-- The initialization vector of a part: the last four bytes are the number of its first
block in network order. -/
def partIv (fileData : CdnFileData) (offset : Nat) : Data :=
  fileData.encryptionIv.take (fileData.encryptionIv.length - 4) ++
    (natLE 4 (offset / 16)).reverse

/-- The data of a part from the CDN. -/
def cdnData (kind : Kind) (fileData : CdnFileData) (offset : Nat) (bytes : Data) : Data :=
  match kind with
  | .multipart =>
    if bytes.length ≠ 0 then
      aesCtrDecrypt aes bytes fileData.encryptionKey (partIv fileData offset)
    else []
  | .video => aesCtrDecrypt aes bytes fileData.encryptionKey (partIv fileData offset)

/-! ## Committing parts -/

/-- `MTAesDecryptInplaceAndModifyIv` on the data of a part.  Only
`TGMultipartFileDownloadActor` looks at the length first. -/
def decryptRunning (kind : Kind) (key : Data) (iv : Iv) (data : Data) : Data × Iv :=
  if kind = .video ∨ data.length % 16 = 0 then
    (decryptBytes (aes key).symm iv.1 data,
      ⟨decryptIv (aes key).symm iv.1 data, length_decryptIv _ _ _⟩)
  else (data, iv)

/-- `setLength:` for data that reach over the decrypted size. -/
def cutPart (decryptedSize downloadedFileSize : Nat) (decryptedData : Data) : Data :=
  if decryptedSize ≠ 0 ∧ downloadedFileSize ≤ decryptedSize ∧
      decryptedSize < downloadedFileSize + decryptedData.length then
    decryptedData.take (decryptedSize - downloadedFileSize)
  else decryptedData

/-- What the running initialization vector is appended to. -/
def storeIv (kind : Kind) (iv : Iv) : List FileOp :=
  match kind with
  | .multipart => [.appendInfo iv.1]
  | .video => []

/-- The data that is written for a part, and the running initialization vector. -/
def decryptPart (kind : Kind) (a : Actor) (data : Data) : Actor × Data × List FileOp :=
  match a.encryptionKey, a.runningEncryptionIv with
  | some key, some iv =>
    let (decryptedData, runningEncryptionIv) := decryptRunning aes kind key iv data
    ({ a with runningEncryptionIv := some runningEncryptionIv },
      cutPart a.decryptedSize a.downloadedFileSize decryptedData,
      storeIv kind runningEncryptionIv)
  | _, _ => (a, data, [])

/-- The check of one piece. -/
def pieceMatches (hashes : PartHashes) (basePartOffset : Nat) (dataToWrite : Data)
    (localOffset : Nat) : Bool :=
  match dictionary hashes (basePartOffset + localOffset : Int) with
  | none => false
  | some hashData =>
    let localData :=
      if basePartOffset + localOffset + 128 * 1024 > dataToWrite.length then
        dataToWrite.drop localOffset
      else (dataToWrite.drop localOffset).take (128 * 1024)
    sha256 localData == hashData

/-- The pieces of some data. -/
def pieceOffsets (length : Nat) : List Nat :=
  (List.range ((length + (128 * 1024 - 1)) / (128 * 1024))).map (· * (128 * 1024))

/-- The check of the hashes, which is made when there are any. -/
def hashesMatch (cdnFilePartHashes : Option PartHashes) (basePartOffset : Nat)
    (dataToWrite : Data) : Bool :=
  match cdnFilePartHashes with
  | none => true
  | some hashes =>
    (pieceOffsets dataToWrite.length).all
      (pieceMatches sha256 hashes basePartOffset dataToWrite)

/-- The commit of a part with data.  `nextWriteOffset` is always `_downloadedFileSize`; for
the gap the length of the data is added to it twice. -/
def commitPart (kind : Kind) (a : Actor) (part : PartInfo) (data : Data) :
    Actor × List FileOp :=
  let (a, dataToWrite, ops) := decryptPart aes kind a data
  if hashesMatch sha256 a.cdnFilePartHashes part.partOffset dataToWrite then
    let downloadedFileSize := a.downloadedFileSize + data.length
    let gap :=
      if a.size ≠ 0 ∧ data.length < part.partLength ∧
          downloadedFileSize + data.length < a.size then
        [(downloadedFileSize, part.partLength - data.length)]
      else []
    ({ a with
        downloadedFileSize
        explicitDownloadParts := a.explicitDownloadParts ++ gap
        downloadingParts := a.downloadingParts.filter (·.partOffset ≠ part.partOffset) },
      ops ++ [.appendPartial part dataToWrite])
  else ({ a with status := .failed }, ops)

/-- One pass over the sorted offsets: whether a part was committed, and the result.  A
part without data, or one that is gone, ends the pass; a failed check ends everything. -/
def commitPass (kind : Kind) : List Nat → Actor → Bool × Actor × List FileOp
  | [], a => (false, a, [])
  | offset :: offsets, a =>
    if offset ≠ a.downloadedFileSize then commitPass kind offsets a
    else
      match (a.part offset).bind fun part => part.downloadedData.map fun data => (part, data) with
      | none => (false, a, [])
      | some (part, data) =>
        let (a, ops) := commitPart sha256 aes kind a part data
        if a.status = .failed then (true, a, ops)
        else
          let (_, a, ops') := commitPass kind offsets a
          (true, a, ops ++ ops')

/-- Passes until nothing is committed.  A pass that commits takes away a part, so their
number is enough fuel. -/
def commitLoop (kind : Kind) (offsets : List Nat) : Nat → Actor → Actor × List FileOp
  | 0, a => (a, [])
  | fuel + 1, a =>
    let (hadCommit, a, ops) := commitPass sha256 aes kind offsets a
    if hadCommit ∧ a.status ≠ .failed then
      let (a, ops') := commitLoop kind offsets fuel a
      (a, ops ++ ops')
    else (a, ops)

/-- `sortedDownloadingParts`. -/
def sortedDownloadingParts (a : Actor) : List Nat :=
  (a.downloadingParts.map (·.partOffset)).insertionSort (· ≤ ·)

/-- The data of a part is stored with it. -/
def storeData (a : Actor) (offset : Nat) (data : Data) : Actor :=
  { a with
    downloadingParts := a.downloadingParts.map fun p =>
      if p.partOffset = offset then { p with downloadedData := some data } else p }

/-- `filePartDownloadSuccess:offset:length:data:` and `videoPartDownloadSuccess:…`. -/
def filePartDownloadSuccess (kind : Kind) (a : Actor) (offset length : Nat) (data : Data) :
    Actor × List FileOp :=
  let a :=
    if kind = .multipart ∧ a.size = 0 ∧ data.length < length then
      { a with size := a.downloadedFileSize + data.length }
    else a
  if (a.part offset).isSome then
    let a := storeData a offset data
    let (a, ops) := commitLoop sha256 aes kind (sortedDownloadingParts a)
      (a.downloadingParts.length + 1) a
    if a.status = .failed then (a, ops)
    else
      let (a, ops') := downloadFileParts kind a
      (a, ops ++ ops')
  else ({ a with status := .failed }, [])

/-- The completion of a part request.  Nothing happens where the source would write through a
pointer before an empty buffer. -/
def answered (kind : Kind) (a : Actor) (r : PartRequest) : Answer → Actor × List FileOp
  | .file bytes => filePartDownloadSuccess sha256 aes kind a r.offset r.length bytes
  | .cdnRedirect fileData hashes =>
    let a := markRestart a r.offset
    match kind with
    | .multipart => (switchToCdnWithFileData a fileData hashes, [])
    | .video => (switchToCdn a fileData, [])
  | .cdnFile bytes =>
    match a.cdnFileData with
    | some fileData =>
      filePartDownloadSuccess sha256 aes kind a r.offset r.length
        (cdnData aes kind fileData r.offset bytes)
    | none => (a, [])
  | .cdnFileReuploadNeeded => (reuploadToCdn (markRestart a r.offset), [])
  | .other => (a, [])
  | .error => ({ a with status := .failed }, [])

inductive Event where
  | worker1
  | worker2
  /-- The part request at a position is answered. -/
  | answered (index : Nat) (answer : Answer)
  | hashesReceived (hashes : PartHashes)
  | reuploaded
  deriving DecidableEq

/-- A step of an actor that lives. -/
def runningStep (kind : Kind) (a : Actor) : Event → Actor × List FileOp
  | .worker1 =>
    if a.worker1Requests = 0 then (a, [])
    else
      downloadFileParts kind
        { a with worker1Requests := a.worker1Requests - 1, worker1 := true }
  | .worker2 =>
    if a.worker2Requests = 0 then (a, [])
    else
      downloadFileParts kind
        { a with worker2Requests := a.worker2Requests - 1, worker2 := true }
  | .answered index answer =>
    match a.partRequests[index]? with
    | none => (a, [])
    | some r =>
      answered sha256 aes kind { a with partRequests := a.partRequests.eraseIdx index } r
        answer
  | .hashesReceived hashes => (hashesReceived a hashes, [])
  | .reuploaded =>
    if a.reupload then
      downloadFileParts kind { a with reupload := false, isReuploading := false }
    else (a, [])

def actorStep (kind : Kind) (a : Actor) (event : Event) : Actor × List FileOp :=
  if a.status = .running then runningStep sha256 aes kind a event else (a, [])

end Crypto

/-- The partial file, its `.info` file and the stored file. -/
structure Files where
  partialFile : Option Data := none
  info : Option Data := none
  stored : Option Data := none
  deriving DecidableEq

/-- A file operation.  A file that exists is not overwritten by a copy or a move. -/
def Files.apply (files : Files) : FileOp → Files
  | .createPartial => { files with partialFile := some [] }
  | .appendPartial _ data => { files with partialFile := some (files.partialFile.getD [] ++ data) }
  | .openInfo => { files with info := some (files.info.getD []) }
  | .appendInfo iv => { files with info := some (files.info.getD [] ++ iv) }
  | .removeInfo => { files with info := none }
  | .copyToStore => { files with stored := files.stored.or files.partialFile }
  | .removePartial => { files with partialFile := none }
  | .moveToStore =>
    if files.stored.isSome then files
    else { files with stored := files.partialFile, partialFile := none }

def Files.applyAll (files : Files) (ops : List FileOp) : Files := ops.foldl Files.apply files

/-- `[[fileAttributes objectForKey:NSFileSize] intValue]`. -/
def Files.partialSize (files : Files) : Nat := (files.partialFile.getD []).length

/-- Whether the partial file cannot be resumed. -/
def isUnusable (kind : Kind) (o : Options) (files : Files) : Bool :=
  match kind with
  | .multipart =>
    files.partialFile.isNone ||
      (files.partialSize % 1024 != 0 && files.partialSize != o.decryptedSize &&
        o.decryptedSize != 0)
  | .video => files.partialFile.isNone || files.partialSize % 1024 != 0 || o.roundMessage

theorem length_lastBytes {n : Nat} {data : Data} (h : n ≤ data.length) :
    (data.drop (data.length - n)).length = n := by
  rw [List.length_drop]
  omega

/-- The last initialization vector of the `.info` file, if there is a whole one. -/
def storedIv (files : Files) : Option Iv :=
  match files.info with
  | some previousData =>
    if h : 32 ≤ previousData.length then
      some ⟨previousData.drop (previousData.length - 32), length_lastBytes h⟩
    else none
  | none => none

/-- `execute:`, from the partial file on: the actor, and what it does to the files.  The
check before it, by which a video of size 0 fails, is left out. -/
def execute (kind : Kind) (o : Options) (files : Files) : Actor × List FileOp :=
  let unusable := isUnusable kind o files
  let create := if unusable then [FileOp.createPartial] else []
  let actor : Actor :=
    { size := o.size
      decryptedSize := o.decryptedSize
      encryptionKey := o.encryptionKey
      runningEncryptionIv := o.encryptionKey.bind fun _ => o.encryptionIv
      downloadedFileSize := if unusable then 0 else files.partialSize }
  match kind, actor.runningEncryptionIv with
  | .multipart, some iv =>
    ({ actor with runningEncryptionIv := some ((storedIv files).getD iv) },
      create ++ [.openInfo])
  | _, _ => (actor, create)

/-- A download and the files it works on. -/
structure World where
  actor : Actor
  files : Files

/-- A download that starts. -/
def start (kind : Kind) (o : Options) (files : Files) : World :=
  let (actor, ops) := execute kind o files
  { actor, files := files.applyAll ops }

def step (sha256 : Data → Data) (aes : Data → Equiv.Perm (BitVec 128)) (kind : Kind) (w : World)
    (event : Event) : World :=
  let (actor, ops) := actorStep sha256 aes kind w.actor event
  { actor, files := w.files.applyAll ops }

end TelegramPub.Ports.PartDownload
