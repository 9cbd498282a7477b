import TelegramPub.Verified.IgeChain
import TelegramPub.Verified.Machine

/-!
# Uploads in parts

`TGFileUploadActor` uploads a file or a block of data in parts, up to sixteen at a time.
A part is read from the stream, padded, encrypted and hashed when its request is made.
It leaves the list when its request is answered, and the upload is over when the list is
empty.

An upload lives on the stage queue.  Once it has completed or failed it is released, and
answers that still come find no actor.  Lengths are converted to `int` as in the source.
The upload of live data, which is left to another actor, the choice of the worker, the
opening of the stream and the progress are left out.
-/

namespace TelegramPub.Ports.FileUpload

open Verified.Bytes Verified.IgeChain

/-- An initialization vector of IGE. -/
abbrev Iv := { bytes : Data // bytes.length = 32 }

/-- `PHOTO_PART_SIZE`. -/
def photoPartSize : Nat := 8 * 1024

/-- `VIDEO_PART_SIZE`. -/
def videoPartSize : Nat := 64 * 1024

/-- `INT_MAX`. -/
def intMax : Nat := 2 ^ 31 - 1

/-- `FilePart`. -/
structure FilePart where
  index : Nat
  length : Nat
  uploading : Bool := false
  deriving DecidableEq

/-- `_encryptionKey`, `_encryptionIv` and `_encryptionRunningIv`. -/
structure Encryption where
  key : Data
  iv : Iv
  runningIv : Iv

/-- What is uploaded: `options[@"data"]`, or else the file at `options[@"file"]`, which may
be missing. -/
inductive Source where
  | data (bytes : Data)
  | file (contents : Option Data)
  | none

/-- The other options. -/
structure Options where
  encrypt : Bool := false
  thumbnail : Option Data := none
  thumbnailWidth : Int := 0
  thumbnailHeight : Int := 0
  width : Int := 0
  height : Int := 0
  ext : Option String := none

/-- What is drawn at random. -/
structure Random where
  fileId : BitVec 64
  key : Data
  iv : Iv

/-- `upload.saveFilePart`, or with the number of parts `upload.saveBigFilePart`. -/
structure PartRequest where
  fileId : BitVec 64
  filePart : Nat
  fileTotalParts : Option Nat
  bytes : Data
  deriving DecidableEq

/-- The file of the result. -/
inductive InputFile where
  /-- `inputFile` -/
  | file (id : BitVec 64) (parts : Nat) (name : String) (md5Checksum : String)
  /-- `inputFileBig` -/
  | fileBig (id : BitVec 64) (parts : Nat) (name : String)
  /-- `inputEncryptedFileUploaded` -/
  | encryptedFile (id : BitVec 64) (parts : Nat) (md5Checksum : String)
      (keyFingerprint : BitVec 32)
  /-- `inputEncryptedFileBigUploaded` -/
  | encryptedFileBig (id : BitVec 64) (parts : Nat) (keyFingerprint : BitVec 32)
  deriving DecidableEq

/-- What the result of an encrypted upload has besides the file. -/
structure Secret where
  key : Data
  iv : Iv
  thumbnail : Data
  thumbnailWidth : Int
  thumbnailHeight : Int
  width : Int
  height : Int
  fileSize : Int
  deriving DecidableEq

/-- The result. -/
structure Report where
  file : InputFile
  secret : Option Secret
  deriving DecidableEq

/-- The instance variables.  `stream` is what was not read yet, and `md5` what was hashed. -/
structure Actor where
  options : Options
  fileId : BitVec 64
  fileSize : Int
  encryption : Option Encryption
  partsToUpload : List FilePart
  partCount : Nat
  useBigFileParts : Bool
  stream : Data
  md5 : Data := []

/-! ## Cutting into parts -/

/-- The loop that looks for a divisor of a megabyte. -/
def growPartSizeFrom : Nat → Nat → Nat
  | 0, partSize => partSize
  | fuel + 1, partSize =>
    if 1048576 % partSize ≠ 0 then growPartSizeFrom fuel (partSize + 1) else partSize

/-- The part size of a big file. -/
def bigPartSize (fileSize : Nat) : Nat :=
  let partSize := fileSize / 3000
  max (growPartSizeFrom (1048576 - partSize) partSize) videoPartSize

/-- `_useBigFileParts`. -/
def isBig (fileSize : Int) : Bool := 10 * 1024 * 1024 ≤ fileSize

/-- `partSize`, where `preferred` is the one of small files. -/
def partSizeFor (preferred : Nat) (fileSize : Int) : Nat :=
  if isBig fileSize then bigPartSize fileSize.toNat else preferred

/-- The loop from `i` on.  There is no result where `i += partSize` overflows, which C
leaves undefined. -/
def cutFrom (partSize length : Nat) : Nat → Nat → Nat → Option (List FilePart)
  | 0, _, _ => some []
  | fuel + 1, i, index =>
    if i < length then
      if i + partSize ≤ intMax then
        (cutFrom partSize length fuel (i + partSize) (index + 1)).map
          ({ index, length := min partSize (length - i) } :: ·)
      else none
    else some []

/-- The parts.  A part has a byte at least, so `length` is enough fuel. -/
def cutParts (partSize : Nat) (fileSize : Int) : Option (List FilePart) :=
  cutFrom partSize fileSize.toNat fileSize.toNat 0 0

/-- The padding with zeros up to whole blocks. -/
def zeroPadded (data : Data) : Data := data ++ List.replicate ((16 - data.length % 16) % 16) 0

/-- `"%02x"` for each byte. -/
def hexString (bytes : Data) : String :=
  String.ofList <|
    bytes.flatMap fun b => [Nat.digitChar (b.toNat / 16), Nat.digitChar (b.toNat % 16)]

section Crypto

variable (md5 : Data → Data) (aes : Data → Equiv.Perm (BitVec 128))

/-- What is sent for some bytes of the stream: `MTAesEncryptInplaceAndModifyIv`, if there is
a key. -/
def partDataOf : Option Encryption → Data → Data × Option Encryption
  | some e, bytes =>
    let tmpData := zeroPadded bytes
    (encryptBytes (aes e.key) e.runningIv.1 tmpData,
      some { e with
        runningIv :=
          ⟨encryptIv (aes e.key) e.runningIv.1 tmpData, length_encryptIv _ _ _⟩ })
  | none, bytes => (bytes, none)

/-- The request for a part. -/
def Actor.requestFor (a : Actor) (filePart : Nat) (bytes : Data) : PartRequest :=
  { fileId := a.fileId
    filePart
    fileTotalParts := if a.useBigFileParts then some a.partCount else none
    bytes }

/-- The first part that is not being uploaded, and the list with its mark. -/
def markFirst : List FilePart → Option (FilePart × List FilePart)
  | [] => none
  | part :: parts =>
    if part.uploading then (markFirst parts).map fun (first, rest) => (first, part :: rest)
    else some (part, { part with uploading := true } :: parts)

/-- One round of the loop in `sendAnyPart`. -/
def sendNext (a : Actor) : Actor × List PartRequest :=
  match markFirst a.partsToUpload with
  | none => (a, [])
  | some (part, partsToUpload) =>
    let (partData, encryption) := partDataOf aes a.encryption (a.stream.take part.length)
    ({ a with
        partsToUpload
        encryption
        stream := a.stream.drop part.length
        md5 := a.md5 ++ partData },
      [a.requestFor part.index partData])

/-- The rounds of the loop. -/
def sendTimes : Nat → Actor → Actor × List PartRequest
  | 0, a => (a, [])
  | n + 1, a =>
    let (a, sent) := sendNext aes a
    let (a, sent') := sendTimes n a
    (a, sent ++ sent')

/-- `keyFingerprint`. -/
def keyFingerprint (e : Encryption) : BitVec 32 :=
  let digest := md5 (e.key ++ e.iv.1)
  BitVec.ofNat 32 (leNat (digest.take 4)) ^^^ BitVec.ofNat 32 (leNat ((digest.drop 4).take 4))

/-- The result of an upload. -/
def report (a : Actor) : Report :=
  let hash := hexString (md5 a.md5)
  match a.encryption with
  | some e =>
    { file :=
        if a.useBigFileParts then .encryptedFileBig a.fileId a.partCount (keyFingerprint md5 e)
        else .encryptedFile a.fileId a.partCount hash (keyFingerprint md5 e)
      secret := some {
        key := e.key
        iv := e.iv
        thumbnail := a.options.thumbnail.getD []
        thumbnailWidth := a.options.thumbnailWidth
        thumbnailHeight := a.options.thumbnailHeight
        width := a.options.width
        height := a.options.height
        fileSize := a.fileSize } }
  | none =>
    let name := "file." ++ a.options.ext.getD "jpg"
    { file :=
        if a.useBigFileParts then .fileBig a.fileId a.partCount name
        else .file a.fileId a.partCount name hash
      secret := none }

/-- `sendAnyPart`: requests, or the result. -/
def sendAnyPart (a : Actor) : Actor × List PartRequest × Option Report :=
  if a.partsToUpload.isEmpty then (a, [], some (report md5 a))
  else
    let (a, sent) := sendTimes aes (16 - a.partsToUpload.countP (·.uploading)) a
    (a, sent, none)

/-- `filePartUploadSuccess:`, up to `sendAnyPart`. -/
def Actor.erasePart (a : Actor) (partId : Nat) : Actor :=
  { a with partsToUpload := a.partsToUpload.eraseP (·.index == partId) }

inductive Status where
  /-- Waits for `beginWithWorker:` -/
  | prepared
  | uploading
  | completed
  /-- `nodeRetrieveFailed:` or `actionFailed:reason:` -/
  | failed
  | cancelled
  deriving DecidableEq

/-- An upload, with the requests that it has made and the parts whose upload was
acknowledged. -/
structure World where
  actor : Actor
  status : Status
  sent : List PartRequest := []
  acknowledged : List Nat := []
  reports : List Report := []

inductive Event where
  /-- `beginWithWorker:` -/
  | begin
  /-- `filePartUploadSuccess:` -/
  | success (partId : Nat)
  /-- `filePartUploadFailed:` -/
  | failure (partId : Nat)
  | cancel
  deriving DecidableEq

/-- A request is out for the part. -/
def World.isAwaited (w : World) (partId : Nat) : Bool :=
  w.sent.any (·.filePart == partId) && !w.acknowledged.contains partId

/-- `sendAnyPart` of an upload that goes on. -/
def World.send (w : World) : World :=
  match sendAnyPart md5 aes w.actor with
  | (actor, sent, none) =>
    { w with actor, status := .uploading, sent := w.sent ++ sent }
  | (actor, sent, some result) =>
    { w with
      actor, status := .completed, sent := w.sent ++ sent, reports := w.reports ++ [result] }

def step (w : World) : Event → World
  | .begin => if w.status = .prepared then w.send md5 aes else w
  | .success partId =>
    if w.status = .uploading ∧ w.isAwaited partId then
      { w with
        actor := w.actor.erasePart partId,
        acknowledged := w.acknowledged ++ [partId] }.send md5 aes
    else w
  | .failure partId =>
    if w.status = .uploading ∧ w.isAwaited partId then { w with status := .failed } else w
  | .cancel =>
    if w.status = .prepared ∨ w.status = .uploading then { w with status := .cancelled } else w

end Crypto

/-- The actor that has cut some bytes into parts; `preferred` is the part size of small
files. -/
def prepare (o : Options) (r : Random) (preferred : Nat) (bytes : Data) : Option Actor :=
  let fileSize := int32 bytes.length
  (cutParts (partSizeFor preferred fileSize) fileSize).map fun partsToUpload =>
    { options := o
      fileId := r.fileId
      fileSize
      encryption := if o.encrypt then some { key := r.key, iv := r.iv, runningIv := r.iv } else none
      partsToUpload
      partCount := partsToUpload.length
      useBigFileParts := isBig fileSize
      stream := bytes }

/-- The actor before anything is cut. -/
def idle (o : Options) (r : Random) : Actor :=
  { options := o
    fileId := r.fileId
    fileSize := 0
    encryption := none
    partsToUpload := []
    partCount := 0
    useBigFileParts := false
    stream := [] }

/-- An upload that fails at once. -/
def failedAtOnce (o : Options) (r : Random) : World :=
  { actor := idle o r, status := .failed }

/-- `execute:`.  There is no result where the source is undefined. -/
def execute (o : Options) (r : Random) : Source → Option World
  | .data bytes =>
    if bytes.length = 0 then some (failedAtOnce o r)
    else (prepare o r photoPartSize bytes).map fun actor => { actor, status := .prepared }
  | .file none => some (failedAtOnce o r)
  | .file (some contents) =>
    if int32 contents.length > 512 * 1024 * 3000 then some (failedAtOnce o r)
    else if int32 contents.length = 0 then some (failedAtOnce o r)
    else (prepare o r videoPartSize contents).map fun actor => { actor, status := .prepared }
  | .none => some (failedAtOnce o r)

end TelegramPub.Ports.FileUpload
