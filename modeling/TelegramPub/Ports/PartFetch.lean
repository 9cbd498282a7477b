import TelegramPub.Ports.PartDownload

/-!
# Fetching in parts

`MultipartFetchManager` fetches a range of a file in parts of 128 KB, up to four at a time,
and delivers them in order.  A part is a signal over `_requestData`: with each value of
that variable the part is requested anew, and the answer to an earlier request is dropped.
The variable holds the location of the file and, after a redirect, its place at a CDN.

The manager lives on its own queue.  A failed assertion, or a message to an object of the
wrong class, ends the process (`ended`).  Offsets and sizes are natural numbers, as in
`Ports/PartDownload`: the file is shorter than `2 ^ 31 - 2 ^ 17` bytes.
-/

namespace TelegramPub.Ports.PartFetch

open Verified.Bytes Ports.PartDownload

/-- What `_requestData` is set to. -/
inductive Source where
  /-- `TLInputFileLocation` -/
  | file
  | cdn (fileData : CdnFileData)
  deriving DecidableEq

/-- `MultipartPendingPart`, with the request whose answer is awaited. -/
structure PendingPart where
  offset : Nat
  size : Nat
  request : Option Source
  deriving DecidableEq

/-- The blocks that are called.  A part is delivered with its offset. -/
inductive Output where
  | partReady (offset : Nat) (data : Data)
  | completed
  | failed
  deriving DecidableEq

structure Manager where
  parallelParts : Nat
  committedOffset : Nat
  /-- `_range` -/
  location : Nat
  length : Nat
  completeSize : Option Nat
  fetchingParts : List PendingPart := []
  fetchedParts : List (Nat × Data) := []
  /-- What `_requestData` is set to, and whether it has that value yet. -/
  requestData : Source := .file
  hasValue : Bool := false
  switchedToCdn : Bool := false
  reuploadedToCdn : Bool := false
  reupload : Option CdnFileData := none
  cdnFilePartHashes : Option PartHashes := none
  ended : Bool := false

/-- `initWithResource:…`.  The end of the range is put for its length. -/
def initWithResource (size : Option Nat) (location length : Nat) : Manager :=
  match size with
  | some n =>
    { parallelParts := 4, committedOffset := location, location
      length := min (location + length) n, completeSize := size }
  | none =>
    { parallelParts := 1, committedOffset := location, location, length, completeSize := none }

section CheckState

variable (sha256 : Data → Data)

/-- The loop over the sorted offsets of the fetched parts, and whether it returns. -/
def commitParts : List Nat → Manager → Manager × List Output × Bool
  | [], m => (m, [], false)
  | offset :: offsets, m =>
    if offset ≠ m.committedOffset then commitParts offsets m
    else
      match m.fetchedParts.find? (·.1 == offset) with
      | none => commitParts offsets m
      | some (_, data) =>
        let m :=
          { m with
            committedOffset := m.committedOffset + data.length
            fetchedParts := m.fetchedParts.filter (·.1 ≠ offset) }
        if hashesMatch sha256 m.cdnFilePartHashes offset data then
          let (m, outputs, returns) := commitParts offsets m
          (m, .partReady offset data :: outputs, returns)
        else (m, [.failed], true)

/-- The end of all parts. -/
def nextOffset (m : Manager) : Nat :=
  let next := m.fetchingParts.foldl (fun next p => max next (p.offset + p.size)) m.committedOffset
  m.fetchedParts.foldl (fun next p => max next (p.1 + p.2.length)) next

def upperBound (m : Manager) : Nat :=
  match m.completeSize with
  | some size => min (m.location + m.length) size
  | none => m.location + m.length

/-- The loop that adds parts, for the given number of parts. -/
def fetchLoop : Nat → Manager → Manager
  | 0, m => m
  | n + 1, m =>
    let offset := nextOffset m
    if offset < upperBound m then
      let part : PendingPart :=
        { offset
          size := min (upperBound m - offset) preferredPartSize
          request := if m.hasValue then some m.requestData else none }
      fetchLoop n { m with fetchingParts := m.fetchingParts ++ [part] }
    else m

def isComplete (m : Manager) : Bool :=
  (match m.completeSize with
    | some size => decide (size ≤ m.committedOffset)
    | none => false) ||
    decide (m.location + m.length ≤ m.committedOffset)

/-- `checkState`. -/
def checkState (m : Manager) : Manager × List Output :=
  let offsets := (m.fetchedParts.map (·.1)).insertionSort (· ≤ ·)
  let (m, outputs, returns) := commitParts sha256 offsets m
  if returns then (m, outputs)
  else if isComplete m then (m, outputs ++ [.completed])
  else (fetchLoop (m.parallelParts - m.fetchingParts.length) m, outputs)

/-- The data of a part arrive. -/
def partFetched (m : Manager) (part : PendingPart) (data : Data) : Manager × List Output :=
  if m.completeSize.isSome ∧ data.length ≠ part.size then ({ m with ended := true }, [])
  else
    let m :=
      if m.completeSize = none ∧ data.length < part.size then
        { m with completeSize := some (part.offset + data.length) }
      else m
    checkState sha256
      { m with
        fetchingParts := m.fetchingParts.filter (·.offset ≠ part.offset)
        fetchedParts := m.fetchedParts.filter (·.1 ≠ part.offset) ++ [(part.offset, data)] }

/-- `switchToCdn:`. -/
def switchToCdn (m : Manager) (fileData : CdnFileData) : Manager :=
  if m.switchedToCdn then m
  else { m with switchedToCdn := true, requestData := .cdn fileData, hasValue := false }

/-- `reuploadToCdn:requestToken:`. -/
def reuploadToCdn (m : Manager) (fileData : CdnFileData) : Manager :=
  if m.reuploadedToCdn then m else { m with reuploadedToCdn := true, reupload := some fileData }

/-- The request of a part is answered without data. -/
def dropRequest (m : Manager) (part : PendingPart) : Manager :=
  { m with
    fetchingParts := m.fetchingParts.map fun p =>
      if p.offset = part.offset then { p with request := none } else p }

variable (aes : Data → Equiv.Perm (BitVec 128))

/-- The answer to the request of a part. -/
def answered (m : Manager) (part : PendingPart) (source : Source) :
    Answer → Manager × List Output
  | .file bytes => partFetched sha256 m part bytes
  | .cdnRedirect fileData _ => (switchToCdn (dropRequest m part) fileData, [])
  | .cdnFile bytes =>
    match source with
    | .cdn fileData => partFetched sha256 m part (cdnData aes .video fileData part.offset bytes)
    | .file => ({ m with ended := true }, [])
  | .cdnFileReuploadNeeded =>
    match source with
    | .cdn fileData => (reuploadToCdn (dropRequest m part) fileData, [])
    | .file => ({ m with ended := true }, [])
  | .other => (dropRequest m part, [])
  | .error => (dropRequest m part, [])

inductive Event where
  | start
  /-- `_requestData` gets the value that it is set to -/
  | requestData
  /-- The request of the part at an offset is answered. -/
  | answered (offset : Nat) (answer : Answer)
  | reuploaded
  deriving DecidableEq

/-- The part whose request is awaited. -/
def awaited (m : Manager) (offset : Nat) : Option (PendingPart × Source) :=
  (m.fetchingParts.find? (·.offset == offset)).bind fun part =>
    part.request.map fun source => (part, source)

def step (m : Manager) (event : Event) : Manager × List Output :=
  if m.ended then (m, [])
  else
    match event with
    | .start => checkState sha256 m
    | .requestData =>
      if m.hasValue then (m, [])
      else
        ({ m with
            hasValue := true
            fetchingParts := m.fetchingParts.map fun p =>
              { p with request := some m.requestData } }, [])
    | .answered offset answer =>
      match awaited m offset with
      | none => (m, [])
      | some (part, source) => answered sha256 aes m part source answer
    | .reuploaded =>
      match m.reupload with
      | none => (m, [])
      | some fileData =>
        ({ m with
            reuploadedToCdn := false, reupload := none, requestData := .cdn fileData
            hasValue := false }, [])

end CheckState

end TelegramPub.Ports.PartFetch
