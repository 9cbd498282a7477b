import TelegramPub.Ports.UploadParts
import Mathlib.Data.Nat.Prime.Basic

/-!
# The layout of an upload

A file is cut into parts of one size, the last of which may be shorter (`Cuts`).  The part
size is a number of whole blocks, so that only the last part is padded, and the encrypted
parts are together the encryption of the whole file (`flatMap_requestsFrom`).
-/

namespace TelegramPub.Ports.FileUpload

open Verified.Bytes Verified.IgeChain

/-- A part size: whole blocks, and a megabyte at most. -/
structure GoodPartSize (partSize : Nat) : Prop where
  pos : 0 < partSize
  blocks : partSize % 16 = 0
  le : partSize ≤ 1048576

/-- The loop ends at a divisor. -/
theorem growPartSizeFrom_dvd {fuel partSize : Nat} (h : partSize + fuel = 1048576) :
    growPartSizeFrom fuel partSize ∣ 1048576 := by
  induction fuel generalizing partSize with
  | zero => simp_all [growPartSizeFrom]
  | succ fuel ih =>
    unfold growPartSizeFrom
    split
    · exact ih (by omega)
    · rename_i hdvd
      exact Nat.dvd_of_mod_eq_zero (Decidable.not_not.1 hdvd)

/-- A divisor of a megabyte from 64 KB on is a number of blocks. -/
theorem blocks_of_dvd {n : Nat} (hdvd : n ∣ 1048576) (hle : videoPartSize ≤ n) : n % 16 = 0 := by
  have hpower : (1048576 : Nat) = 2 ^ 20 := by norm_num
  rw [hpower] at hdvd
  obtain ⟨k, hk, rfl⟩ := (Nat.dvd_prime_pow Nat.prime_two).1 hdvd
  have hfour : 4 ≤ k := by
    by_contra hless
    have hsmall : 2 ^ k ≤ 2 ^ 4 := Nat.pow_le_pow_right (by norm_num) (by omega)
    have hbig : (64 * 1024 : Nat) ≤ 2 ^ k := hle
    omega
  exact Nat.mod_eq_zero_of_dvd (pow_dvd_pow 2 hfour)

theorem bigPartSize_good {fileSize : Nat} (h : fileSize < 2 ^ 31) :
    GoodPartSize (bigPartSize fileSize) := by
  have hstart : fileSize / 3000 + (1048576 - fileSize / 3000) = 1048576 := by omega
  have hdvd := growPartSizeFrom_dvd hstart
  have hle := Nat.le_of_dvd (by norm_num) hdvd
  unfold bigPartSize
  rcases Nat.le_total (growPartSizeFrom (1048576 - fileSize / 3000) (fileSize / 3000))
    videoPartSize with hsmall | hbig
  · rw [Nat.max_eq_right hsmall]
    exact ⟨by decide, by decide, by decide⟩
  · rw [Nat.max_eq_left hbig]
    exact ⟨Nat.lt_of_lt_of_le (by decide) hbig, blocks_of_dvd hdvd hbig, hle⟩

theorem partSizeFor_good {preferred fileSize : Nat} (hpreferred : GoodPartSize preferred)
    (h : fileSize < 2 ^ 31) : GoodPartSize (partSizeFor preferred fileSize) := by
  unfold partSizeFor
  split
  · exact bigPartSize_good h
  · exact hpreferred

/-- Parts of one size from an index on, the last of which may be shorter. -/
def Cuts (partSize : Nat) : Nat → Nat → List FilePart → Prop
  | remaining, _, [] => remaining = 0
  | remaining, index, part :: parts =>
    0 < remaining ∧ part = { index, length := min partSize remaining } ∧
      Cuts partSize (remaining - partSize) (index + 1) parts

theorem cutFrom_spec {partSize length : Nat} (hpart : GoodPartSize partSize)
    (hlength : length ≤ 2 ^ 31 - 2 ^ 20) {fuel i : Nat} (index : Nat) (hfuel : length ≤ i + fuel) :
    ∃ parts, cutFrom partSize length fuel i index = some parts ∧
      Cuts partSize (length - i) index parts := by
  induction fuel generalizing i index with
  | zero => exact ⟨[], rfl, show length - i = 0 by omega⟩
  | succ fuel ih =>
    have hpos := hpart.pos
    have hle := hpart.le
    unfold cutFrom
    by_cases hi : i < length
    · have hnext : length ≤ i + partSize + fuel := by omega
      obtain ⟨parts, hparts, hcuts⟩ := ih (index + 1) hnext
      have hbound : i + partSize ≤ intMax := by
        unfold intMax
        omega
      rw [if_pos hi, if_pos hbound, hparts]
      refine ⟨_, rfl, by omega, rfl, ?_⟩
      rw [Nat.sub_sub]
      exact hcuts
    · rw [if_neg hi]
      exact ⟨[], rfl, show length - i = 0 by omega⟩

section Cut

variable {partSize remaining index : Nat} {parts : List FilePart}

theorem Cuts.indices (h : Cuts partSize remaining index parts) :
    parts.map (·.index) = List.range' index parts.length := by
  induction parts generalizing remaining index with
  | nil => rfl
  | cons part parts ih =>
    obtain ⟨_, hpart, hrest⟩ := h
    simp [hpart, ih hrest, List.range'_succ]

/-- None of the parts is being uploaded. -/
theorem Cuts.uploading (h : Cuts partSize remaining index parts) :
    ∀ part ∈ parts, part.uploading = false := by
  induction parts generalizing remaining index with
  | nil => simp
  | cons part parts ih =>
    obtain ⟨_, hpart, hrest⟩ := h
    simpa [hpart] using ih hrest

theorem Cuts.waitingOf_eq (h : Cuts partSize remaining index parts) : waitingOf parts = parts :=
  List.filter_eq_self.2 fun part hpart => by simp [h.uploading part hpart]

theorem Cuts.uploadingOf_eq (h : Cuts partSize remaining index parts) : uploadingOf parts = [] := by
  have hnone : parts.filter (·.uploading) = [] :=
    List.filter_eq_nil_iff.2 fun part hpart => by simp [h.uploading part hpart]
  simp [uploadingOf, hnone]

end Cut

section Requests

variable (aes : Data → Equiv.Perm (BitVec 128))

/-- What the parts of some bytes are together. -/
def payloadFrom : Option Encryption → Data → Data
  | some e, bytes => encryptBytes (aes e.key) e.runningIv.1 (zeroPadded bytes)
  | none, bytes => bytes

variable {aes}

theorem length_zeroPadded (data : Data) :
    (zeroPadded data).length = data.length + (16 - data.length % 16) % 16 := by
  simp [zeroPadded]

theorem zeroPadded_append {xs : Data} (hxs : xs.length % 16 = 0) (ys : Data) :
    zeroPadded (xs ++ ys) = xs ++ zeroPadded ys := by
  have hlength : (xs ++ ys).length % 16 = ys.length % 16 := by
    rw [List.length_append]
    omega
  simp only [zeroPadded, hlength, List.append_assoc]

theorem zeroPadded_of_blocks {data : Data} (h : data.length % 16 = 0) : zeroPadded data = data := by
  simp [zeroPadded, h]

/-- A part of whole blocks, and what follows it. -/
theorem payloadFrom_append (encryption : Option Encryption) {xs : Data}
    (hxs : xs.length % 16 = 0) (ys : Data) :
    payloadFrom aes encryption (xs ++ ys) =
      (partDataOf aes encryption xs).1 ++ payloadFrom aes (partDataOf aes encryption xs).2 ys := by
  cases encryption with
  | none => rfl
  | some e =>
    have hpadded := zeroPadded_append hxs ys
    simp only [payloadFrom, partDataOf, hpadded, zeroPadded_of_blocks hxs]
    exact encryptBytes_append _ _ _ hxs

theorem partDataOf_eq_payload (encryption : Option Encryption) (bytes : Data) :
    (partDataOf aes encryption bytes).1 = payloadFrom aes encryption bytes := by
  cases encryption <;> rfl

variable {request : Nat → Data → PartRequest}

theorem filePart_requestsFrom (hindex : ∀ i bytes, (request i bytes).filePart = i)
    (parts : List FilePart) (stream : Data) (encryption : Option Encryption) :
    (requestsFrom aes request parts stream encryption).map (·.filePart) =
      parts.map (·.index) := by
  induction parts generalizing stream encryption with
  | nil => rfl
  | cons part parts ih => simp [requestsFrom, hindex, ih]

theorem flatMap_requestsFrom (hbytes : ∀ i bytes, (request i bytes).bytes = bytes)
    {partSize index : Nat} (hpart : GoodPartSize partSize) {parts : List FilePart} {stream : Data}
    (encryption : Option Encryption) (hne : stream ≠ [])
    (hcuts : Cuts partSize stream.length index parts) :
    (requestsFrom aes request parts stream encryption).flatMap (·.bytes) =
      payloadFrom aes encryption stream := by
  induction parts generalizing index stream encryption with
  | nil => exact absurd (List.length_eq_zero_iff.1 hcuts) hne
  | cons part parts ih =>
    obtain ⟨_, rfl, hrest⟩ := hcuts
    rw [requestsFrom, List.flatMap_cons, hbytes]
    by_cases hlast : stream.length ≤ partSize
    · have hnil : parts = [] := by
        by_contra hmore
        obtain ⟨part, parts, rfl⟩ := List.exists_cons_of_ne_nil hmore
        have hpos := hrest.1
        omega
      rw [hnil, Nat.min_eq_right hlast, List.take_length]
      simp [requestsFrom, partDataOf_eq_payload]
    · have hfull : min partSize stream.length = partSize := by omega
      have htake : (stream.take partSize).length = partSize := by
        rw [List.length_take, hfull]
      have hdrop : (stream.drop partSize).length = stream.length - partSize := List.length_drop
      have hmore : stream.drop partSize ≠ [] := by
        grind
      dsimp only
      rw [hfull, ih _ hmore (hdrop ▸ hrest),
        ← payloadFrom_append encryption (htake.symm ▸ hpart.blocks), List.take_append_drop]

end Requests

end TelegramPub.Ports.FileUpload
