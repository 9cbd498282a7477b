import TelegramPub.Ports.TLBuffer

/-!
# MTInputStream and MTOutputStream

The second reader of TL values wraps an `NSInputStream` over the data.  It writes into
variables that are zero beforehand, and of the reads for a byte string it checks only the
one for the body.

`MTOutputStream` writes a byte string as `MTBuffer` does.
-/

namespace TelegramPub.Ports.InputStream

open Verified.Bytes Verified.ByteReader Ports.TLBuffer

/-- `writeBytes:` of `MTOutputStream`. -/
def writeBytes (data : Data) : Data := tlBytes data

/-- `read:maxLength:` of a stream over data: as many bytes as there are, but at most
`maxLength`. -/
def read (maxLength : Nat) (c : Cursor) : Data × Cursor :=
  (c.rest.take maxLength, ⟨c.offset + min maxLength c.rest.length, c.rest.drop maxLength⟩)

/-- An `int32_t` passed as an `NSUInteger`. -/
def unsigned (n : Int) : Nat := (n % 2 ^ 64).toNat

/-- The loop over the padding.  What it reads is not looked at. -/
def readPadding : Nat → Cursor → Cursor
  | 0, c => c
  | n + 1, c => readPadding n (read 1 c).2

/-- What stands before the body of a byte string. -/
structure Header where
  length : Int
  paddingBytes : Int
  deriving DecidableEq

/-- The header of a long string, from the bytes copied to the upper end of `length`. -/
def longHeader (bytes : Data) : Header :=
  let length := int32OfBytes (0 :: bytes) >>> (8 : Nat)
  ⟨length, roundUp length 4 - length⟩

def shortHeader (tmp : Nat) : Header :=
  let length : Int := tmp
  ⟨length, roundUp (length + 1) 4 - (length + 1)⟩

/-- How `readString:` and `readBytes:` begin.  Bytes that the stream does not have stay
zero. -/
def readHeader (c : Cursor) : Header × Cursor :=
  let (tmp, c) := read 1 c
  if leNat tmp = 254 then
    let (bytes, c) := read 3 c
    (longHeader bytes, c)
  else (shortHeader (leNat tmp), c)

/-- The part of `readBytes:` after the header; `none` is the failure it reports. -/
def readBody (header : Header) (c : Cursor) : Option Data × Cursor :=
  let (bytes, c) := read (unsigned header.length) c
  if (bytes.length : Int) ≠ header.length then (none, c)
  else (some bytes, readPadding header.paddingBytes.toNat c)

/-- `readBytes:`. -/
def readBytes (c : Cursor) : Option Data × Cursor :=
  let (header, c) := readHeader c
  readBody header c

/-- `readString:`, with the bytes of the string before they are decoded. -/
def readStringBytes (c : Cursor) : Option Data × Cursor :=
  let (header, c) := readHeader c
  if 0 < header.length then readBody header c
  else (some [], readPadding header.paddingBytes.toNat c)

/-- `readString:`.  Bytes that are not UTF-8 give a `nil` string. -/
def readString (c : Cursor) : Option (Option String) × Cursor :=
  let (bytes, c) := readStringBytes c
  (bytes.map fun bytes => String.fromUTF8? ⟨bytes.toArray⟩, c)

/-- The three bytes of a long length make a signed number. -/
theorem longHeader_length (bytes : Data) (h : bytes.length ≤ 3) :
    (longHeader bytes).length =
      if leNat bytes < 2 ^ 23 then (leNat bytes : Int) else leNat bytes - 2 ^ 24 := by
  have hlt : leNat bytes < 2 ^ 24 := by
    have hbytes := leNat_lt bytes
    have hpow : 256 ^ bytes.length ≤ 256 ^ 3 := Nat.pow_le_pow_right (by decide) h
    omega
  have hzero : leNat (0 :: bytes) = 256 * leNat bytes := by
    simp [leNat]
  show int32 (leNat (0 :: bytes)) >>> (8 : Nat) = _
  rw [hzero, int32_eq_ite, Int.shiftRight_eq_div_pow]
  split_ifs <;> push_cast at * <;> omega

theorem roundUp_four {n : Int} (h : 0 ≤ n) :
    n ≤ roundUp n 4 ∧ roundUp n 4 < n + 4 ∧ roundUp n 4 % 4 = 0 := by
  unfold roundUp
  rw [Int.tmod_eq_emod_of_nonneg h]
  split_ifs <;> omega

theorem shortHeader_length (tmp : Nat) : (shortHeader tmp).length = tmp := rfl

/-- The header of the data, when the data has one, and how many bytes it takes. -/
def header? : Data → Option (Header × Nat)
  | [] => none
  | tmp :: rest =>
    if tmp.toNat = 254 then
      if 3 ≤ rest.length then some (longHeader (rest.take 3), 4) else none
    else some (shortHeader tmp.toNat, 1)

/-! ## Both readers from the header on -/

/-- The part of `readTLBytes:` after the header. -/
def readTLBody (header : Header) : Reader Data := do
  let result ← readCounted header.length
  let _ ← take header.paddingBytes.toNat
  return result

theorem leNat_singleton (b : UInt8) : leNat [b] = b.toNat := by
  simp [leNat]

theorem header?_take {data : Data} {header : Header} {size : Nat}
    (h : header? data = some (header, size)) : size ≤ data.length ∧ 0 < size ∧ size ≤ 4 := by
  cases data with
  | nil => cases h
  | cons tmp rest =>
    simp only [header?] at h
    split_ifs at h
    all_goals
      simp only [Option.some.injEq, Prod.mk.injEq] at h
      simp only [List.length_cons]
      omega

theorem readTLBytes_header {c : Cursor} {header : Header} {size : Nat}
    (h : header? c.rest = some (header, size)) :
    readTLBytes c = readTLBody header ⟨c.offset + size, c.rest.drop size⟩ := by
  obtain ⟨offset, data⟩ := c
  cases data with
  | nil => cases h
  | cons tmp rest =>
    simp only [header?] at h
    unfold readTLBytes
    rw [bind_apply, take_of_le (by simp)]
    dsimp only
    rw [List.take_succ_cons, List.take_zero, leNat_singleton]
    split_ifs at h with hlong hrest
    · simp only [Option.some.injEq, Prod.mk.injEq] at h
      obtain ⟨rfl, rfl⟩ := h
      rw [if_pos hlong, bind_apply, take_of_le (by simpa using hrest)]
      rfl
    · simp only [Option.some.injEq, Prod.mk.injEq] at h
      obtain ⟨rfl, rfl⟩ := h
      rw [if_neg hlong]
      rfl

theorem readTLBytes_no_header {c : Cursor} (h : header? c.rest = none) :
    readTLBytes c = .error .endOfData := by
  obtain ⟨offset, data⟩ := c
  unfold readTLBytes
  cases data with
  | nil => rfl
  | cons tmp rest =>
    simp only [header?] at h
    rw [bind_apply, take_of_le (by simp)]
    dsimp only
    rw [List.take_succ_cons, List.take_zero, leNat_singleton]
    split_ifs at h with hlong hrest
    rw [if_pos hlong, bind_apply, take_of_lt (by simpa using hrest)]

theorem readHeader_header {c : Cursor} {header : Header} {size : Nat}
    (h : header? c.rest = some (header, size)) :
    readHeader c = (header, ⟨c.offset + size, c.rest.drop size⟩) := by
  obtain ⟨offset, data⟩ := c
  cases data with
  | nil => cases h
  | cons tmp rest =>
    simp only [header?] at h
    simp only [readHeader, read, List.take_succ_cons, List.take_zero, leNat_singleton]
    split_ifs at h with hlong hrest
    · grind
    · grind

theorem readBytes_header {c : Cursor} {header : Header} {size : Nat}
    (h : header? c.rest = some (header, size)) :
    readBytes c = readBody header ⟨c.offset + size, c.rest.drop size⟩ := by
  unfold readBytes
  rw [readHeader_header h]

theorem unsigned_of_nonneg {n : Int} (h : 0 ≤ n) (hlt : n < 2 ^ 64) : unsigned n = n.toNat := by
  unfold unsigned
  rw [Int.emod_eq_of_lt h hlt]

theorem readPadding_eq (n : Nat) (c : Cursor) :
    readPadding n c = ⟨c.offset + min n c.rest.length, c.rest.drop n⟩ := by
  induction n generalizing c with
  | zero => simp [readPadding]
  | succ n ih =>
    rw [readPadding, ih]
    simp only [read, List.length_drop, List.drop_drop]
    congr 1
    · omega
    · rw [Nat.add_comm]

section Body

variable {header : Header} {c : Cursor}

theorem readTLBody_of_nonneg (h : 0 ≤ header.length) :
    readTLBody header c =
      if header.length.toNat + header.paddingBytes.toNat ≤ c.rest.length then
        .ok (c.rest.take header.length.toNat,
          ⟨c.offset + header.length.toNat + header.paddingBytes.toNat,
            c.rest.drop (header.length.toNat + header.paddingBytes.toNat)⟩)
      else .error .endOfData := by
  have hcounted : readCounted header.length c = take header.length.toNat c := by
    simp [readCounted, h]
  unfold readTLBody
  rw [bind_apply, hcounted]
  by_cases hbody : header.length.toNat ≤ c.rest.length
  · rw [take_of_le hbody]
    dsimp only
    rw [bind_apply]
    by_cases hpadding : header.length.toNat + header.paddingBytes.toNat ≤ c.rest.length
    · rw [take_of_le (by rw [List.length_drop]; omega), if_pos hpadding]
      simp [List.drop_drop]
    · rw [take_of_lt (by rw [List.length_drop]; omega), if_neg hpadding]
  · rw [take_of_lt (by omega), if_neg (by omega)]

theorem readTLBody_of_neg (h : header.length < 0) :
    readTLBody header c =
      if -header.length ≤ c.offset then .error .raised else .error .rejected := by
  unfold readTLBody
  rw [bind_apply]
  have hneg : ¬ 0 ≤ header.length := by omega
  by_cases hwrap : -header.length ≤ c.offset <;>
    simp [readCounted, hneg, hwrap, raise, giveUp]

theorem readBody_of_nonneg (h : 0 ≤ header.length) (hlt : header.length < 2 ^ 64) :
    (readBody header c).1 =
        (if header.length.toNat ≤ c.rest.length then some (c.rest.take header.length.toNat)
          else none) ∧
      (header.length.toNat + header.paddingBytes.toNat ≤ c.rest.length →
        (readBody header c).2 = ⟨c.offset + header.length.toNat + header.paddingBytes.toNat,
          c.rest.drop (header.length.toNat + header.paddingBytes.toNat)⟩) := by
  simp only [readBody, read, unsigned_of_nonneg h hlt, List.length_take]
  by_cases hbody : header.length.toNat ≤ c.rest.length
  · have hread : ¬ ((min header.length.toNat c.rest.length : Nat) : Int) ≠ header.length := by
      omega
    rw [if_neg hread, if_pos hbody, readPadding_eq]
    refine ⟨rfl, fun hpadding => ?_⟩
    simp only [List.length_drop, List.drop_drop]
    congr 1
    omega
  · grind

theorem readBody_of_neg (h : header.length < 0) : (readBody header c).1 = none := by
  have hread : ¬ ((read (unsigned header.length) c).1.length : Int) = header.length := by
    omega
  simp [readBody, hread]

end Body

end TelegramPub.Ports.InputStream
