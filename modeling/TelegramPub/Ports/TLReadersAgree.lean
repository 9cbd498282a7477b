import TelegramPub.Ports.InputStream

/-!
# Where the two readers of byte strings disagree

`MTBufferReader` checks every read.  `MTInputStream` checks the one for the body, so it
accepts a string whose padding is cut off, and one whose length is cut off before anything
but zeros.  A length that reads as a negative number fails in the stream's `readBytes:`, is
an empty string in its `readString:`, and may raise in the other reader.
-/

namespace TelegramPub.Ports.TLReadersAgree

open Verified.Bytes Verified.ByteReader Ports.TLBuffer Ports.InputStream

/-- Both fail, or both return the same bytes and stop at the same place. -/
def SameAnswer (buffer : Except Fault (Data × Cursor)) (stream : Option Data × Cursor) : Prop :=
  match buffer with
  | .ok (bytes, c) => stream = (some bytes, c)
  | .error fault => fault ≠ .raised ∧ stream.1 = none

/-- What is there of the length is zero. -/
def CutInZeroLength (data : Data) : Prop :=
  data = [] ∨ ∃ n, n < 3 ∧ data = 254 :: List.replicate n 0

/-- The body is there, and some of the padding is not. -/
def CutInPadding (data : Data) : Prop :=
  ∃ header size, header? data = some (header, size) ∧ 0 ≤ header.length ∧
    size + header.length.toNat ≤ data.length ∧
    data.length < size + header.length.toNat + header.paddingBytes.toNat

/-- The length reads as a negative number of at least this value. -/
def NegativeLength (least : Int) (data : Data) : Prop :=
  ∃ header size, header? data = some (header, size) ∧ least ≤ header.length ∧ header.length < 0

/-- The lengths that three bytes can give. -/
theorem header?_length {data : Data} {header : Header} {size : Nat}
    (h : header? data = some (header, size)) :
    -(2 ^ 23) ≤ header.length ∧ header.length < 2 ^ 23 ∧ (header.length < 0 → size = 4) := by
  cases data with
  | nil => cases h
  | cons tmp rest =>
    simp only [header?] at h
    split_ifs at h with hlong hrest
    · simp only [Option.some.injEq, Prod.mk.injEq] at h
      obtain ⟨rfl, rfl⟩ := h
      have hlt : leNat (rest.take 3) < 2 ^ 24 := by
        have hbytes := leNat_lt (rest.take 3)
        rw [List.length_take, Nat.min_eq_left hrest] at hbytes
        exact hbytes
      rw [longHeader_length _ (List.length_take_le 3 rest)]
      refine ⟨?_, ?_, fun _ => rfl⟩
      all_goals
        split_ifs <;> omega
    · simp only [Option.some.injEq, Prod.mk.injEq] at h
      obtain ⟨rfl, rfl⟩ := h
      have htmp := tmp.toNat_lt
      rw [shortHeader_length]
      omega

/-! ## Without a complete header -/

theorem header?_eq_none {data : Data} (h : header? data = none) :
    data = [] ∨ ∃ bytes : Data, bytes.length < 3 ∧ data = 254 :: bytes := by
  cases data with
  | nil => exact .inl rfl
  | cons tmp rest =>
    simp only [header?] at h
    split_ifs at h with hlong hrest
    have htmp : tmp = 254 := UInt8.toNat_inj.1 hlong
    exact .inr ⟨rest, by omega, by rw [htmp]⟩

theorem leNat_eq_zero {bytes : Data} : leNat bytes = 0 ↔ bytes = List.replicate bytes.length 0 := by
  induction bytes with
  | nil => simp [leNat]
  | cons b bytes ih =>
    have hb : b.toNat = 0 ↔ b = 0 := by
      rw [← UInt8.toNat_inj]
      rfl
    rw [List.length_cons, List.replicate_succ, List.cons.injEq, ← ih, ← hb, leNat]
    omega

/-- The length that is read when the stream ends before it is complete. -/
theorem readHeader_cut {bytes : Data} (h : bytes.length < 3) :
    (readHeader (.start (254 :: bytes))).2.rest = [] ∧
      0 ≤ (readHeader (.start (254 :: bytes))).1.length ∧
      ((readHeader (.start (254 :: bytes))).1.length = 0 ↔
        bytes = List.replicate bytes.length 0) := by
  have htake : bytes.take 3 = bytes := List.take_of_length_le (by omega)
  have hheader : readHeader (.start (254 :: bytes)) =
      (longHeader bytes, ⟨0 + 1 + min 3 bytes.length, []⟩) := by
    simp [readHeader, InputStream.read, Cursor.start, leNat, htake, List.drop_eq_nil_of_le h.le]
  have hlt : leNat bytes < 2 ^ 16 := by
    have hbytes := leNat_lt bytes
    have hpow : 256 ^ bytes.length ≤ 256 ^ 2 := Nat.pow_le_pow_right (by decide) (by omega)
    omega
  have hlength : (longHeader bytes).length = leNat bytes := by
    rw [longHeader_length bytes h.le, if_pos (by omega)]
  rw [hheader]
  refine ⟨rfl, ?_, ?_⟩
  · rw [hlength]
    exact Int.natCast_nonneg _
  · rw [hlength, ← leNat_eq_zero]
    exact Int.natCast_eq_zero

theorem header?_of_cutInZeroLength {data : Data} (h : CutInZeroLength data) :
    header? data = none := by
  rcases h with rfl | ⟨n, hn, rfl⟩
  · rfl
  · simp [header?, hn]

theorem readBody_end {header : Header} {c : Cursor} (hrest : c.rest = []) (h : 0 ≤ header.length)
    (hlt : header.length < 2 ^ 64) : (readBody header c).1 = none ↔ header.length ≠ 0 := by
  have hbody := (readBody_of_nonneg (c := c) h hlt).1
  rw [hrest] at hbody
  rw [hbody]
  by_cases hzero : header.length = 0
  · simp [hzero]
  · have hpos : ¬ header.length.toNat ≤ 0 := by omega
    simp [hzero, hpos]

def Agree (data : Data) : Prop :=
  SameAnswer (readTLBytes (.start data)) (readBytes (.start data))

def AgreeOnString (data : Data) : Prop :=
  SameAnswer (readTLBytes (.start data)) (readStringBytes (.start data))

/-- The disagreements of both `readBytes:` and `readString:`. -/
def Cut (data : Data) : Prop := CutInZeroLength data ∨ CutInPadding data

theorem sameAnswer_endOfData {stream : Option Data × Cursor} :
    SameAnswer (.error .endOfData) stream ↔ stream.1 = none := by
  simp [SameAnswer]

theorem readStringBytes_eq (c : Cursor) :
    readStringBytes c =
      if 0 < (readHeader c).1.length then readBody (readHeader c).1 (readHeader c).2
      else (some [], readPadding (readHeader c).1.paddingBytes.toNat (readHeader c).2) := rfl

/-- Without a complete header the other reader fails. -/
theorem agree_no_header {data : Data} (h : header? data = none) :
    (Agree data ↔ ¬ CutInZeroLength data) ∧ (AgreeOnString data ↔ ¬ CutInZeroLength data) := by
  unfold Agree AgreeOnString
  rw [readTLBytes_no_header (c := .start data) h, sameAnswer_endOfData, sameAnswer_endOfData]
  rcases header?_eq_none h with rfl | ⟨bytes, hlen, rfl⟩
  · have hcut : CutInZeroLength [] := .inl rfl
    have hbytes : (readBytes (.start [])).1 = some [] := rfl
    have hstring : (readStringBytes (.start [])).1 = some [] := rfl
    simp [hcut, hbytes, hstring]
  · obtain ⟨hrest, hnonneg, hzero⟩ := readHeader_cut hlen
    have hcut : CutInZeroLength (254 :: bytes) ↔ bytes = List.replicate bytes.length 0 := by
      constructor
      · rintro (hnil | ⟨n, _, heq⟩)
        · cases hnil
        · rw [List.cons.injEq] at heq
          rw [heq.2, List.length_replicate]
      · exact fun heq => .inr ⟨bytes.length, hlen, by rw [← heq]⟩
    have hlt : (readHeader (.start (254 :: bytes))).1.length < 2 ^ 64 := by
      have hheader : (readHeader (.start (254 :: bytes))).1 = longHeader (bytes.take 3) := by
        simp [readHeader, InputStream.read, Cursor.start, leNat]
      have hshift := leNat_lt (bytes.take 3)
      have htake := List.length_take_le 3 bytes
      have hpow : 256 ^ (bytes.take 3).length ≤ 256 ^ 3 := Nat.pow_le_pow_right (by decide) htake
      rw [hheader, longHeader_length _ htake]
      split_ifs <;> omega
    have hbody := readBody_end hrest hnonneg hlt
    rw [hcut, ← hzero]
    refine ⟨hbody, ?_⟩
    rw [readStringBytes_eq]
    split_ifs with hpos
    · exact hbody
    · have hlength : (readHeader (.start (254 :: bytes))).1.length = 0 := by omega
      simp [hlength]

section Header

variable {data : Data} {header : Header} {size : Nat}

theorem cutInPadding_iff (h : header? data = some (header, size)) :
    CutInPadding data ↔ 0 ≤ header.length ∧ size + header.length.toNat ≤ data.length ∧
      data.length < size + header.length.toNat + header.paddingBytes.toNat := by
  constructor
  · rintro ⟨header', size', h', hcut⟩
    rw [h, Option.some.injEq, Prod.mk.injEq] at h'
    rw [h'.1, h'.2]
    exact hcut
  · exact fun hcut => ⟨header, size, h, hcut⟩

theorem negativeLength_iff (least : Int) (h : header? data = some (header, size)) :
    NegativeLength least data ↔ least ≤ header.length ∧ header.length < 0 := by
  constructor
  · rintro ⟨header', size', h', hneg⟩
    rw [h, Option.some.injEq, Prod.mk.injEq] at h'
    rw [h'.1]
    exact hneg
  · exact fun hneg => ⟨header, size, h, hneg⟩

theorem not_cutInZeroLength (h : header? data = some (header, size)) : ¬ CutInZeroLength data := by
  intro hcut
  rw [header?_of_cutInZeroLength hcut] at h
  cases h

theorem readBytes_start (h : header? data = some (header, size)) :
    readBytes (.start data) = readBody header ⟨size, data.drop size⟩ := by
  rw [readBytes_header (c := .start data) h]
  simp [Cursor.start]

theorem readTLBytes_start (h : header? data = some (header, size)) :
    readTLBytes (.start data) = readTLBody header ⟨size, data.drop size⟩ := by
  rw [readTLBytes_header (c := .start data) h]
  simp [Cursor.start]

theorem readStringBytes_start (h : header? data = some (header, size)) :
    readStringBytes (.start data) =
      if 0 < header.length then readBody header ⟨size, data.drop size⟩
      else (some [], readPadding header.paddingBytes.toNat ⟨size, data.drop size⟩) := by
  rw [readStringBytes_eq, readHeader_header (c := .start data) h]
  simp [Cursor.start]

/-- The bodies agree unless the padding is cut. -/
theorem sameAnswer_body {c : Cursor} (h : 0 ≤ header.length) (hlt : header.length < 2 ^ 64) :
    SameAnswer (readTLBody header c) (readBody header c) ↔
      ¬ (header.length.toNat ≤ c.rest.length ∧
        c.rest.length < header.length.toNat + header.paddingBytes.toNat) := by
  obtain ⟨hbytes, hrest⟩ := readBody_of_nonneg (c := c) h hlt
  rw [readTLBody_of_nonneg h]
  by_cases hall : header.length.toNat + header.paddingBytes.toNat ≤ c.rest.length
  · have hbody : header.length.toNat ≤ c.rest.length := by omega
    rw [if_pos hall]
    rw [if_pos hbody] at hbytes
    have hsame : readBody header c = (some (c.rest.take header.length.toNat), _) :=
      Prod.ext hbytes (hrest hall)
    exact iff_of_true hsame (by omega)
  · grind [sameAnswer_endOfData]

theorem readBody_empty {c : Cursor} (h : header.length = 0) :
    readBody header c = (some [], readPadding header.paddingBytes.toNat c) := by
  simp [readBody, InputStream.read, h, unsigned]

theorem agree_header (h : header? data = some (header, size)) :
    (Agree data ↔ ¬ Cut data ∧ ¬ NegativeLength (-4) data) ∧
      (AgreeOnString data ↔ ¬ Cut data ∧ ¬ NegativeLength (-(2 ^ 23)) data) := by
  obtain ⟨hlo, hhi, hsize⟩ := header?_length h
  obtain ⟨hle, _, _⟩ := header?_take h
  have hzero := not_cutInZeroLength h
  unfold Agree AgreeOnString Cut
  rw [cutInPadding_iff h, negativeLength_iff _ h, negativeLength_iff _ h, readBytes_start h,
    readTLBytes_start h, readStringBytes_start h]
  by_cases hneg : header.length < 0
  · have hpadding : ¬ 0 ≤ header.length := by omega
    have hpos : ¬ 0 < header.length := by omega
    have hany : -8388608 ≤ header.length := hlo
    rw [readTLBody_of_neg hneg, if_neg hpos, hsize hneg]
    have hfails := readBody_of_neg (c := ⟨4, data.drop 4⟩) hneg
    by_cases hwrap : -header.length ≤ ((4 : Nat) : Int)
    · rw [if_pos hwrap]
      have hleast : -4 ≤ header.length := by omega
      simp [SameAnswer, hleast, hneg, hany]
    · grind [SameAnswer]
  · have hnonneg : 0 ≤ header.length := by omega
    have hbody := sameAnswer_body (c := ⟨size, data.drop size⟩) hnonneg (by omega)
    have hcut : ¬ (header.length.toNat ≤ (data.drop size).length ∧
        (data.drop size).length < header.length.toNat + header.paddingBytes.toNat) ↔
        ¬ (CutInZeroLength data ∨ (0 ≤ header.length ∧
          size + header.length.toNat ≤ data.length ∧
          data.length < size + header.length.toNat + header.paddingBytes.toNat)) := by
      rw [List.length_drop]
      simp only [hzero, false_or, hnonneg, true_and]
      omega
    refine ⟨?_, ?_⟩
    · rw [hbody, hcut]
      simp [hneg]
    · have hstring : (if 0 < header.length then readBody header ⟨size, data.drop size⟩
          else (some [], readPadding header.paddingBytes.toNat ⟨size, data.drop size⟩)) =
          readBody header ⟨size, data.drop size⟩ := by
        split_ifs with hpos
        · rfl
        · exact (readBody_empty (by omega)).symm
      rw [hstring, hbody, hcut]
      simp [hneg]

end Header

/-- Exactly where the readers agree. -/
theorem readers_agree_iff (data : Data) :
    (Agree data ↔ ¬ Cut data ∧ ¬ NegativeLength (-4) data) ∧
      (AgreeOnString data ↔ ¬ Cut data ∧ ¬ NegativeLength (-(2 ^ 23)) data) := by
  cases h : header? data with
  | none =>
    grind [Cut, CutInPadding, NegativeLength, agree_no_header]
  | some parsed => exact agree_header h

/-- One byte of a string whose padding is missing. -/
theorem cut_padding_disagrees : ¬ Agree [1, 65] := by
  intro h
  have hbuffer : readTLBytes (.start [1, 65]) = .error .endOfData := by decide
  unfold Agree at h
  rw [hbuffer, sameAnswer_endOfData] at h
  revert h
  decide

end TelegramPub.Ports.TLReadersAgree
