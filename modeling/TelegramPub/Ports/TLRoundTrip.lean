import TelegramPub.Ports.InputStream

/-!
# Byte strings are read as they were written

A byte string below `2^23` bytes comes back from either reader.  From `2^23` bytes on the
three bytes of its length are read as a negative number, and the read fails.

`readBytes:length:` compares the sum of the offset and the length with the length of the
data.  The sum is taken modulo `2^64`: where it wraps, the read is accepted and moves
backward.
-/

namespace TelegramPub.Ports.TLRoundTrip

open Verified.Bytes Verified.ByteReader Ports.TLBuffer Ports.InputStream

/-- The parts of an encoding. -/
structure Layout (d front padding : Data) (header : Header) : Prop where
  eq : tlBytes d = front ++ (d ++ padding)
  header_eq : ∀ s, header? (tlBytes d ++ s) = some (header, front.length)
  length : header.length = if d.length < 2 ^ 23 then (d.length : Int) else d.length - 2 ^ 24
  paddingBytes : d.length < 2 ^ 23 → header.paddingBytes = padding.length
  aligned : (front.length + d.length + padding.length) % 4 = 0

theorem tlBytes_long {d : Data} (h : d.length < 2 ^ 24) (hlong : 254 ≤ d.length) :
    tlBytes d = (254 :: natLE 3 d.length) ++ (d ++
      List.replicate (roundUp d.length 4 - d.length).toNat 0) := by
  have hint : int32 d.length = d.length := int32_of_range (by omega) (by omega)
  have hmod : ((d.length : Int) % 2 ^ 32).toNat = d.length := by omega
  simp only [tlBytes, hint, hmod]
  rw [if_neg (by omega), if_pos (by omega), List.append_assoc]

theorem tlBytes_short {d : Data} (hne : d.length ≠ 0) (hshort : d.length < 254) :
    tlBytes d = [UInt8.ofNat d.length] ++ (d ++
      List.replicate (roundUp (d.length + 1) 4 - (d.length + 1)).toNat 0) := by
  have hint : int32 d.length = d.length := int32_of_range (by omega) (by omega)
  have hmod : ((d.length : Int) % 2 ^ 32).toNat = d.length := by omega
  have hbyte : natLE 1 d.length = [UInt8.ofNat d.length] := by
    rw [natLE, natLE, Nat.mod_eq_of_lt (by omega)]
  simp only [tlBytes, hint, hmod]
  rw [if_neg (by omega), if_neg (by omega), hbyte, List.append_assoc]

theorem tlBytes_layout {d : Data} (h : d.length < 2 ^ 24) :
    ∃ front padding header, Layout d front padding header := by
  by_cases hnil : d.length = 0
  · rw [List.length_eq_zero_iff] at hnil
    subst hnil
    exact ⟨[0], [0, 0, 0], shortHeader 0, rfl, fun _ => rfl, rfl, fun _ => rfl, rfl⟩
  · by_cases hlong : 254 ≤ d.length
    · have hround := roundUp_four (n := (d.length : Int)) (by omega)
      have hnat : leNat (natLE 3 d.length) = d.length := by
        rw [leNat_natLE, Nat.mod_eq_of_lt (by omega)]
      have hlength : (longHeader (natLE 3 d.length)).length =
          if d.length < 2 ^ 23 then (d.length : Int) else d.length - 2 ^ 24 := by
        rw [longHeader_length _ (length_natLE 3 _).le, hnat]
      refine ⟨254 :: natLE 3 d.length, _, longHeader (natLE 3 d.length), tlBytes_long h hlong,
        fun s => ?_, hlength, fun hshort => ?_, ?_⟩
      · rw [tlBytes_long h hlong, List.append_assoc, List.cons_append, List.length_cons,
          length_natLE]
        have htake : (natLE 3 d.length ++ ((d ++
            List.replicate (roundUp d.length 4 - d.length).toNat 0) ++ s)).take 3 =
              natLE 3 d.length := List.take_left' (length_natLE 3 _)
        simp [header?]
      · rw [if_pos hshort] at hlength
        show roundUp (longHeader _).length 4 - (longHeader _).length = _
        rw [hlength, List.length_replicate]
        omega
      · rw [List.length_cons, length_natLE, List.length_replicate]
        omega
    · have hround := roundUp_four (n := (d.length : Int) + 1) (by omega)
      have htmp : (UInt8.ofNat d.length).toNat = d.length := by
        rw [UInt8.toNat_ofNat']
        omega
      refine ⟨[UInt8.ofNat d.length], _, shortHeader d.length, tlBytes_short hnil (by omega),
        fun s => ?_, ?_, fun _ => ?_, ?_⟩
      · rw [tlBytes_short hnil (by omega), List.append_assoc, List.singleton_append, header?, htmp,
          if_neg (by omega)]
        rfl
      · rw [if_pos (by omega)]
        rfl
      · show roundUp ((d.length : Int) + 1) 4 - ((d.length : Int) + 1) = _
        rw [List.length_replicate]
        omega
      · rw [List.length_singleton, List.length_replicate]
        omega

theorem four_dvd_length_tlBytes {d : Data} (h : d.length < 2 ^ 24) :
    4 ∣ (tlBytes d).length := by
  obtain ⟨front, padding, header, hlayout⟩ := tlBytes_layout h
  rw [hlayout.eq, List.length_append, List.length_append]
  have haligned := hlayout.aligned
  omega

section Layout

variable {d front padding : Data} {header : Header}

theorem Layout.length_eq (h : Layout d front padding header) (hshort : d.length < 2 ^ 23) :
    header.length = d.length := by
  rw [h.length, if_pos hshort]

theorem Layout.length_neg (h : Layout d front padding header) (hlt : d.length < 2 ^ 24)
    (hlong : 2 ^ 23 ≤ d.length) : header.length < 0 := by
  rw [h.length, if_neg (by omega)]
  omega

theorem Layout.after_header (h : Layout d front padding header) (s : Data) :
    (tlBytes d ++ s).drop front.length = d ++ (padding ++ s) := by
  rw [h.eq, List.append_assoc, List.append_assoc, List.drop_left]

theorem Layout.readTLBytes_eq (h : Layout d front padding header) (hshort : d.length < 2 ^ 23)
    (offset : Nat) (s : Data) :
    readTLBytes ⟨offset, tlBytes d ++ s⟩ = .ok (d, ⟨offset + (tlBytes d).length, s⟩) := by
  have hlength : header.length.toNat = d.length := by
    rw [h.length_eq hshort, Int.toNat_natCast]
  have hpadding : header.paddingBytes.toNat = padding.length := by
    rw [h.paddingBytes hshort, Int.toNat_natCast]
  rw [readTLBytes_header (c := ⟨offset, tlBytes d ++ s⟩) (h.header_eq s),
    readTLBody_of_nonneg (by rw [h.length_eq hshort]; exact Int.natCast_nonneg _), hlength,
    hpadding]
  simp only [h.after_header]
  rw [if_pos (by simp only [List.length_append]; omega), List.take_left, h.eq,
    ← List.append_assoc d, ← List.length_append, List.drop_left]
  simp only [List.length_append, Nat.add_assoc]

theorem Layout.readBytes_eq (h : Layout d front padding header) (hshort : d.length < 2 ^ 23)
    (offset : Nat) (s : Data) :
    readBytes ⟨offset, writeBytes d ++ s⟩ = (some d, ⟨offset + (writeBytes d).length, s⟩) := by
  have hlength : header.length.toNat = d.length := by
    rw [h.length_eq hshort, Int.toNat_natCast]
  have hpadding : header.paddingBytes.toNat = padding.length := by
    rw [h.paddingBytes hshort, Int.toNat_natCast]
  have hnonneg : 0 ≤ header.length := by
    rw [h.length_eq hshort]
    exact Int.natCast_nonneg _
  have hbound : header.length < 2 ^ 64 := by
    rw [h.length_eq hshort]
    omega
  have hwrite : writeBytes d = tlBytes d := rfl
  rw [hwrite, readBytes_header (c := ⟨offset, tlBytes d ++ s⟩) (h.header_eq s)]
  simp only [h.after_header]
  obtain ⟨hbytes, hrest⟩ := readBody_of_nonneg (c := ⟨offset + front.length, d ++ (padding ++ s)⟩)
    hnonneg hbound
  rw [hlength] at hbytes hrest
  rw [hpadding] at hrest
  refine Prod.ext ?_ ?_
  · rw [hbytes, if_pos (by simp), List.take_left]
  · rw [hrest (by simp only [List.length_append]; omega), ← List.append_assoc d,
      ← List.length_append, List.drop_left, h.eq]
    simp only [List.length_append, Nat.add_assoc]

end Layout

/-- `readTLBytes:` reads the string back and stops at its end. -/
theorem readTLBytes_tlBytes {d : Data} (h : d.length < 2 ^ 23) (offset : Nat) (s : Data) :
    readTLBytes ⟨offset, tlBytes d ++ s⟩ = .ok (d, ⟨offset + (tlBytes d).length, s⟩) := by
  obtain ⟨front, padding, header, hlayout⟩ := tlBytes_layout (d := d) (by omega)
  exact hlayout.readTLBytes_eq h offset s

theorem readTLBytes_tlBytes_long {d : Data} (h : d.length < 2 ^ 24) (hlong : 2 ^ 23 ≤ d.length)
    (offset : Nat) (s : Data) : ∃ fault, readTLBytes ⟨offset, tlBytes d ++ s⟩ = .error fault := by
  obtain ⟨front, padding, header, hlayout⟩ := tlBytes_layout h
  rw [readTLBytes_header (c := ⟨offset, tlBytes d ++ s⟩) (hlayout.header_eq s),
    readTLBody_of_neg (hlayout.length_neg h hlong)]
  split_ifs
  · exact ⟨.raised, rfl⟩
  · exact ⟨.rejected, rfl⟩

/-- `MTInputStream` reads the string back and stops at its end. -/
theorem readBytes_writeBytes {d : Data} (h : d.length < 2 ^ 23) (offset : Nat) (s : Data) :
    readBytes ⟨offset, writeBytes d ++ s⟩ = (some d, ⟨offset + (writeBytes d).length, s⟩) := by
  obtain ⟨front, padding, header, hlayout⟩ := tlBytes_layout (d := d) (by omega)
  exact hlayout.readBytes_eq h offset s

theorem readBytes_writeBytes_long {d : Data} (h : d.length < 2 ^ 24) (hlong : 2 ^ 23 ≤ d.length)
    (offset : Nat) (s : Data) : (readBytes ⟨offset, writeBytes d ++ s⟩).1 = none := by
  obtain ⟨front, padding, header, hlayout⟩ := tlBytes_layout h
  have hwrite : writeBytes d = tlBytes d := rfl
  rw [hwrite, readBytes_header (c := ⟨offset, tlBytes d ++ s⟩) (hlayout.header_eq s)]
  exact readBody_of_neg (hlayout.length_neg h hlong)

/-! ## Reads at the level of offsets -/

/-- `MTBufferReader`: the data, and how much of it has been read. -/
structure BufferReader where
  data : Data
  offset : Nat
  small : data.length < 2 ^ 63
  within : offset ≤ data.length

/-- `readBytes:length:` with the bytes it copies. -/
def BufferReader.readBytes (r : BufferReader) (length : Nat) : Option (Data × BufferReader) :=
  if h : (r.offset + length) % 2 ^ 64 ≤ r.data.length then
    some ((r.data.drop r.offset).take length,
      { r with offset := (r.offset + length) % 2 ^ 64, within := h })
  else none

def BufferReader.cursor (r : BufferReader) : Cursor := ⟨r.offset, r.data.drop r.offset⟩

section Offsets

variable {r : BufferReader}

/-- A read moves forward in the data, if it does not fail. -/
def ReadsWithin (r : BufferReader) (length : Nat) : Prop :=
  ∀ bytes r', r.readBytes length = some (bytes, r') →
    r'.offset = r.offset + length ∧ r.offset + length ≤ r.data.length

theorem readsWithin_iff {length : Nat} (hlength : length < 2 ^ 64) :
    ReadsWithin r length ↔ r.offset + length < 2 ^ 64 := by
  have hwithin := r.within
  constructor
  · intro h
    by_contra hwrap
    have hmod : (r.offset + length) % 2 ^ 64 ≤ r.data.length := by omega
    have hback := (h _ _ (dif_pos hmod)).1
    dsimp only at hback
    omega
  · intro hlt bytes r' hread
    have hmod : (r.offset + length) % 2 ^ 64 = r.offset + length := Nat.mod_eq_of_lt hlt
    unfold BufferReader.readBytes at hread
    split_ifs at hread with hle
    simp only [Option.some.injEq, Prod.mk.injEq] at hread
    obtain ⟨_, rfl⟩ := hread
    rw [hmod] at hle
    exact ⟨hmod, hle⟩

/-- `readTLBytes:` fails or moves forward in the data. -/
def TLReadsWithin (r : BufferReader) : Prop :=
  match readTLBytes r.cursor with
  | .ok (_, c) => ∃ r' : BufferReader, r'.data = r.data ∧ c = r'.cursor ∧ r.offset < r'.offset
  | .error fault => fault ≠ .raised

/-- The length reads as a negative number that leads back into the data. -/
def LengthWraps (r : BufferReader) : Prop :=
  ∃ header size, header? (r.data.drop r.offset) = some (header, size) ∧
    header.length < 0 ∧ -header.length ≤ r.offset + size

theorem tlReadsWithin_iff : TLReadsWithin r ↔ ¬ LengthWraps r := by
  have hwithin := r.within
  unfold TLReadsWithin LengthWraps
  cases hheader : header? (r.data.drop r.offset) with
  | none =>
    rw [readTLBytes_no_header (c := r.cursor) hheader]
    simp
  | some parsed =>
    obtain ⟨header, size⟩ := parsed
    obtain ⟨hsize, hpos, _⟩ := header?_take hheader
    rw [List.length_drop] at hsize
    rw [readTLBytes_header (c := r.cursor) hheader]
    by_cases hneg : header.length < 0
    · rw [readTLBody_of_neg hneg]
      show _ ↔ ¬ _
      by_cases hwrap : -header.length ≤ ((r.offset + size : Nat) : Int)
      · rw [if_pos (show -header.length ≤ ((r.cursor.offset + size : Nat) : Int) from hwrap)]
        have hwrap' : -header.length ≤ r.offset + size := by exact_mod_cast hwrap
        simp [hneg, hwrap']
      · rw [if_neg (show ¬ -header.length ≤ ((r.cursor.offset + size : Nat) : Int) from hwrap)]
        have hwrap' : ¬ -header.length ≤ r.offset + size := by exact_mod_cast hwrap
        simp [hwrap']
    · rw [readTLBody_of_nonneg (by omega)]
      have hdata : ((r.cursor.rest).drop size).length = r.data.length - r.offset - size := by
        simp [BufferReader.cursor, Nat.sub_sub]
      rw [hdata]
      by_cases hbody : header.length.toNat + header.paddingBytes.toNat ≤
          r.data.length - r.offset - size
      · rw [if_pos hbody]
        simp only [Option.some.injEq, Prod.mk.injEq]
        refine ⟨fun _ => ?_, fun _ => ⟨{ r with
            offset := r.offset + size + header.length.toNat + header.paddingBytes.toNat
            within := by omega }, rfl, ?_, by dsimp only; omega⟩⟩
        · intro hex
          obtain ⟨header', size', ⟨rfl, rfl⟩, hneg', _⟩ := hex
          exact hneg hneg'
        · simp [BufferReader.cursor, List.drop_drop, Nat.add_assoc]
      · rw [if_neg hbody]
        simp [hneg]

end Offsets

/-! ## The stream stays within its data -/

/-- One position is reached from another by reading forward. -/
def Forward (c c' : Cursor) : Prop :=
  ∃ n, n ≤ c.rest.length ∧ c' = ⟨c.offset + n, c.rest.drop n⟩

theorem Forward.trans {c c' c'' : Cursor} (h : Forward c c') (h' : Forward c' c'') :
    Forward c c'' := by
  obtain ⟨n, hn, rfl⟩ := h
  obtain ⟨m, hm, rfl⟩ := h'
  rw [List.length_drop] at hm
  refine ⟨n + m, by omega, ?_⟩
  simp [List.drop_drop, Nat.add_assoc]

theorem forward_read (n : Nat) (c : Cursor) : Forward c (InputStream.read n c).2 := by
  refine ⟨min n c.rest.length, Nat.min_le_right _ _, ?_⟩
  rcases Nat.le_total n c.rest.length with hle | hle
  · rw [Nat.min_eq_left hle]
    simp [InputStream.read, Nat.min_eq_left hle]
  · simp [InputStream.read, hle]

theorem forward_readPadding (n : Nat) (c : Cursor) : Forward c (readPadding n c) := by
  induction n generalizing c with
  | zero => exact ⟨0, Nat.zero_le _, by simp [readPadding]⟩
  | succ n ih => exact (forward_read 1 c).trans (ih _)

/-- The header is read behind its first byte. -/
theorem forward_readHeader (c : Cursor) : Forward (InputStream.read 1 c).2 (readHeader c).2 := by
  unfold readHeader
  simp only
  split_ifs
  · exact forward_read 3 _
  · exact ⟨0, Nat.zero_le _, by simp⟩

theorem forward_readBytes (c : Cursor) : Forward (InputStream.read 1 c).2 (readBytes c).2 := by
  have hheader := forward_readHeader c
  have hbody := forward_read (unsigned (readHeader c).1.length) (readHeader c).2
  unfold readBytes readBody
  simp only
  split_ifs
  · exact hheader.trans hbody
  · exact (hheader.trans hbody).trans (forward_readPadding _ _)

/-- `readBytes:` of the stream fails or moves forward in the data. -/
def StreamReadsWithin (c : Cursor) : Prop :=
  ∀ bytes c', readBytes c = (some bytes, c') → Forward c c' ∧ c.offset < c'.offset

theorem streamReadsWithin_iff {c : Cursor} : StreamReadsWithin c ↔ c.rest ≠ [] := by
  constructor
  · intro h hnil
    obtain ⟨offset, rest⟩ := c
    dsimp only at hnil
    subst hnil
    exact absurd (h [] ⟨offset, []⟩ rfl).2 (Nat.lt_irrefl _)
  · intro hne bytes c' hread
    have hforward := forward_readBytes c
    rw [hread] at hforward
    refine ⟨(forward_read 1 c).trans hforward, ?_⟩
    obtain ⟨n, _, rfl⟩ := hforward
    have hpos : 0 < c.rest.length := List.length_pos_of_ne_nil hne
    simp only [InputStream.read]
    omega

/-! ## Round trips and safety -/

def RoundTrips (d s : Data) : Prop :=
  readTLBytes (.start (tlBytes d ++ s)) = .ok (d, ⟨(tlBytes d).length, s⟩)

def StreamRoundTrips (d s : Data) : Prop :=
  readBytes (.start (writeBytes d ++ s)) = (some d, ⟨(writeBytes d).length, s⟩)

theorem roundTrips_iff {d : Data} (h : d.length < 2 ^ 24) (s : Data) :
    RoundTrips d s ↔ d.length < 2 ^ 23 := by
  unfold RoundTrips Cursor.start
  constructor
  · intro hread
    by_contra hlong
    obtain ⟨fault, hfault⟩ := readTLBytes_tlBytes_long h (Nat.not_lt.1 hlong) 0 s
    rw [hfault] at hread
    cases hread
  · grind [readTLBytes_tlBytes]

theorem streamRoundTrips_iff {d : Data} (h : d.length < 2 ^ 24) (s : Data) :
    StreamRoundTrips d s ↔ d.length < 2 ^ 23 := by
  unfold StreamRoundTrips Cursor.start
  constructor
  · grind [readBytes_writeBytes_long]
  · grind [readBytes_writeBytes]

/-- A string of `2^23` zero bytes does not come back. -/
theorem zeros_not_roundTrips : ¬ RoundTrips (List.replicate 8388608 0) [] := by
  rw [roundTrips_iff (by rw [List.length_replicate]; decide), List.length_replicate]
  decide

/-- What comes back, and which reads stay within the data. -/
theorem tlBytes_roundTrip_and_reads {d s : Data} (hd : d.length < 2 ^ 24) (r : BufferReader)
    {length : Nat} (hlength : length < 2 ^ 64) (c : Cursor) :
    (RoundTrips d s ↔ d.length < 2 ^ 23) ∧ (StreamRoundTrips d s ↔ d.length < 2 ^ 23) ∧
      4 ∣ (tlBytes d).length ∧ (ReadsWithin r length ↔ r.offset + length < 2 ^ 64) ∧
      (TLReadsWithin r ↔ ¬ LengthWraps r) ∧ (StreamReadsWithin c ↔ c.rest ≠ []) :=
  ⟨roundTrips_iff hd s, streamRoundTrips_iff hd s, four_dvd_length_tlBytes hd,
    readsWithin_iff hlength, tlReadsWithin_iff, streamReadsWithin_iff⟩

/-- A reader after four bytes that are a length of `-4`. -/
def wrappingReader : BufferReader :=
  ⟨[254, 252, 255, 255], 0, by decide, by decide⟩

/-- Three bytes, and a reader whose length wraps around. -/
theorem roundTrip_and_reads_three :
    (RoundTrips [1, 2, 3] [4] ↔ 3 < 2 ^ 23) ∧ (StreamRoundTrips [1, 2, 3] [4] ↔ 3 < 2 ^ 23) ∧
      4 ∣ (tlBytes [1, 2, 3]).length ∧ (ReadsWithin wrappingReader 4 ↔ 0 + 4 < 2 ^ 64) ∧
      (TLReadsWithin wrappingReader ↔ ¬ LengthWraps wrappingReader) ∧
      (StreamReadsWithin (.start [0]) ↔ [0] ≠ ([] : Data)) :=
  tlBytes_roundTrip_and_reads (by decide) wrappingReader (by decide) (.start [0])

end TelegramPub.Ports.TLRoundTrip
