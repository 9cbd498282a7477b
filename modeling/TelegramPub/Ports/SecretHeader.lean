import Mathlib.Data.List.GetD
import TelegramPub.Ports.SecretEncryption

/-!
# The header of a secret message

From layer 17 on a message is a `decryptedMessageLayer`: the constructor, some random
bytes, the layer, the two sequence numbers and the message.  `decryptEncryptedMessageData`
finds the numbers by their offset.  It takes the byte behind the constructor for the
length of the random bytes, which is right in the short form of a TL string only: in the
long form this byte is 254 and the length follows.  And it looks for the header in all that
follows the length of the message, the padding included.
-/

namespace TelegramPub.Ports.SecretHeader

open Verified.Bytes Ports.MessageEncryption Ports.SecretEncryption

/-! ## The text of a layer -/

/-- The two forms of a TL string. -/
inductive LengthForm where
  | short
  | long
  deriving DecidableEq

/-- The lengths that a form can have. -/
def LengthForm.Admits : LengthForm → Nat → Prop
  | .short, n => n < 254
  | .long, n => n < 2 ^ 24

/-- The length in front of a TL string. -/
def LengthForm.front : LengthForm → Nat → Data
  | .short, n => [UInt8.ofNat n]
  | .long, n => 254 :: natLE 3 n

/-- A TL string, filled up to a multiple of four bytes. -/
def tlString (form : LengthForm) (bytes : Data) : Data :=
  let text := form.front bytes.length ++ bytes
  text ++ List.replicate ((4 - text.length % 4) % 4) 0

/-- A serialized `decryptedMessageLayer`. -/
def layerMessage (form : LengthForm) (randomBytes : Data) (layer inSeqNo outSeqNo : Int32)
    (message : Data) : Data :=
  layerSignature ++ tlString form randomBytes ++
    (int32Bytes layer.toInt ++ (int32Bytes inSeqNo.toInt ++ (int32Bytes outSeqNo.toInt ++ message)))

/-- The layer and half of the numbers are reported, if the numbers have the parity of the
peer and the version is the one of the layer. -/
def ReportsHeader (isCreator decryptedByV2 : Bool) (content : Data)
    (layer inSeqNo outSeqNo : Int32) : Prop :=
  if ({ layer := layer.toInt.toNat, seqIn := inSeqNo.toInt, seqOut := outSeqNo.toInt } :
      Header).Accepted isCreator decryptedByV2 then
    ∃ r, acceptContent isCreator decryptedByV2 content = some r ∧
      (r.decryptedLayer : Int) = layer.toInt ∧ r.seqIn = inSeqNo.toInt.tdiv 2 ∧
      r.seqOut = outSeqNo.toInt.tdiv 2
  else acceptContent isCreator decryptedByV2 content = none

theorem toNat_roundUp (b : UInt8) : (roundUp 3 b).toNat = b.toNat + (3 - b.toNat % 4) := by
  have hb : b.toNat < 256 := b.toNat_lt
  have hadd : ∀ c : UInt8, (c + 1).toNat = (c.toNat + 1) % 256 := fun c => UInt8.toNat_add c 1
  simp only [roundUp]
  split_ifs <;> simp only [hadd] at * <;> omega

theorem range_of_le {data rest : Data} {location length : Nat}
    (h : location + length ≤ data.length) :
    range (data ++ rest) location length = range data location length := by
  unfold range
  rw [List.drop_append_of_le_length (by omega), List.take_append_of_le_length]
  rw [List.length_drop]
  omega

/-- The number of bytes that the scan asks for. -/
def headerEnd (content : Data) : Nat := 4 + 1 + (roundUp 3 (content.getD 4 0)).toNat + 4 + 4 + 4

variable {content declared : Data}

theorem scanHeader_of_complete (hsig : range content 0 4 = layerSignature)
    (hend : headerEnd content ≤ content.length) :
    scanHeader content = headerAt content (headerEnd content - 12) := by
  unfold scanHeader
  unfold headerEnd at *
  rw [if_pos ⟨hsig, by omega⟩]
  rw [if_pos hend]
  congr 1

theorem scanHeader_of_incomplete (hend : content.length < headerEnd content) :
    scanHeader content = {} := by
  unfold scanHeader
  unfold headerEnd at hend
  split
  · dsimp only
    rw [if_neg (by omega)]
  · rfl

theorem scanHeader_of_other (hsig : range content 0 4 ≠ layerSignature) :
    scanHeader content = {} := by
  unfold scanHeader
  rw [if_neg (fun h => hsig h.1)]

theorem one_le_scanHeader_layer (content : Data) : 1 ≤ (scanHeader content).layer := by
  unfold scanHeader headerAt
  split
  · grind
  · exact le_refl _

theorem one_le_decryptedLayer {isCreator v2 : Bool} {r : Decrypted}
    (h : acceptContent isCreator v2 content = some r) : 1 ≤ r.decryptedLayer := by
  unfold acceptContent at h
  dsimp only at h
  split at h
  · cases h
    exact one_le_scanHeader_layer content
  · cases h

theorem acceptContent_of_layer_one (hone : (scanHeader content).layer = 1) (isCreator v2 : Bool) :
    acceptContent isCreator v2 content = some
      { content, decryptedLayer := 1, seqIn := (scanHeader content).seqIn.tdiv 2
        seqOut := (scanHeader content).seqOut.tdiv 2, decryptedByV2 := v2 } := by
  unfold acceptContent
  rw [if_pos ⟨fun h => by omega, fun h => by omega⟩, hone]

theorem int32OfBytes_toInt (v : Int32) : int32OfBytes (int32Bytes v.toInt) = v.toInt := by
  have hlo := Int32.le_toInt v
  have hhi := Int32.toInt_lt v
  rw [int32OfBytes_int32Bytes]
  exact int32_of_range (by omega) (by omega)

theorem headerAt_layer (content : Data) (offset : Nat) : (headerAt content offset).layer =
    max 1 (unsignedInteger (int32OfBytes (range content offset 4))) := by
  simp only [headerAt]

theorem headerAt_seqIn (content : Data) (offset : Nat) :
    (headerAt content offset).seqIn = int32OfBytes (range content (offset + 4) 4) := by
  simp only [headerAt]

theorem headerAt_seqOut (content : Data) (offset : Nat) :
    (headerAt content offset).seqOut = int32OfBytes (range content (offset + 8) 4) := by
  simp only [headerAt]

/-- The numbers behind a front. -/
theorem headerAt_front (front rest : Data) (layer inSeqNo outSeqNo : Int32) :
    headerAt (front ++ (int32Bytes layer.toInt ++ (int32Bytes inSeqNo.toInt ++
        (int32Bytes outSeqNo.toInt ++ rest)))) front.length =
      { layer := max 1 (unsignedInteger layer.toInt), seqIn := inSeqNo.toInt
        seqOut := outSeqNo.toInt } := by
  unfold headerAt
  rw [range_append front (int32Bytes layer.toInt) _ rfl (length_int32Bytes _), int32OfBytes_toInt]
  have hin : range (front ++ (int32Bytes layer.toInt ++ (int32Bytes inSeqNo.toInt ++
      (int32Bytes outSeqNo.toInt ++ rest)))) (front.length + 4) 4 = int32Bytes inSeqNo.toInt := by
    rw [← List.append_assoc front]
    exact range_append _ _ _ (by simp) (length_int32Bytes _)
  have hout : range (front ++ (int32Bytes layer.toInt ++ (int32Bytes inSeqNo.toInt ++
      (int32Bytes outSeqNo.toInt ++ rest)))) (front.length + 8) 4 = int32Bytes outSeqNo.toInt := by
    rw [← List.append_assoc front, ← List.append_assoc (front ++ _)]
    exact range_append _ _ _ (by simp) (length_int32Bytes _)
  rw [hin, hout, int32OfBytes_toInt, int32OfBytes_toInt]

section Layers

variable {form : LengthForm} {randomBytes : Data}

/-- The constructor and the random bytes. -/
def layerFront (form : LengthForm) (randomBytes : Data) : Data :=
  layerSignature ++ tlString form randomBytes

/-- The byte that the scan takes for the length. -/
def LengthForm.firstByte : LengthForm → Nat → UInt8
  | .short, n => UInt8.ofNat n
  | .long, _ => 254

theorem tlString_eq_cons (form : LengthForm) (randomBytes : Data) :
    ∃ rest, tlString form randomBytes = form.firstByte randomBytes.length :: rest := by
  cases form with
  | short => exact ⟨_, rfl⟩
  | long => exact ⟨_, rfl⟩

theorem length_layerFront (form : LengthForm) (randomBytes : Data) :
    (layerFront form randomBytes).length = match form with
      | .short => 5 + (randomBytes.length + (3 - randomBytes.length % 4))
      | .long => 8 + (randomBytes.length + (4 - randomBytes.length % 4) % 4) := by
  have hsig : layerSignature.length = 4 := length_int32Bytes _
  unfold layerFront tlString
  cases form with
  | short =>
    grind [LengthForm.front]
  | long =>
    simp only [LengthForm.front, List.length_append, List.length_replicate, List.length_cons,
      length_natLE, hsig]
    omega

theorem range_layerFront (form : LengthForm) (randomBytes rest : Data) :
    range (layerFront form randomBytes ++ rest) 0 4 = layerSignature := by
  unfold layerFront
  rw [List.append_assoc]
  exact range_append [] layerSignature _ rfl (length_int32Bytes _)

theorem headerEnd_layerFront (form : LengthForm) (randomBytes rest : Data) :
    headerEnd (layerFront form randomBytes ++ rest) =
      17 + (roundUp 3 (form.firstByte randomBytes.length)).toNat := by
  obtain ⟨tail, htail⟩ := tlString_eq_cons form randomBytes
  have hbyte : (layerFront form randomBytes ++ rest).getD 4 0 =
      form.firstByte randomBytes.length := by
    unfold layerFront
    rw [htail]
    rfl
  unfold headerEnd
  rw [hbyte]
  omega

/-- The scan finds the header when the short form is used, and with the long form when
the random bytes happen to end where 254 or 255 of them would end. -/
theorem headerEnd_eq (hn : form.Admits randomBytes.length)
    (hform : form = .short ∨ 249 ≤ randomBytes.length ∧ randomBytes.length ≤ 252) (rest : Data) :
    headerEnd (layerFront form randomBytes ++ rest) =
      (layerFront form randomBytes).length + 12 := by
  rw [headerEnd_layerFront, length_layerFront, toNat_roundUp]
  cases form with
  | short =>
    have hbyte : (LengthForm.firstByte .short randomBytes.length).toNat = randomBytes.length :=
      UInt8.toNat_ofNat_of_lt (lt_trans hn (by decide))
    rw [hbyte]
    dsimp only
    omega
  | long =>
    have hbyte : (LengthForm.firstByte .long randomBytes.length).toNat = 254 := rfl
    have hrange : 249 ≤ randomBytes.length ∧ randomBytes.length ≤ 252 :=
      hform.resolve_left (by decide)
    rw [hbyte]
    dsimp only
    omega

theorem scanHeader_layerMessage (hn : form.Admits randomBytes.length)
    (hform : form = .short ∨ 249 ≤ randomBytes.length ∧ randomBytes.length ≤ 252)
    (layer inSeqNo outSeqNo : Int32) (message padding : Data) :
    scanHeader (layerMessage form randomBytes layer inSeqNo outSeqNo message ++ padding) =
      { layer := max 1 (unsignedInteger layer.toInt), seqIn := inSeqNo.toInt
        seqOut := outSeqNo.toInt } := by
  have hsplit : layerMessage form randomBytes layer inSeqNo outSeqNo message ++ padding =
      layerFront form randomBytes ++ (int32Bytes layer.toInt ++ (int32Bytes inSeqNo.toInt ++
        (int32Bytes outSeqNo.toInt ++ (message ++ padding)))) := by
    unfold layerMessage layerFront
    simp only [List.append_assoc]
  have hend := headerEnd_eq hn hform (int32Bytes layer.toInt ++ (int32Bytes inSeqNo.toInt ++
    (int32Bytes outSeqNo.toInt ++ (message ++ padding))))
  rw [hsplit, scanHeader_of_complete (range_layerFront _ _ _), hend, Nat.add_sub_cancel]
  · exact headerAt_front _ _ _ _ _
  · rw [hend]
    simp only [List.length_append, length_int32Bytes]
    omega

theorem reportsHeader_layerMessage (hn : form.Admits randomBytes.length)
    (hform : form = .short ∨ 249 ≤ randomBytes.length ∧ randomBytes.length ≤ 252)
    {layer : Int32} (hlayer : 1 ≤ layer.toInt) (isCreator v2 : Bool) (inSeqNo outSeqNo : Int32)
    (message padding : Data) :
    ReportsHeader isCreator v2
      (layerMessage form randomBytes layer inSeqNo outSeqNo message ++ padding) layer inSeqNo
      outSeqNo := by
  have hhi := Int32.toInt_lt layer
  have hunsigned : max 1 (unsignedInteger layer.toInt) = layer.toInt.toNat := by
    unfold unsignedInteger
    omega
  have hscan := scanHeader_layerMessage hn hform layer inSeqNo outSeqNo message padding
  rw [hunsigned] at hscan
  unfold ReportsHeader acceptContent
  dsimp only
  rw [hscan]
  split
  case isTrue haccepted =>
    refine ⟨_, rfl, ?_, rfl, rfl⟩
    exact Int.toNat_of_nonneg (by omega)
  case isFalse => rfl

/-- Zero bytes in the long form. -/
def zeroLayer (n : Nat) (layer inSeqNo outSeqNo : Int32) : Data :=
  layerMessage .long (List.replicate n 0) layer inSeqNo outSeqNo []

theorem range_zeros (front rest : Data) {count location length : Nat}
    (hlo : front.length ≤ location) (hhi : location + length ≤ front.length + count) :
    range (front ++ (List.replicate count 0 ++ rest)) location length =
      List.replicate length 0 := by
  obtain ⟨skip, rfl⟩ := Nat.exists_eq_add_of_le hlo
  unfold range
  rw [← List.drop_drop, List.drop_left,
    List.drop_append_of_le_length (by rw [List.length_replicate]; omega), List.drop_replicate,
    List.take_append_of_le_length (by rw [List.length_replicate]; omega), List.take_replicate]
  congr 1
  omega

theorem firstByte_long (n : Nat) : (LengthForm.firstByte .long n).toNat = 254 := rfl

theorem int32OfBytes_zeros : int32OfBytes (List.replicate 4 0) = 0 := by decide

/-- With any other length of the long form the scan of zeros finds the layer 1, and the
number 0 or the layer in the place of the first number. -/
theorem scanHeader_zeroLayer {n : Nat} (hn : n < 249 ∨ 252 < n) (layer inSeqNo outSeqNo : Int32) :
    (scanHeader (zeroLayer n layer inSeqNo outSeqNo)).layer = 1 ∧
      ((scanHeader (zeroLayer n layer inSeqNo outSeqNo)).seqIn = 0 ∨
        (scanHeader (zeroLayer n layer inSeqNo outSeqNo)).seqIn = layer.toInt) := by
  have hsplit : zeroLayer n layer inSeqNo outSeqNo = layerFront .long (List.replicate n 0) ++
      (int32Bytes layer.toInt ++ (int32Bytes inSeqNo.toInt ++
        (int32Bytes outSeqNo.toInt ++ []))) := rfl
  have hfront : (layerFront .long (List.replicate n 0)).length = 8 + (n + (4 - n % 4) % 4) := by
    rw [length_layerFront, List.length_replicate]
  have hend : headerEnd (zeroLayer n layer inSeqNo outSeqNo) = 272 := by
    rw [hsplit, headerEnd_layerFront, toNat_roundUp, firstByte_long]
  have hlength : (zeroLayer n layer inSeqNo outSeqNo).length = 20 + (n + (4 - n % 4) % 4) := by
    rw [hsplit, List.length_append, hfront]
    simp only [List.length_append, length_int32Bytes, List.length_nil]
    omega
  rcases hn with hsmall | hlarge
  · rw [scanHeader_of_incomplete (by omega)]
    exact ⟨rfl, .inl rfl⟩
  · have hzeros : zeroLayer n layer inSeqNo outSeqNo = (layerSignature ++ 254 :: natLE 3 n) ++
        (List.replicate (n + (4 - n % 4) % 4) 0 ++ (int32Bytes layer.toInt ++
          (int32Bytes inSeqNo.toInt ++ (int32Bytes outSeqNo.toInt ++ [])))) := by
      have hmod : (LengthForm.front .long n ++ List.replicate n 0).length % 4 = n % 4 := by
        simp only [LengthForm.front, List.length_append, List.length_cons, length_natLE,
          List.length_replicate]
        omega
      rw [hsplit]
      unfold layerFront tlString
      dsimp only
      rw [List.length_replicate, hmod, LengthForm.front, ← List.replicate_append_replicate]
      simp only [List.append_assoc, List.cons_append]
    have hhead : (layerSignature ++ 254 :: natLE 3 n).length = 8 := by
      rw [List.length_append, List.length_cons, length_natLE]
      rfl
    have hlayer : int32OfBytes (range (zeroLayer n layer inSeqNo outSeqNo) 260 4) = 0 := by
      rw [hzeros, range_zeros _ _ (by omega) (by omega)]
      exact int32OfBytes_zeros
    have hseqIn : int32OfBytes (range (zeroLayer n layer inSeqNo outSeqNo) (260 + 4) 4) = 0 ∨
        int32OfBytes (range (zeroLayer n layer inSeqNo outSeqNo) (260 + 4) 4) = layer.toInt := by
      by_cases hnext : n ≤ 256
      · right
        have hstart : (layerFront .long (List.replicate n 0)).length = 260 + 4 := by omega
        rw [hsplit, range_append _ _ _ hstart (length_int32Bytes _)]
        exact int32OfBytes_toInt layer
      · left
        rw [hzeros, range_zeros _ _ (by omega) (by omega)]
        exact int32OfBytes_zeros
    have hsig : range (zeroLayer n layer inSeqNo outSeqNo) 0 4 = layerSignature := by
      rw [hsplit]
      exact range_layerFront _ _ _
    have hstart : headerEnd (zeroLayer n layer inSeqNo outSeqNo) - 12 = 260 := by rw [hend]
    rw [scanHeader_of_complete hsig (by omega), hstart]
    have hzero : unsignedInteger 0 = 0 := by simp [unsignedInteger]
    rw [headerAt_layer, headerAt_seqIn, hlayer, hzero]
    exact ⟨max_eq_left (by omega), hseqIn⟩

theorem not_reportsHeader_zeroLayer {content : Data} {layer : Int32} {isCreator v2 : Bool}
    (hone : (scanHeader content).layer = 1)
    (hseqIn : (scanHeader content).seqIn = 0 ∨ (scanHeader content).seqIn = layer.toInt) :
    ¬ ReportsHeader isCreator v2 content layer 2 2 := by
  intro hreports
  have hsome := acceptContent_of_layer_one hone isCreator v2
  unfold ReportsHeader at hreports
  rw [hsome] at hreports
  split at hreports
  case isTrue =>
    grind
  case isFalse => cases hreports

/-- The report of the numbers is right for all random bytes of a length just when the layer
is positive and the scan finds the end of the random bytes. -/
theorem reportsHeader_iff {n : Nat} (hn : form.Admits n) (layer : Int32) (isCreator v2 : Bool) :
    (∀ (randomBytes : Data) (inSeqNo outSeqNo : Int32) (message padding : Data),
      randomBytes.length = n → ReportsHeader isCreator v2
        (layerMessage form randomBytes layer inSeqNo outSeqNo message ++ padding) layer inSeqNo
        outSeqNo) ↔
    1 ≤ layer.toInt ∧ (form = .short ∨ 249 ≤ n ∧ n ≤ 252) := by
  constructor
  · intro hreports
    have hzeros := hreports (List.replicate n 0) 2 2 [] [] List.length_replicate
    rw [List.append_nil] at hzeros
    have hlayer : 1 ≤ layer.toInt := by
      by_contra hsmall
      have hzero : layer.toInt.toNat = 0 := Int.toNat_of_nonpos (by omega)
      unfold ReportsHeader at hzeros
      rw [hzero, if_pos ⟨fun h => by simp at h, fun h => by simp at h⟩] at hzeros
      obtain ⟨r, hr, hreported, -, -⟩ := hzeros
      have hone := one_le_decryptedLayer hr
      omega
    refine ⟨hlayer, ?_⟩
    cases form with
    | short => exact .inl rfl
    | long =>
      right
      by_contra hother
      obtain ⟨hone, hseqIn⟩ := scanHeader_zeroLayer (n := n) (by omega) layer 2 2
      exact not_reportsHeader_zeroLayer hone hseqIn hzeros
  · rintro ⟨hlayer, hform⟩ randomBytes inSeqNo outSeqNo message padding rfl
    exact reportsHeader_layerMessage hn hform hlayer isCreator v2 inSeqNo outSeqNo message padding

end Layers

/-- What is reported of a header. -/
def reportedNumbers (isCreator v2 : Bool) (content : Data) : Option (Nat × Int × Int) :=
  (acceptContent isCreator v2 content).map fun r => (r.decryptedLayer, r.seqIn, r.seqOut)

/-- Message and padding together can hold a header that the message alone is too short
for. -/
def PaddingReached (declared : Data) (paddingLength : Nat) : Prop :=
  declared.take 4 <+: layerSignature ∧ declared.length < headerEnd declared ∧
    headerEnd declared ≤ declared.length + paddingLength

instance (declared : Data) (paddingLength : Nat) :
    Decidable (PaddingReached declared paddingLength) :=
  inferInstanceAs (Decidable (_ ∧ _))

theorem reportedNumbers_congr {content' : Data} (h : scanHeader content = scanHeader content')
    (isCreator v2 : Bool) :
    reportedNumbers isCreator v2 content = reportedNumbers isCreator v2 content' := by
  unfold reportedNumbers acceptContent
  dsimp only
  rw [h]
  split <;> rfl

theorem reportedNumbers_of_empty (h : scanHeader content = {}) (isCreator v2 : Bool)
    : reportedNumbers isCreator v2 content = some (1, 0, 0) := by
  have hone : (scanHeader content).layer = 1 := by rw [h]
  unfold reportedNumbers
  rw [acceptContent_of_layer_one hone, h]
  rfl

theorem headerEnd_append_of_le (h : 5 ≤ declared.length) (padding : Data) :
    headerEnd (declared ++ padding) = headerEnd declared := by
  unfold headerEnd
  rw [List.getD_append _ _ _ _ (by omega)]

theorem twenty_le_headerEnd (content : Data) : 20 ≤ headerEnd content := by
  unfold headerEnd
  rw [toNat_roundUp]
  omega

theorem headerEnd_of_short (h : declared.length < 5) :
    headerEnd declared = 20 := by
  unfold headerEnd
  rw [List.getD_eq_default _ _ (by omega)]
  rfl

theorem headerEnd_le_append (declared padding : Data) :
    headerEnd declared ≤ headerEnd (declared ++ padding) := by
  by_cases hlength : 5 ≤ declared.length
  · rw [headerEnd_append_of_le hlength]
  · rw [headerEnd_of_short (by omega)]
    exact twenty_le_headerEnd _

/-- A header within the message is found there. -/
theorem scanHeader_append_of_le (h : headerEnd declared ≤ declared.length) (padding : Data)
    : scanHeader (declared ++ padding) = scanHeader declared := by
  have htwenty := twenty_le_headerEnd declared
  have hend : headerEnd (declared ++ padding) = headerEnd declared :=
    headerEnd_append_of_le (by omega) padding
  have hfirst : range (declared ++ padding) 0 4 = range declared 0 4 := range_of_le (by omega)
  by_cases hsig : range declared 0 4 = layerSignature
  · rw [scanHeader_of_complete (hfirst.trans hsig), scanHeader_of_complete hsig h, hend]
    · unfold headerAt
      rw [range_of_le (by omega), range_of_le (by omega), range_of_le (by omega)]
    · rw [hend, List.length_append]
      omega
  · rw [scanHeader_of_other hsig, scanHeader_of_other (by rwa [hfirst])]

theorem scanHeader_append_of_not_reached {padding : Data}
    (h : ¬ PaddingReached declared padding.length) :
    scanHeader (declared ++ padding) = scanHeader declared := by
  by_cases hend : headerEnd declared ≤ declared.length
  · exact scanHeader_append_of_le hend padding
  have hempty : scanHeader declared = {} := scanHeader_of_incomplete (by omega)
  rw [hempty]
  by_cases hfirst : declared.take 4 <+: layerSignature
  · have hlong : declared.length + padding.length < headerEnd declared := by
      by_contra hle
      exact h ⟨hfirst, by omega, by omega⟩
    apply scanHeader_of_incomplete
    rw [List.length_append]
    exact lt_of_lt_of_le hlong (headerEnd_le_append declared padding)
  · apply scanHeader_of_other
    intro hsig
    apply hfirst
    rw [← hsig]
    apply List.prefix_take_iff.2
    exact ⟨(List.take_prefix 4 declared).trans (List.prefix_append declared padding),
      List.length_take_le 4 declared⟩

theorem tdiv_int32OfBytes_ne_zero {bytes : Data} (h : bytes.length = 3) :
    (int32OfBytes (bytes ++ [64])).tdiv 2 ≠ 0 := by
  have hlt := leNat_lt bytes
  have hvalue : leNat (bytes ++ [64]) = leNat bytes + 64 * 2 ^ 24 := by
    match bytes, h with
    | [x, y, z], _ =>
      have hlast : (64 : UInt8).toNat = 64 := rfl
      simp only [List.cons_append, List.nil_append, leNat, hlast]
      omega
  rw [h] at hlt
  unfold int32OfBytes
  rw [hvalue, int32_of_range (by omega) (by omega), Int.tdiv_eq_ediv_of_nonneg (by omega)]
  omega

theorem range_four {location : Nat} (h : location + 4 ≤ content.length) :
    range content location 4 = range content location 3 ++ [content.getD (location + 3) 0] := by
  unfold range
  rw [List.take_succ_eq_append_getElem (by rw [List.length_drop]; omega), List.getElem_drop,
    List.getD_eq_getElem _ _ (by omega)]

theorem reportedNumbers_of_last (hsig : range content 0 4 = layerSignature)
    (hend : headerEnd content ≤ content.length)
    (hlast : content.getD (headerEnd content - 1) 0 = 64) (isCreator v2 : Bool) :
    reportedNumbers isCreator v2 content ≠ some (1, 0, 0) := by
  have htwenty := twenty_le_headerEnd content
  obtain ⟨start, hstart⟩ := Nat.exists_eq_add_of_le htwenty
  have hout : (scanHeader content).seqOut.tdiv 2 ≠ 0 := by
    rw [scanHeader_of_complete hsig hend]
    have hbytes : range content (headerEnd content - 12 + 8) 4 =
        range content (headerEnd content - 12 + 8) 3 ++ [64] := by
      rw [range_four (by omega), ← hlast]
      congr 3
    have hthree : (range content (headerEnd content - 12 + 8) 3).length = 3 := by
      unfold range
      rw [List.length_take, List.length_drop]
      omega
    rw [headerAt_seqOut, hbytes]
    exact tdiv_int32OfBytes_ne_zero hthree
  unfold reportedNumbers acceptContent
  dsimp only
  split
  · grind
  · intro heq
    cases heq

/-- The padding that completes a header: what is missing of the constructor and an empty
string, then the byte 64. -/
theorem exists_padding {paddingLength : Nat} (h : PaddingReached declared paddingLength) :
    ∃ padding : Data, padding.length = paddingLength ∧
      range (declared ++ padding) 0 4 = layerSignature ∧
      headerEnd (declared ++ padding) ≤ (declared ++ padding).length ∧
      (declared ++ padding).getD (headerEnd (declared ++ padding) - 1) 0 = 64 := by
  obtain ⟨hfirst, hshort, hreach⟩ := h
  have htwenty := twenty_le_headerEnd declared
  have hsig : layerSignature.length = 4 := length_int32Bytes _
  by_cases hlength : 5 ≤ declared.length
  · have hend := headerEnd_append_of_le hlength (List.replicate paddingLength 64)
    refine ⟨List.replicate paddingLength 64, List.length_replicate, ?_, ?_, ?_⟩
    · rw [range_of_le (by omega)]
      apply List.IsPrefix.eq_of_length hfirst
      rw [List.length_take, hsig]
      omega
    · rw [hend, List.length_append, List.length_replicate]
      exact hreach
    · rw [hend, List.getD_append_right _ _ _ _ (by omega), List.getD_replicate _ (by omega)]
  · have hend := headerEnd_of_short (Nat.lt_of_not_le hlength)
    rw [List.take_of_length_le (by omega)] at hfirst
    obtain ⟨rest, hrest⟩ := hfirst
    have hcount : declared.length + rest.length = 4 := by rw [← List.length_append, hrest, hsig]
    have hfull : declared ++ (rest ++ 0 :: List.replicate (paddingLength - rest.length - 1) 64) =
        layerSignature ++ 0 :: List.replicate (paddingLength - rest.length - 1) 64 := by
      rw [← hrest, List.append_assoc]
    have hfullEnd : headerEnd (layerSignature ++
        0 :: List.replicate (paddingLength - rest.length - 1) 64) = 20 := rfl
    refine ⟨rest ++ 0 :: List.replicate (paddingLength - rest.length - 1) 64, ?_, ?_, ?_, ?_⟩
    · rw [List.length_append, List.length_cons, List.length_replicate]
      omega
    · rw [hfull]
      exact range_append [] layerSignature _ rfl hsig
    · rw [hfull, hfullEnd, List.length_append, List.length_cons, List.length_replicate]
      omega
    · rw [hfull, hfullEnd, List.getD_append_right _ _ _ _ (by omega), hsig]
      rw [List.getD_cons_succ, List.getD_replicate _ (by omega)]

/-- The report does not depend on the padding just when the padding does not reach the end
of a header. -/
theorem reportedNumbers_padding_iff (declared : Data) (paddingLength : Nat) (isCreator v2 : Bool) :
    (∀ padding : Data, padding.length = paddingLength →
      reportedNumbers isCreator v2 (declared ++ padding) =
        reportedNumbers isCreator v2 declared) ↔
    ¬ PaddingReached declared paddingLength := by
  constructor
  · intro hsame hreached
    obtain ⟨padding, hlength, hsig, hend, hlast⟩ := exists_padding hreached
    apply reportedNumbers_of_last hsig hend hlast isCreator v2
    rw [hsame padding hlength]
    exact reportedNumbers_of_empty (scanHeader_of_incomplete hreached.2.1) isCreator v2
  · rintro hnot padding rfl
    exact reportedNumbers_congr (scanHeader_append_of_not_reached hnot) isCreator v2

/-- The numbers of a layer are reported for all random bytes of a length just when the
layer is positive and the scan finds the end of the random bytes, and they are never taken
from the padding just when message and padding together cannot hold a header that the
message is too short for. -/
theorem header_scan (form : LengthForm) (n : Nat) (hn : form.Admits n) (layer : Int32)
    (isCreator v2 : Bool) (declared : Data) (paddingLength : Nat) :
    ((∀ (randomBytes : Data) (inSeqNo outSeqNo : Int32) (message padding : Data),
        randomBytes.length = n → ReportsHeader isCreator v2
          (layerMessage form randomBytes layer inSeqNo outSeqNo message ++ padding) layer inSeqNo
          outSeqNo) ↔
      1 ≤ layer.toInt ∧ (form = .short ∨ 249 ≤ n ∧ n ≤ 252)) ∧
    ((∀ padding : Data, padding.length = paddingLength →
        reportedNumbers isCreator v2 (declared ++ padding) =
          reportedNumbers isCreator v2 declared) ↔
      ¬ PaddingReached declared paddingLength) :=
  ⟨reportsHeader_iff hn layer isCreator v2,
    reportedNumbers_padding_iff declared paddingLength isCreator v2⟩

/-- Fifteen random bytes, and a message that holds the constructor only. -/
theorem fifteenBytes_scan :
    (∀ (randomBytes : Data) (inSeqNo outSeqNo : Int32) (message padding : Data),
      randomBytes.length = 15 → ReportsHeader true true
        (layerMessage .short randomBytes 46 inSeqNo outSeqNo message ++ padding) 46 inSeqNo
        outSeqNo) ∧
    ¬ ∀ padding : Data, padding.length = 16 →
      reportedNumbers true true (layerSignature ++ padding) =
        reportedNumbers true true layerSignature := by
  have hscan := header_scan .short 15 (show 15 < 254 by omega) 46 true true layerSignature 16
  refine ⟨hscan.1.2 ⟨by decide, .inl rfl⟩, ?_⟩
  rw [hscan.2, not_not]
  decide

/-- 254 random bytes in the long form: the layer 46 is reported as the layer 1.  And the
constructor alone, with padding that goes on like a header. -/
theorem longForm_misreported :
    ¬ ReportsHeader false true
      (layerMessage .long (List.replicate 254 0) 46 2 3 [] ++ []) 46 2 3 ∧
    reportedNumbers false true
        (layerSignature ++ [0, 0, 0, 0, 46, 0, 0, 0, 2, 0, 0, 0, 3, 0, 0, 0]) ≠
      reportedNumbers false true layerSignature := by
  refine ⟨?_, by decide⟩
  rw [List.append_nil]
  obtain ⟨hone, -⟩ := scanHeader_zeroLayer (n := 254) (by omega) 46 2 3
  intro hreports
  unfold ReportsHeader at hreports
  rw [if_pos (by decide)] at hreports
  obtain ⟨r, hr, hlayer, -, -⟩ := hreports
  have hr' := acceptContent_of_layer_one hone false true
  rw [show zeroLayer 254 46 2 3 = layerMessage .long (List.replicate 254 0) 46 2 3 [] from rfl,
    hr] at hr'
  rw [Option.some_inj.1 hr'] at hlayer
  exact absurd hlayer (by decide)

end TelegramPub.Ports.SecretHeader
