import TelegramPub.Verified.ByteReader

/-!
# MTBuffer and MTBufferReader

`MTBuffer` appends machine integers and length-prefixed byte strings;
`MTBufferReader` reads them back from a cursor.  Both are ported here.

One branch of `readTLBytes` deserves a word.  The long form of a length is
copied into the upper three bytes of an `int32_t` and shifted down
arithmetically, so a third byte of `0x80` or more gives a *negative* length.
`readBytes:length:` then receives it as an `NSUInteger` close to `2^64`: the
sum `_offset + length` wraps.  When it wraps below the data's length the read
"succeeds" and the following `dataWithBytesNoCopy:length:` raises on the
absurd length; otherwise the read fails as usual.
-/

namespace TelegramPub.Ports.TLBuffer

open Verified.Bytes Verified.ByteReader

/-- `roundUp` of `MTBuffer.m` and `roundUpInput` of the readers: the next
multiple of `multiple`, with the remainder of C. -/
def roundUp (numToRound multiple : Int) : Int :=
  if multiple = 0 then numToRound
  else if numToRound.tmod multiple = 0 then numToRound
  else numToRound + multiple - numToRound.tmod multiple

/-- `appendTLBytes:`.  A `nil` argument and an empty one are written alike. -/
def tlBytes (bytes : Data) : Data :=
  let length := int32 bytes.length
  if length = 0 then int32Bytes 0
  else if 254 ≤ length then
    let paddingBytes := roundUp length 4 - length
    254 :: natLE 3 (length % 2 ^ 32).toNat ++ bytes ++
      List.replicate paddingBytes.toNat 0
  else
    let paddingBytes := roundUp (length + 1) 4 - (length + 1)
    natLE 1 (length % 2 ^ 32).toNat ++ bytes ++
      List.replicate paddingBytes.toNat 0

/-- `appendTLString:`, the UTF-8 bytes of the string as a byte string. -/
def tlString (string : String) : Data := tlBytes string.toUTF8.toList

def readInt32 : Reader Int := do
  return int32OfBytes (← take 4)

def readInt64 : Reader Int := do
  return int64OfBytes (← take 8)

/-- `readBytes:length:` with the `int32_t` that `readTLBytes` passes to it,
followed by the construction of the `NSData`.  `_offset + length` wraps around `2 ^ 64`. -/
def readCounted (length : Int) : Reader Data := fun c =>
  if 0 ≤ length then take length.toNat c
  else if -length ≤ c.offset then raise c
  else giveUp c

/-- `readTLBytes:`. -/
def readTLBytes : Reader Data := do
  let tmp := leNat (← take 1)
  if tmp = 254 then
    let length := int32OfBytes (0 :: (← take 3)) >>> (8 : Nat)
    let result ← readCounted length
    let _ ← take (roundUp length 4 - length).toNat
    return result
  else
    let length : Int := tmp
    let result ← readCounted length
    let _ ← take (roundUp (length + 1) 4 - (length + 1)).toNat
    return result

/-- `readTLString:`.  Bytes that are not UTF-8 give a `nil` string. -/
def readTLString : Reader (Option String) := do
  return String.fromUTF8? ⟨(← readTLBytes).toArray⟩

/-- The loops `for (int32_t i = 0; i < count; i++)` of the message parser. -/
def readVector {α : Type} (element : Reader α) (count : Int) : Reader (List α) :=
  replicateM element count.toNat

/-! ### The readers are local -/

theorem local_readInt32 : Local readInt32 :=
  (local_take 4).bind fun bytes => local_pure (int32OfBytes bytes)

theorem local_readInt64 : Local readInt64 :=
  (local_take 8).bind fun bytes => local_pure (int64OfBytes bytes)

/-- The wrapped branch looks at the offset only, which a longer string does
not change. -/
theorem local_readCounted (length : Int) : Local (readCounted length) where
  ok := by
    intro c c' a more h
    by_cases hlen : 0 ≤ length
    · simp only [readCounted, hlen, if_true] at h ⊢
      exact (local_take length.toNat).ok more h
    · by_cases hwrap : -length ≤ c.offset <;> simp [readCounted, hlen, hwrap, raise, giveUp] at h
  error := by
    intro c e more he h
    by_cases hlen : 0 ≤ length
    · simp only [readCounted, hlen, if_true] at h ⊢
      exact (local_take length.toNat).error more he h
    · by_cases hwrap : -length ≤ c.offset
      · simpa [readCounted, hlen, hwrap, raise, Cursor.extend] using h
      · simpa [readCounted, hlen, hwrap, giveUp, Cursor.extend] using h

theorem local_readTLBytes : Local readTLBytes := by
  refine (local_take 1).bind fun tmp => ?_
  refine Local.ite ?_ ?_
  · refine (local_take 3).bind fun bytes => ?_
    refine (local_readCounted _).bind fun result => ?_
    exact (local_take _).bind fun _ => local_pure result
  · refine (local_readCounted _).bind fun result => ?_
    exact (local_take _).bind fun _ => local_pure result

theorem local_readTLString : Local readTLString :=
  local_readTLBytes.bind fun _ => local_pure _

theorem Local.readVector {α : Type} {element : Reader α} (h : Local element)
    (count : Int) : Local (readVector element count) :=
  h.replicateM count.toNat

end TelegramPub.Ports.TLBuffer
