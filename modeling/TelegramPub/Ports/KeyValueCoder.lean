import TelegramPub.Verified.Memory

/-!
# PSKeyValueEncoder and PSKeyValueDecoder

The records in which the application stores its objects.  A record is a list
of fields, each a key, a type byte and a value; an object inside a record is
its class name and a record of its own.

The decoder does not parse the record.  It keeps a cursor, and a query looks
for its key from the cursor to the end and then from the beginning to where
the cursor was, passing over the fields between by their type.  A query leaves
the cursor behind the value it has read.

A pointer of the source is an offset into the buffer here, and a load outside
the buffer has no value (`none`).  `initWithKeyValueCoder:` of a class is the
queries it makes, each chosen from the answers before it.
-/

namespace TelegramPub.Ports.KeyValueCoder

open Verified.Bytes Verified.Memory

/-- `PSKeyValueCoderFieldType`. -/
inductive FieldType where
  | string
  | int32
  | int64
  | customClass
  | array
  | data
  | int32Array
  | int32Dictionary
  | double
  deriving DecidableEq

/-- The type byte of a field. -/
def FieldType.code : FieldType → UInt8
  | .string => 1
  | .int32 => 2
  | .int64 => 3
  | .customClass => 4
  | .array => 5
  | .data => 6
  | .int32Array => 7
  | .int32Dictionary => 8
  | .double => 9

/-- The eight bytes of a `double`. -/
abbrev Double := Int64

/-! ## Records and their encoding

A `nil` value is not written, except that `nil` arrays and dictionaries of
`int32` are written as empty ones; so a record has values only. -/

mutual

/-- The value of a field. -/
inductive Value where
  | string (string : String)
  | int32 (number : Int32)
  | int64 (number : Int64)
  | object (object : Encoded)
  | array (array : List Encoded)
  | data (data : Data)
  | int32Array (value : List Int32)
  | int32Dictionary (value : List Entry)
  | double (value : Double)

/-- An object as `encodeWithKeyValueCoder:` writes it. -/
inductive Encoded where
  | mk (className : Data) (fields : List Field)

inductive Field where
  | mk (key : Data) (value : Value)

/-- An entry of a dictionary with `int32` keys. -/
inductive Entry where
  | mk (key : Int32) (object : Encoded)

end

def Field.key : Field → Data
  | .mk key _ => key

def Field.value : Field → Value
  | .mk _ value => value

def Value.fieldType : Value → FieldType
  | .string _ => .string
  | .int32 _ => .int32
  | .int64 _ => .int64
  | .object _ => .customClass
  | .array _ => .array
  | .data _ => .data
  | .int32Array _ => .int32Array
  | .int32Dictionary _ => .int32Dictionary
  | .double _ => .double

/-- `dataUsingEncoding:NSUTF8StringEncoding`. -/
def utf8Data (string : String) : Data := string.toByteArray.data.toList

/-- `writeLength`. -/
def writeLength (value : Nat) : Data := varint 4 (value % 2 ^ 32)

/-- A length of four bytes, filled in after the text, and the text. -/
def withObjectLength (text : Data) : Data := natLE 4 text.length ++ text

mutual

/-- What the `encode` methods append behind the key and the type. -/
def encodeValue : Value → Data
  | .string string => writeLength (utf8Data string).length ++ utf8Data string
  | .int32 number => int32Bytes number.toInt
  | .int64 number => int64Bytes number.toInt
  | .object object => encodeObjectValue object
  | .array array => withObjectLength (writeLength array.length ++ encodeObjects array)
  | .data data => writeLength data.length ++ data
  | .int32Array value => int32Bytes value.length ++ value.flatMap (int32Bytes ·.toInt)
  | .int32Dictionary value =>
    withObjectLength (writeLength value.length ++ encodeEntries value)
  | .double value => int64Bytes value.toInt

/-- `encodeObjectValue`. -/
def encodeObjectValue : Encoded → Data
  | .mk className fields => withObjectLength (className ++ 0 :: encodeFields fields)

def encodeObjects : List Encoded → Data
  | [] => []
  | object :: array => encodeObjectValue object ++ encodeObjects array

def encodeField : Field → Data
  | .mk key value => writeLength key.length ++ key ++ value.fieldType.code :: encodeValue value

/-- The calls of an encoder append their fields one after another. -/
def encodeFields : List Field → Data
  | [] => []
  | field :: fields => encodeField field ++ encodeFields fields

def encodeEntry : Entry → Data
  | .mk key object => int32Bytes key.toInt ++ encodeObjectValue object

def encodeEntries : List Entry → Data
  | [] => []
  | entry :: entries => encodeEntry entry ++ encodeEntries entries

end

mutual

/-- What the `decode` methods return; `none` is `nil`. -/
inductive Answer where
  | string (string : Option String)
  | int32 (number : Int32)
  | int64 (number : Int64)
  | object (object : Option Object)
  | array (array : Option (List Object))
  | data (data : Option Data)
  | int32Array (value : Option (List Int32))
  | int32Dictionary (value : Option (List (Int32 × Object)))
  | double (value : Double)

/-- A decoded object: its class and the answers its initializer was given. -/
inductive Object where
  | mk (className : Data) (answers : List Answer)

end

/-- One call of a `decode` method: the key, and the method by its type. -/
structure Query where
  key : Data
  fieldType : FieldType
  deriving DecidableEq

/-- `initWithKeyValueCoder:` of a class. -/
inductive Initializer where
  | done
  | decode (query : Query) (next : Answer → Initializer)

/-- `objc_getClass`. -/
abbrev Classes := Data → Option Initializer

/-- The answer for a key that is not there. -/
def defaultAnswer : FieldType → Answer
  | .string => .string none
  | .int32 => .int32 0
  | .int64 => .int64 0
  | .customClass => .object none
  | .array => .array none
  | .data => .data none
  | .int32Array => .int32Array none
  | .int32Dictionary => .int32Dictionary none
  | .double => .double 0

/-! ## Reading values -/

/-- `readLength`. -/
def readLength (mem : Data) (p : Nat) : Option (Nat × Nat) := do
  let (result, p) ← loadVarint mem 4 p
  return (result % 2 ^ 32, p)

/-- The text behind a length; `readData`, and what `readString` decodes. -/
def readData (mem : Data) (p : Nat) : Option (Data × Nat) := do
  let (length, p) ← readLength mem p
  let data ← load mem p length
  return (data, p + length)

/-- `readString`.  Text that is not UTF-8 gives `nil`. -/
def readString (mem : Data) (p : Nat) : Option (Option String × Nat) := do
  let (data, p) ← readData mem p
  return (String.fromUTF8? ⟨data.toArray⟩, p)

/-- `readInt32`. -/
def readInt32 (mem : Data) (p : Nat) : Option (Int32 × Nat) := do
  let bytes ← load mem p 4
  return (Int32.ofInt (int32OfBytes bytes), p + 4)

/-- `readInt64`, and `readDouble` for the bytes of a `double`. -/
def readInt64 (mem : Data) (p : Nat) : Option (Int64 × Nat) := do
  let bytes ← load mem p 8
  return (Int64.ofInt (int64OfBytes bytes), p + 8)

/-- The loop of `decodeInt32ArrayForCKey:`. -/
def readInt32s (mem : Data) : Nat → Nat → Option (List Int32 × Nat)
  | 0, p => some ([], p)
  | count + 1, p => do
      let (number, p) ← readInt32 mem p
      let (numbers, p) ← readInt32s mem count p
      return (number :: numbers, p)

/-- `skipString` and `skipData`. -/
def skipData (mem : Data) (p : Nat) : Option Nat := do
  let (length, p) ← readLength mem p
  return p + length

/-- `skipObject`, `skipArray` and `skipInt32Dictionary`. -/
def skipObject (mem : Data) (p : Nat) : Option Nat := do
  let objectLength ← loadLE mem p 4
  return p + (4 + objectLength) % 2 ^ 32

/-- `skipField`.  There is no case for an `int32` array. -/
def skipField (mem : Data) (p : Nat) : Option Nat := do
  let fieldType ← mem[p]?
  let p := p + 1
  if fieldType = FieldType.string.code then skipData mem p
  else if fieldType = FieldType.int32.code then return p + 4
  else if fieldType = FieldType.int64.code then return p + 8
  else if fieldType = FieldType.customClass.code then skipObject mem p
  else if fieldType = FieldType.array.code then skipObject mem p
  else if fieldType = FieldType.data.code then skipData mem p
  else if fieldType = FieldType.int32Dictionary.code then skipObject mem p
  else if fieldType = FieldType.double.code then return p + 8
  else return p

/-! ## Looking for a key -/

/-- The pointers of a `PSKeyValueDecoder`. -/
structure Decoder where
  beginPtr : Nat
  currentPtr : Nat
  endPtr : Nat
  deriving DecidableEq

/-- `initWithData:`. -/
def initWithData (data : Data) : Decoder :=
  { beginPtr := 0, currentPtr := 0, endPtr := data.length }

/-- How a pass of the search ends: at the value, at a key that is too long, or
at the end of the pass. -/
inductive ScanResult where
  | found (p : Nat)
  | failed (p : Nat)
  | ended (p : Nat)
  deriving DecidableEq

/-- `!(compareKeyLength != keyLength || memcmp(…))`. -/
def isKeyAt (mem key : Data) (compareKeyLength p : Nat) : Option Bool :=
  if compareKeyLength = key.length then (load mem p key.length).map (· == key)
  else some false

/-- The inner loop of `skipToValueForRawKey`.  A round moves the pointer
forward, so the length of the buffer is enough fuel. -/
def scan (mem key : Data) (scanEnd : Nat) : Nat → Nat → Option ScanResult
  | 0, _ => none
  | fuel + 1, p =>
    if p < scanEnd then do
      let (compareKeyLength, p) ← readLength mem p
      let isKey ← isKeyAt mem key compareKeyLength p
      if isKey then return .found (p + compareKeyLength)
      else if 1000 < compareKeyLength then return .failed p
      else
        let p ← skipField mem (p + compareKeyLength)
        scan mem key scanEnd fuel p
    else return .ended p

/-- `skipToValueForRawKey`. -/
def skipToValueForRawKey (mem : Data) (d : Decoder) (key : Data) :
    Option (Bool × Decoder) := do
  let middlePtr := d.currentPtr
  match ← scan mem key d.endPtr (mem.length + 1) d.currentPtr with
  | .found p => return (true, { d with currentPtr := p })
  | .failed p => return (false, { d with currentPtr := p })
  | .ended _ =>
    match ← scan mem key middlePtr (mem.length + 1) d.beginPtr with
    | .found p => return (true, { d with currentPtr := p })
    | .failed p => return (false, { d with currentPtr := p })
    | .ended p => return (false, { d with currentPtr := p })

/-- The conversions to `double`, which the decoder uses when a key is asked for
with another type than its own. -/
structure Conversions where
  doubleOfInt32 : Int32 → Double
  doubleOfInt64 : Int64 → Double
  truncatedDoubleValue : String → Double

/-- `intValue` and `longLongValue` of `NSString`: leading white space, a sign
and digits, saturated to the given range. -/
def decimalValue (lo hi : Int) (string : String) : Int :=
  let text := string.toList.dropWhile (·.isWhitespace)
  let (negative, text) :=
    match text with
    | '-' :: rest => (true, rest)
    | '+' :: rest => (false, rest)
    | rest => (false, rest)
  let value : Int := (text.takeWhile (·.isDigit)).foldl
    (fun n c => 10 * n + (c.toNat - '0'.toNat)) 0
  max lo (min hi (if negative then -value else value))

/-- `cString` at `p`: the bytes up to the first zero byte. -/
def className (mem : Data) (p : Nat) : Option Data :=
  if (0 : UInt8) ∈ mem.drop p then some ((mem.drop p).takeWhile (· != 0)) else none

/-- `dict[@(key)] = object`. -/
def setEntry (key : Int32) (object : Object) :
    List (Int32 × Object) → List (Int32 × Object)
  | [] => [(key, object)]
  | entry :: entries =>
    if entry.1 = key then (key, object) :: entries
    else entry :: setEntry key object entries

/-- The loop of `readArray`: objects of unknown classes are left out. -/
def readObjects (readObject : Nat → Option (Option Object × Nat)) :
    Nat → Nat → Option (List Object × Nat)
  | 0, p => some ([], p)
  | count + 1, p => do
      let (object, p) ← readObject p
      let (objects, p) ← readObjects readObject count p
      return (object.toList ++ objects, p)

/-- The loop of `readInt32Dictionary`. -/
def readEntries (mem : Data) (readObject : Nat → Option (Option Object × Nat)) :
    Nat → List (Int32 × Object) → Nat → Option (List (Int32 × Object) × Nat)
  | 0, dict, p => some (dict, p)
  | count + 1, dict, p => do
      let (key, p) ← readInt32 mem p
      let (object, p) ← readObject p
      let dict := match object with
        | some object => setEntry key object dict
        | none => dict
      readEntries mem readObject count dict p

/-- The `decode…ForRawKey` functions, from the type byte on.  Where the type is
not one they read, they call `skipField` on the byte behind it; only
`decodeInt32ArrayForCKey:` goes back to the type byte first.  `decodeBytesForCKey:`, which
reads data as `decodeDataCorCKey:` does and copies them, is left out. -/
def decodeFound (conv : Conversions) (mem : Data)
    (readObject : Nat → Option (Option Object × Nat)) (requested : FieldType) (p : Nat) :
    Option (Answer × Nat) := do
  let fieldType ← mem[p]?
  let skipped : Option (Answer × Nat) := do
    let p ← skipField mem (p + 1)
    return (defaultAnswer requested, p)
  match requested with
  | .string =>
    if fieldType = FieldType.string.code then
      let (string, p) ← readString mem (p + 1)
      return (.string string, p)
    else if fieldType = FieldType.int32.code then
      let (number, p) ← readInt32 mem (p + 1)
      return (.string (some (toString number.toInt)), p)
    else if fieldType = FieldType.int64.code then
      let (number, p) ← readInt64 mem (p + 1)
      return (.string (some (toString number.toInt)), p)
    else skipped
  | .int32 =>
    if fieldType = FieldType.string.code then
      let (string, p) ← readString mem (p + 1)
      let value := (string.map (decimalValue (-2 ^ 31) (2 ^ 31 - 1))).getD 0
      return (.int32 (Int32.ofInt value), p)
    else if fieldType = FieldType.int32.code then
      let (number, p) ← readInt32 mem (p + 1)
      return (.int32 number, p)
    else if fieldType = FieldType.int64.code then
      let (number, p) ← readInt64 mem (p + 1)
      return (.int32 number.toInt32, p)
    else skipped
  | .int64 =>
    if fieldType = FieldType.string.code then
      let (string, p) ← readString mem (p + 1)
      let value := (string.map (decimalValue (-2 ^ 63) (2 ^ 63 - 1))).getD 0
      return (.int64 (Int64.ofInt value), p)
    else if fieldType = FieldType.int32.code then
      let (number, p) ← readInt32 mem (p + 1)
      return (.int64 number.toInt64, p)
    else if fieldType = FieldType.int64.code then
      let (number, p) ← readInt64 mem (p + 1)
      return (.int64 number, p)
    else skipped
  | .customClass =>
    if fieldType = FieldType.customClass.code then
      let (object, p) ← readObject (p + 1)
      return (.object object, p)
    else skipped
  | .array =>
    if fieldType = FieldType.array.code then
      let objectLength ← loadLE mem (p + 1) 4
      let (count, q) ← readLength mem (p + 1 + 4)
      let (array, _) ← readObjects readObject count q
      return (.array (some array), p + 1 + 4 + objectLength)
    else skipped
  | .data =>
    if fieldType = FieldType.data.code then
      let (data, p) ← readData mem (p + 1)
      return (.data (some data), p)
    else skipped
  | .int32Array =>
    if fieldType = FieldType.int32Array.code then
      let (count, p) ← readInt32 mem (p + 1)
      let (numbers, p) ← readInt32s mem count.toInt.toNat p
      return (.int32Array (some numbers), p)
    else
      let p ← skipField mem p
      return (.int32Array none, p)
  | .int32Dictionary =>
    if fieldType = FieldType.int32Dictionary.code then
      let objectLength ← loadLE mem (p + 1) 4
      let (count, q) ← readLength mem (p + 1 + 4)
      let (dict, _) ← readEntries mem readObject count [] q
      return (.int32Dictionary (some dict), p + 1 + 4 + objectLength)
    else skipped
  | .double =>
    if fieldType = FieldType.string.code then
      let (string, p) ← readString mem (p + 1)
      return (.double ((string.map conv.truncatedDoubleValue).getD 0), p)
    else if fieldType = FieldType.int32.code then
      let (number, p) ← readInt32 mem (p + 1)
      return (.double (conv.doubleOfInt32 number), p)
    else if fieldType = FieldType.int64.code then
      let (number, p) ← readInt64 mem (p + 1)
      return (.double (conv.doubleOfInt64 number), p)
    else if fieldType = FieldType.double.code then
      let (number, p) ← readInt64 mem (p + 1)
      return (.double number, p)
    else skipped

/-- One call of a `decode` method. -/
def decode (conv : Conversions) (mem : Data)
    (readObject : Nat → Option (Option Object × Nat)) (d : Decoder) (query : Query) :
    Option (Answer × Decoder) := do
  let (found, d) ← skipToValueForRawKey mem d query.key
  if found then
    let (answer, p) ← decodeFound conv mem readObject query.fieldType d.currentPtr
    return (answer, { d with currentPtr := p })
  else return (defaultAnswer query.fieldType, d)

/-- The answers an initializer gets from a decoder. -/
def runInitializer (conv : Conversions) (mem : Data)
    (readObject : Nat → Option (Option Object × Nat)) :
    Initializer → Decoder → Option (List Answer)
  | .done, _ => some []
  | .decode query next, d => do
      let (answer, d) ← decode conv mem readObject d query
      let answers ← runInitializer conv mem readObject (next answer) d
      return answer :: answers

/-- `readObject`.  The temporary coder is a decoder on the object's fields.  An
object inside another is shorter than it, so the length of the buffer is
enough fuel. -/
def readObject (conv : Conversions) (classes : Classes) (mem : Data) :
    Nat → Nat → Option (Option Object × Nat)
  | 0, _ => none
  | fuel + 1, p => do
      let objectLength ← loadLE mem p 4
      let objectEnd := p + 4 + objectLength
      let name ← className mem (p + 4)
      let fieldsPtr := p + 4 + name.length + 1
      match classes name with
      | none => return (none, objectEnd)
      | some initializer =>
        let answers ← runInitializer conv mem (readObject conv classes mem fuel) initializer
          { beginPtr := fieldsPtr, currentPtr := fieldsPtr, endPtr := objectEnd }
        return (some (.mk name answers), objectEnd)

/-- A call on a decoder of the data `mem`. -/
def decodeForKey (conv : Conversions) (classes : Classes) (mem : Data) (d : Decoder)
    (query : Query) : Option (Answer × Decoder) :=
  decode conv mem (readObject conv classes mem mem.length) d query

/-- The answers to a sequence of calls. -/
def decodeAll (conv : Conversions) (classes : Classes) (mem : Data) :
    Decoder → List Query → Option (List Answer)
  | _, [] => some []
  | d, query :: queries => do
      let (answer, d) ← decodeForKey conv classes mem d query
      let answers ← decodeAll conv classes mem d queries
      return answer :: answers

end TelegramPub.Ports.KeyValueCoder
