import TelegramPub.Verified.FirstMatch
import TelegramPub.Ports.KeyValueCoder
import Mathlib.Data.List.TakeWhile

/-!
# Reading a record back

What the answers to the queries on a record should be, and when they are.

`viewFields` gives each field of a record the answer that a query with its own
type deserves; the view of an object is what its initializer learns when all
its queries are answered so.  The answer to a query is the one of the field
with its key, or the default (`answerFor`), whatever was asked before.

The decoder gives these answers in every order of queries (`decodeAll_eq`), on
one condition: no search may pass over an `int32` array, which `skipField`
does not know how to pass over.  The cursor decides which fields a search
passes over, so the condition is followed along the run (`SearchesClean`).
-/

namespace TelegramPub.Ports.KeyValueRoundTrip

open Verified Verified.Bytes Verified.Memory Ports.KeyValueCoder

/-! ## What a record should answer -/

/-- A field as a query should find it.  `clean` says that the queries which
build the field's objects can be answered. -/
structure FieldView where
  key : Data
  fieldType : FieldType
  answer : Answer
  clean : Bool

/-- The answer to a query on a record. -/
def answerFor (views : List FieldView) (query : Query) : Answer :=
  match views.find? (·.key == query.key) with
  | some view => view.answer
  | none => defaultAnswer query.fieldType

/-- Where a query leaves the cursor, as a number of fields. -/
def cursorAfter (views : List FieldView) (cursor : Nat) (query : Query) : Nat :=
  match views.findIdx? (·.key == query.key) with
  | some index => index + 1
  | none => cursor

/-- The fields that the search of a query passes over: from the cursor to the
end, then from the beginning to the cursor, up to the key. -/
def passedOver (views : List FieldView) (cursor : Nat) (query : Query) : List FieldView :=
  (views.drop cursor ++ views.take cursor).takeWhile (·.key != query.key)

/-- The search passes over no `int32` array, and the field it finds has the
type of the query and can itself be built. -/
def isClean (views : List FieldView) (cursor : Nat) (query : Query) : Bool :=
  (passedOver views cursor query).all (·.fieldType != .int32Array) &&
    (views.find? (·.key == query.key)).all fun view =>
      view.fieldType == query.fieldType && view.clean

/-- What an initializer learns from a record. -/
def viewInitializer (views : List FieldView) : Initializer → List Answer
  | .done => []
  | .decode query next =>
    answerFor views query :: viewInitializer views (next (answerFor views query))

/-- Every search of an initializer is clean. -/
def initializerClean (views : List FieldView) : Nat → Initializer → Bool
  | _, .done => true
  | cursor, .decode query next =>
    isClean views cursor query &&
      initializerClean views (cursorAfter views cursor query)
        (next (answerFor views query))

mutual

/-- The answer a value deserves, and whether its objects can be built. -/
def viewValue (classes : Classes) : Value → Answer × Bool
  | .string string => (.string (some string), true)
  | .int32 number => (.int32 number, true)
  | .int64 number => (.int64 number, true)
  | .object object => (.object (viewObject classes object).1, (viewObject classes object).2)
  | .array array =>
    (.array (some ((viewObjects classes array).flatMap (·.1.toList))),
      (viewObjects classes array).all (·.2))
  | .data data => (.data (some data), true)
  | .int32Array value => (.int32Array (some value), true)
  | .int32Dictionary value =>
    (.int32Dictionary (some ((viewEntries classes value).foldl
      (fun dict entry => match entry.2.1 with
        | some object => setEntry entry.1 object dict
        | none => dict) [])),
      (viewEntries classes value).all (·.2.2))
  | .double value => (.double value, true)

/-- An object of an unknown class is `nil`. -/
def viewObject (classes : Classes) : Encoded → Option Object × Bool
  | .mk className fields =>
    match classes className with
    | none => (none, true)
    | some initializer =>
      (some (.mk className (viewInitializer (viewFields classes fields) initializer)),
        initializerClean (viewFields classes fields) 0 initializer)

def viewObjects (classes : Classes) : List Encoded → List (Option Object × Bool)
  | [] => []
  | object :: array => viewObject classes object :: viewObjects classes array

def viewField (classes : Classes) : Field → FieldView
  | .mk key value =>
    { key, fieldType := value.fieldType
      answer := (viewValue classes value).1, clean := (viewValue classes value).2 }

def viewFields (classes : Classes) : List Field → List FieldView
  | [] => []
  | field :: fields => viewField classes field :: viewFields classes fields

def viewEntry (classes : Classes) : Entry → Int32 × Option Object × Bool
  | .mk key object => (key, viewObject classes object)

def viewEntries (classes : Classes) : List Entry → List (Int32 × Option Object × Bool)
  | [] => []
  | entry :: entries => viewEntry classes entry :: viewEntries classes entries

end

/-- Every search of a run of queries is clean. -/
def SearchesClean (views : List FieldView) : Nat → List Query → Prop
  | _, [] => True
  | cursor, query :: queries =>
    isClean views cursor query = true ∧
      SearchesClean views (cursorAfter views cursor query) queries

/-! ## Well-formed records -/

mutual

def WellFormedValue : Value → Prop
  | .object object => WellFormedObject object
  | .array array => WellFormedObjects array
  | .int32Dictionary value => WellFormedEntries value
  | _ => True

/-- A class name is a C string; the keys of a record are different. -/
def WellFormedObject : Encoded → Prop
  | .mk className fields =>
    (0 : UInt8) ∉ className ∧ (fields.map Field.key).Nodup ∧ WellFormedFields fields

def WellFormedObjects : List Encoded → Prop
  | [] => True
  | object :: array => WellFormedObject object ∧ WellFormedObjects array

def WellFormedField : Field → Prop
  | .mk key value => key.length ≤ 1000 ∧ WellFormedValue value

def WellFormedFields : List Field → Prop
  | [] => True
  | field :: fields => WellFormedField field ∧ WellFormedFields fields

def WellFormedEntry : Entry → Prop
  | .mk _ object => WellFormedObject object

def WellFormedEntries : List Entry → Prop
  | [] => True
  | entry :: entries => WellFormedEntry entry ∧ WellFormedEntries entries

end

/-- The records of the round trip: different keys of at most a thousand bytes,
in the record and in its objects, and a text whose length fits `uint32_t`. -/
structure WellFormedRecord (fields : List Field) : Prop where
  distinct : (fields.map Field.key).Nodup
  wellFormed : WellFormedFields fields
  fits : (encodeFields fields).length < 2 ^ 32

/-! ## Reading single values -/

theorem writeLength_ne_nil (n : Nat) : writeLength n ≠ [] := varint_ne_nil 4 _

theorem readLength_of_holds {mem : Data} {p n : Nat} (hn : n < 2 ^ 32)
    (h : Holds mem p (writeLength n)) :
    readLength mem p = some (n, p + (writeLength n).length) := by
  have hmod : n % 2 ^ 32 = n := Nat.mod_eq_of_lt hn
  unfold writeLength at h ⊢
  rw [hmod] at h ⊢
  have hload := loadVarint_of_holds 4 n p (by norm_num; omega) h
  unfold readLength
  rw [hload, Option.bind_eq_bind, Option.bind_some]
  dsimp only
  rw [hmod]
  rfl

variable {p : Nat}

theorem readData_of_holds {mem data : Data} (hn : data.length < 2 ^ 32)
    (h : Holds mem p (writeLength data.length ++ data)) :
    readData mem p =
      some (data, p + (writeLength data.length ++ data).length) := by
  have hinside := holds_length h (by simp [writeLength_ne_nil])
  obtain ⟨hlength, hdata⟩ := holds_append.1 h
  rw [List.length_append] at hinside
  unfold readData
  rw [readLength_of_holds hn hlength, Option.bind_eq_bind, Option.bind_some]
  dsimp only
  rw [load_of_holds hdata (by omega), Option.bind_eq_bind, Option.bind_some,
    List.length_append, Nat.add_assoc]
  rfl

theorem fromUTF8_utf8Data (string : String) :
    String.fromUTF8? ⟨(utf8Data string).toArray⟩ = some string := by
  have hbytes : (⟨(utf8Data string).toArray⟩ : ByteArray) = string.toByteArray := rfl
  rw [hbytes]
  unfold String.fromUTF8?
  rw [dif_pos string.isValidUTF8]
  rfl

theorem readString_of_holds {mem : Data} {string : String} (hn : (utf8Data string).length < 2 ^ 32)
    (h : Holds mem p (encodeValue (.string string))) :
    readString mem p =
      some (some string, p + (encodeValue (.string string)).length) := by
  unfold readString
  rw [encodeValue] at h ⊢
  rw [readData_of_holds hn h, Option.bind_eq_bind, Option.bind_some]
  dsimp only
  rw [fromUTF8_utf8Data]
  rfl

theorem readInt32_of_holds {mem : Data} {number : Int32}
    (h : Holds mem p (int32Bytes number.toInt)) :
    readInt32 mem p = some (number, p + 4) := by
  have hload := load_of_holds_ne h (by simp [int32Bytes, natLE])
  rw [length_int32Bytes] at hload
  unfold readInt32
  rw [hload, Option.bind_eq_bind, Option.bind_some, int32OfBytes_int32Bytes]
  have hnumber : Int32.ofInt (int32 number.toInt) = number := by
    have hself : int32 number.toInt = number.toInt := Int32.toInt_bmod number
    rw [hself, Int32.ofInt_toInt]
  rw [hnumber]
  rfl

theorem readInt64_of_holds {mem : Data} {number : Int64}
    (h : Holds mem p (int64Bytes number.toInt)) :
    readInt64 mem p = some (number, p + 8) := by
  have hload := load_of_holds_ne h (by simp [int64Bytes, natLE])
  rw [length_int64Bytes] at hload
  unfold readInt64
  rw [hload, Option.bind_eq_bind, Option.bind_some, int64OfBytes_int64Bytes]
  have hnumber : Int64.ofInt (int64 number.toInt) = number := by
    have hself : int64 number.toInt = number.toInt := Int64.toInt_bmod number
    rw [hself, Int64.ofInt_toInt]
  rw [hnumber]
  rfl

theorem length_withObjectLength (text : Data) :
    (withObjectLength text).length = 4 + text.length := by
  unfold withObjectLength
  rw [List.length_append, length_natLE]

theorem loadLE_withObjectLength {mem text : Data} (hn : text.length < 2 ^ 32)
    (h : Holds mem p (withObjectLength text)) : loadLE mem p 4 = some text.length :=
  loadLE_of_holds (holds_append.1 h).1 (by norm_num; omega)

theorem skipData_of_holds {mem data : Data} (hn : data.length < 2 ^ 32)
    (h : Holds mem p (writeLength data.length ++ data)) :
    skipData mem p = some (p + (writeLength data.length ++ data).length) := by
  unfold skipData
  rw [readLength_of_holds hn (holds_append.1 h).1, List.length_append, ← Nat.add_assoc]
  rfl

theorem skipObject_of_holds {mem text : Data} (hn : (withObjectLength text).length < 2 ^ 32)
    (h : Holds mem p (withObjectLength text)) :
    skipObject mem p = some (p + (withObjectLength text).length) := by
  rw [length_withObjectLength] at hn ⊢
  unfold skipObject
  rw [loadLE_withObjectLength (by omega) h, Option.bind_eq_bind, Option.bind_some,
    Nat.mod_eq_of_lt hn]
  rfl

variable {value : Value}

/-- `skipField` passes over every value but an `int32` array. -/
theorem skipField_of_holds {mem : Data} (hn : (encodeValue value).length < 2 ^ 32)
    (htype : value.fieldType ≠ .int32Array)
    (h : Holds mem p (value.fieldType.code :: encodeValue value)) :
    skipField mem p = some (p + 1 + (encodeValue value).length) := by
  have hcode := getElem?_of_holds h
  rw [← List.singleton_append, holds_append] at h
  have hvalue : Holds mem (p + 1) (encodeValue value) := h.2
  unfold skipField
  rw [hcode, Option.bind_eq_bind, Option.bind_some]
  cases value with
  | string string =>
    rw [encodeValue] at hn hvalue ⊢
    rw [List.length_append] at hn
    exact skipData_of_holds (by omega) hvalue
  | int32 number => rw [encodeValue, length_int32Bytes]; rfl
  | int64 number => rw [encodeValue, length_int64Bytes]; rfl
  | object object =>
    cases object with
    | mk className fields =>
      rw [encodeValue, encodeObjectValue] at hn hvalue ⊢
      exact skipObject_of_holds hn hvalue
  | array array =>
    rw [encodeValue] at hn hvalue ⊢
    exact skipObject_of_holds hn hvalue
  | data data =>
    rw [encodeValue] at hn hvalue ⊢
    rw [List.length_append] at hn
    exact skipData_of_holds (by omega) hvalue
  | int32Array value => exact absurd rfl htype
  | int32Dictionary value =>
    rw [encodeValue] at hn hvalue ⊢
    exact skipObject_of_holds hn hvalue
  | double value => rw [encodeValue, length_int64Bytes]; rfl

/-! ## Reading the objects of a value -/

theorem readInt32s_of_holds {mem : Data} :
    ∀ (numbers : List Int32) (p : Nat),
      Holds mem p (numbers.flatMap (int32Bytes ·.toInt)) →
      readInt32s mem numbers.length p = some (numbers, p + 4 * numbers.length) := by
  intro numbers
  induction numbers with
  | nil => intro p _; rfl
  | cons number numbers ih =>
    intro p h
    rw [List.flatMap_cons, holds_append, length_int32Bytes] at h
    have hrest := ih (p + 4) h.2
    rw [List.length_cons, readInt32s, readInt32_of_holds h.1, Option.bind_eq_bind,
      Option.bind_some]
    dsimp only
    rw [hrest, Option.bind_eq_bind, Option.bind_some]
    rw [show p + 4 + 4 * numbers.length = p + 4 * (numbers.length + 1) by omega]
    rfl

section Objects

variable (classes : Classes) (mem : Data) (reader : Nat → Option (Option Object × Nat))

/-- The reader gives an encoded object this value. -/
def ReadsAs (object : Encoded) (value : Option Object) : Prop :=
  ∀ p, Holds mem p (encodeObjectValue object) →
    reader p = some (value, p + (encodeObjectValue object).length)

/-- The reader gives an encoded object the value it should have. -/
def Reads (object : Encoded) : Prop :=
  ∀ p, Holds mem p (encodeObjectValue object) →
    reader p = some ((viewObject classes object).1, p + (encodeObjectValue object).length)

variable {classes mem reader} {view : Encoded → Option Object}

theorem readObjects_of_holds :
    ∀ (array : List Encoded) (p : Nat),
      (∀ object ∈ array, ReadsAs mem reader object (view object)) →
      Holds mem p (encodeObjects array) →
      readObjects reader array.length p =
        some (array.flatMap fun object => (view object).toList,
          p + (encodeObjects array).length) := by
  intro array
  induction array with
  | nil => intro p _ _; rfl
  | cons object array ih =>
    intro p hreads h
    rw [encodeObjects, holds_append] at h
    have hfirst := hreads object (.head _) p h.1
    have hrest := ih _ (fun o ho => hreads o (.tail _ ho)) h.2
    rw [List.length_cons, readObjects, hfirst, Option.bind_eq_bind, Option.bind_some]
    dsimp only
    rw [hrest, Option.bind_eq_bind, Option.bind_some]
    rw [List.flatMap_cons, encodeObjects, List.length_append, Nat.add_assoc]
    rfl

/-- The key and the object of a dictionary entry. -/
def entryKey : Entry → Int32
  | .mk key _ => key

def entryObject : Entry → Encoded
  | .mk _ object => object

/-- One round of the dictionary loop. -/
def setObject (view : Encoded → Option Object) (dict : List (Int32 × Object)) (entry : Entry) :
    List (Int32 × Object) :=
  match view (entryObject entry) with
  | some object => setEntry (entryKey entry) object dict
  | none => dict

theorem readEntries_of_holds :
    ∀ (entries : List Entry) (dict : List (Int32 × Object)) (p : Nat),
      (∀ entry ∈ entries, ReadsAs mem reader (entryObject entry) (view (entryObject entry))) →
      Holds mem p (encodeEntries entries) →
      readEntries mem reader entries.length dict p =
        some (entries.foldl (setObject view) dict, p + (encodeEntries entries).length) := by
  intro entries
  induction entries with
  | nil => intro dict p _ _; rfl
  | cons entry entries ih =>
    intro dict p hreads h
    cases entry with
    | mk key object =>
      rw [encodeEntries, encodeEntry, List.append_assoc, holds_append, holds_append,
        length_int32Bytes] at h
      obtain ⟨hkey, hobject, hentries⟩ := h
      have hfirst := hreads _ (.head _) (p + 4) hobject
      have hrest := fun dict => ih dict _
        (fun e he => hreads e (.tail _ he)) hentries
      rw [List.length_cons, readEntries, readInt32_of_holds hkey, Option.bind_eq_bind,
        Option.bind_some]
      dsimp only
      rw [hfirst, Option.bind_eq_bind, Option.bind_some]
      dsimp only [entryObject]
      rw [hrest, List.foldl_cons, encodeEntries, encodeEntry,
        List.length_append, List.length_append, length_int32Bytes]
      rw [show p + 4 + (encodeObjectValue object).length + (encodeEntries entries).length =
        p + (4 + (encodeObjectValue object).length + (encodeEntries entries).length) by
          omega]
      rfl

/-- The count and the elements of an array or a dictionary. -/
theorem holds_text {count : Nat} {text : Data}
    (h : Holds mem p (withObjectLength (writeLength count ++ text))) :
    Holds mem (p + 4) (writeLength count) ∧
      Holds mem (p + 4 + (writeLength count).length) text := by
  have htext := (holds_append.1 h).2
  rw [length_natLE] at htext
  exact holds_append.1 htext

theorem length_flatMap_int32Bytes (numbers : List Int32) :
    (numbers.flatMap (int32Bytes ·.toInt)).length = 4 * numbers.length := by
  induction numbers with
  | nil => rfl
  | cons number numbers ih =>
    rw [List.flatMap_cons, List.length_append, length_int32Bytes, ih, List.length_cons]
    omega

theorem length_encodeObjectValue_pos (object : Encoded) :
    4 ≤ (encodeObjectValue object).length := by
  cases object with
  | mk className fields =>
    rw [encodeObjectValue, length_withObjectLength]
    omega

theorem length_le_encodeObjects (array : List Encoded) :
    array.length ≤ (encodeObjects array).length := by
  induction array with
  | nil => exact Nat.zero_le _
  | cons object array ih =>
    have hpos := length_encodeObjectValue_pos object
    rw [encodeObjects, List.length_append, List.length_cons]
    omega

theorem length_le_encodeEntries (entries : List Entry) :
    entries.length ≤ (encodeEntries entries).length := by
  induction entries with
  | nil => exact Nat.zero_le _
  | cons entry entries ih =>
    cases entry with
    | mk key object =>
      rw [encodeEntries, encodeEntry, List.length_append, List.length_append,
        length_int32Bytes, List.length_cons]
      omega

/-- The objects directly inside a value. -/
def objectsIn : Value → List Encoded
  | .object object => [object]
  | .array array => array
  | .int32Dictionary value => value.map entryObject
  | _ => []

/-- The answer a value deserves, when its objects are seen like this. -/
def answerOf (view : Encoded → Option Object) : Value → Answer
  | .string string => .string (some string)
  | .int32 number => .int32 number
  | .int64 number => .int64 number
  | .object object => .object (view object)
  | .array array => .array (some (array.flatMap fun object => (view object).toList))
  | .data data => .data (some data)
  | .int32Array value => .int32Array (some value)
  | .int32Dictionary value => .int32Dictionary (some (value.foldl (setObject view) []))
  | .double value => .double value

/-- A query with the type of the value reads the value, and stops behind it. -/
theorem decodeFound_of_holds (conv : Conversions) {value : Value}
    (hn : (encodeValue value).length < 2 ^ 32)
    (hreads : ∀ object ∈ objectsIn value, ReadsAs mem reader object (view object))
    (h : Holds mem p (value.fieldType.code :: encodeValue value)) :
    decodeFound conv mem reader value.fieldType p =
      some (answerOf view value, p + 1 + (encodeValue value).length) := by
  have hcode := getElem?_of_holds h
  rw [← List.singleton_append, holds_append] at h
  have hvalue : Holds mem (p + 1) (encodeValue value) := h.2
  unfold decodeFound
  rw [hcode, Option.bind_eq_bind, Option.bind_some]
  cases value with
  | string string =>
    show (readString mem (p + 1)).bind (fun r => some (Answer.string r.1, r.2)) = _
    rw [encodeValue, List.length_append] at hn
    rw [readString_of_holds (by omega) hvalue]
    rfl
  | int32 number =>
    show (readInt32 mem (p + 1)).bind (fun r => some (Answer.int32 r.1, r.2)) = _
    rw [encodeValue] at hvalue ⊢
    rw [readInt32_of_holds hvalue, length_int32Bytes]
    rfl
  | int64 number =>
    show (readInt64 mem (p + 1)).bind (fun r => some (Answer.int64 r.1, r.2)) = _
    rw [encodeValue] at hvalue ⊢
    rw [readInt64_of_holds hvalue, length_int64Bytes]
    rfl
  | object object =>
    show (reader (p + 1)).bind (fun r => some (Answer.object r.1, r.2)) = _
    rw [encodeValue] at hvalue ⊢
    rw [hreads object (.head _) _ hvalue]
    rfl
  | array array =>
    show (loadLE mem (p + 1) 4).bind (fun objectLength =>
      (readLength mem (p + 1 + 4)).bind fun c =>
        (readObjects reader c.1 c.2).bind fun r =>
          some (Answer.array (some r.1), p + 1 + 4 + objectLength)) = _
    rw [encodeValue] at hn hvalue ⊢
    obtain ⟨hcount, hobjects⟩ := holds_text hvalue
    have hcountLt : array.length < 2 ^ 32 := by
      have hle := length_le_encodeObjects array
      rw [length_withObjectLength, List.length_append] at hn
      omega
    rw [length_withObjectLength] at hn ⊢
    rw [loadLE_withObjectLength (by omega) hvalue, Option.bind_some,
      readLength_of_holds hcountLt hcount, Option.bind_some,
      readObjects_of_holds array _ hreads hobjects, Option.bind_some, ← Nat.add_assoc]
    rfl
  | data data =>
    show (readData mem (p + 1)).bind (fun r => some (Answer.data (some r.1), r.2)) = _
    rw [encodeValue] at hn hvalue ⊢
    rw [List.length_append] at hn
    rw [readData_of_holds (by omega) hvalue]
    rfl
  | int32Array value =>
    show (readInt32 mem (p + 1)).bind (fun c =>
      (readInt32s mem c.1.toInt.toNat c.2).bind fun r =>
        some (Answer.int32Array (some r.1), r.2)) = _
    rw [encodeValue] at hn hvalue ⊢
    rw [List.length_append, length_int32Bytes, length_flatMap_int32Bytes] at hn ⊢
    obtain ⟨hcount, hnumbers⟩ := holds_append.1 hvalue
    rw [length_int32Bytes] at hnumbers
    have htoInt : (Int32.ofInt (value.length : Int)).toInt = value.length := by
      rw [Int32.toInt_ofInt]
      exact int32_of_range (by omega) (by omega)
    rw [← htoInt] at hcount
    rw [readInt32_of_holds hcount, Option.bind_some, htoInt, Int.toNat_natCast,
      readInt32s_of_holds value _ hnumbers, Option.bind_some, Nat.add_assoc (p + 1)]
    rfl
  | int32Dictionary value =>
    show (loadLE mem (p + 1) 4).bind (fun objectLength =>
      (readLength mem (p + 1 + 4)).bind fun c =>
        (readEntries mem reader c.1 [] c.2).bind fun r =>
          some (Answer.int32Dictionary (some r.1), p + 1 + 4 + objectLength)) = _
    rw [encodeValue] at hn hvalue ⊢
    obtain ⟨hcount, hentries⟩ := holds_text hvalue
    have hcountLt : value.length < 2 ^ 32 := by
      have hle := length_le_encodeEntries value
      rw [length_withObjectLength, List.length_append] at hn
      omega
    have hreads' : ∀ entry ∈ value,
        ReadsAs mem reader (entryObject entry) (view (entryObject entry)) :=
      fun entry hentry => hreads _ (List.mem_map_of_mem hentry)
    rw [length_withObjectLength] at hn ⊢
    rw [loadLE_withObjectLength (by omega) hvalue, Option.bind_some,
      readLength_of_holds hcountLt hcount, Option.bind_some,
      readEntries_of_holds value [] _ hreads' hentries, Option.bind_some, ← Nat.add_assoc]
    rfl
  | double value =>
    show (readInt64 mem (p + 1)).bind (fun r => some (Answer.double r.1, r.2)) = _
    rw [encodeValue] at hvalue ⊢
    rw [readInt64_of_holds hvalue, length_int64Bytes]
    rfl

end Objects

/-! ## Searching for a key -/

theorem encodeFields_append (xs ys : List Field) :
    encodeFields (xs ++ ys) = encodeFields xs ++ encodeFields ys := by
  induction xs with
  | nil => rfl
  | cons x xs ih => rw [List.cons_append, encodeFields, encodeFields, ih, List.append_assoc]

theorem length_encodeField (field : Field) :
    (encodeField field).length = (writeLength field.key.length).length + field.key.length +
      1 + (encodeValue field.value).length := by
  cases field with
  | mk key value =>
    rw [encodeField, List.length_append, List.length_append, List.length_cons]
    show _ = (writeLength key.length).length + key.length + 1 + (encodeValue value).length
    omega

theorem length_le_encodeFields (fields : List Field) :
    fields.length ≤ (encodeFields fields).length := by
  induction fields with
  | nil => exact Nat.zero_le _
  | cons field fields ih =>
    rw [encodeFields, List.length_append, length_encodeField, List.length_cons]
    omega

variable {field : Field}

theorem length_encodeField_le {fields : List Field} (h : field ∈ fields) :
    (encodeField field).length ≤ (encodeFields fields).length := by
  obtain ⟨xs, ys, rfl⟩ := List.append_of_mem h
  rw [encodeFields_append, encodeFields, List.length_append, List.length_append]
  omega

/-- What the search needs to know of a field. -/
structure Searchable (field : Field) : Prop where
  short : field.key.length ≤ 1000
  fits : (encodeField field).length < 2 ^ 32

section Search

variable {mem key : Data} {scanEnd : Nat}

variable {field : Field}

/-- The parts of a field in the buffer. -/
theorem holds_field (h : Holds mem p (encodeField field)) :
    Holds mem p (writeLength field.key.length) ∧
      Holds mem (p + (writeLength field.key.length).length) field.key ∧
      Holds mem (p + (writeLength field.key.length).length + field.key.length)
        (field.value.fieldType.code :: encodeValue field.value) := by
  cases field with
  | mk key value =>
    rw [encodeField, holds_append, holds_append, List.length_append, ← Nat.add_assoc] at h
    exact ⟨h.1.1, h.1.2, h.2⟩

theorem load_key (h : Holds mem p (encodeField field)) :
    load mem (p + (writeLength field.key.length).length) field.key.length =
      some field.key := by
  have hinside := holds_length h (by
    intro hnil
    have hlength := length_encodeField field
    rw [hnil, List.length_nil] at hlength
    omega)
  rw [length_encodeField] at hinside
  exact load_of_holds (holds_field h).2.1 (by omega)

/-- One round of the search passes over a field with another key. -/
theorem scan_pass {p fuel : Nat} (hfield : Searchable field) (hkey : field.key ≠ key)
    (htype : field.value.fieldType ≠ .int32Array) (h : Holds mem p (encodeField field))
    (hp : p < scanEnd) :
    scan mem key scanEnd (fuel + 1) p =
      scan mem key scanEnd fuel (p + (encodeField field).length) := by
  have hfits := hfield.fits
  have hshort := hfield.short
  rw [length_encodeField] at hfits
  obtain ⟨hlength, _, hvalue⟩ := holds_field h
  have hskip := skipField_of_holds (by omega) htype hvalue
  have hread := readLength_of_holds (by omega) hlength
  have hcompare : isKeyAt mem key field.key.length
      (p + (writeLength field.key.length).length) = some false := by
    unfold isKeyAt
    by_cases hsame : field.key.length = key.length
    · rw [if_pos hsame, ← hsame, load_key h, Option.map_some]
      simpa using hkey
    · rw [if_neg hsame]
  rw [scan, if_pos hp, hread, Option.bind_eq_bind, Option.bind_some]
  dsimp only
  rw [hcompare, Option.bind_eq_bind, Option.bind_some, if_neg (by decide),
    if_neg (by omega), hskip, Option.bind_eq_bind, Option.bind_some, length_encodeField]
  congr 1
  omega

theorem scan_found {p fuel : Nat} (hfield : Searchable field) (hkey : field.key = key)
    (h : Holds mem p (encodeField field)) (hp : p < scanEnd) :
    scan mem key scanEnd (fuel + 1) p =
      some (.found (p + (writeLength field.key.length).length + field.key.length)) := by
  have hfits := hfield.fits
  rw [length_encodeField] at hfits
  have hread := readLength_of_holds (by omega) (holds_field h).1
  have hcompare : isKeyAt mem key field.key.length
      (p + (writeLength field.key.length).length) = some true := by
    unfold isKeyAt
    rw [← hkey, if_pos rfl, load_key h, Option.map_some, beq_self_eq_true]
  rw [scan, if_pos hp, hread, Option.bind_eq_bind, Option.bind_some]
  dsimp only
  rw [hcompare]
  rfl

theorem scan_ended {p fuel : Nat} (hp : ¬ p < scanEnd) :
    scan mem key scanEnd (fuel + 1) p = some (.ended p) := by
  rw [scan, if_neg hp]
  rfl

theorem scan_fields :
    ∀ (fields : List Field) (p fuel : Nat), (∀ field ∈ fields, Searchable field) →
      (∀ field ∈ fields, field.key ≠ key) →
      (∀ field ∈ fields, field.value.fieldType ≠ .int32Array) →
      Holds mem p (encodeFields fields) → p + (encodeFields fields).length ≤ scanEnd →
      scan mem key scanEnd (fields.length + fuel) p =
        scan mem key scanEnd fuel (p + (encodeFields fields).length) := by
  intro fields
  induction fields with
  | nil => intro p fuel _ _ _ _ _; rw [List.length_nil, Nat.zero_add]; rfl
  | cons field fields ih =>
    intro p fuel hsearchable hkeys htypes h hend
    rw [encodeFields, holds_append] at h
    rw [encodeFields, List.length_append] at hend ⊢
    have hpos := length_encodeField field
    have hrest := ih (p + (encodeField field).length) fuel
      (fun f hf => hsearchable f (.tail _ hf))
      (fun f hf => hkeys f (.tail _ hf))
      (fun f hf => htypes f (.tail _ hf)) h.2 (by omega)
    rw [List.length_cons, Nat.add_right_comm, scan_pass (hsearchable _ (.head _))
      (hkeys _ (.head _)) (htypes _ (.head _)) h.1 (by omega), hrest,
      Nat.add_assoc]

/-- What the search needs to know of the fields it passes over. -/
structure Passable (key : Data) (fields : List Field) : Prop where
  searchable : ∀ field ∈ fields, Searchable field
  otherKeys : ∀ field ∈ fields, field.key ≠ key
  noInt32Array : ∀ field ∈ fields, field.value.fieldType ≠ .int32Array

theorem length_le_of_holds {fields : List Field}
    (h : Holds mem p (encodeFields fields)) : fields.length ≤ mem.length := by
  have hle := length_le_encodeFields fields
  have hbegins := h.length_le
  rw [List.length_drop] at hbegins
  omega

/-- A pass that comes to its key. -/
theorem scan_pass_found {fields : List Field} (hpass : Passable key fields)
    (hfield : Searchable field) (hkey : field.key = key) (h : Holds mem p (encodeFields fields))
    (hf : Holds mem (p + (encodeFields fields).length) (encodeField field))
    (hend : p + (encodeFields fields).length < scanEnd) :
    scan mem key scanEnd (mem.length + 1) p =
      some (.found (p + (encodeFields fields).length +
        (writeLength field.key.length).length + field.key.length)) := by
  have hle := length_le_of_holds h
  have hfuel : mem.length + 1 = fields.length + (mem.length - fields.length + 1) := by omega
  rw [hfuel, scan_fields fields p _ hpass.searchable hpass.otherKeys hpass.noInt32Array h
    (by omega), scan_found hfield hkey hf hend]

theorem scan_pass_ended {fields : List Field} (hpass : Passable key fields)
    (h : Holds mem p (encodeFields fields))
    (hend : p + (encodeFields fields).length = scanEnd) :
    scan mem key scanEnd (mem.length + 1) p = some (.ended scanEnd) := by
  have hle := length_le_of_holds h
  have hfuel : mem.length + 1 = fields.length + (mem.length - fields.length + 1) := by omega
  rw [hfuel, scan_fields fields p _ hpass.searchable hpass.otherKeys hpass.noInt32Array h
    (by omega), scan_ended (by omega), hend]

end Search

/-- The decoder stands before the field number `cursor` of the record. -/
structure Represents (mem : Data) (fields : List Field) (d : Decoder) (cursor : Nat) :
    Prop where
  holds : Holds mem d.beginPtr (encodeFields fields)
  endPtr_eq : d.endPtr = d.beginPtr + (encodeFields fields).length
  currentPtr_eq : d.currentPtr = d.beginPtr + (encodeFields (fields.take cursor)).length
  cursor_le : cursor ≤ fields.length

variable {cursor : Nat}

/-- The text of a part of the record. -/
theorem Represents.holds_part {mem : Data} {xs ys zs : List Field} {d : Decoder}
    (h : Represents mem (xs ++ ys ++ zs) d cursor) :
    Holds mem (d.beginPtr + (encodeFields xs).length) (encodeFields ys) := by
  have hholds := h.holds
  rw [encodeFields_append, encodeFields_append, holds_append, holds_append] at hholds
  exact hholds.1.2

theorem encodeFields_singleton (field : Field) : encodeFields [field] = encodeField field := by
  rw [encodeFields, encodeFields, List.append_nil]

theorem skipToValue_found {mem key : Data} {xs ys : List Field} {d : Decoder}
    (h : Represents mem (xs ++ field :: ys) d cursor)
    (hsearchable : ∀ f ∈ xs ++ field :: ys, Searchable f) (hkey : field.key = key)
    (hother : ∀ f ∈ xs ++ ys, f.key ≠ key) (hclean : ∀ f ∈ ((xs ++ field :: ys).drop cursor ++
        (xs ++ field :: ys).take cursor).takeWhile (·.key != key),
      f.value.fieldType ≠ .int32Array) :
    skipToValueForRawKey mem d key =
      some (true, { d with
        currentPtr := d.beginPtr + (encodeFields xs).length +
          (writeLength field.key.length).length + field.key.length }) := by
  have hfield : Searchable field :=
    hsearchable field (List.mem_append_right _ (.head _))
  have hne : ∀ zs : List Field, (∀ f ∈ zs, f ∈ xs ++ ys) →
      ∀ f ∈ zs, (f.key != key) = true := by
    intro zs hzs f hf
    simpa using hother f (hzs f hf)
  have hstop : ¬ (field.key != key) = true := by simp [hkey]
  have hpassable : ∀ zs : List Field, (∀ f ∈ zs, f ∈ xs ++ ys) →
      (∀ f ∈ zs, f ∈ ((xs ++ field :: ys).drop cursor ++
        (xs ++ field :: ys).take cursor).takeWhile (·.key != key)) → Passable key zs := by
    intro zs hzs hpassed
    refine ⟨?_, fun f hf => hother f (hzs f hf), fun f hf => hclean f (hpassed f hf)⟩
    intro f hf
    rcases List.mem_append.1 (hzs f hf) with hin | hin
    · exact hsearchable f (List.mem_append_left _ hin)
    · exact hsearchable f (List.mem_append_right _ (.tail _ hin))
  have hholdsField : Holds mem (d.beginPtr + (encodeFields xs).length) (encodeField field) := by
    have hthree : Represents mem (xs ++ [field] ++ ys) d cursor := by
      rwa [List.append_assoc, List.singleton_append]
    have hpart := hthree.holds_part
    rwa [encodeFields_singleton] at hpart
  have hpos := length_encodeField field
  have hend := h.endPtr_eq
  rw [encodeFields_append, encodeFields, List.length_append, List.length_append] at hend
  have hcurrent := h.currentPtr_eq
  by_cases hcursor : cursor ≤ xs.length
  · rw [List.take_append_of_le_length hcursor] at hcurrent
    have hsplit : (encodeFields xs).length = (encodeFields (xs.take cursor)).length +
        (encodeFields (xs.drop cursor)).length := by
      rw [← List.length_append, ← encodeFields_append, List.take_append_drop]
    have hsub : ∀ f ∈ xs.drop cursor, f ∈ xs ++ ys := fun f hf =>
      List.mem_append_left _ (List.mem_of_mem_drop hf)
    have hpass : Passable key (xs.drop cursor) := by
      apply hpassable _ hsub
      intro f hf
      rw [List.drop_append_of_le_length hcursor, List.append_assoc,
        List.takeWhile_append_of_pos (hne _ hsub)]
      exact List.mem_append_left _ hf
    have hholds : Holds mem d.currentPtr (encodeFields (xs.drop cursor)) := by
      have hthree : Represents mem (xs.take cursor ++ xs.drop cursor ++ field :: ys) d
          cursor := by
        rwa [List.take_append_drop]
      rw [hcurrent]
      exact hthree.holds_part
    have hplace : d.currentPtr + (encodeFields (xs.drop cursor)).length =
        d.beginPtr + (encodeFields xs).length := by omega
    have hbefore : d.currentPtr + (encodeFields (xs.drop cursor)).length < d.endPtr := by
      omega
    have hscan := scan_pass_found hpass hfield hkey hholds (hplace ▸ hholdsField) hbefore
    rw [hplace] at hscan
    unfold skipToValueForRawKey
    rw [hscan]
    rfl
  · obtain ⟨k, rfl⟩ : ∃ k, cursor = xs.length + (k + 1) :=
      ⟨cursor - xs.length - 1, by omega⟩
    rw [List.take_length_add_append, List.take_succ_cons, encodeFields_append,
      List.length_append, encodeFields, List.length_append] at hcurrent
    have hsplit : (encodeFields ys).length = (encodeFields (ys.take k)).length +
        (encodeFields (ys.drop k)).length := by
      rw [← List.length_append, ← encodeFields_append, List.take_append_drop]
    have hsubAfter : ∀ f ∈ ys.drop k, f ∈ xs ++ ys := fun f hf =>
      List.mem_append_right _ (List.mem_of_mem_drop hf)
    have hsubBefore : ∀ f ∈ xs, f ∈ xs ++ ys := fun f hf => List.mem_append_left _ hf
    have hpassed : ((xs ++ field :: ys).drop (xs.length + (k + 1)) ++
        (xs ++ field :: ys).take (xs.length + (k + 1))).takeWhile (·.key != key) =
        ys.drop k ++ xs := by
      rw [List.drop_length_add_append, List.drop_succ_cons, List.take_length_add_append,
        List.take_succ_cons, List.takeWhile_append_of_pos (hne _ hsubAfter),
        List.takeWhile_append_of_pos (hne _ hsubBefore),
        List.takeWhile_cons_of_neg (p := fun f : Field => f.key != key) hstop,
        List.append_nil]
    have hpassAfter : Passable key (ys.drop k) := by
      grind
    have hpassBefore : Passable key xs := by
      grind
    have hholdsAfter : Holds mem d.currentPtr (encodeFields (ys.drop k)) := by
      have hthree : Represents mem ((xs ++ field :: ys.take k) ++ ys.drop k ++ []) d
          (xs.length + (k + 1)) := by
        rwa [List.append_nil, List.append_assoc, List.cons_append, List.take_append_drop]
      have hpart := hthree.holds_part
      rw [encodeFields_append, encodeFields, List.length_append, List.length_append] at hpart
      rwa [hcurrent]
    have hholdsBefore : Holds mem d.beginPtr (encodeFields xs) := by
      have hholds := h.holds
      rw [encodeFields_append, holds_append] at hholds
      exact hholds.1
    have hfirst := scan_pass_ended hpassAfter hholdsAfter
      (show d.currentPtr + (encodeFields (ys.drop k)).length = d.endPtr by omega)
    have hsecond := scan_pass_found hpassBefore hfield hkey hholdsBefore hholdsField
      (show d.beginPtr + (encodeFields xs).length < d.currentPtr by omega)
    unfold skipToValueForRawKey
    rw [hfirst, Option.bind_eq_bind, Option.bind_some]
    dsimp only
    rw [hsecond]
    rfl

theorem skipToValue_absent {mem key : Data} {fields : List Field} {d : Decoder}
    (h : Represents mem fields d cursor)
    (hsearchable : ∀ f ∈ fields, Searchable f) (hother : ∀ f ∈ fields, f.key ≠ key)
    (hclean : ∀ f ∈ (fields.drop cursor ++ fields.take cursor).takeWhile (·.key != key),
      f.value.fieldType ≠ .int32Array) :
    skipToValueForRawKey mem d key = some (false, d) := by
  have hpassed : (fields.drop cursor ++ fields.take cursor).takeWhile (·.key != key) =
      fields.drop cursor ++ fields.take cursor := by
    rw [List.takeWhile_eq_self_iff]
    intro f hf
    have hin : f ∈ fields := by
      grind
    simpa using hother f hin
  rw [hpassed] at hclean
  have hpassAfter : Passable key (fields.drop cursor) :=
    ⟨fun f hf => hsearchable f (List.mem_of_mem_drop hf),
      fun f hf => hother f (List.mem_of_mem_drop hf),
      fun f hf => hclean f (List.mem_append_left _ hf)⟩
  have hpassBefore : Passable key (fields.take cursor) :=
    ⟨fun f hf => hsearchable f (List.mem_of_mem_take hf),
      fun f hf => hother f (List.mem_of_mem_take hf),
      fun f hf => hclean f (List.mem_append_right _ hf)⟩
  have hholds := h.holds
  have hend := h.endPtr_eq
  have hcurrent := h.currentPtr_eq
  have hsplit : encodeFields fields =
      encodeFields (fields.take cursor) ++ encodeFields (fields.drop cursor) := by
    rw [← encodeFields_append, List.take_append_drop]
  rw [hsplit, holds_append] at hholds
  rw [hsplit, List.length_append] at hend
  rw [← hcurrent] at hholds
  have hfirst := scan_pass_ended hpassAfter hholds.2
    (show d.currentPtr + (encodeFields (fields.drop cursor)).length = d.endPtr by omega)
  have hsecond := scan_pass_ended hpassBefore hholds.1 hcurrent.symm
  unfold skipToValueForRawKey
  rw [hfirst, Option.bind_eq_bind, Option.bind_some]
  rw [hsecond]
  rfl

section Record

variable {classes : Classes} {mem : Data} {reader : Nat → Option (Option Object × Nat)}

theorem viewFields_eq_map (classes : Classes) (fields : List Field) :
    viewFields classes fields = fields.map (viewField classes) := by
  induction fields with
  | nil => rfl
  | cons field fields ih => rw [viewFields, ih, List.map_cons]

theorem viewField_key (classes : Classes) (field : Field) :
    (viewField classes field).key = field.key := by
  cases field; rfl

theorem viewField_fieldType (classes : Classes) (field : Field) :
    (viewField classes field).fieldType = field.value.fieldType := by
  cases field; rfl

theorem viewField_answer (classes : Classes) (field : Field) :
    (viewField classes field).answer = (viewValue classes field.value).1 := by
  cases field; rfl

theorem viewField_clean (classes : Classes) (field : Field) :
    (viewField classes field).clean = (viewValue classes field.value).2 := by
  cases field; rfl

theorem viewObjects_eq_map (classes : Classes) (array : List Encoded) :
    viewObjects classes array = array.map (viewObject classes) := by
  induction array with
  | nil => rfl
  | cons object array ih => rw [viewObjects, ih, List.map_cons]

theorem viewEntries_eq_map (classes : Classes) (entries : List Entry) :
    viewEntries classes entries = entries.map (viewEntry classes) := by
  induction entries with
  | nil => rfl
  | cons entry entries ih => rw [viewEntries, ih, List.map_cons]

theorem viewValue_answer (classes : Classes) (value : Value) :
    (viewValue classes value).1 = answerOf (fun object => (viewObject classes object).1) value := by
  cases value with
  | array array =>
    rw [viewValue, viewObjects_eq_map, List.flatMap_map]
    rfl
  | int32Dictionary value =>
    rw [viewValue, viewEntries_eq_map, List.foldl_map]
    refine congrArg (fun dict => Answer.int32Dictionary (some dict)) ?_
    refine List.foldl_ext _ _ [] fun dict entry _ => ?_
    cases entry
    rfl
  | _ => rw [viewValue]; rfl

theorem passed_of_all {fields : List Field} {views : List FieldView} {view : Field → FieldView}
    {query : Query} (hviews : views = fields.map view)
    (hkey : ∀ f, (view f).key = f.key) (htype : ∀ f, (view f).fieldType = f.value.fieldType)
    (hall : (passedOver views cursor query).all (·.fieldType != .int32Array) = true) :
    ∀ f ∈ (fields.drop cursor ++ fields.take cursor).takeWhile (·.key != query.key),
      f.value.fieldType ≠ .int32Array := by
  intro f hf hint32Array
  have hview : view f ∈ passedOver views cursor query := by
    unfold passedOver
    rw [hviews, ← List.map_drop, ← List.map_take, ← List.map_append, List.takeWhile_map]
    apply List.mem_map_of_mem
    have hkeys : ((fun v : FieldView => v.key != query.key) ∘ view) =
        fun field : Field => field.key != query.key := by
      funext field
      rw [Function.comp_apply, hkey]
    rwa [hkeys]
  have hne := List.all_eq_true.1 hall _ hview
  rw [htype, hint32Array] at hne
  simp at hne

theorem passed_noInt32Array {fields : List Field} {query : Query}
    (hclean : isClean (viewFields classes fields) cursor query = true) :
    ∀ f ∈ (fields.drop cursor ++ fields.take cursor).takeWhile (·.key != query.key),
      f.value.fieldType ≠ .int32Array := by
  unfold isClean at hclean
  rw [Bool.and_eq_true] at hclean
  exact passed_of_all (viewFields_eq_map classes fields) (viewField_key classes)
    (viewField_fieldType classes) hclean.1

theorem findIdx_eq {views : List FieldView} {fields : List Field}
    (hkeys : views.map (·.key) = fields.map Field.key) (key : Data) :
    views.findIdx? (·.key == key) = fields.findIdx? (·.key == key) := by
  have hmap := congrArg (List.findIdx? (· == key)) hkeys
  rw [List.findIdx?_map, List.findIdx?_map] at hmap
  exact hmap

theorem viewFields_keys (classes : Classes) (fields : List Field) :
    (viewFields classes fields).map (·.key) = fields.map Field.key := by
  rw [viewFields_eq_map, List.map_map]
  exact List.map_congr_left fun field _ => viewField_key classes field

section Found

variable (conv : Conversions) {fields : List Field} {views : List FieldView} {d : Decoder}
  {cursor : Nat} {query : Query} (h : Represents mem fields d cursor)
  (hkeys : views.map (·.key) = fields.map Field.key)
  (hsearchable : ∀ f ∈ fields, Searchable f)
  (hpassed : ∀ f ∈ (fields.drop cursor ++ fields.take cursor).takeWhile (·.key != query.key),
    f.value.fieldType ≠ .int32Array)
include h hkeys hsearchable hpassed

theorem decode_found {field : Field} {answer : Answer} (hdistinct : (fields.map Field.key).Nodup)
    (hmem : field ∈ fields) (hkey : field.key = query.key)
    (hvalue : ∀ p, Holds mem p (field.value.fieldType.code :: encodeValue field.value) →
      decodeFound conv mem reader query.fieldType p =
        some (answer, p + 1 + (encodeValue field.value).length)) :
    ∃ d', decode conv mem reader d query = some (answer, d') ∧
      Represents mem fields d' (cursorAfter views cursor query) := by
  obtain ⟨xs, ys, rfl⟩ := List.append_of_mem hmem
  have hother : ∀ f ∈ xs ++ ys, f.key ≠ query.key := by
    grind
  have hindex : views.findIdx? (·.key == query.key) = some xs.length := by
    have hbefore : xs.findIdx? (·.key == query.key) = none :=
      List.findIdx?_eq_none_iff.2 fun f hf => by
        simpa using hother f (List.mem_append_left _ hf)
    rw [findIdx_eq hkeys, List.findIdx?_append, hbefore, Option.none_or, List.findIdx?_cons,
      if_pos (by simpa using hkey), Option.map_some, Nat.zero_add]
  have hfieldHolds : Holds mem (d.beginPtr + (encodeFields xs).length) (encodeField field) := by
    have hthree : Represents mem (xs ++ [field] ++ ys) d cursor := by
      rwa [List.append_assoc, List.singleton_append]
    have hpart := hthree.holds_part
    rwa [encodeFields_singleton] at hpart
  have hsearch := skipToValue_found h hsearchable hkey hother hpassed
  have hdecoded := hvalue _ (holds_field hfieldHolds).2.2
  refine ⟨{ d with
    currentPtr := d.beginPtr + (encodeFields xs).length +
      (writeLength field.key.length).length + field.key.length + 1 +
        (encodeValue field.value).length }, ?_, ?_⟩
  · unfold decode
    rw [hsearch, Option.bind_eq_bind, Option.bind_some]
    dsimp only
    rw [if_pos rfl, hdecoded]
    rfl
  · unfold cursorAfter
    rw [hindex]
    refine ⟨h.holds, h.endPtr_eq, ?_, ?_⟩
    · grind [encodeFields_append, encodeFields_singleton, length_encodeField]
    · show xs.length + 1 ≤ (xs ++ field :: ys).length
      rw [List.length_append, List.length_cons]
      omega

theorem decode_absent (hother : ∀ f ∈ fields, f.key ≠ query.key) :
    decode conv mem reader d query = some (defaultAnswer query.fieldType, d) ∧
      Represents mem fields d (cursorAfter views cursor query) := by
  constructor
  · unfold decode
    rw [skipToValue_absent h hsearchable hother hpassed]
    rfl
  · have hnone : fields.findIdx? (·.key == query.key) = none :=
      List.findIdx?_eq_none_iff.2 fun f hf => by simpa using hother f hf
    unfold cursorAfter
    rw [findIdx_eq hkeys, hnone]
    exact h

end Found

theorem find_field {fields : List Field} (hdistinct : (fields.map Field.key).Nodup)
    {field : Field} (hmem : field ∈ fields) {key : Data} (hkey : field.key = key) :
    fields.find? (·.key == key) = some field := by
  rw [← hkey]
  exact FirstMatch.find_of_nodup hdistinct hmem

theorem find_viewField {fields : List Field} (hdistinct : (fields.map Field.key).Nodup)
    {field : Field} (hmem : field ∈ fields) {key : Data} (hkey : field.key = key) :
    (viewFields classes fields).find? (·.key == key) = some (viewField classes field) := by
  rw [viewFields_eq_map, List.find?_map]
  have hkeys : ((fun view : FieldView => view.key == key) ∘ viewField classes) =
      fun field : Field => field.key == key := by
    funext field
    rw [Function.comp_apply, viewField_key]
  rw [hkeys, find_field hdistinct hmem hkey, Option.map_some]

theorem decode_eq (conv : Conversions) {fields : List Field} {d : Decoder}
    {query : Query} (h : Represents mem fields d cursor) (hdistinct : (fields.map Field.key).Nodup)
    (hsearchable : ∀ f ∈ fields, Searchable f)
    (hclean : isClean (viewFields classes fields) cursor query = true)
    (hreads : ∀ f ∈ fields, (viewField classes f).clean = true →
      ∀ object ∈ objectsIn f.value, Reads classes mem reader object) :
    ∃ d', decode conv mem reader d query =
        some (answerFor (viewFields classes fields) query, d') ∧
      Represents mem fields d' (cursorAfter (viewFields classes fields) cursor query) := by
  have hpassed := passed_noInt32Array hclean
  have hkeys := viewFields_keys classes fields
  by_cases hexists : ∃ f ∈ fields, f.key = query.key
  · obtain ⟨field, hmem, hkey⟩ := hexists
    have hfind : (viewFields classes fields).find? (·.key == query.key) =
        some (viewField classes field) := find_viewField hdistinct hmem hkey
    have hown : (viewField classes field).fieldType = query.fieldType ∧
        (viewField classes field).clean = true := by
      unfold isClean at hclean
      rw [Bool.and_eq_true, hfind] at hclean
      simpa using hclean.2
    have hfits := (hsearchable field hmem).fits
    rw [length_encodeField] at hfits
    unfold answerFor
    rw [hfind]
    refine decode_found conv h hkeys hsearchable hpassed hdistinct hmem hkey fun p hp => ?_
    dsimp only
    rw [← hown.1, viewField_fieldType, viewField_answer, viewValue_answer]
    exact decodeFound_of_holds conv (by omega) (hreads field hmem hown.2) hp
  · have hother : ∀ f ∈ fields, f.key ≠ query.key := fun f hf heq => hexists ⟨f, hf, heq⟩
    have hviews : ∀ view ∈ viewFields classes fields, ¬ (view.key == query.key) = true := by
      grind [viewField_key, viewFields_eq_map]
    unfold answerFor
    rw [List.find?_eq_none.2 hviews]
    exact ⟨d, decode_absent conv h hkeys hsearchable hpassed hother⟩

theorem runInitializer_eq (conv : Conversions) {fields : List Field}
    (hdistinct : (fields.map Field.key).Nodup)
    (hsearchable : ∀ f ∈ fields, Searchable f)
    (hreads : ∀ f ∈ fields, (viewField classes f).clean = true →
      ∀ object ∈ objectsIn f.value, Reads classes mem reader object) :
    ∀ (initializer : Initializer) (d : Decoder) (cursor : Nat),
      Represents mem fields d cursor →
      initializerClean (viewFields classes fields) cursor initializer = true →
      runInitializer conv mem reader initializer d =
        some (viewInitializer (viewFields classes fields) initializer) := by
  intro initializer
  induction initializer with
  | done => intro d cursor _ _; rfl
  | decode query next ih =>
    intro d cursor h hclean
    rw [initializerClean, Bool.and_eq_true] at hclean
    obtain ⟨d', hdecode, h'⟩ := decode_eq conv h hdistinct hsearchable hclean.1 hreads
    rw [runInitializer, hdecode, Option.bind_eq_bind, Option.bind_some]
    dsimp only
    rw [ih _ d' _ h' hclean.2]
    rfl

end Record

/-! ## The objects inside a value -/

variable {object : Encoded}

theorem length_encodeObjects_mem {array : List Encoded} (h : object ∈ array) :
    (encodeObjectValue object).length ≤ (encodeObjects array).length := by
  induction array with
  | nil => cases h
  | cons first array ih =>
    rw [encodeObjects, List.length_append]
    rcases List.mem_cons.1 h with rfl | h
    · omega
    · have hle := ih h
      omega

theorem length_encodeEntries_mem {entries : List Entry} {entry : Entry} (h : entry ∈ entries) :
    (encodeObjectValue (entryObject entry)).length ≤ (encodeEntries entries).length := by
  induction entries with
  | nil => cases h
  | cons first entries ih =>
    rw [encodeEntries, List.length_append]
    rcases List.mem_cons.1 h with rfl | h
    · cases entry with
      | mk key object =>
        rw [encodeEntry, List.length_append]
        show (encodeObjectValue object).length ≤ _
        omega
    · have hle := ih h
      omega

theorem length_objectsIn (h : object ∈ objectsIn value) :
    (encodeObjectValue object).length ≤ (encodeValue value).length := by
  cases value with
  | object o =>
    rw [List.mem_singleton.1 h, encodeValue]
  | array array =>
    have hmem : object ∈ array := h
    have hle := length_encodeObjects_mem hmem
    rw [encodeValue, length_withObjectLength, List.length_append]
    omega
  | int32Dictionary value =>
    obtain ⟨entry, hentry, rfl⟩ := List.mem_map.1 h
    have hle := length_encodeEntries_mem hentry
    rw [encodeValue, length_withObjectLength, List.length_append]
    omega
  | _ => cases h

theorem length_encodeObject (name : Data) (fields : List Field) :
    (encodeObjectValue (.mk name fields)).length =
      4 + (name.length + 1 + (encodeFields fields).length) := by
  rw [encodeObjectValue, length_withObjectLength, List.length_append, List.length_cons]
  omega

theorem length_objectsIn_fields {fields : List Field} (hfield : field ∈ fields)
    (hobject : object ∈ objectsIn field.value) :
    (encodeObjectValue object).length < (encodeFields fields).length := by
  have hle := length_encodeField_le hfield
  have hvalue := length_encodeField field
  have hinner := length_objectsIn hobject
  omega

theorem wellFormedObjects_mem {array : List Encoded} (hwell : WellFormedObjects array)
    (h : object ∈ array) : WellFormedObject object := by
  induction array with
  | nil => cases h
  | cons first array ih =>
    grind [WellFormedObjects]

theorem wellFormedEntries_mem {entries : List Entry} {entry : Entry}
    (hwell : WellFormedEntries entries) (h : entry ∈ entries) :
    WellFormedObject (entryObject entry) := by
  induction entries with
  | nil => cases h
  | cons first entries ih =>
    rw [WellFormedEntries] at hwell
    rcases List.mem_cons.1 h with rfl | h
    · cases entry with
      | mk key object =>
        have hfirst := hwell.1
        rw [WellFormedEntry] at hfirst
        exact hfirst
    · exact ih hwell.2 h

theorem wellFormedFields_mem {fields : List Field} (hwell : WellFormedFields fields)
    (h : field ∈ fields) :
    field.key.length ≤ 1000 ∧ WellFormedValue field.value := by
  induction fields with
  | nil => cases h
  | cons first fields ih =>
    rw [WellFormedFields] at hwell
    rcases List.mem_cons.1 h with rfl | h
    · cases field with
      | mk key value =>
        have hfirst := hwell.1
        rw [WellFormedField] at hfirst
        exact hfirst
    · exact ih hwell.2 h

theorem wellFormed_objectsIn (hwell : WellFormedValue value) (h : object ∈ objectsIn value)
    : WellFormedObject object := by
  cases value with
  | object o =>
    rw [WellFormedValue] at hwell
    rwa [List.mem_singleton.1 h]
  | array array =>
    rw [WellFormedValue] at hwell
    exact wellFormedObjects_mem hwell h
  | int32Dictionary value =>
    rw [WellFormedValue] at hwell
    obtain ⟨entry, hentry, rfl⟩ := List.mem_map.1 h
    exact wellFormedEntries_mem hwell hentry
  | _ => cases h

theorem clean_objectsIn {classes : Classes} (hclean : (viewValue classes value).2 = true)
    (h : object ∈ objectsIn value) :
    (viewObject classes object).2 = true := by
  cases value with
  | object o =>
    rw [viewValue] at hclean
    rwa [List.mem_singleton.1 h]
  | array array =>
    rw [viewValue, viewObjects_eq_map] at hclean
    exact List.all_eq_true.1 hclean _ (List.mem_map_of_mem h)
  | int32Dictionary value =>
    rw [viewValue, viewEntries_eq_map] at hclean
    obtain ⟨entry, hentry, rfl⟩ := List.mem_map.1 h
    have hall := List.all_eq_true.1 hclean _ (List.mem_map_of_mem hentry)
    cases entry with
    | mk key object => exact hall
  | _ => cases h

theorem searchable_of_wellFormed {fields : List Field} (hwell : WellFormedFields fields)
    (hfits : (encodeFields fields).length < 2 ^ 32) :
    ∀ f ∈ fields, Searchable f := by
  intro f hf
  have hle := length_encodeField_le hf
  exact ⟨(wellFormedFields_mem hwell hf).1, by omega⟩

theorem className_of_holds {mem name rest : Data} (hname : (0 : UInt8) ∉ name)
    (h : Holds mem p (name ++ 0 :: rest)) : className mem p = some name := by
  obtain ⟨tail, htail⟩ := h
  unfold className
  rw [← htail, List.append_assoc, List.cons_append, if_pos (by simp)]
  have hall : ∀ b ∈ name, (b != 0) = true := by
    grind
  rw [List.takeWhile_append_of_pos hall, List.takeWhile_cons_of_neg (by simp),
    List.append_nil]

theorem readObject_of_run (conv : Conversions) {classes : Classes} {mem name : Data}
    {fields : List Field} {fuel p : Nat} (hname : (0 : UInt8) ∉ name)
    (hfits : (encodeObjectValue (.mk name fields)).length < 2 ^ 32)
    (h : Holds mem p (encodeObjectValue (.mk name fields))) :
    match classes name with
    | none => readObject conv classes mem (fuel + 1) p =
        some (none, p + (encodeObjectValue (.mk name fields)).length)
    | some initializer => ∀ answers,
        (∀ d, Represents mem fields d 0 →
          runInitializer conv mem (readObject conv classes mem fuel) initializer d =
            some answers) →
        readObject conv classes mem (fuel + 1) p =
          some (some (.mk name answers), p + (encodeObjectValue (.mk name fields)).length) := by
  rw [encodeObjectValue] at hfits h ⊢
  have hlength := length_withObjectLength (name ++ 0 :: encodeFields fields)
  have htextLength : (name ++ 0 :: encodeFields fields).length =
      name.length + 1 + (encodeFields fields).length := by
    rw [List.length_append, List.length_cons]
    omega
  have htext := (holds_append.1 h).2
  rw [length_natLE] at htext
  have hload := loadLE_withObjectLength (by omega) h
  have hfieldsHold : Holds mem (p + 4 + name.length + 1) (encodeFields fields) := by
    have hparts := (holds_append.1 htext).2
    rw [← List.singleton_append, holds_append] at hparts
    exact hparts.2
  have hread : readObject conv classes mem (fuel + 1) p =
      match classes name with
      | none => some (none, p + (withObjectLength (name ++ 0 :: encodeFields fields)).length)
      | some initializer =>
        (runInitializer conv mem (readObject conv classes mem fuel) initializer
          { beginPtr := p + 4 + name.length + 1
            currentPtr := p + 4 + name.length + 1
            endPtr := p + 4 + (name ++ 0 :: encodeFields fields).length }).bind fun answers =>
        some (some (.mk name answers),
          p + (withObjectLength (name ++ 0 :: encodeFields fields)).length) := by
    rw [readObject, hload, Option.bind_eq_bind, Option.bind_some, className_of_holds hname htext,
      Option.bind_eq_bind, Option.bind_some, hlength, ← Nat.add_assoc]
    rfl
  rw [hread]
  cases classes name with
  | none => rfl
  | some initializer =>
    intro answers hrun
    dsimp only
    rw [hrun _ ⟨hfieldsHold, by dsimp only; omega, rfl, Nat.zero_le _⟩]
    rfl

/-- Every object of a well-formed record is read as it should be.  The
induction is on the fuel: an object inside another has a shorter text. -/
theorem reads_readObject (conv : Conversions) (classes : Classes) (mem : Data) :
    ∀ (fuel : Nat) (object : Encoded), (encodeObjectValue object).length ≤ fuel →
      (encodeObjectValue object).length < 2 ^ 32 → WellFormedObject object →
      (viewObject classes object).2 = true →
      Reads classes mem (readObject conv classes mem fuel) object := by
  intro fuel
  induction fuel with
  | zero =>
    grind [length_encodeObjectValue_pos]
  | succ fuel ih =>
    intro object hfuel hfits hwell hclean p h
    cases object with
    | mk name fields =>
      rw [WellFormedObject] at hwell
      obtain ⟨hname, hdistinct, hfields⟩ := hwell
      have hlength := length_encodeObject name fields
      have hsearchable := searchable_of_wellFormed hfields (by omega)
      have hreads : ∀ f ∈ fields, (viewField classes f).clean = true →
          ∀ object ∈ objectsIn f.value,
            Reads classes mem (readObject conv classes mem fuel) object := by
        intro f hf hfclean object hobject
        have hinner := length_objectsIn_fields hf hobject
        rw [viewField_clean] at hfclean
        exact ih object (by omega) (by omega)
          (wellFormed_objectsIn (wellFormedFields_mem hfields hf).2 hobject)
          (clean_objectsIn hfclean hobject)
      have hobject := @readObject_of_run conv classes mem name fields fuel p hname hfits h
      rw [viewObject] at hclean ⊢
      cases hclass : classes name with
      | none =>
        rw [hclass] at hobject
        exact hobject
      | some initializer =>
        grind [runInitializer_eq]

/-- The decoder of a record answers every sequence of queries, in any order and
with any repetition, with the values that were encoded and with the defaults
for absent keys, as long as no search passes over an `int32` array. -/
theorem decodeAll_eq (conv : Conversions) (classes : Classes) (fields : List Field)
    (hrecord : WellFormedRecord fields) (queries : List Query)
    (hclean : SearchesClean (viewFields classes fields) 0 queries) :
    decodeAll conv classes (encodeFields fields) (initWithData (encodeFields fields)) queries =
      some (queries.map (answerFor (viewFields classes fields))) := by
  have hsearchable := searchable_of_wellFormed hrecord.wellFormed hrecord.fits
  have hreads : ∀ f ∈ fields, (viewField classes f).clean = true →
      ∀ object ∈ objectsIn f.value, Reads classes (encodeFields fields)
        (readObject conv classes (encodeFields fields) (encodeFields fields).length)
        object := by
    intro f hf hfclean object hobject
    have hfits := hrecord.fits
    have hinner := length_objectsIn_fields hf hobject
    rw [viewField_clean] at hfclean
    exact reads_readObject conv classes _ _ object (by omega) (by omega)
      (wellFormed_objectsIn (wellFormedFields_mem hrecord.wellFormed hf).2 hobject)
      (clean_objectsIn hfclean hobject)
  have hrun : ∀ (queries : List Query) (d : Decoder) (cursor : Nat),
      Represents (encodeFields fields) fields d cursor →
      SearchesClean (viewFields classes fields) cursor queries →
      decodeAll conv classes (encodeFields fields) d queries =
        some (queries.map (answerFor (viewFields classes fields))) := by
    intro queries
    induction queries with
    | nil => intro d cursor _ _; rfl
    | cons query queries ih =>
      intro d cursor h hclean
      obtain ⟨d', hdecode, h'⟩ := decode_eq conv h hrecord.distinct hsearchable
        hclean.1 hreads
      rw [decodeAll, decodeForKey, hdecode, Option.bind_eq_bind, Option.bind_some]
      dsimp only
      rw [ih d' _ h' hclean.2]
      rfl
  apply hrun queries _ 0 _ hclean
  exact ⟨holds_self _, (Nat.zero_add _).symm, rfl, Nat.zero_le _⟩

/-- An `int32` array and a number behind it. -/
def int32ArrayRecord : List Field :=
  [.mk [0x61] (.int32Array [5]), .mk [0x62] (.int32 7)]

theorem int32ArrayRecord_wellFormed : WellFormedRecord int32ArrayRecord := by
  refine ⟨by decide, ?_, by decide⟩
  simp [int32ArrayRecord, WellFormedFields, WellFormedField, WellFormedValue]

/-- Asked for the number first, the decoder returns zero for a seven. -/
theorem int32Array_passedOver :
    ¬ (WellFormedRecord int32ArrayRecord →
      decodeAll ⟨fun _ => 0, fun _ => 0, fun _ => 0⟩ (fun _ => none)
        (encodeFields int32ArrayRecord) (initWithData (encodeFields int32ArrayRecord))
        [⟨[0x62], .int32⟩] =
      some ([⟨[0x62], .int32⟩].map (answerFor (viewFields (fun _ => none)
        int32ArrayRecord)))) := by
  intro h
  have hexpected := h int32ArrayRecord_wellFormed
  have hactual : decodeAll ⟨fun _ => 0, fun _ => 0, fun _ => 0⟩ (fun _ => none)
      (encodeFields int32ArrayRecord) (initWithData (encodeFields int32ArrayRecord))
      [⟨[0x62], .int32⟩] = some [.int32 0] := rfl
  rw [hactual] at hexpected
  have hanswer := List.head_eq_of_cons_eq (Option.some.inj hexpected)
  exact absurd (Answer.int32.inj hanswer) (by decide)

/-- In the order of the fields the same record is read back, again and again. -/
theorem int32Array_inOrder :
    decodeAll ⟨fun _ => 0, fun _ => 0, fun _ => 0⟩ (fun _ => none)
        (encodeFields int32ArrayRecord) (initWithData (encodeFields int32ArrayRecord))
        [⟨[0x61], .int32Array⟩, ⟨[0x62], .int32⟩, ⟨[0x61], .int32Array⟩, ⟨[0x62], .int32⟩] =
      some [.int32Array (some [5]), .int32 7, .int32Array (some [5]), .int32 7] :=
  decodeAll_eq _ _ _ int32ArrayRecord_wellFormed _ ⟨rfl, rfl, rfl, rfl, trivial⟩

end TelegramPub.Ports.KeyValueRoundTrip
