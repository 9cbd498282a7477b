import TelegramPub.Ports.KeyValueRoundTrip

/-!
# Queries of another type

A query may ask for a key with another type than the one it was encoded with.  Strings and
numbers are converted (`convert`), also to doubles; for other types the answer should be the
default.  `answerAs` is the answer that a query deserves then, and `initializerAnswers` what
an object learns.

When the type is not one it reads, a query has already stepped over the type byte, and calls
`skipField`, which reads a type byte of its own: the value's first byte.  So the cursor is left
inside the value or somewhere behind it.  Only `decodeInt32ArrayForCKey:` steps back.
`decodeAll_answers` is about the runs in which this does not happen.
-/

namespace TelegramPub.Ports.KeyValueConversions

open Verified.Bytes Verified.Memory Ports.KeyValueCoder Ports.KeyValueRoundTrip

/-- A field of the second type can be read with the first. -/
def converts : FieldType → FieldType → Bool
  | .string, .int32 | .string, .int64 => true
  | .int32, .string | .int32, .int64 => true
  | .int64, .string | .int64, .int32 => true
  | .double, .string | .double, .int32 | .double, .int64 => true
  | _, _ => false

/-- The answer of a field to a query of another type. -/
def convert (conv : Conversions) : FieldType → Answer → Answer
  | .string, .int32 number => .string (some (toString number.toInt))
  | .string, .int64 number => .string (some (toString number.toInt))
  | .int32, .string string =>
    .int32 (Int32.ofInt ((string.map (decimalValue (-2 ^ 31) (2 ^ 31 - 1))).getD 0))
  | .int32, .int64 number => .int32 number.toInt32
  | .int64, .string string =>
    .int64 (Int64.ofInt ((string.map (decimalValue (-2 ^ 63) (2 ^ 63 - 1))).getD 0))
  | .int64, .int32 number => .int64 number.toInt64
  | .double, .string string => .double ((string.map conv.truncatedDoubleValue).getD 0)
  | .double, .int32 number => .double (conv.doubleOfInt32 number)
  | .double, .int64 number => .double (conv.doubleOfInt64 number)
  | requested, _ => defaultAnswer requested

/-- The answer to a query on a record. -/
def answerAs (conv : Conversions) (views : List FieldView) (query : Query) : Answer :=
  match views.find? (·.key == query.key) with
  | some view =>
    if view.fieldType = query.fieldType then view.answer
    else convert conv query.fieldType view.answer
  | none => defaultAnswer query.fieldType

/-- The search passes over no `int32` array.  The field it finds has the type of the query and
can be built; or it is converted; or an `int32` array is asked for. -/
def isReadable (views : List FieldView) (cursor : Nat) (query : Query) : Bool :=
  (passedOver views cursor query).all (·.fieldType != .int32Array) &&
    (views.find? (·.key == query.key)).all fun view =>
      if view.fieldType = query.fieldType then view.clean
      else converts query.fieldType view.fieldType || query.fieldType == .int32Array

/-- What an initializer learns from a record. -/
def initializerAnswers (conv : Conversions) (views : List FieldView) :
    Initializer → List Answer
  | .done => []
  | .decode query next =>
    answerAs conv views query ::
      initializerAnswers conv views (next (answerAs conv views query))

/-- Every query of an initializer is readable. -/
def initializerReadable (conv : Conversions) (views : List FieldView) :
    Nat → Initializer → Bool
  | _, .done => true
  | cursor, .decode query next =>
    isReadable views cursor query &&
      initializerReadable conv views (cursorAfter views cursor query)
        (next (answerAs conv views query))

mutual

/-- The answer a value deserves, and whether its objects can be built. -/
def readValue (conv : Conversions) (classes : Classes) : Value → Answer × Bool
  | .string string => (.string (some string), true)
  | .int32 number => (.int32 number, true)
  | .int64 number => (.int64 number, true)
  | .object object =>
    (.object (readEncoded conv classes object).1, (readEncoded conv classes object).2)
  | .array array =>
    (.array (some ((readEncodeds conv classes array).flatMap (·.1.toList))),
      (readEncodeds conv classes array).all (·.2))
  | .data data => (.data (some data), true)
  | .int32Array value => (.int32Array (some value), true)
  | .int32Dictionary value =>
    (.int32Dictionary (some ((readDictionary conv classes value).foldl
      (fun dict entry => match entry.2.1 with
        | some object => setEntry entry.1 object dict
        | none => dict) [])),
      (readDictionary conv classes value).all (·.2.2))
  | .double value => (.double value, true)

def readEncoded (conv : Conversions) (classes : Classes) : Encoded → Option Object × Bool
  | .mk className fields =>
    match classes className with
    | none => (none, true)
    | some initializer =>
      (some (.mk className (initializerAnswers conv (readFields conv classes fields)
        initializer)),
        initializerReadable conv (readFields conv classes fields) 0 initializer)

def readEncodeds (conv : Conversions) (classes : Classes) :
    List Encoded → List (Option Object × Bool)
  | [] => []
  | object :: array => readEncoded conv classes object :: readEncodeds conv classes array

def readField (conv : Conversions) (classes : Classes) : Field → FieldView
  | .mk key value =>
    { key, fieldType := value.fieldType
      answer := (readValue conv classes value).1, clean := (readValue conv classes value).2 }

def readFields (conv : Conversions) (classes : Classes) : List Field → List FieldView
  | [] => []
  | field :: fields => readField conv classes field :: readFields conv classes fields

def readEntry (conv : Conversions) (classes : Classes) : Entry → Int32 × Option Object × Bool
  | .mk key object => (key, readEncoded conv classes object)

def readDictionary (conv : Conversions) (classes : Classes) :
    List Entry → List (Int32 × Option Object × Bool)
  | [] => []
  | entry :: entries => readEntry conv classes entry :: readDictionary conv classes entries

end

/-- Every query of a run is readable. -/
def QueriesReadable (views : List FieldView) : Nat → List Query → Prop
  | _, [] => True
  | cursor, query :: queries =>
    isReadable views cursor query = true ∧
      QueriesReadable views (cursorAfter views cursor query) queries

section Views

variable (conv : Conversions) (classes : Classes)

theorem readFields_eq_map (fields : List Field) :
    readFields conv classes fields = fields.map (readField conv classes) := by
  induction fields with
  | nil => rfl
  | cons field fields ih => rw [readFields, ih, List.map_cons]

theorem readEncodeds_eq_map (array : List Encoded) :
    readEncodeds conv classes array = array.map (readEncoded conv classes) := by
  induction array with
  | nil => rfl
  | cons object array ih => rw [readEncodeds, ih, List.map_cons]

theorem readDictionary_eq_map (entries : List Entry) :
    readDictionary conv classes entries = entries.map (readEntry conv classes) := by
  induction entries with
  | nil => rfl
  | cons entry entries ih => rw [readDictionary, ih, List.map_cons]

theorem readFields_keys (fields : List Field) :
    (readFields conv classes fields).map (·.key) = fields.map Field.key := by
  rw [readFields_eq_map, List.map_map]
  exact List.map_congr_left fun field _ => by cases field; rfl

theorem readField_eq (field : Field) :
    readField conv classes field =
      { key := field.key, fieldType := field.value.fieldType
        answer := (readValue conv classes field.value).1
        clean := (readValue conv classes field.value).2 } := by
  cases field
  rfl

theorem readValue_answer (value : Value) :
    (readValue conv classes value).1 =
      answerOf (fun object => (readEncoded conv classes object).1) value := by
  cases value with
  | array array =>
    rw [readValue, readEncodeds_eq_map, List.flatMap_map]
    rfl
  | int32Dictionary value =>
    rw [readValue, readDictionary_eq_map, List.foldl_map]
    refine congrArg (fun dict => Answer.int32Dictionary (some dict)) ?_
    refine List.foldl_ext _ _ [] fun dict entry _ => ?_
    cases entry
    rfl
  | _ => rw [readValue]; rfl

/-- The objects of a value that can be built can be built. -/
theorem readable_objectsIn {value : Value} {object : Encoded}
    (hclean : (readValue conv classes value).2 = true) (h : object ∈ objectsIn value) :
    (readEncoded conv classes object).2 = true := by
  cases value with
  | object o =>
    rw [readValue] at hclean
    rwa [List.mem_singleton.1 h]
  | array array =>
    rw [readValue, readEncodeds_eq_map] at hclean
    exact List.all_eq_true.1 hclean _ (List.mem_map_of_mem h)
  | int32Dictionary value =>
    rw [readValue, readDictionary_eq_map] at hclean
    obtain ⟨entry, hentry, rfl⟩ := List.mem_map.1 h
    have hall := List.all_eq_true.1 hclean _ (List.mem_map_of_mem hentry)
    cases entry with
    | mk key object => exact hall
  | _ => cases h

end Views

section Queries

variable {mem : Data} {reader : Nat → Option (Option Object × Nat)}

theorem decodeFound_converts (conv : Conversions) {requested : FieldType} {value : Value}
    {p : Nat} {view : Encoded → Option Object} (hn : (encodeValue value).length < 2 ^ 32)
    (hconverts : converts requested value.fieldType = true)
    (h : Holds mem p (value.fieldType.code :: encodeValue value)) :
    decodeFound conv mem reader requested p =
      some (convert conv requested (answerOf view value),
        p + 1 + (encodeValue value).length) := by
  have hcode := getElem?_of_holds h
  rw [← List.singleton_append, holds_append] at h
  have hvalue : Holds mem (p + 1) (encodeValue value) := h.2
  unfold decodeFound
  rw [hcode, Option.bind_eq_bind, Option.bind_some]
  cases value with
  | string string =>
    have hlength : (utf8Data string).length < 2 ^ 32 := by
      rw [encodeValue, List.length_append] at hn
      omega
    have hread := readString_of_holds hlength hvalue
    cases requested with
    | int32 =>
      show (readString mem (p + 1)).bind (fun r => some (Answer.int32 (Int32.ofInt
        ((r.1.map (decimalValue (-2 ^ 31) (2 ^ 31 - 1))).getD 0)), r.2)) = _
      rw [hread]
      rfl
    | int64 =>
      show (readString mem (p + 1)).bind (fun r => some (Answer.int64 (Int64.ofInt
        ((r.1.map (decimalValue (-2 ^ 63) (2 ^ 63 - 1))).getD 0)), r.2)) = _
      rw [hread]
      rfl
    | double =>
      show (readString mem (p + 1)).bind (fun r => some (Answer.double
        ((r.1.map conv.truncatedDoubleValue).getD 0), r.2)) = _
      rw [hread]
      rfl
    | _ => cases hconverts
  | int32 number =>
    rw [encodeValue] at hvalue ⊢
    have hread := readInt32_of_holds hvalue
    rw [length_int32Bytes]
    cases requested with
    | string =>
      show (readInt32 mem (p + 1)).bind
        (fun r => some (Answer.string (some (toString r.1.toInt)), r.2)) = _
      rw [hread]
      rfl
    | int64 =>
      show (readInt32 mem (p + 1)).bind (fun r => some (Answer.int64 r.1.toInt64, r.2)) = _
      rw [hread]
      rfl
    | double =>
      show (readInt32 mem (p + 1)).bind
        (fun r => some (Answer.double (conv.doubleOfInt32 r.1), r.2)) = _
      rw [hread]
      rfl
    | _ => cases hconverts
  | int64 number =>
    rw [encodeValue] at hvalue ⊢
    have hread := readInt64_of_holds hvalue
    rw [length_int64Bytes]
    cases requested with
    | string =>
      show (readInt64 mem (p + 1)).bind
        (fun r => some (Answer.string (some (toString r.1.toInt)), r.2)) = _
      rw [hread]
      rfl
    | int32 =>
      show (readInt64 mem (p + 1)).bind (fun r => some (Answer.int32 r.1.toInt32, r.2)) = _
      rw [hread]
      rfl
    | double =>
      show (readInt64 mem (p + 1)).bind
        (fun r => some (Answer.double (conv.doubleOfInt64 r.1), r.2)) = _
      rw [hread]
      rfl
    | _ => cases hconverts
  | _ => cases requested <;> cases hconverts

/-- A query for an `int32` array goes back to the type byte, and passes over the value. -/
theorem decodeFound_int32Array (conv : Conversions) {value : Value} {p : Nat}
    (hn : (encodeValue value).length < 2 ^ 32) (htype : value.fieldType ≠ .int32Array)
    (h : Holds mem p (value.fieldType.code :: encodeValue value)) :
    decodeFound conv mem reader .int32Array p =
      some (.int32Array none, p + 1 + (encodeValue value).length) := by
  have hcode := getElem?_of_holds h
  have hne : value.fieldType.code ≠ FieldType.int32Array.code := by
    cases value with
    | int32Array value => exact absurd rfl htype
    | _ =>
      simp only [Value.fieldType]
      decide
  unfold decodeFound
  rw [hcode, Option.bind_eq_bind, Option.bind_some]
  rw [if_neg hne, skipField_of_holds hn htype h]
  rfl

variable {conv : Conversions} {classes : Classes}

variable {fields : List Field}

theorem find_readField (hdistinct : (fields.map Field.key).Nodup)
    {field : Field} (hmem : field ∈ fields) {key : Data} (hkey : field.key = key) :
    (readFields conv classes fields).find? (·.key == key) =
      some (readField conv classes field) := by
  rw [readFields_eq_map, List.find?_map]
  have hkeys : ((fun view : FieldView => view.key == key) ∘ readField conv classes) =
      fun field : Field => field.key == key := by
    funext field
    rw [Function.comp_apply, readField_eq]
  rw [hkeys, find_field hdistinct hmem hkey, Option.map_some]

theorem passed_readable {cursor : Nat} {query : Query}
    (hreadable : isReadable (readFields conv classes fields) cursor query = true) :
    ∀ f ∈ (fields.drop cursor ++ fields.take cursor).takeWhile (·.key != query.key),
      f.value.fieldType ≠ .int32Array := by
  unfold isReadable at hreadable
  rw [Bool.and_eq_true] at hreadable
  refine passed_of_all (readFields_eq_map conv classes fields) (fun f => ?_) (fun f => ?_)
    hreadable.1
  · rw [readField_eq]
  · rw [readField_eq]

/-- A query on a record is answered as it should be, and moves the cursor as it should. -/
theorem decode_readable {d : Decoder} {cursor : Nat} {query : Query}
    (h : Represents mem fields d cursor) (hdistinct : (fields.map Field.key).Nodup)
    (hsearchable : ∀ f ∈ fields, Searchable f)
    (hreadable : isReadable (readFields conv classes fields) cursor query = true)
    (hreads : ∀ f ∈ fields, (readValue conv classes f.value).2 = true →
      ∀ object ∈ objectsIn f.value,
        ReadsAs mem reader object (readEncoded conv classes object).1) :
    ∃ d', decode conv mem reader d query =
        some (answerAs conv (readFields conv classes fields) query, d') ∧
      Represents mem fields d'
        (cursorAfter (readFields conv classes fields) cursor query) := by
  have hpassed := passed_readable hreadable
  have hkeys := readFields_keys conv classes fields
  by_cases hexists : ∃ f ∈ fields, f.key = query.key
  · obtain ⟨field, hmem, hkey⟩ := hexists
    have hfind : (readFields conv classes fields).find? (·.key == query.key) =
        some (readField conv classes field) := find_readField hdistinct hmem hkey
    have hfits := (hsearchable field hmem).fits
    rw [length_encodeField] at hfits
    have hn : (encodeValue field.value).length < 2 ^ 32 := by omega
    unfold isReadable at hreadable
    rw [Bool.and_eq_true, hfind, readField_eq] at hreadable
    have hown := hreadable.2
    unfold answerAs
    rw [hfind, readField_eq]
    rw [Option.all_some] at hown
    dsimp only at hown ⊢
    by_cases htype : field.value.fieldType = query.fieldType
    · rw [if_pos htype] at hown ⊢
      refine decode_found conv h hkeys hsearchable hpassed hdistinct hmem hkey fun p hp => ?_
      rw [← htype, readValue_answer]
      exact decodeFound_of_holds conv hn (hreads field hmem hown) hp
    · rw [if_neg htype, Bool.or_eq_true] at hown
      rw [if_neg htype]
      refine decode_found conv h hkeys hsearchable hpassed hdistinct hmem hkey fun p hp => ?_
      rcases hown with hconverts | harray
      · rw [readValue_answer]
        exact decodeFound_converts conv hn hconverts hp
      · have harray : query.fieldType = .int32Array := by simpa using harray
        rw [harray] at htype ⊢
        exact decodeFound_int32Array conv hn htype hp
  · have hother : ∀ f ∈ fields, f.key ≠ query.key := fun f hf heq => hexists ⟨f, hf, heq⟩
    have hviews : ∀ view ∈ readFields conv classes fields, ¬ (view.key == query.key) = true := by
      intro view hview
      rw [readFields_eq_map] at hview
      obtain ⟨f, hf, rfl⟩ := List.mem_map.1 hview
      rw [readField_eq]
      simpa using hother f hf
    unfold answerAs
    rw [List.find?_eq_none.2 hviews]
    exact ⟨d, decode_absent conv h hkeys hsearchable hpassed hother⟩

theorem runInitializer_readable
    (hdistinct : (fields.map Field.key).Nodup) (hsearchable : ∀ f ∈ fields, Searchable f)
    (hreads : ∀ f ∈ fields, (readValue conv classes f.value).2 = true →
      ∀ object ∈ objectsIn f.value,
        ReadsAs mem reader object (readEncoded conv classes object).1)
    (initializer : Initializer) (d : Decoder) (cursor : Nat) (h : Represents mem fields d cursor)
    (hreadable : initializerReadable conv (readFields conv classes fields) cursor initializer =
      true) :
    runInitializer conv mem reader initializer d =
      some (initializerAnswers conv (readFields conv classes fields) initializer) := by
  induction initializer generalizing d cursor with
  | done => rfl
  | decode query next ih =>
    rw [initializerReadable, Bool.and_eq_true] at hreadable
    obtain ⟨d', hdecode, h'⟩ := decode_readable h hdistinct hsearchable hreadable.1 hreads
    rw [runInitializer, hdecode, Option.bind_eq_bind, Option.bind_some]
    dsimp only
    rw [ih _ d' _ h' hreadable.2]
    rfl

end Queries

/-- The induction is on the fuel: an object inside another has a shorter text. -/
theorem readsAs_readObject (conv : Conversions) (classes : Classes) (mem : Data) (fuel : Nat)
    (object : Encoded) (hfuel : (encodeObjectValue object).length ≤ fuel)
    (hfits : (encodeObjectValue object).length < 2 ^ 32) (hwell : WellFormedObject object)
    (hreadable : (readEncoded conv classes object).2 = true) :
    ReadsAs mem (readObject conv classes mem fuel) object
      (readEncoded conv classes object).1 := by
  induction fuel generalizing object with
  | zero =>
    have hpos := length_encodeObjectValue_pos object
    omega
  | succ fuel ih =>
    intro p h
    cases object with
    | mk name fields =>
      rw [WellFormedObject] at hwell
      obtain ⟨hname, hdistinct, hfields⟩ := hwell
      have hlength := length_encodeObject name fields
      have hsearchable := searchable_of_wellFormed hfields (by omega)
      have hreads : ∀ f ∈ fields, (readValue conv classes f.value).2 = true →
          ∀ object ∈ objectsIn f.value,
            ReadsAs mem (readObject conv classes mem fuel) object
              (readEncoded conv classes object).1 := by
        intro f hf hfclean object hobject
        have hinner := length_objectsIn_fields hf hobject
        exact ih object (by omega) (by omega)
          (wellFormed_objectsIn (wellFormedFields_mem hfields hf).2 hobject)
          (readable_objectsIn conv classes hfclean hobject)
      have hobject := @readObject_of_run conv classes mem name fields fuel p hname hfits h
      rw [readEncoded] at hreadable ⊢
      cases hclass : classes name with
      | none =>
        rw [hclass] at hobject
        exact hobject
      | some initializer =>
        grind [runInitializer_readable]

/-- Queries of any types, in any order and with any repetition, are answered as they should,
as long as each of them is readable: a value of another type is not passed over wrongly. -/
theorem decodeAll_answers (conv : Conversions) (classes : Classes) (fields : List Field)
    (hrecord : WellFormedRecord fields) (queries : List Query)
    (hreadable : QueriesReadable (readFields conv classes fields) 0 queries) :
    decodeAll conv classes (encodeFields fields) (initWithData (encodeFields fields)) queries =
      some (queries.map (answerAs conv (readFields conv classes fields))) := by
  have hsearchable := searchable_of_wellFormed hrecord.wellFormed hrecord.fits
  have hreads : ∀ f ∈ fields, (readValue conv classes f.value).2 = true →
      ∀ object ∈ objectsIn f.value, ReadsAs (encodeFields fields)
        (readObject conv classes (encodeFields fields) (encodeFields fields).length) object
        (readEncoded conv classes object).1 := by
    intro f hf hfclean object hobject
    have hfits := hrecord.fits
    have hinner := length_objectsIn_fields hf hobject
    exact readsAs_readObject conv classes _ _ object (by omega) (by omega)
      (wellFormed_objectsIn (wellFormedFields_mem hrecord.wellFormed hf).2 hobject)
      (readable_objectsIn conv classes hfclean hobject)
  have hrun : ∀ (queries : List Query) (d : Decoder) (cursor : Nat),
      Represents (encodeFields fields) fields d cursor →
      QueriesReadable (readFields conv classes fields) cursor queries →
      decodeAll conv classes (encodeFields fields) d queries =
        some (queries.map (answerAs conv (readFields conv classes fields))) := by
    intro queries
    induction queries with
    | nil => intro d cursor _ _; rfl
    | cons query queries ih =>
      intro d cursor h hreadable
      obtain ⟨d', hdecode, h'⟩ :=
        decode_readable h hrecord.distinct hsearchable hreadable.1 hreads
      rw [decodeAll, decodeForKey, hdecode, Option.bind_eq_bind, Option.bind_some]
      dsimp only
      rw [ih d' _ h' hreadable.2]
      rfl
  exact hrun queries _ 0 ⟨holds_self _, (Nat.zero_add _).symm, rfl, Nat.zero_le _⟩ hreadable

/-- Two numbers. -/
def numbersRecord : List Field := [.mk [0x61] (.int32 0), .mk [0x62] (.int32 7)]

theorem numbersRecord_wellFormed : WellFormedRecord numbersRecord := by
  refine ⟨by decide, ?_, by decide⟩
  simp [numbersRecord, WellFormedFields, WellFormedField, WellFormedValue]

/-- The first is asked for as a string, an `int64` and an `int32` array. -/
theorem numbers_converted :
    decodeAll ⟨fun _ => 0, fun _ => 0, fun _ => 0⟩ (fun _ => none)
        (encodeFields numbersRecord) (initWithData (encodeFields numbersRecord))
        [⟨[0x61], .string⟩, ⟨[0x62], .int64⟩, ⟨[0x61], .int32Array⟩, ⟨[0x62], .int32⟩] =
      some [.string (some "0"), .int64 7, .int32Array none, .int32 7] :=
  decodeAll_answers _ _ _ numbersRecord_wellFormed _ ⟨rfl, rfl, rfl, rfl, trivial⟩

/-- It is asked for as data, and the second number is not found any more. -/
theorem numbers_spoilt :
    decodeAll ⟨fun _ => 0, fun _ => 0, fun _ => 0⟩ (fun _ => none)
        (encodeFields numbersRecord) (initWithData (encodeFields numbersRecord))
        [⟨[0x61], .data⟩, ⟨[0x62], .int32⟩] = some [.data none, .int32 0] ∧
      WellFormedRecord numbersRecord ∧
      [⟨[0x61], .data⟩, ⟨[0x62], .int32⟩].map (answerAs ⟨fun _ => 0, fun _ => 0, fun _ => 0⟩
        (readFields ⟨fun _ => 0, fun _ => 0, fun _ => 0⟩ (fun _ => none) numbersRecord)) =
      [.data none, .int32 7] :=
  ⟨rfl, numbersRecord_wellFormed, rfl⟩

end TelegramPub.Ports.KeyValueConversions
