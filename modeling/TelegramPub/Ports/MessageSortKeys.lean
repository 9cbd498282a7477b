import TelegramPub.Ports.ChannelSortKeys

/-!
# TGMessageSortKey and TGMessageTransparentSortKey

The keys of the message store as buffers: the id of the peer as it lies in
memory, and behind it the fields of a message, with the most significant byte
first, so that the bytewise order of the keys of a peer is that of the fields, and
bounds hold exactly the keys they name.
-/

namespace TelegramPub.Ports.MessageSortKeys

open Verified.Bytes

/-- The sign of `memcmp` on buffers of one length. -/
def memcmp : Data → Data → Ordering
  | x :: xs, y :: ys => (compare x y).then (memcmp xs ys)
  | _, _ => .eq

/-- The bytes of an `int32_t` in memory. -/
def int32Bytes (x : Int32) : Data := natLE 4 x.toUInt32.toNat

/-- The `int32_t` in four bytes. -/
def int32OfBytes (bytes : Data) : Int32 := (UInt32.ofNat (leNat bytes)).toInt32

/-- `NSSwapInt`. -/
def NSSwapInt (x : Int32) : Int32 := int32OfBytes (int32Bytes x).reverse

/-- The bytes of an `int64_t` in memory. -/
def int64Bytes (x : Int64) : Data := natLE 8 x.toUInt64.toNat

/-- The `int64_t` in eight bytes. -/
def int64OfBytes (bytes : Data) : Int64 := (UInt64.ofNat (leNat bytes)).toInt64

/-- `TGMessageSortKey`. -/
structure TGMessageSortKey where
  key : Data
  length_key : key.length = 8 + 1 + 4 + 4

/-- `TGMessageTransparentSortKey`. -/
structure TGMessageTransparentSortKey where
  key : Data
  length_key : key.length = 8 + 4 + 4 + 1

@[simp] theorem length_int32Bytes (x : Int32) : (int32Bytes x).length = 4 := length_natLE ..

@[simp] theorem length_int64Bytes (x : Int64) : (int64Bytes x).length = 8 := length_natLE ..

namespace TGMessageSortKey

/-- `TGMessageSortKeyMake`. -/
def make (peerId : Int64) (space : UInt8) (timestamp mid : Int32) : TGMessageSortKey where
  key := int64Bytes peerId ++ ([space] ++ (int32Bytes (NSSwapInt timestamp) ++
    int32Bytes (NSSwapInt mid)))
  length_key := by simp

/-- `TGMessageSortKeyLowerBound`. -/
def lowerBound (peerId : Int64) (space : UInt8) : TGMessageSortKey := make peerId space 0 0

/-- `TGMessageSortKeyUpperBound`. -/
def upperBound (peerId : Int64) (space : UInt8) : TGMessageSortKey :=
  make peerId space Int32.maxValue Int32.maxValue

/-- `TGMessageSortKeyCompare`. -/
def compare (lhs rhs : TGMessageSortKey) : Ordering := memcmp lhs.key rhs.key

/-- `TGMessageSortKeyPeerId`. -/
def peerId (k : TGMessageSortKey) : Int64 := int64OfBytes (k.key.take 8)

/-- `TGMessageSortKeySpace`. -/
def space (k : TGMessageSortKey) : UInt8 := k.key.get ⟨8, by rw [k.length_key]; decide⟩

/-- `TGMessageSortKeyTimestamp`. -/
def timestamp (k : TGMessageSortKey) : Int32 :=
  NSSwapInt (int32OfBytes ((k.key.drop (8 + 1)).take 4))

/-- `TGMessageSortKeyMid`. -/
def mid (k : TGMessageSortKey) : Int32 :=
  NSSwapInt (int32OfBytes ((k.key.drop (8 + 1 + 4)).take 4))

end TGMessageSortKey

namespace TGMessageTransparentSortKey

/-- `TGMessageTransparentSortKeyMake`. -/
def make (peerId : Int64) (timestamp mid : Int32) (space : UInt8) :
    TGMessageTransparentSortKey where
  key := int64Bytes peerId ++ (int32Bytes (NSSwapInt timestamp) ++
    (int32Bytes (NSSwapInt mid) ++ [space]))
  length_key := by simp

/-- `TGMessageTransparentSortKeyLowerBound`. -/
def lowerBound (peerId : Int64) : TGMessageTransparentSortKey := make peerId 0 0 0

/-- `TGMessageTransparentSortKeyUpperBound`. -/
def upperBound (peerId : Int64) : TGMessageTransparentSortKey :=
  make peerId Int32.maxValue Int32.maxValue 127

/-- `TGMessageTransparentSortKeyCompare`. -/
def compare (lhs rhs : TGMessageTransparentSortKey) : Ordering := memcmp lhs.key rhs.key

/-- `TGMessageTransparentSortKeyPeerId`. -/
def peerId (k : TGMessageTransparentSortKey) : Int64 := int64OfBytes (k.key.take 8)

/-- `TGMessageTransparentSortKeySpace`. -/
def space (k : TGMessageTransparentSortKey) : UInt8 :=
  k.key.get ⟨8 + 4 + 4, by rw [k.length_key]; decide⟩

/-- `TGMessageTransparentSortKeyTimestamp`. -/
def timestamp (k : TGMessageTransparentSortKey) : Int32 :=
  NSSwapInt (int32OfBytes ((k.key.drop 8).take 4))

/-- `TGMessageTransparentSortKeyMid`. -/
def mid (k : TGMessageTransparentSortKey) : Int32 :=
  NSSwapInt (int32OfBytes ((k.key.drop (8 + 4)).take 4))

end TGMessageTransparentSortKey

example : (TGMessageSortKey.make 5 1 258 7).key =
    [5, 0, 0, 0, 0, 0, 0, 0, 1, 0, 0, 1, 2, 0, 0, 0, 7] := by decide

/-! ## Swapped fields -/

@[simp] theorem int32OfBytes_int32Bytes (x : Int32) : int32OfBytes (int32Bytes x) = x := by
  have h : x.toUInt32.toNat < 256 ^ 4 := x.toUInt32.toNat_lt
  rw [int32OfBytes, int32Bytes, leNat_natLE, Nat.mod_eq_of_lt h]
  simp

@[simp] theorem int64OfBytes_int64Bytes (x : Int64) : int64OfBytes (int64Bytes x) = x := by
  have h : x.toUInt64.toNat < 256 ^ 8 := x.toUInt64.toNat_lt
  rw [int64OfBytes, int64Bytes, leNat_natLE, Nat.mod_eq_of_lt h]
  simp

theorem int32Bytes_int32OfBytes {bytes : Data} (h : bytes.length = 4) :
    int32Bytes (int32OfBytes bytes) = bytes := by
  have hlt : leNat bytes < 2 ^ 32 := by simpa [h] using leNat_lt bytes
  have hbytes := natLE_leNat bytes
  rw [h] at hbytes
  rw [int32Bytes, int32OfBytes, UInt32.toUInt32_toInt32, UInt32.toNat_ofNat',
    Nat.mod_eq_of_lt hlt, hbytes]

/-- In memory a swapped number has its most significant byte first. -/
theorem int32Bytes_swap (x : Int32) :
    int32Bytes (NSSwapInt x) = natBEWidth 4 x.toUInt32.toNat :=
  int32Bytes_int32OfBytes (by simp)

@[simp] theorem swap_swap (x : Int32) : NSSwapInt (NSSwapInt x) = x := by
  rw [NSSwapInt, NSSwapInt, int32Bytes_int32OfBytes (by simp), List.reverse_reverse,
    int32OfBytes_int32Bytes]

/-! ## Comparing buffers -/

@[simp] theorem memcmp_self (xs : Data) : memcmp xs xs = .eq := by
  induction xs with
  | nil => rfl
  | cons x xs ih => simp [memcmp, ih]

theorem memcmp_append {xs ys : Data} (h : xs.length = ys.length) (xs' ys' : Data) :
    memcmp (xs ++ xs') (ys ++ ys') = (memcmp xs ys).then (memcmp xs' ys') := by
  induction xs generalizing ys with
  | nil => simp [memcmp, List.length_eq_zero_iff.1 h.symm]
  | cons x xs ih =>
    cases ys with
    | nil => simp at h
    | cons y ys => simp [memcmp, ih (Nat.succ.inj h), Ordering.then_assoc]

theorem compare_byte (x y : UInt8) : compare x y = compare x.toNat y.toNat := by
  simp only [compare, compareOfLessAndEq, UInt8.lt_iff_toNat_lt, UInt8.toNat_inj]

theorem compare_field {x y : Int32} (hx : 0 ≤ x) (hy : 0 ≤ y) :
    compare x.toUInt32.toNat y.toUInt32.toNat = compare x y := by
  have hcast (z : Int32) (hz : 0 ≤ z) : (z.toNatClampNeg : Int) = z.toInt := by
    rw [← Int32.toNat_toInt]
    exact Int.toNat_of_nonneg (by simpa using Int32.le_iff_toInt_le.1 hz)
  have hlt : x < y ↔ x.toNatClampNeg < y.toNatClampNeg := by
    rw [Int32.lt_iff_toInt_lt, ← hcast x hx, ← hcast y hy, Int.ofNat_lt]
  have heq : x = y ↔ x.toNatClampNeg = y.toNatClampNeg := by
    rw [← Int32.toInt_inj, ← hcast x hx, ← hcast y hy, Int.ofNat_inj]
  simp only [Int32.toNat_toUInt32_of_le, hx, hy, compare, compareOfLessAndEq, hlt, heq]

/-- A higher digit decides before the lower ones. -/
theorem compare_digits {x y r s base : Nat} (hr : r < base) (hs : s < base) :
    compare (x * base + r) (y * base + s) = (compare x y).then (compare r s) := by
  rcases Nat.lt_trichotomy x y with hlt | rfl | hgt
  · have hle := Nat.mul_le_mul_right base hlt
    rw [Nat.succ_mul] at hle
    rw [Nat.compare_eq_lt.2 hlt, Nat.compare_eq_lt.2 (by omega)]
    rfl
  · simp [Nat.compare_eq_ite_lt]
  · have hle := Nat.mul_le_mul_right base hgt
    rw [Nat.succ_mul] at hle
    rw [Nat.compare_eq_gt.2 hgt, Nat.compare_eq_gt.2 (by omega)]
    rfl

/-- Buffers of one length compare as the numbers they hold. -/
theorem memcmp_eq {xs ys : Data} (h : xs.length = ys.length) :
    memcmp xs ys = compare (beNat xs) (beNat ys) := by
  induction xs generalizing ys with
  | nil => simp [memcmp, List.length_eq_zero_iff.1 h.symm]
  | cons x xs ih =>
    cases ys with
    | nil => simp at h
    | cons y ys =>
      have hlength : xs.length = ys.length := Nat.succ.inj h
      have hbyte (z : UInt8) : beNat [z] = z.toNat := by simp [beNat, leNat]
      rw [memcmp, ih hlength, ← List.singleton_append, ← List.singleton_append (l := ys),
        beNat_append, beNat_append, hlength, hbyte, hbyte, compare_byte,
        compare_digits (hlength ▸ beNat_lt xs) (beNat_lt ys)]

/-- What the keys of one peer are made from. -/
structure Place where
  space : UInt8
  timestamp : Int32
  mid : Int32
  space_le : space ≤ 127
  timestamp_nonneg : 0 ≤ timestamp
  mid_nonneg : 0 ≤ mid

def Place.sortKey (a : Place) (peerId : Int64) : TGMessageSortKey :=
  .make peerId a.space a.timestamp a.mid

def Place.transparentSortKey (a : Place) (peerId : Int64) : TGMessageTransparentSortKey :=
  .make peerId a.timestamp a.mid a.space

/-- The order of (timestamp, mid). -/
def Place.compareTime (a b : Place) : Ordering :=
  (compare a.timestamp b.timestamp).then (compare a.mid b.mid)

/-- A stored field compares as the number it holds. -/
theorem memcmp_swapped {x y : Int32} (hx : 0 ≤ x) (hy : 0 ≤ y) :
    memcmp (int32Bytes (NSSwapInt x)) (int32Bytes (NSSwapInt y)) = compare x y := by
  rw [int32Bytes_swap, int32Bytes_swap, memcmp_eq (by simp),
    beNat_natBEWidth x.toUInt32.toNat_lt, beNat_natBEWidth y.toUInt32.toNat_lt, compare_field hx hy]

theorem sortKey_compare (peerId : Int64) (a b : Place) :
    (a.sortKey peerId).compare (b.sortKey peerId) =
      (compare a.space b.space).then (a.compareTime b) := by
  unfold TGMessageSortKey.compare Place.sortKey TGMessageSortKey.make Place.compareTime
  rw [memcmp_append rfl, memcmp_self, @memcmp_append [a.space] [b.space] rfl,
    memcmp_append (by simp), memcmp_swapped a.timestamp_nonneg b.timestamp_nonneg,
    memcmp_swapped a.mid_nonneg b.mid_nonneg]
  simp [memcmp]

theorem transparentSortKey_compare (peerId : Int64) (a b : Place) :
    (a.transparentSortKey peerId).compare (b.transparentSortKey peerId) =
      (a.compareTime b).then (compare a.space b.space) := by
  unfold TGMessageTransparentSortKey.compare Place.transparentSortKey
    TGMessageTransparentSortKey.make Place.compareTime
  rw [memcmp_append rfl, memcmp_append (by simp), memcmp_append (by simp), memcmp_self,
    memcmp_swapped a.timestamp_nonneg b.timestamp_nonneg, memcmp_swapped a.mid_nonneg b.mid_nonneg]
  simp [memcmp, Ordering.then_assoc]

theorem sortKey_accessors (peerId : Int64) (space : UInt8) (timestamp mid : Int32) :
    (TGMessageSortKey.make peerId space timestamp mid).peerId = peerId ∧
      (TGMessageSortKey.make peerId space timestamp mid).space = space ∧
      (TGMessageSortKey.make peerId space timestamp mid).timestamp = timestamp ∧
      (TGMessageSortKey.make peerId space timestamp mid).mid = mid := by
  simp [TGMessageSortKey.make, TGMessageSortKey.peerId, TGMessageSortKey.space,
    TGMessageSortKey.timestamp, TGMessageSortKey.mid, List.drop_append, List.drop_of_length_le,
    List.take_of_length_le]

theorem transparentSortKey_accessors (peerId : Int64) (timestamp mid : Int32) (space : UInt8) :
    (TGMessageTransparentSortKey.make peerId timestamp mid space).peerId = peerId ∧
      (TGMessageTransparentSortKey.make peerId timestamp mid space).space = space ∧
      (TGMessageTransparentSortKey.make peerId timestamp mid space).timestamp = timestamp ∧
      (TGMessageTransparentSortKey.make peerId timestamp mid space).mid = mid := by
  simp [TGMessageTransparentSortKey.make, TGMessageTransparentSortKey.peerId,
    TGMessageTransparentSortKey.space, TGMessageTransparentSortKey.timestamp,
    TGMessageTransparentSortKey.mid, List.drop_append, List.drop_of_length_le]

theorem isLE_then {x y : Ordering} (hx : x.isLE) (hy : y.isLE) : (x.then y).isLE := by
  cases x <;> simp_all

theorem Place.compareTime_isLE {a b : Place} (htimestamp : a.timestamp ≤ b.timestamp)
    (hmid : a.mid ≤ b.mid) : (a.compareTime b).isLE :=
  isLE_then (Std.isLE_compare.2 htimestamp) (Std.isLE_compare.2 hmid)

/-- The least place of a space. -/
def Place.first (space : UInt8) (h : space ≤ 127) : Place :=
  ⟨space, 0, 0, h, Int32.le_refl _, Int32.le_refl _⟩

/-- The greatest place of a space. -/
def Place.last (space : UInt8) (h : space ≤ 127) : Place :=
  ⟨space, Int32.maxValue, Int32.maxValue, h, by decide, by decide⟩

/-- The keys of a peer are ordered by their fields, hold them, and lie between
the bounds. -/
theorem keys_order (peerId : Int64) :
    (∀ a b : Place, (a.sortKey peerId).compare (b.sortKey peerId) =
      (compare a.space b.space).then
        ((compare a.timestamp b.timestamp).then (compare a.mid b.mid))) ∧
    (∀ a b : Place, (a.transparentSortKey peerId).compare (b.transparentSortKey peerId) =
      ((compare a.timestamp b.timestamp).then (compare a.mid b.mid)).then
        (compare a.space b.space)) ∧
    (∀ (space : UInt8) (timestamp mid : Int32),
      let k := TGMessageSortKey.make peerId space timestamp mid
      let k' := TGMessageTransparentSortKey.make peerId timestamp mid space
      (k.peerId = peerId ∧ k.space = space ∧ k.timestamp = timestamp ∧ k.mid = mid) ∧
        (k'.peerId = peerId ∧ k'.space = space ∧ k'.timestamp = timestamp ∧ k'.mid = mid)) ∧
    (∀ a : Place,
      ((TGMessageSortKey.lowerBound peerId a.space).compare (a.sortKey peerId)).isLE ∧
        ((a.sortKey peerId).compare (TGMessageSortKey.upperBound peerId a.space)).isLE) ∧
    ∀ a : Place,
      ((TGMessageTransparentSortKey.lowerBound peerId).compare (a.transparentSortKey peerId)).isLE ∧
        ((a.transparentSortKey peerId).compare
          (TGMessageTransparentSortKey.upperBound peerId)).isLE := by
  have hmax (x : Int32) : x ≤ Int32.maxValue := Int32.le_iff_toInt_le.2 (Int32.toInt_le x)
  refine ⟨sortKey_compare peerId, transparentSortKey_compare peerId, fun space timestamp mid =>
    ⟨sortKey_accessors .., transparentSortKey_accessors ..⟩, fun a => ⟨?_, ?_⟩, fun a => ⟨?_, ?_⟩⟩
  · have h := sortKey_compare peerId (.first a.space a.space_le) a
    exact h ▸ isLE_then (Std.isLE_compare.2 (UInt8.le_refl _))
      (Place.compareTime_isLE a.timestamp_nonneg a.mid_nonneg)
  · have h := sortKey_compare peerId a (.last a.space a.space_le)
    exact h ▸ isLE_then (Std.isLE_compare.2 (UInt8.le_refl _))
      (Place.compareTime_isLE (hmax _) (hmax _))
  · have h := transparentSortKey_compare peerId (.first 0 (by decide)) a
    exact h ▸ isLE_then (Place.compareTime_isLE a.timestamp_nonneg a.mid_nonneg)
      (Std.isLE_compare.2 (UInt8.zero_le))
  · have h := transparentSortKey_compare peerId a (.last 127 (by decide))
    exact h ▸ isLE_then (Place.compareTime_isLE (hmax _) (hmax _)) (Std.isLE_compare.2 a.space_le)

/-! ## What lies between the bounds -/

/-- What two bounds begin with, a key between them begins with. -/
theorem eq_of_between {xs k lower upper : Data} (hle : xs.length ≤ k.length)
    (hlow : (memcmp (xs ++ lower) k).isLE) (hhigh : (memcmp k (xs ++ upper)).isLE) :
    k.take xs.length = xs := by
  have hlength : xs.length = (k.take xs.length).length := by simp [hle]
  rw [← List.take_append_drop xs.length k, memcmp_append hlength, memcmp_eq hlength] at hlow
  rw [← List.take_append_drop xs.length k, memcmp_append hlength.symm,
    memcmp_eq hlength.symm] at hhigh
  rcases Nat.lt_trichotomy (beNat xs) (beNat (k.take xs.length)) with hlt | heq | hgt
  · simp [Nat.compare_eq_gt.2 hlt] at hhigh
  · rw [← natBEWidth_beNat (k.take xs.length), ← heq, ← hlength, natBEWidth_beNat]
  · simp [Nat.compare_eq_gt.2 hgt] at hlow

/-- Between the bounds of a space there are only keys of this peer and space, and between
those of a peer only keys of this peer, whatever their other bytes are. -/
theorem bounds_separate (peerId : Int64) (space : UInt8) :
    (∀ k, ((TGMessageSortKey.lowerBound peerId space).compare k).isLE →
      (k.compare (.upperBound peerId space)).isLE → k.peerId = peerId ∧ k.space = space) ∧
    ∀ k, ((TGMessageTransparentSortKey.lowerBound peerId).compare k).isLE →
      (k.compare (.upperBound peerId)).isLE → k.peerId = peerId := by
  constructor
  · rintro ⟨key, hlength⟩ hlow hhigh
    simp only [TGMessageSortKey.compare, TGMessageSortKey.lowerBound, TGMessageSortKey.upperBound,
      TGMessageSortKey.make, ← List.append_assoc _ [space]] at hlow hhigh
    have htake := eq_of_between (by simp [hlength]) hlow hhigh
    have hpeer : key.take 8 = int64Bytes peerId := by
      simpa [List.take_take] using congrArg (List.take 8) htake
    have hspace : key[8]? = some space := by
      have hbyte := congrArg (·[8]?) htake
      rw [List.getElem?_take_of_lt (by simp)] at hbyte
      simpa [List.getElem?_append] using hbyte
    exact ⟨by simp [TGMessageSortKey.peerId, hpeer], (List.getElem?_eq_some_iff.1 hspace).2⟩
  · rintro ⟨key, hlength⟩ hlow hhigh
    have htake := eq_of_between (by simp [hlength]) hlow hhigh
    rw [length_int64Bytes] at htake
    simp [TGMessageTransparentSortKey.peerId, htake]

end TelegramPub.Ports.MessageSortKeys
