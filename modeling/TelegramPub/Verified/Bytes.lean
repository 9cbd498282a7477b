import Mathlib.Data.List.Basic
import Mathlib.Data.Int.ModEq
import Mathlib.Tactic.Ring

/-!
# Byte strings and machine integers

Byte strings are lists of `UInt8`.  The C side of the ported code copies
little-endian machine integers in and out of byte strings and converts freely
between integer widths; this module states both once.

* `natLE` / `leNat` are the little-endian encodings of a fixed width, and
  `beNat` / `natBE` the big-endian ones that the big-number routines use
  (`natBE` is minimal: no leading zero byte, the empty string for zero).
* `int32` and `int64` are the conversions to a signed width: the value
  reduced to the representative in `[-2^(w-1), 2^(w-1))`.
-/

namespace TelegramPub.Verified.Bytes

/-- A byte string (`NSData` on the source side). -/
abbrev Data := List UInt8

/-! ## Little-endian encodings -/

/-- The number a little-endian byte string denotes. -/
def leNat : Data → Nat
  | [] => 0
  | b :: bs => b.toNat + 256 * leNat bs

/-- The low `k` bytes of `n`, least significant first. -/
def natLE : Nat → Nat → Data
  | 0, _ => []
  | k + 1, n => UInt8.ofNat (n % 256) :: natLE k (n / 256)

@[simp] theorem length_natLE (k n : Nat) : (natLE k n).length = k := by
  induction k generalizing n with
  | zero => rfl
  | succ k ih => simp [natLE, ih]

theorem leNat_lt (bs : Data) : leNat bs < 256 ^ bs.length := by
  induction bs with
  | nil => simp [leNat]
  | cons b bs ih =>
    have hb : b.toNat < 256 := b.toNat_lt
    simp only [leNat, List.length_cons, Nat.pow_succ]
    omega

theorem leNat_natLE (k n : Nat) : leNat (natLE k n) = n % 256 ^ k := by
  induction k generalizing n with
  | zero => simp [natLE, leNat, Nat.mod_one]
  | succ k ih =>
    have hbyte : (UInt8.ofNat (n % 256)).toNat = n % 256 := by
      simp
    rw [natLE, leNat, ih, hbyte, Nat.pow_succ', Nat.mod_mul]

theorem natLE_leNat (bs : Data) : natLE bs.length (leNat bs) = bs := by
  induction bs with
  | nil => rfl
  | cons b bs ih =>
    have hb : b.toNat < 256 := b.toNat_lt
    have hmod : leNat (b :: bs) % 256 = b.toNat := by
      simp only [leNat]; omega
    have hdiv : leNat (b :: bs) / 256 = leNat bs := by
      simp only [leNat]; omega
    rw [List.length_cons, natLE, hmod, hdiv, ih]
    simp

/-! ## Big-endian encodings -/

/-- The number a big-endian byte string denotes. -/
def beNat (bs : Data) : Nat := leNat bs.reverse

/-- Number of bytes in the minimal encoding of `n`. -/
def byteCount (n : Nat) : Nat := (Nat.log2 n) / 8 + (if n = 0 then 0 else 1)

/-- The minimal big-endian encoding of `n`; zero is the empty string. -/
def natBE (n : Nat) : Data := (natLE (byteCount n) n).reverse

theorem lt_pow_byteCount (n : Nat) : n < 256 ^ byteCount n := by
  by_cases hn : n = 0
  · simp [hn, byteCount]
  · have hlog : n < 2 ^ (Nat.log2 n + 1) := Nat.lt_log2_self
    have hexp : Nat.log2 n + 1 ≤ 8 * (Nat.log2 n / 8 + 1) := by omega
    calc
      n < 2 ^ (Nat.log2 n + 1) := hlog
      _ ≤ 2 ^ (8 * (Nat.log2 n / 8 + 1)) := Nat.pow_le_pow_right (by decide) hexp
      _ = 256 ^ byteCount n := by
        rw [Nat.pow_mul]
        simp [byteCount, hn]

/-- Reading the minimal encoding back gives the number. -/
theorem beNat_natBE (n : Nat) : beNat (natBE n) = n := by
  simp only [beNat, natBE, List.reverse_reverse, leNat_natLE]
  exact Nat.mod_eq_of_lt (lt_pow_byteCount n)

/-! ## Signed machine integers -/

/-- Conversion to a signed 32-bit integer. -/
def int32 (n : Int) : Int := n.bmod (2 ^ 32)

/-- Conversion to a signed 64-bit integer. -/
def int64 (n : Int) : Int := n.bmod (2 ^ 64)

theorem int32_of_range {n : Int} (hlo : -(2 ^ 31) ≤ n) (hhi : n < 2 ^ 31) :
    int32 n = n :=
  Int.bmod_eq_of_le_mul_two (by norm_num; omega) (by norm_num; omega)

/-- The conversion to 32 bits in terms of the remainder. -/
theorem int32_eq_ite (n : Int) :
    int32 n = if n % 2 ^ 32 < 2 ^ 31 then n % 2 ^ 32 else n % 2 ^ 32 - 2 ^ 32 := by
  unfold int32
  rw [Int.bmod_def]
  rfl

/-- The bytes `appendInt32` and `writeInt32` put into a buffer. -/
def int32Bytes (v : Int) : Data := natLE 4 (v % 2 ^ 32).toNat

/-- The bytes `appendInt64` and `writeInt64` put into a buffer. -/
def int64Bytes (v : Int) : Data := natLE 8 (v % 2 ^ 64).toNat

/-- The `int32_t` whose memory holds these four bytes. -/
def int32OfBytes (bs : Data) : Int := int32 (leNat bs)

/-- The `int64_t` whose memory holds these eight bytes. -/
def int64OfBytes (bs : Data) : Int := int64 (leNat bs)

@[simp] theorem length_int32Bytes (v : Int) : (int32Bytes v).length = 4 :=
  length_natLE _ _

@[simp] theorem length_int64Bytes (v : Int) : (int64Bytes v).length = 8 :=
  length_natLE _ _

theorem int32OfBytes_int32Bytes (v : Int) :
    int32OfBytes (int32Bytes v) = int32 v := by
  have hnonneg : 0 ≤ v % 2 ^ 32 := Int.emod_nonneg _ (by decide)
  have hlt : v % 2 ^ 32 < 2 ^ 32 := Int.emod_lt_of_pos _ (by decide)
  have hval : (v % 2 ^ 32).toNat % 256 ^ 4 = (v % 2 ^ 32).toNat :=
    Nat.mod_eq_of_lt (by norm_num; omega)
  rw [int32OfBytes, int32Bytes, leNat_natLE, hval, Int.toNat_of_nonneg hnonneg]
  exact Int.emod_bmod v (2 ^ 32)

theorem int64OfBytes_int64Bytes (v : Int) :
    int64OfBytes (int64Bytes v) = int64 v := by
  have hnonneg : 0 ≤ v % 2 ^ 64 := Int.emod_nonneg _ (by decide)
  have hlt : v % 2 ^ 64 < 2 ^ 64 := Int.emod_lt_of_pos _ (by decide)
  have hval : (v % 2 ^ 64).toNat % 256 ^ 8 = (v % 2 ^ 64).toNat :=
    Nat.mod_eq_of_lt (by norm_num; omega)
  rw [int64OfBytes, int64Bytes, leNat_natLE, hval, Int.toNat_of_nonneg hnonneg]
  exact Int.emod_bmod v (2 ^ 64)

end TelegramPub.Verified.Bytes
