import TelegramPub.Verified.Bytes

/-!
# Big-endian encodings of a fixed width

`natBEWidth` is the encoding of a number in a fixed number of bytes, and `natBE` the one without
leading zero bytes.  The first is the second behind zero bytes (`zeros_append_natBE`), so the two
are the same if and only if the number needs all the bytes (`natBE_eq_natBEWidth_iff`).
-/

namespace TelegramPub.Verified.Bytes

/-- The low `k` bytes of `n`, most significant first. -/
def natBEWidth (k n : Nat) : Data := (natLE k n).reverse

@[simp] theorem length_natBEWidth (k n : Nat) : (natBEWidth k n).length = k := by
  rw [natBEWidth, List.length_reverse, length_natLE]

theorem beNat_lt (bs : Data) : beNat bs < 256 ^ bs.length := by
  have h := leNat_lt bs.reverse
  rwa [List.length_reverse] at h

theorem beNat_natBEWidth {k n : Nat} (h : n < 256 ^ k) : beNat (natBEWidth k n) = n := by
  rw [beNat, natBEWidth, List.reverse_reverse, leNat_natLE, Nat.mod_eq_of_lt h]

theorem natBEWidth_beNat (bs : Data) : natBEWidth bs.length (beNat bs) = bs := by
  have h := natLE_leNat bs.reverse
  rw [List.length_reverse] at h
  rw [natBEWidth, beNat, h, List.reverse_reverse]

theorem leNat_append (xs ys : Data) :
    leNat (xs ++ ys) = leNat xs + 256 ^ xs.length * leNat ys := by
  induction xs with
  | nil => simp [leNat]
  | cons x xs ih =>
    simp only [List.cons_append, leNat, ih, List.length_cons]
    ring

/-- What stands in front counts for more. -/
theorem beNat_append (xs ys : Data) :
    beNat (xs ++ ys) = beNat xs * 256 ^ ys.length + beNat ys := by
  simp only [beNat, List.reverse_append, leNat_append, List.length_reverse]
  ring

theorem leNat_eq_zero_iff (bs : Data) : leNat bs = 0 ↔ ∀ b ∈ bs, b = 0 := by
  induction bs with
  | nil => simp [leNat]
  | cons b bs ih =>
    have hb : b.toNat = 0 ↔ b = 0 := by
      rw [← UInt8.toNat_inj]
      rfl
    rw [leNat, List.forall_mem_cons, ← ih, ← hb]
    omega

theorem beNat_eq_zero_iff (bs : Data) : beNat bs = 0 ↔ ∀ b ∈ bs, b = 0 := by
  simp only [beNat, leNat_eq_zero_iff, List.mem_reverse]

@[simp] theorem length_natBE (n : Nat) : (natBE n).length = byteCount n := by
  rw [natBE, List.length_reverse, length_natLE]

/-- The first byte of the minimal encoding is not zero. -/
theorem pow_byteCount_le {n : Nat} (hn : n ≠ 0) : 256 ^ (byteCount n - 1) ≤ n := by
  have hcount : byteCount n - 1 = Nat.log2 n / 8 := by
    rw [byteCount, if_neg hn]
    omega
  calc
    256 ^ (byteCount n - 1) = 2 ^ (8 * (Nat.log2 n / 8)) := by
      rw [hcount, Nat.pow_mul]
    _ ≤ 2 ^ Nat.log2 n := Nat.pow_le_pow_right (by decide) (Nat.mul_div_le _ _)
    _ ≤ n := Nat.log2_self_le hn

theorem byteCount_le_iff (n k : Nat) : byteCount n ≤ k ↔ n < 256 ^ k := by
  constructor
  · intro h
    exact lt_of_lt_of_le (lt_pow_byteCount n) (Nat.pow_le_pow_right (by decide) h)
  · intro h
    by_cases hn : n = 0
    · rw [hn]
      exact Nat.zero_le k
    · by_contra hmore
      have hpow : 256 ^ k ≤ 256 ^ (byteCount n - 1) := Nat.pow_le_pow_right (by decide) (by omega)
      have := pow_byteCount_le hn
      omega

theorem zeros_append_natBE {k n : Nat} (h : n < 256 ^ k) :
    List.replicate (k - byteCount n) 0 ++ natBE n = natBEWidth k n := by
  have hcount := (byteCount_le_iff n k).2 h
  have hvalue : beNat (List.replicate (k - byteCount n) 0 ++ natBE n) = n := by
    have hzeros : beNat (List.replicate (k - byteCount n) 0) = 0 :=
      (beNat_eq_zero_iff _).2 fun b hb => List.eq_of_mem_replicate hb
    rw [beNat_append, hzeros, beNat_natBE, Nat.zero_mul, Nat.zero_add]
  have hlength : (List.replicate (k - byteCount n) (0 : UInt8) ++ natBE n).length = k := by
    rw [List.length_append, List.length_replicate, length_natBE]
    omega
  have hencoding := natBEWidth_beNat (List.replicate (k - byteCount n) (0 : UInt8) ++ natBE n)
  rw [hlength, hvalue] at hencoding
  exact hencoding.symm

/-- The minimal encoding has the width if and only if the number needs it. -/
theorem natBE_eq_natBEWidth_iff {k n : Nat} (h : n < 256 ^ (k + 1)) :
    natBE n = natBEWidth (k + 1) n ↔ 256 ^ k ≤ n := by
  have hle := (byteCount_le_iff n (k + 1)).2 h
  have hlow := byteCount_le_iff n k
  rw [← zeros_append_natBE h]
  constructor
  · intro heq
    have hlength := congrArg List.length heq
    rw [List.length_append, List.length_replicate, length_natBE] at hlength
    by_contra hlt
    have := hlow.2 (not_le.1 hlt)
    omega
  · intro hpow
    have hcount : k + 1 - byteCount n = 0 := by
      by_contra hne
      have := hlow.1 (by omega)
      omega
    rw [hcount]
    rfl

end TelegramPub.Verified.Bytes
