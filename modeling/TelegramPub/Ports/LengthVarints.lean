import Mathlib.Data.Nat.Bitwise
import TelegramPub.Ports.KeyValueRoundTrip

/-!
# The lengths of PSKeyValueEncoder and PSKeyValueDecoder

`writeLength` and `readLength` as they stand: `uint32_t` values, four tests in a
row on the one side and four nested ones on the other.  They compute what the
recursive ones of the record format do, and the lengths are a prefix code.
-/

namespace TelegramPub.Ports.LengthVarints

open Verified.Bytes Verified.Memory

/-- One `if (value > 127)` of `writeLength`, on the bytes so far and `value`. -/
def group (written : Data × UInt32) : Data × UInt32 :=
  if 127 < written.2 then
    (written.1 ++ [(written.2 &&& 127).toUInt8 ||| 128], written.2 >>> 7)
  else written

/-- The byte behind the tests. -/
def finish (written : Data × UInt32) : Data := written.1 ++ [(written.2 &&& 127).toUInt8]

/-- `writeLength`. -/
def writeLength (value : UInt32) : Data := finish (group (group (group (group ([], value)))))

/-- `readLength`, with the address of `*currentPtr` in the buffer. -/
def readLength (mem : Data) (currentPtr : Nat) : Option (UInt32 × Nat) := do
  let mut currentPtr := currentPtr
  let mut result : UInt32 := 0
  let b ← mem[currentPtr]?
  result := result ||| (b &&& 127).toUInt32
  if b &&& 128 ≠ 0 then
    currentPtr := currentPtr + 1
    let b ← mem[currentPtr]?
    result := result ||| (b &&& 127).toUInt32 <<< 7
    if b &&& 128 ≠ 0 then
      currentPtr := currentPtr + 1
      let b ← mem[currentPtr]?
      result := result ||| (b &&& 127).toUInt32 <<< 14
      if b &&& 128 ≠ 0 then
        currentPtr := currentPtr + 1
        let b ← mem[currentPtr]?
        result := result ||| (b &&& 127).toUInt32 <<< 21
        if b &&& 128 ≠ 0 then
          currentPtr := currentPtr + 1
          let b ← mem[currentPtr]?
          result := result ||| (b &&& 127).toUInt32 <<< 28
  currentPtr := currentPtr + 1
  return (result, currentPtr)

example : writeLength 300 = [172, 2] := by decide
example : readLength [172, 2, 7] 0 = some (300, 2) := by decide

/-! ## Seven bits of a byte -/

theorem low_bits (b : UInt8) : (b &&& 127).toNat = b.toNat % 128 := by
  rw [UInt8.toNat_and]
  exact Nat.and_two_pow_sub_one_eq_mod _ 7

theorem high_bit (b : UInt8) : b &&& 128 ≠ 0 ↔ 128 ≤ b.toNat := by
  have hand : (b &&& 128).toNat = (b.toNat.testBit 7).toNat * 2 ^ 7 := by
    rw [UInt8.toNat_and]
    exact Nat.and_two_pow _ 7
  have hb : b.toNat < 256 := b.toNat_lt
  rw [ne_eq, ← UInt8.toNat_inj, hand, Nat.testBit_eq_decide_div_mod_eq]
  simp
  omega

theorem low_byte (v : UInt32) : v.toUInt8 &&& 127 = UInt8.ofNat (v.toNat % 128) := by
  apply UInt8.toNat_inj.1
  rw [low_bits, UInt32.toNat_toUInt8, UInt8.toNat_ofNat']
  omega

theorem continued_byte (v : UInt32) :
    v.toUInt8 &&& 127 ||| 128 = UInt8.ofNat (v.toNat % 128 + 128) := by
  have hlow : v.toNat % 128 < 2 ^ 7 := Nat.mod_lt _ (by decide)
  have hor := Nat.two_pow_add_eq_or_of_lt hlow 1
  apply UInt8.toNat_inj.1
  rw [UInt8.toNat_or, low_byte, UInt8.toNat_ofNat', UInt8.toNat_ofNat',
    Nat.mod_eq_of_lt (by omega), Nat.or_comm]
  exact hor.symm.trans (by omega)

/-- Induction on the tests that are left: they write the varint of the value. -/
theorem finish_iterate (k : Nat) (written : Data × UInt32) :
    finish (group^[k] written) = written.1 ++ varint k written.2.toNat := by
  induction k generalizing written with
  | zero => simp [finish, varint, low_byte]
  | succ k ih =>
    have hshift : (written.2 >>> 7).toNat = written.2.toNat / 128 := by
      simp [Nat.shiftRight_eq_div_pow]
    rw [Function.iterate_succ_apply, ih, varint]
    by_cases hbig : 127 < written.2
    · have hbig' : 127 < written.2.toNat := UInt32.lt_iff_toNat_lt.1 hbig
      simp only [group, if_pos hbig, if_pos hbig', hshift, UInt32.toUInt8_and]
      simp [continued_byte]
    · have hbig' : ¬ 127 < written.2.toNat := fun h => hbig (UInt32.lt_iff_toNat_lt.2 h)
      have hlast : varint k written.2.toNat = [UInt8.ofNat (written.2.toNat % 128)] := by
        cases k <;> simp [varint, hbig']
      simp [group, hbig, hbig', hlast]

/-- The four tests write what the recursive writer does. -/
theorem writeLength_eq (value : UInt32) :
    writeLength value = KeyValueCoder.writeLength value.toNat := by
  have h := finish_iterate 4 ([], value)
  rwa [List.nil_append, ← Nat.mod_eq_of_lt (UInt32.toNat_lt value)] at h

/-- What is nested inside `k` more tests, with the groups of `shift` bits read. -/
def readGroups (mem : Data) : Nat → Nat → UInt32 → Nat → Option (UInt32 × Nat)
  | 0, shift, result, p => do
      let b ← mem[p]?
      return (result ||| (b &&& 127).toUInt32 <<< UInt32.ofNat shift, p + 1)
  | k + 1, shift, result, p => do
      let b ← mem[p]?
      let result := result ||| (b &&& 127).toUInt32 <<< UInt32.ofNat shift
      if b &&& 128 ≠ 0 then readGroups mem k (shift + 7) result (p + 1)
      else return (result, p + 1)

theorem readLength_eq_readGroups (mem : Data) (p : Nat) :
    readLength mem p = readGroups mem 4 0 0 p := by
  simp [readLength, readGroups]

/-- Seven more bits above the ones that are there; the fifth group loses its top. -/
theorem or_group {low : UInt32} {b : UInt8} {k : Nat} (hk : k < 32) (hlow : low.toNat < 2 ^ k) :
    (low ||| (b &&& 127).toUInt32 <<< UInt32.ofNat k).toNat =
      (low.toNat + 2 ^ k * (b.toNat % 128)) % 2 ^ 32 := by
  have hshift : (UInt32.ofNat k).toNat % 32 = k := by
    rw [UInt32.toNat_ofNat']
    omega
  have hmod : low.toNat = low.toNat % 2 ^ 32 := (Nat.mod_eq_of_lt (UInt32.toNat_lt low)).symm
  rw [UInt32.toNat_or, UInt32.toNat_shiftLeft, hshift, UInt8.toNat_toUInt32, low_bits,
    Nat.shiftLeft_eq, hmod, ← Nat.or_mod_two_pow, ← hmod, Nat.or_comm, Nat.mul_comm,
    ← Nat.two_pow_add_eq_or_of_lt hlow, Nat.add_comm]

/-- Induction on the tests that are left: the groups above the ones that were read. -/
theorem readGroups_eq (mem : Data) (k shift : Nat) (result : UInt32) (p : Nat)
    (hshift : shift + 7 * k ≤ 28) (hlow : result.toNat < 2 ^ shift) :
    (readGroups mem k shift result p).map (fun read => (read.1.toNat, read.2)) =
      (loadVarint mem k p).map
        (fun read => ((result.toNat + 2 ^ shift * read.1) % 2 ^ 32, read.2)) := by
  induction k generalizing shift result p with
  | zero =>
    cases hb : mem[p]? with
    | none => simp [readGroups, loadVarint, hb]
    | some b =>
      simp only [readGroups, loadVarint, hb, Option.bind_eq_bind, Option.bind_some,
        Option.pure_def, Option.map_some, or_group (by omega) hlow]
  | succ k ih =>
    cases hb : mem[p]? with
    | none => simp [readGroups, loadVarint, hb]
    | some b =>
      have hvalue := or_group (b := b) (by omega) hlow
      have hpow : 2 ^ (shift + 7) = 2 ^ shift * 128 := Nat.pow_add 2 shift 7
      have hgroup : result.toNat + 2 ^ shift * (b.toNat % 128) < 2 ^ (shift + 7) := by
        have hlow7 : b.toNat % 128 + 1 ≤ 128 := Nat.mod_lt _ (by decide)
        have hmul := Nat.mul_le_mul_left (2 ^ shift) hlow7
        rw [Nat.mul_add] at hmul
        omega
      have hfits : 2 ^ (shift + 7) ≤ 2 ^ 32 := Nat.pow_le_pow_right (by decide) (by omega)
      rw [Nat.mod_eq_of_lt (hgroup.trans_le hfits)] at hvalue
      simp only [readGroups, loadVarint, hb, Option.bind_eq_bind, Option.bind_some, high_bit]
      by_cases hlast : 128 ≤ b.toNat
      · rw [if_pos hlast, if_pos hlast, ih _ _ _ (by omega) (hvalue ▸ hgroup), hvalue, hpow]
        cases loadVarint mem k (p + 1) <;> simp [Nat.mul_add, Nat.mul_assoc, Nat.add_assoc]
      · grind

/-- The four nested tests read what the recursive reader does, from any bytes. -/
theorem readLength_eq (mem : Data) (p : Nat) :
    (readLength mem p).map (fun read => (read.1.toNat, read.2)) =
      KeyValueCoder.readLength mem p := by
  rw [readLength_eq_readGroups, readGroups_eq mem 4 0 0 p (by decide) (by decide)]
  cases h : loadVarint mem 4 p <;> simp [KeyValueCoder.readLength, h]

theorem readLength_of_holds {mem : Data} {p : Nat} {n : UInt32} (h : Holds mem p (writeLength n)) :
    readLength mem p = some (n, p + (writeLength n).length) := by
  have hread := readLength_eq mem p
  rw [writeLength_eq] at h ⊢
  rw [KeyValueRoundTrip.readLength_of_holds (UInt32.toNat_lt n) h] at hread
  cases hlength : readLength mem p with
  | none => simp [hlength] at hread
  | some read => simpa [hlength, UInt32.toNat_inj, Prod.ext_iff] using hread

/-- A length that begins another one is read from it. -/
theorem writeLength_inj {n m : UInt32} (h : writeLength n <+: writeLength m) : n = m := by
  have hn : readLength (writeLength m) 0 = _ := readLength_of_holds h
  have hm : readLength (writeLength m) 0 = _ := readLength_of_holds (holds_self _)
  simpa using congrArg (Option.map Prod.fst) (hn.symm.trans hm)

/-- Every length is read back from its bytes, wherever they stand and whatever
follows, up to their end; no length begins another. -/
theorem length_codes :
    (∀ (n : UInt32) (before s : Data),
      readLength (before ++ writeLength n ++ s) before.length =
        some (n, (before ++ writeLength n).length)) ∧
      ∀ n m : UInt32, n ≠ m → writeLength n ≠ writeLength m ∧ ¬ writeLength n <+: writeLength m := by
  constructor
  · intro n before s
    have hholds : Holds (before ++ writeLength n ++ s) before.length (writeLength n) :=
      ⟨s, by simp⟩
    rw [readLength_of_holds hholds, List.length_append]
  · intro n m hne
    exact ⟨fun heq => hne (writeLength_inj ⟨[], (List.append_nil _).trans heq⟩),
      fun h => hne (writeLength_inj h)⟩

/-- The largest length and one of two bytes. -/
theorem length_codes_largest :
    readLength ([7] ++ writeLength 0xffffffff ++ [1, 2]) 1 = some (0xffffffff, 6) ∧
      writeLength 300 ≠ writeLength 44 ∧ ¬ writeLength 44 <+: writeLength 300 :=
  ⟨length_codes.1 0xffffffff [7] [1, 2], (length_codes.2 300 44 (by decide)).1,
    (length_codes.2 44 300 (by decide)).2⟩

end TelegramPub.Ports.LengthVarints
