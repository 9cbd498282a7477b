import TelegramPub.Verified.Bytes

/-!
# Reading a byte buffer through a pointer

Code that walks a buffer with a moving pointer is ported here with the buffer
as a byte string and the pointer as an offset.  A pointer may point anywhere;
a load outside the buffer has no value.

`Holds mem p xs` says that the bytes `xs` stand at `p`.  It splits along
concatenation (`holds_append`), so that a reader can be followed along the
text a writer has produced, whatever stands before and behind it.

The second part is the base-128 encoding of numbers with a bounded number of
bytes: seven bits a byte, lowest first, the high bit set on every byte but the
last one.
-/

namespace TelegramPub.Verified.Memory

open Verified.Bytes

/-- The bytes `xs` stand in the buffer from the offset `p` on. -/
def Holds (mem : Data) (p : Nat) (xs : Data) : Prop := xs <+: mem.drop p

/-- The `n` bytes at `p`, if they are all inside the buffer. -/
def load (mem : Data) (p n : Nat) : Option Data :=
  if p + n ≤ mem.length then some ((mem.drop p).take n) else none

/-- The little-endian number in the `n` bytes at `p`. -/
def loadLE (mem : Data) (p n : Nat) : Option Nat := (load mem p n).map leNat

/-- The buffer with the bytes at `p` replaced, if they are all inside. -/
def store (mem : Data) (p : Nat) (bytes : Data) : Option Data :=
  if p + bytes.length ≤ mem.length then
    some (mem.take p ++ bytes ++ mem.drop (p + bytes.length))
  else none

variable {mem xs : Data} {p : Nat}

theorem load_of_le {n : Nat} (h : p + n ≤ mem.length) :
    load mem p n = some ((mem.drop p).take n) := if_pos h

theorem store_of_le {bytes : Data} (h : p + bytes.length ≤ mem.length) :
    store mem p bytes = some (mem.take p ++ bytes ++ mem.drop (p + bytes.length)) := if_pos h

theorem holds_append {ys : Data} :
    Holds mem p (xs ++ ys) ↔ Holds mem p xs ∧ Holds mem (p + xs.length) ys := by
  unfold Holds
  constructor
  · rintro ⟨rest, hrest⟩
    refine ⟨⟨ys ++ rest, by rw [← hrest, List.append_assoc]⟩, ⟨rest, ?_⟩⟩
    rw [← List.drop_drop, ← hrest, List.append_assoc, List.drop_left]
  · rintro ⟨⟨rest, hrest⟩, ⟨rest', hrest'⟩⟩
    rw [← List.drop_drop, ← hrest, List.drop_left] at hrest'
    exact ⟨rest', by rw [List.append_assoc, hrest', hrest]⟩

theorem holds_self (xs : Data) : Holds xs 0 xs := List.prefix_rfl

theorem holds_length (h : Holds mem p xs) (hne : xs ≠ []) :
    p + xs.length ≤ mem.length := by
  have hle := h.length_le
  have hpos := List.length_pos_iff.2 hne
  rw [List.length_drop] at hle
  omega

theorem load_of_holds (h : Holds mem p xs) (hp : p + xs.length ≤ mem.length)
    : load mem p xs.length = some xs := by
  unfold load
  obtain ⟨rest, hrest⟩ := h
  rw [if_pos hp, ← hrest, List.take_left]

theorem load_of_holds_ne (h : Holds mem p xs) (hne : xs ≠ []) :
    load mem p xs.length = some xs :=
  load_of_holds h (holds_length h hne)

theorem getElem?_of_holds {b : UInt8} (h : Holds mem p (b :: xs)) :
    mem[p]? = some b := by
  obtain ⟨rest, hrest⟩ := h
  have hhead : (mem.drop p)[0]? = some b := by rw [← hrest]; rfl
  rwa [List.getElem?_drop, Nat.add_zero] at hhead

/-- A number is read back from the bytes it was written to. -/
theorem loadLE_of_holds {k n : Nat} (h : Holds mem p (natLE (k + 1) n)) (hn : n < 256 ^ (k + 1))
    : loadLE mem p (k + 1) = some n := by
  have hload := load_of_holds_ne h (by simp [natLE])
  rw [length_natLE] at hload
  unfold loadLE
  rw [hload, Option.map_some, leNat_natLE, Nat.mod_eq_of_lt hn]

/-- The base-128 bytes of `v`, at most `k + 1` of them. -/
def varint : Nat → Nat → Data
  | 0, v => [UInt8.ofNat (v % 128)]
  | k + 1, v =>
    if 127 < v then UInt8.ofNat (v % 128 + 128) :: varint k (v / 128)
    else [UInt8.ofNat (v % 128)]

/-- Reads a varint of at most `k + 1` bytes; the last byte of a full one is not
asked whether it continues. -/
def loadVarint (mem : Data) : Nat → Nat → Option (Nat × Nat)
  | 0, p => do
      let b ← mem[p]?
      return (b.toNat % 128, p + 1)
  | k + 1, p => do
      let b ← mem[p]?
      if 128 ≤ b.toNat then
        let (high, p) ← loadVarint mem k (p + 1)
        return (b.toNat % 128 + 128 * high, p)
      else return (b.toNat, p + 1)

theorem varint_ne_nil (k v : Nat) : varint k v ≠ [] := by
  cases k with
  | zero => simp [varint]
  | succ k => unfold varint; split <;> simp

theorem loadVarint_of_holds :
    ∀ (k v p : Nat), v < 128 ^ (k + 1) → Holds mem p (varint k v) →
      loadVarint mem k p = some (v, p + (varint k v).length) := by
  intro k
  induction k with
  | zero =>
    intro v p hv h
    have hmod : v % 128 = v := Nat.mod_eq_of_lt (by omega)
    have hbyte : (UInt8.ofNat v).toNat = v := by
      rw [UInt8.toNat_ofNat']
      exact Nat.mod_eq_of_lt (by omega)
    rw [varint, hmod] at h ⊢
    simp only [loadVarint, getElem?_of_holds h, hbyte, Option.pure_def, Option.bind_eq_bind,
      Option.bind_some, hmod, List.length_singleton]
  | succ k ih =>
    intro v p hv h
    by_cases hbig : 127 < v
    · have hbyte : (UInt8.ofNat (v % 128 + 128)).toNat = v % 128 + 128 := by
        rw [UInt8.toNat_ofNat']
        exact Nat.mod_eq_of_lt (by omega)
      rw [varint, if_pos hbig] at h ⊢
      have hhead := getElem?_of_holds h
      rw [← List.singleton_append, holds_append] at h
      have hhigh : v / 128 < 128 ^ (k + 1) := by
        rw [Nat.div_lt_iff_lt_mul (by decide), ← Nat.pow_succ]
        exact hv
      have hrest := ih (v / 128) (p + 1) hhigh h.2
      have hsplit : v % 128 + 128 * (v / 128) = v := Nat.mod_add_div v 128
      have hlow : (v % 128 + 128) % 128 = v % 128 := by omega
      have hcont : 128 ≤ v % 128 + 128 := Nat.le_add_left _ _
      simp only [loadVarint, hhead, hbyte, Option.pure_def, Option.bind_eq_bind,
        Option.bind_some, hrest, List.length_cons, hlow, hsplit, hcont, ↓reduceIte]
      rw [Nat.add_assoc, Nat.add_comm 1]
    · have hmod : v % 128 = v := Nat.mod_eq_of_lt (by omega)
      have hbyte : (UInt8.ofNat v).toNat = v := by
        rw [UInt8.toNat_ofNat']
        exact Nat.mod_eq_of_lt (by omega)
      have hstop : ¬ 128 ≤ v := by omega
      rw [varint, if_neg hbig, hmod] at h ⊢
      simp only [loadVarint, getElem?_of_holds h, hbyte, Option.pure_def,
        Option.bind_eq_bind, Option.bind_some, hstop, ↓reduceIte, List.length_singleton]

end TelegramPub.Verified.Memory
