import Mathlib.Data.List.Basic
import Mathlib.Tactic.Linarith

/-!
# Serial numbers and sliding windows

A sender numbers its packets `1, 2, 3, …` without end, and the wire carries the
numbers modulo `2 ^ 32`.  `wire` is what the wire carries of a number.  Two
numbers less than `2 ^ 31` apart are ordered on the wire as they are
(`ahead_wire`), and their difference can be read off it (`toNat_wire_sub`).

A window remembers a bit for each of the `size` numbers up to the newest one: the
bit at distance `i` is for the number `newest - i`.
-/

namespace TelegramPub.Verified.SerialWindow

/-! ## Serial numbers -/

/-- A number as the wire carries it. -/
def wire (n : Int) : BitVec 32 := BitVec.ofInt 32 n

/-- Two numbers are close: less than half of the wire's range apart. -/
def Close (a b : Int) : Prop := a - b < 2 ^ 31 ∧ b - a < 2 ^ 31

instance (a b : Int) : Decidable (Close a b) := by
  unfold Close
  infer_instance

/-- The wire's order: `a` is ahead of `b` by at most half of the range. -/
def ahead (a b : BitVec 32) : Bool :=
  (b < a && (a - b).toNat ≤ 0x7FFFFFFF) || (a < b && 0x7FFFFFFF < (b - a).toNat)

theorem toNat_wire (n : Int) : ((wire n).toNat : Int) = n % 2 ^ 32 := by
  unfold wire
  rw [BitVec.toNat_ofInt]
  omega

theorem toNat_sub_int (x y : BitVec 32) :
    ((x - y).toNat : Int) = ((x.toNat : Int) - y.toNat) % 2 ^ 32 := by
  have hx := x.isLt
  have hy := y.isLt
  rw [BitVec.toNat_sub]
  omega

/-- The difference on the wire of two numbers, the first of which is not behind. -/
theorem toNat_wire_sub {a b : Int} (hle : b ≤ a) (hlt : a - b < 2 ^ 32) :
    ((wire a - wire b).toNat : Int) = a - b := by
  have ha := toNat_wire a
  have hb := toNat_wire b
  have hsub := toNat_sub_int (wire a) (wire b)
  omega

theorem ahead_wire {a b : Int} (h : Close a b) : ahead (wire a) (wire b) = decide (b < a) := by
  have ha := toNat_wire a
  have hb := toNat_wire b
  have hab := toNat_sub_int (wire a) (wire b)
  have hba := toNat_sub_int (wire b) (wire a)
  obtain ⟨h1, h2⟩ := h
  unfold ahead
  rw [Bool.eq_iff_iff]
  simp only [Bool.or_eq_true, Bool.and_eq_true, decide_eq_true_eq, BitVec.lt_def]
  omega

/-- Two numbers that are close have the distance that the wire shows, if that
is small. -/
theorem sub_eq_of_toNat {a b : Int} {k : Nat} (h : Close a b)
    (hk : (wire a - wire b).toNat = k) (hsmall : k < 2 ^ 31) : a - b = k := by
  have ha := toNat_wire a
  have hb := toNat_wire b
  have hab := toNat_sub_int (wire a) (wire b)
  obtain ⟨h1, h2⟩ := h
  omega

/-- A bit for each distance below `size`. -/
structure Window (size : Nat) where
  bits : Fin size → Bool

namespace Window

variable {size : Nat}

/-- The bit at a distance; there is none outside the window. -/
def get (w : Window size) (i : Nat) : Bool := if h : i < size then w.bits ⟨i, h⟩ else false

/-- No bit is set. -/
def clear : Window size := ⟨fun _ => false⟩

/-- The window after the newest number has advanced by `d`. -/
def shift (w : Window size) (d : Nat) : Window size :=
  ⟨fun i => if d ≤ i then w.get (i - d) else false⟩

/-- The window with one more bit. -/
def mark (w : Window size) (i : Nat) : Window size := ⟨fun j => if j = i then true else w.bits j⟩

@[simp] theorem get_clear (i : Nat) : (clear : Window size).get i = false := by
  simp [get, clear]

theorem get_eq_true {w : Window size} {i : Nat} (h : w.get i = true) : i < size := by
  by_contra hlt
  simp [get, hlt] at h

theorem get_shift (w : Window size) (d i : Nat) :
    (w.shift d).get i = true ↔ i < size ∧ d ≤ i ∧ w.get (i - d) = true := by
  by_cases hi : i < size <;> by_cases hd : d ≤ i <;> simp [get, shift, hi, hd]

theorem get_mark (w : Window size) (i j : Nat) :
    (w.mark i).get j = true ↔ (j = i ∧ j < size) ∨ w.get j = true := by
  by_cases hj : j < size
  · by_cases hji : j = i
    · subst hji
      simp [get, mark, hj]
    · simp [get, mark, hj, hji]
  · simp [get, hj]

end Window

end TelegramPub.Verified.SerialWindow
