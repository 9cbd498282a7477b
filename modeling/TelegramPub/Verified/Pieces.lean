import Mathlib.Data.List.Basic

/-!
# A stretch cut into pieces

The stretch from `start` to `stop` is cut into pieces of one size, of which the last may be
shorter.  `edge` is where a piece begins; the edges grow up to `stop` and stay there.  `span`
is a list between two positions, and spans that meet are one span (`span_append`).
-/

namespace TelegramPub.Verified.Pieces

/-- Where piece `j` begins: at `stop` if there is no such piece. -/
def edge (start size stop j : Nat) : Nat := min (start + size * j) stop

section Edges

variable {start size stop : Nat}

theorem edge_zero (h : start ≤ stop) : edge start size stop 0 = start := by
  unfold edge
  omega

theorem edge_le_stop (j : Nat) : edge start size stop j ≤ stop := Nat.min_le_right _ _

theorem start_le_edge (h : start ≤ stop) (j : Nat) : start ≤ edge start size stop j := by
  unfold edge
  omega

theorem edge_mono {i j : Nat} (h : i ≤ j) : edge start size stop i ≤ edge start size stop j := by
  have hmul := Nat.mul_le_mul_left size h
  unfold edge
  omega

/-- The next edge is one size further, or the end. -/
theorem edge_succ {j : Nat} : edge start size stop (j + 1) =
    edge start size stop j + min size (stop - edge start size stop j) := by
  have hmul : size * (j + 1) = size * j + size := Nat.mul_succ size j
  unfold edge
  omega

theorem edge_lt_succ {j : Nat} (hsize : 0 < size) (h : edge start size stop j < stop) :
    edge start size stop j < edge start size stop (j + 1) := by
  rw [edge_succ]
  omega

theorem edge_lt_stop {i j : Nat} (hij : i ≤ j) (h : edge start size stop j < stop) :
    edge start size stop i < stop :=
  Nat.lt_of_le_of_lt (edge_mono hij) h

theorem edge_lt_edge {i j : Nat} (hsize : 0 < size) (hij : i < j)
    (h : edge start size stop i < stop) : edge start size stop i < edge start size stop j :=
  Nat.lt_of_lt_of_le (edge_lt_succ hsize h) (edge_mono hij)

/-- Two pieces do not begin at the same place. -/
theorem edge_inj {i j : Nat} (hsize : 0 < size) (hi : edge start size stop i < stop)
    (hj : edge start size stop j < stop) (h : edge start size stop i = edge start size stop j) :
    i = j := by
  rcases Nat.lt_trichotomy i j with hlt | heq | hgt
  · exact absurd h (Nat.ne_of_lt (edge_lt_edge hsize hlt hi))
  · exact heq
  · exact absurd h.symm (Nat.ne_of_lt (edge_lt_edge hsize hgt hj))

theorem edge_of_lt {j : Nat} (h : edge start size stop j < stop) :
    edge start size stop j = start + size * j := by
  unfold edge at h ⊢
  omega

/-- The number of pieces. -/
def count (start size stop : Nat) : Nat := (stop - start + (size - 1)) / size

theorem edge_lt_iff {j : Nat} (hsize : 0 < size) (hstart : start ≤ stop) :
    edge start size stop j < stop ↔ j < count start size stop := by
  unfold edge count
  rw [Nat.lt_div_iff_mul_lt hsize, Nat.mul_comm j size]
  omega

end Edges

variable {α : Type*}

/-- The elements of a list from one position to another. -/
def span (xs : List α) (start stop : Nat) : List α := (xs.drop start).take (stop - start)

theorem span_self (xs : List α) (start : Nat) : span xs start start = [] := by
  unfold span
  rw [Nat.sub_self, List.take_zero]

theorem span_append (xs : List α) {a b c : Nat} (hab : a ≤ b) (hbc : b ≤ c) :
    span xs a b ++ span xs b c = span xs a c := by
  have hdrop : xs.drop b = (xs.drop a).drop (b - a) := by
    rw [List.drop_drop, Nat.add_sub_of_le hab]
  unfold span
  rw [hdrop, ← List.take_add]
  congr 1
  omega

theorem length_span {xs : List α} {a b : Nat} (h : b ≤ xs.length) :
    (span xs a b).length = b - a := by
  unfold span
  rw [List.length_take, List.length_drop]
  omega

theorem span_prefix (xs : List α) {a b c : Nat} (hab : a ≤ b) (hbc : b ≤ c) :
    span xs a b <+: span xs a c := by
  rw [← span_append xs hab hbc]
  exact List.prefix_append _ _

theorem span_to_end (xs : List α) (a : Nat) : span xs a xs.length = xs.drop a := by
  unfold span
  exact List.take_of_length_le (List.length_drop ▸ Nat.le_refl _)

end TelegramPub.Verified.Pieces
