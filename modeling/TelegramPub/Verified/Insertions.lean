/-!
# Insertions into an array

An array takes objects one at a time, each at an index that is inside it or at
its end.  What stands behind the index moves up by one; two insertions change
their order when the lower one shifts the higher.
-/

namespace TelegramPub.Verified.Insertions

variable {α : Type _}

/-- An index outside the array raises. -/
def insertAt (array : List α) (index : Nat) (object : α) : Option (List α) :=
  if index ≤ array.length then some (array.insertIdx index object) else none

/-- The objects one by one, each at its index. -/
def insertAll (array : List α) : List (Nat × α) → Option (List α)
  | [] => some array
  | (index, object) :: insertions =>
    (insertAt array index object).bind fun array => insertAll array insertions

/-- Where what stood at `place` stands after an insertion at `index`. -/
def shift (index place : Nat) : Nat := if index ≤ place then place + 1 else place

/-- Where what stood at `place` stands after insertions at `indices`. -/
def position (place : Nat) (indices : List Nat) : Nat :=
  indices.foldl (fun place index => shift index place) place

variable {array final : List α}

theorem insertAt_of_le {index : Nat} (h : index ≤ array.length) (object : α) :
    insertAt array index object = some (array.insertIdx index object) := if_pos h

theorem insertAt_eq_some {next : List α} {index : Nat} {object : α} :
    insertAt array index object = some next ↔
      index ≤ array.length ∧ array.insertIdx index object = next := by
  simp [insertAt]

theorem insertAll_append (array : List α) (first second : List (Nat × α)) :
    insertAll array (first ++ second) =
      (insertAll array first).bind fun array => insertAll array second := by
  induction first generalizing array with
  | nil => rfl
  | cons insertion first ih => simp [insertAll, ih, Option.bind_assoc]

variable {insertions : List (Nat × α)}

/-- An insertion in front of others is one behind them, when they are shifted. -/
theorem insertAll_shift {index : Nat} (object : α)
    (habove : ∀ insertion ∈ insertions, index ≤ insertion.1)
    (h : insertAll array insertions = some final) :
    insertAll array ((index, object) ::
        insertions.map fun insertion => (insertion.1 + 1, insertion.2)) =
      insertAt final index object := by
  induction insertions generalizing array with
  | nil =>
    cases h
    simp [insertAll]
  | cons insertion insertions ih =>
    obtain ⟨higher, other⟩ := insertion
    have hle : index ≤ higher := habove _ (List.mem_cons_self ..)
    by_cases hinside : higher ≤ array.length
    · rw [insertAll, insertAt_of_le hinside] at h
      have hrest := ih (fun x hx => habove x (.tail _ hx)) h
      have hlength := List.length_insertIdx_of_le_length hinside other
      rw [insertAll, insertAt_of_le (by omega)] at hrest
      rw [insertAll, insertAt_of_le (Nat.le_trans hle hinside), Option.bind_some, List.map_cons, insertAll,
        insertAt_of_le (by simp [List.length_insertIdx_of_le_length (Nat.le_trans hle hinside), hinside]),
        List.insertIdx_comm _ _ hle hinside]
      exact hrest
    · simp [insertAll, insertAt, hinside] at h

theorem le_position (place : Nat) (indices : List Nat) : place ≤ position place indices := by
  induction indices generalizing place with
  | nil => exact Nat.le_refl _
  | cons index indices ih =>
    refine Nat.le_trans ?_ (ih (shift index place))
    unfold shift
    split <;> omega

theorem getElem?_insertIdx_shift (array : List α) (index place : Nat) (object : α) :
    (array.insertIdx index object)[shift index place]? = array[place]? := by
  unfold shift
  grind

theorem getElem?_position (h : insertAll array insertions = some final) (place : Nat) :
    final[position place (insertions.map Prod.fst)]? = array[place]? := by
  induction insertions generalizing array place with
  | nil =>
    cases h
    rfl
  | cons insertion insertions ih =>
    obtain ⟨index, object⟩ := insertion
    obtain ⟨next, hnext, hfinal⟩ := Option.bind_eq_some_iff.1 h
    rw [← getElem?_insertIdx_shift array index place object, (insertAt_eq_some.1 hnext).2]
    exact ih hfinal _

/-- Insertions in increasing order leave the objects at their own indices. -/
theorem mark_lt {bound : Nat} {mark : α} (h : insertAll array insertions = some final)
    (hsorted : (insertions.map Prod.fst).Pairwise (· < ·))
    (hbound : ∀ insertion ∈ insertions, insertion.1 < bound)
    (harray : ∀ p, array[p]? = some mark → p < bound ∧ ∀ insertion ∈ insertions, p < insertion.1)
    (p : Nat) (hp : final[p]? = some mark) : p < bound := by
  induction insertions generalizing array with
  | nil =>
    cases h
    exact (harray p hp).1
  | cons insertion insertions ih =>
    obtain ⟨index, object⟩ := insertion
    obtain ⟨next, hnext, hfinal⟩ := Option.bind_eq_some_iff.1 h
    have hsplit := List.pairwise_cons.1 hsorted
    refine ih hfinal hsplit.2 (fun x hx => hbound x (.tail _ hx)) fun q hq => ?_
    rw [← (insertAt_eq_some.1 hnext).2, List.getElem?_insertIdx] at hq
    have hindex : index < bound := hbound _ (List.mem_cons_self ..)
    have hlater : ∀ x ∈ insertions, index < x.1 := fun x hx =>
      hsplit.1 _ (List.mem_map_of_mem hx)
    split at hq
    · exact ⟨(harray q hq).1, fun x hx => (harray q hq).2 x (.tail _ hx)⟩
    · by_cases hat : q = index
      · exact hat ▸ ⟨hindex, hlater⟩
      · rw [if_neg hat] at hq
        have hbelow : q - 1 < index := (harray _ hq).2 _ (List.mem_cons_self ..)
        omega

end TelegramPub.Verified.Insertions
