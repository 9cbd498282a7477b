import Mathlib.Data.List.Count
import Mathlib.Data.List.Perm.Basic

/-!
# Queues with keys

A list whose elements have keys.  An operation appends an element, or removes the first
element with a key.  The elements with one key are a queue of their own: `filter_run` says
what an operation does to it, and the rest of the file is about one such queue.
-/

namespace TelegramPub.Verified.KeyedQueue

variable {α κ : Type} [DecidableEq κ]

inductive Op (α κ : Type) where
  | push (a : α)
  | erase (k : κ)

/-- Elements are appended, and `none` takes the first one away. -/
def drain : List α → List (Option α) → List α
  | q, [] => q
  | q, some a :: ops => drain (q ++ [a]) ops
  | q, none :: ops => drain q.tail ops

@[simp] theorem drain_nil (q : List α) : drain q [] = q := rfl

@[simp] theorem drain_some (q : List α) (a : α) (ops : List (Option α)) :
    drain q (some a :: ops) = drain (q ++ [a]) ops := rfl

@[simp] theorem drain_none (q : List α) (ops : List (Option α)) :
    drain q (none :: ops) = drain q.tail ops := rfl

theorem drain_append (q : List α) (ops ops' : List (Option α)) :
    drain q (ops ++ ops') = drain (drain q ops) ops' := by
  induction ops generalizing q with
  | nil => rfl
  | cons op ops ih => cases op <;> exact ih _

/-- The elements that are appended. -/
def pushed (ops : List (Option α)) : List α := ops.filterMap id

@[simp] theorem pushed_nil : pushed ([] : List (Option α)) = [] := rfl

@[simp] theorem pushed_some (a : α) (ops : List (Option α)) :
    pushed (some a :: ops) = a :: pushed ops := rfl

@[simp] theorem pushed_none (ops : List (Option α)) : pushed (none :: ops) = pushed ops := rfl

@[simp] theorem pushed_append (ops ops' : List (Option α)) :
    pushed (ops ++ ops') = pushed ops ++ pushed ops' := List.filterMap_append

/-- How often an element is taken away. -/
def taken (ops : List (Option α)) : Nat := ops.countP (·.isNone)

@[simp] theorem taken_nil : taken ([] : List (Option α)) = 0 := rfl

@[simp] theorem taken_some (a : α) (ops : List (Option α)) : taken (some a :: ops) = taken ops := by
  simp [taken]

@[simp] theorem taken_none (ops : List (Option α)) : taken (none :: ops) = taken ops + 1 := by
  simp [taken]

@[simp] theorem taken_append (ops ops' : List (Option α)) :
    taken (ops ++ ops') = taken ops + taken ops' := List.countP_append

/-- The first elements are taken away. -/
theorem drain_suffix (q : List α) (ops : List (Option α)) : drain q ops <:+ q ++ pushed ops := by
  induction ops generalizing q with
  | nil => simp
  | cons op ops ih =>
    cases op with
    | some a => simpa using ih (q ++ [a])
    | none =>
      refine (ih q.tail).trans ?_
      obtain ⟨front, hfront⟩ := List.tail_suffix q
      exact ⟨front, by rw [← List.append_assoc, hfront, pushed_none]⟩

variable {ops : List (Option α)}

/-- Without a removal nothing is lost. -/
theorem drain_of_taken_eq_zero {q : List α} (h : taken ops = 0) :
    drain q ops = q ++ pushed ops := by
  induction ops generalizing q with
  | nil => simp
  | cons op ops ih =>
    cases op with
    | some a =>
      rw [taken_some] at h
      rw [drain_some, ih h]
      simp
    | none => simp at h

/-- Without an addition the first elements are lost. -/
theorem drain_of_pushed_eq_nil {q : List α} (h : pushed ops = []) :
    drain q ops = q.drop (taken ops) := by
  induction ops generalizing q with
  | nil => rfl
  | cons op ops ih =>
    cases op with
    | some a => simp at h
    | none =>
      rw [pushed_none] at h
      rw [drain_none, ih h, taken_none, List.drop_tail]

/-- Something is in the queue at the first removal. -/
theorem length_drain_lt {q : List α} (hq : q ≠ []) (h : taken ops ≠ 0) :
    (drain q ops).length < q.length + (pushed ops).length := by
  induction ops generalizing q with
  | nil => simp at h
  | cons op ops ih =>
    cases op with
    | some a =>
      rw [taken_some] at h
      have hlt := ih (q := q ++ [a]) (by simp) h
      rw [List.length_append, List.length_singleton] at hlt
      rw [drain_some, pushed_some, List.length_cons]
      omega
    | none =>
      have hle := (drain_suffix q.tail ops).length_le
      have hpos := List.length_pos_iff.2 hq
      rw [List.length_append, List.length_tail] at hle
      rw [drain_none, pushed_none]
      omega

/-- What comes into the queue is left, or was taken away. -/
theorem length_le_drain (q : List α) (ops : List (Option α)) :
    q.length + (pushed ops).length ≤ (drain q ops).length + taken ops := by
  induction ops generalizing q with
  | nil => simp
  | cons op ops ih =>
    cases op with
    | some a =>
      have h := ih (q ++ [a])
      rw [List.length_append, List.length_singleton] at h
      rw [drain_some, pushed_some, taken_some, List.length_cons]
      omega
    | none =>
      have h := ih q.tail
      rw [List.length_tail] at h
      rw [drain_none, pushed_none, taken_none]
      omega

/-- Every removal takes something away, at least behind the last one that found nothing. -/
theorem exists_length_eq (q : List α) (ops : List (Option α)) :
    q.length + (pushed ops).length = (drain q ops).length + taken ops ∨
      ∃ front back, ops = front ++ back ∧
        (pushed back).length = (drain q ops).length + taken back := by
  induction ops generalizing q with
  | nil => exact .inl (by simp)
  | cons op ops ih =>
    cases op with
    | some a =>
      rcases ih (q ++ [a]) with h | ⟨front, back, hops, h⟩
      · left
        rw [List.length_append, List.length_singleton] at h
        rw [drain_some, pushed_some, taken_some, List.length_cons]
        omega
      · exact .inr ⟨some a :: front, back, by rw [hops, List.cons_append], h⟩
    | none =>
      rcases ih q.tail with h | ⟨front, back, hops, h⟩
      · cases q with
        | nil =>
          right
          refine ⟨[none], ops, rfl, ?_⟩
          rw [List.tail_nil, List.length_nil, Nat.zero_add] at h
          exact h
        | cons a q =>
          left
          rw [List.tail_cons] at h
          rw [drain_none, List.tail_cons, pushed_none, taken_none, List.length_cons]
          omega
      · exact .inr ⟨none :: front, back, by rw [hops, List.cons_append], h⟩

/-- How much is left of an empty queue: behind every place at most so much more is appended
than is taken away, and behind some place exactly so much. -/
theorem length_drain_iff (ops : List (Option α)) (n : Nat) :
    (drain [] ops).length = n ↔
      (∀ front back, ops = front ++ back → (pushed back).length ≤ n + taken back) ∧
        ∃ front back, ops = front ++ back ∧ (pushed back).length = n + taken back := by
  have hback : ∀ front back, ops = front ++ back →
      (pushed back).length ≤ (drain [] ops).length + taken back := by
    intro front back hops
    have h := length_le_drain (drain [] front) back
    rw [← drain_append, ← hops] at h
    omega
  have hsome : ∃ front back, ops = front ++ back ∧
      (pushed back).length = (drain [] ops).length + taken back := by
    rcases exists_length_eq [] ops with h | h
    · exact ⟨[], ops, rfl, by rw [List.length_nil, Nat.zero_add] at h; exact h⟩
    · exact h
  constructor
  · rintro rfl
    exact ⟨hback, hsome⟩
  · rintro ⟨hall, front, back, hops, heq⟩
    have hle := hback front back hops
    obtain ⟨front', back', hops', heq'⟩ := hsome
    have hle' := hall front' back' hops'
    omega

section Keys

variable (key : α → κ)

def apply (l : List α) : Op α κ → List α
  | .push a => l ++ [a]
  | .erase k => l.eraseP (key · = k)

/-- What an operation is for the queue of a key, if it is one. -/
def about (k : κ) : Op α κ → Option (Option α)
  | .push a => if key a = k then some (some a) else none
  | .erase k' => if k' = k then some none else none

theorem filter_eraseP (l : List α) (k k' : κ) :
    (l.eraseP (key · = k')).filter (key · = k) =
      if k' = k then (l.filter (key · = k)).tail else l.filter (key · = k) := by
  induction l with
  | nil => simp
  | cons a l ih =>
    by_cases ha : key a = k'
    · rw [List.eraseP_cons_of_pos (by simpa using ha), List.filter_cons]
      by_cases hk : k' = k
      · simp [ha, hk]
      · simp [ha, hk]
    · rw [List.eraseP_cons_of_neg (by simpa using ha), List.filter_cons, ih, List.filter_cons]
      by_cases hk : k' = k
      · have hne : ¬ key a = k := fun h => ha (h.trans hk.symm)
        simp [hk, hne]
      · simp [hk]

/-- The queue of a key. -/
theorem filter_run (l : List α) (k : κ) (ops : List (Op α κ)) :
    (ops.foldl (apply key) l).filter (key · = k) =
      drain (l.filter (key · = k)) (ops.filterMap (about key k)) := by
  induction ops generalizing l with
  | nil => rfl
  | cons op ops ih =>
    rw [List.foldl_cons, ih, List.filterMap_cons]
    cases op with
    | push a =>
      by_cases ha : key a = k
      · simp [apply, about, ha]
      · simp [apply, about, ha]
    | erase k' =>
      rw [apply, filter_eraseP]
      by_cases hk : k' = k
      · simp [about, hk]
      · simp [about, hk]

/-- Two lists have the same elements if all their queues have. -/
theorem perm_iff_filter {l l' : List α} :
    l.Perm l' ↔ ∀ k, (l.filter (key · = k)).Perm (l'.filter (key · = k)) := by
  classical
  constructor
  · exact fun h k => h.filter _
  · intro h
    refine List.perm_iff_count.2 fun a => ?_
    have hcount := (h (key a)).count_eq a
    rwa [List.count_filter (by simp), List.count_filter (by simp)] at hcount

end Keys

end TelegramPub.Verified.KeyedQueue
