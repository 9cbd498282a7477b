import Mathlib.Data.List.Perm.Basic
import Mathlib.Data.List.Pairwise

/-!
# Sorting with a comparator

A sort that asks a comparator promises an order only where the comparator describes one.
Here it promises no more than this: the result is a permutation, and if the objects can be
arranged so that the comparator puts each before all that follow, whichever of the two it
is shown first, then the result is that arrangement.  `Sorter.leaving` promises nothing else:
what cannot be arranged it leaves as it is.
-/

namespace TelegramPub.Verified.ComparatorSort

variable {α : Type*} {compare : α → α → Ordering}

/-- The comparator puts every object before those that follow. -/
def Ascending (compare : α → α → Ordering) (l : List α) : Prop :=
  l.Pairwise fun a b => compare a b = .lt ∧ compare b a = .gt

/-- `sortUsingComparator:`. -/
structure Sorter (compare : α → α → Ordering) where
  sort : List α → List α
  perm : ∀ l, (sort l).Perm l
  sort_eq : ∀ {l l'}, l'.Perm l → Ascending compare l' → sort l = l'

theorem Ascending.eq_of_perm {l l' : List α} (h : Ascending compare l)
    (h' : Ascending compare l') (hperm : l.Perm l') : l = l' := by
  refine hperm.eq_of_pairwise (fun a b _ _ hab hba => ?_) h h'
  rw [hab.1] at hba
  exact absurd hba.2 (by decide)

theorem Sorter.sort_singleton (s : Sorter compare) (a : α) : s.sort [a] = [a] :=
  (s.perm [a]).eq_singleton

theorem Sorter.mem_sort (s : Sorter compare) {l : List α} {a : α} : a ∈ s.sort l ↔ a ∈ l :=
  (s.perm l).mem_iff

open Classical in
/-- The ascending arrangement of a list, and the list as it is where there is none. -/
noncomputable def arrange (compare : α → α → Ordering) (l : List α) : List α :=
  if h : ∃ l', l'.Perm l ∧ Ascending compare l' then h.choose else l

theorem arrange_perm (l : List α) : (arrange compare l).Perm l := by
  unfold arrange
  split
  · next h => exact h.choose_spec.1
  · exact List.Perm.refl l

theorem arrange_eq {l l' : List α} (hperm : l'.Perm l) (hascending : Ascending compare l') :
    arrange compare l = l' := by
  have hex : ∃ l', l'.Perm l ∧ Ascending compare l' := ⟨l', hperm, hascending⟩
  unfold arrange
  rw [dif_pos hex]
  exact hex.choose_spec.2.eq_of_perm hascending (hex.choose_spec.1.trans hperm.symm)

theorem arrange_of_none {l : List α} (h : ∀ l', l'.Perm l → ¬ Ascending compare l') :
    arrange compare l = l := by
  unfold arrange
  exact dif_neg fun ⟨l', hperm, hascending⟩ => h l' hperm hascending

/-- The sort that leaves a list as it is where it has no ascending arrangement. -/
noncomputable def Sorter.leaving (compare : α → α → Ordering) : Sorter compare where
  sort := arrange compare
  perm := arrange_perm
  sort_eq := arrange_eq

/-- Two objects that the comparator will not put in this order, nor in the other. -/
theorem not_ascending_of_mem {l l' : List α} {a b : α} (hperm : l'.Perm l) (ha : a ∈ l)
    (hb : b ∈ l) (hne : a ≠ b) (hab : compare a b ≠ .lt) (hba : compare b a ≠ .lt) :
    ¬ Ascending compare l' := by
  intro h
  have hsymm : Std.Symm fun x y : α => compare x y = .lt ∨ compare y x = .lt :=
    ⟨fun _ _ => Or.symm⟩
  have hpair : l'.Pairwise fun x y => compare x y = .lt ∨ compare y x = .lt :=
    h.imp fun hxy => .inl hxy.1
  rcases hpair.forall (hperm.mem_iff.2 ha) (hperm.mem_iff.2 hb) hne with hlt | hlt
  · exact hab hlt
  · exact hba hlt

end TelegramPub.Verified.ComparatorSort
