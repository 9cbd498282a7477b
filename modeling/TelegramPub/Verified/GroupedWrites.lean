import Mathlib.Data.List.DropRight
import Mathlib.Data.List.Pairwise

/-!
# Writing one row in groups

A row of a table is added, edited and deleted.  An addition counts only while the row is
not there, and an edit only while it is.  `Write.apply` makes one write after the other;
`grouped` makes all edits first, then all deletions, then the additions, if the row was not
there at the beginning.
-/

namespace TelegramPub.Verified.GroupedWrites

variable {ν : Type*}

inductive Write (ν : Type*) where
  | add (value : ν)
  | edit (value : ν)
  | delete

namespace Write

def value? : Write ν → Option ν
  | add value => some value
  | edit value => some value
  | delete => none

def isAdd : Write ν → Bool
  | add _ => true
  | _ => false

def isDelete : Write ν → Bool
  | delete => true
  | _ => false

def apply : Option ν → Write ν → Option ν
  | none, add value => some value
  | some row, add _ => some row
  | none, edit _ => none
  | some _, edit value => some value
  | _, delete => none

end Write

/-- One write after the other. -/
def oneByOne (row : Option ν) (writes : List (Write ν)) : Option ν :=
  writes.foldl Write.apply row

def lastAdded (writes : List (Write ν)) : Option ν :=
  writes.foldl (fun last write => match write with | .add value => some value | _ => last) none

def lastEdited (writes : List (Write ν)) : Option ν :=
  writes.foldl (fun last write => match write with | .edit value => some value | _ => last) none

/-- The edits, then the deletions, then the additions of a row that was not there. -/
def grouped (row : Option ν) (writes : List (Write ν)) : Option ν :=
  match row with
  | none => lastAdded writes
  | some value =>
    if writes.any Write.isDelete then none else some ((lastEdited writes).getD value)

/-- The writes after the last deletion. -/
def sinceDelete (writes : List (Write ν)) : List (Write ν) :=
  writes.rtakeWhile fun write => !write.isDelete

/-- No addition among these writes. -/
def NoAdd (writes : List (Write ν)) : Prop := ∀ write ∈ writes, write.isAdd = false

/-- A row that is not there is not added at all, or once since the last deletion, and with
the last write.  A row that is there is not deleted, or not added after that. -/
def Settled (present : Bool) (writes : List (Write ν)) : Prop :=
  match present with
  | false => NoAdd writes ∨
      ∃ others value, sinceDelete writes = others ++ [Write.add value] ∧ NoAdd others
  | true => writes.any Write.isDelete = false ∨ NoAdd (sinceDelete writes)

section Concat

variable (row : Option ν) (writes : List (Write ν)) (write : Write ν) (value : ν)

@[simp] theorem oneByOne_concat :
    oneByOne row (writes ++ [write]) = Write.apply (oneByOne row writes) write := by
  simp [oneByOne]

@[simp] theorem lastAdded_add : lastAdded (writes ++ [Write.add value]) = some value := by
  simp [lastAdded]

@[simp] theorem lastAdded_edit : lastAdded (writes ++ [Write.edit value]) = lastAdded writes := by
  simp [lastAdded]

@[simp] theorem lastAdded_delete : lastAdded (writes ++ [Write.delete]) = lastAdded writes := by
  simp [lastAdded]

@[simp] theorem lastEdited_edit : lastEdited (writes ++ [Write.edit value]) = some value := by
  simp [lastEdited]

@[simp] theorem lastEdited_add : lastEdited (writes ++ [Write.add value]) = lastEdited writes := by
  simp [lastEdited]

@[simp] theorem lastEdited_delete : lastEdited (writes ++ [Write.delete]) = lastEdited writes := by
  simp [lastEdited]

@[simp] theorem sinceDelete_add :
    sinceDelete (writes ++ [Write.add value]) = sinceDelete writes ++ [Write.add value] := by
  simp [sinceDelete, Write.isDelete]

@[simp] theorem sinceDelete_edit :
    sinceDelete (writes ++ [Write.edit value]) = sinceDelete writes ++ [Write.edit value] := by
  simp [sinceDelete, Write.isDelete]

@[simp] theorem sinceDelete_delete : sinceDelete (writes ++ [Write.delete]) = [] := by
  simp [sinceDelete, Write.isDelete]

@[simp] theorem noAdd_concat : NoAdd (writes ++ [write]) ↔ NoAdd writes ∧ write.isAdd = false := by
  simp [NoAdd, or_imp, forall_and]

end Concat

@[simp] theorem noAdd_nil : NoAdd ([] : List (Write ν)) := by
  simp [NoAdd]

/-- When nothing is left. -/
theorem oneByOne_eq_none (row : Option ν) (writes : List (Write ν)) :
    oneByOne row writes = none ↔
      (row = none ∨ writes.any Write.isDelete = true) ∧ NoAdd (sinceDelete writes) := by
  induction writes using List.reverseRecOn with
  | nil => simp [oneByOne, sinceDelete]
  | append_singleton writes write ih =>
    cases write with
    | add value => cases h : oneByOne row writes <;> simp [h, Write.apply, Write.isAdd]
    | edit value =>
      cases h : oneByOne row writes <;> rw [h] at ih <;>
        simpa [h, Write.apply, Write.isAdd, Write.isDelete] using ih
    | delete => cases h : oneByOne row writes <;> simp [h, Write.apply, Write.isDelete]

theorem lastAdded_eq_none (writes : List (Write ν)) : lastAdded writes = none ↔ NoAdd writes := by
  induction writes using List.reverseRecOn with
  | nil => simp [lastAdded]
  | append_singleton writes write ih => cases write <;> simp [ih, Write.isAdd]

theorem NoAdd.sinceDelete {writes : List (Write ν)} (h : NoAdd writes) :
    NoAdd (sinceDelete writes) :=
  fun write hwrite => h write ((List.rtakeWhile_suffix _ _).subset hwrite)

/-- What is left has been written. -/
theorem oneByOne_mem {row : Option ν} {writes : List (Write ν)} {value : ν}
    (h : oneByOne row writes = some value) :
    row = some value ∨ ∃ write ∈ writes, write.value? = some value := by
  induction writes using List.reverseRecOn with
  | nil => exact .inl h
  | append_singleton writes write ih =>
    rw [oneByOne_concat] at h
    cases hrest : oneByOne row writes with
    | none =>
      cases write with
      | add v =>
        rw [hrest] at h
        exact .inr ⟨.add v, by simp, h⟩
      | edit v => simp [hrest, Write.apply] at h
      | delete => simp [hrest, Write.apply] at h
    | some v =>
      rw [hrest] at h ih
      have hold : v = value →
          row = some value ∨ ∃ w ∈ writes ++ [write], w.value? = some value := by
        rintro rfl
        rcases ih rfl with hrow | ⟨w, hw, hv⟩
        · exact .inl hrow
        · exact .inr ⟨w, List.mem_append_left _ hw, hv⟩
      cases write with
      | add _ => exact hold (Option.some.inj h)
      | edit new => exact .inr ⟨.edit new, by simp, h⟩
      | delete => simp [Write.apply] at h

theorem lastAdded_mem {writes : List (Write ν)} {value : ν} (h : lastAdded writes = some value) :
    ∃ write ∈ writes, write.value? = some value := by
  induction writes using List.reverseRecOn with
  | nil => simp [lastAdded] at h
  | append_singleton writes write ih =>
    have hold (h : lastAdded writes = some value) :
        ∃ w ∈ writes ++ [write], w.value? = some value := by
      obtain ⟨w, hw, hv⟩ := ih h
      exact ⟨w, List.mem_append_left _ hw, hv⟩
    cases write with
    | add v =>
      rw [lastAdded_add] at h
      exact ⟨.add v, by simp, h⟩
    | edit v => exact hold (by rwa [lastAdded_edit] at h)
    | delete => exact hold (by rwa [lastAdded_delete] at h)

theorem oneByOne_some {row : ν} {writes : List (Write ν)} (h : writes.any Write.isDelete = false) :
    oneByOne (some row) writes = some ((lastEdited writes).getD row) := by
  induction writes using List.reverseRecOn with
  | nil => rfl
  | append_singleton writes write ih =>
    rw [List.any_append, Bool.or_eq_false_iff] at h
    rw [oneByOne_concat, ih h.1]
    cases write with
    | add value => simp [Write.apply]
    | edit value => simp [Write.apply]
    | delete => simp [Write.isDelete] at h

/-- No two writes have the same value. -/
def Distinct (writes : List (Write ν)) : Prop :=
  writes.Pairwise fun a b => ∀ value, a.value? = some value → b.value? ≠ some value

theorem Distinct.of_concat {writes : List (Write ν)} {write : Write ν}
    (h : Distinct (writes ++ [write])) :
    ∀ w ∈ writes, ∀ value, w.value? = some value → write.value? ≠ some value := by
  intro w hw
  exact (List.pairwise_append.1 h).2.2 w hw write (List.mem_singleton_self _)

theorem grouped_none_eq_iff {writes : List (Write ν)} (h : Distinct writes) :
    grouped none writes = oneByOne none writes ↔ Settled false writes := by
  show lastAdded writes = oneByOne none writes ↔ _
  rcases List.eq_nil_or_concat' writes with rfl | ⟨writes, write, rfl⟩
  · simp [lastAdded, oneByOne, Settled]
  · have hfresh := h.of_concat
    cases write with
    | add value =>
      have hcount : some value = Write.apply (oneByOne none writes) (.add value) ↔
          oneByOne none writes = none := by
        cases hrest : oneByOne none writes with
        | none => simp [Write.apply]
        | some v =>
          obtain hnone | ⟨w, hw, hv⟩ := oneByOne_mem hrest
          · cases hnone
          · have hne : value ≠ v := fun he => hfresh w hw v hv (congrArg some he)
            simp [Write.apply, hne]
      rw [lastAdded_add, oneByOne_concat, hcount, oneByOne_eq_none]
      simp [Settled, Write.isAdd, and_assoc]
    | edit value =>
      have hcount : lastAdded writes = Write.apply (oneByOne none writes) (.edit value) ↔
          lastAdded writes = none := by
        cases hrest : oneByOne none writes with
        | none => simp [Write.apply]
        | some v =>
          cases hlast : lastAdded writes with
          | none =>
            have hnone := (oneByOne_eq_none none writes).2
              ⟨.inl rfl, ((lastAdded_eq_none writes).1 hlast).sinceDelete⟩
            rw [hnone] at hrest
            cases hrest
          | some a =>
            obtain ⟨w, hw, hv⟩ := lastAdded_mem hlast
            have hne : a ≠ value := fun he => hfresh w hw a hv (congrArg some he.symm)
            simp [Write.apply, hne]
      rw [lastAdded_edit, oneByOne_concat, hcount, lastAdded_eq_none]
      simp [Settled, Write.isAdd]
    | delete =>
      have hgone : Write.apply (oneByOne none writes) .delete = none := by
        cases oneByOne none writes <;> rfl
      rw [lastAdded_delete, oneByOne_concat, hgone, lastAdded_eq_none]
      simp [Settled, Write.isAdd]

theorem grouped_some_eq_iff (row : ν) (writes : List (Write ν)) :
    grouped (some row) writes = oneByOne (some row) writes ↔ Settled true writes := by
  cases h : writes.any Write.isDelete with
  | false => simp [grouped, Settled, h, oneByOne_some h]
  | true =>
    have hnone := oneByOne_eq_none (some row) writes
    simp only [h, or_true, true_and] at hnone
    simp [grouped, Settled, h, ← hnone, eq_comm]

/-- Grouping makes no difference exactly for settled writes. -/
theorem grouped_eq_iff {writes : List (Write ν)} (h : Distinct writes) (row : Option ν) :
    grouped row writes = oneByOne row writes ↔ Settled row.isSome writes := by
  cases row with
  | none => exact grouped_none_eq_iff h
  | some row => exact grouped_some_eq_iff row writes

theorem grouped_singleton (row : Option ν) (write : Write ν) :
    grouped row [write] = write.apply row := by
  cases row <;> cases write <;> rfl

end TelegramPub.Verified.GroupedWrites
