import Mathlib.Data.List.Basic

/-!
# Numbers that are used again

A table of open entries, numbered like file descriptors: an entry gets the lowest number
that is free, and a number that is released is used again.
-/

namespace TelegramPub.Verified.Descriptors

variable {α : Type*}

/-- The entries by their numbers; a free number has none. -/
abbrev Table (α : Type*) := List (Option α)

/-- The entry with a number. -/
def lookup (table : Table α) (n : Nat) : Option α := table[n]?.join

/-- The number that the next entry gets. -/
def lowestFree (table : Table α) : Nat := table.findIdx (·.isNone)

/-- The table with a new entry. -/
def insert (table : Table α) (x : α) : Table α :=
  if lowestFree table < table.length then table.set (lowestFree table) (some x)
  else table ++ [some x]

/-- The table without the entry of a number. -/
def release (table : Table α) (n : Nat) : Table α := table.set n none

@[simp] theorem lookup_nil (n : Nat) : lookup ([] : Table α) n = none := rfl

@[simp] theorem lookup_lowestFree (table : Table α) : lookup table (lowestFree table) = none := by
  unfold lookup
  by_cases h : lowestFree table < table.length
  · have hnone : table[lowestFree table].isNone := List.findIdx_getElem
    rw [List.getElem?_eq_getElem h, Option.isNone_iff_eq_none.1 hnone]
    rfl
  · rw [List.getElem?_eq_none (Nat.not_lt.1 h)]
    rfl

theorem lookup_insert (table : Table α) (x : α) (n : Nat) :
    lookup (insert table x) n = if n = lowestFree table then some x else lookup table n := by
  unfold insert lookup
  by_cases h : lowestFree table < table.length
  · rw [if_pos h, List.getElem?_set]
    by_cases hn : lowestFree table = n
    · simp [hn, hn ▸ h]
    · simp [hn, Ne.symm hn]
  · have hlength : lowestFree table = table.length :=
      Nat.le_antisymm List.findIdx_le_length (Nat.not_lt.1 h)
    rw [if_neg h, hlength]
    by_cases hn : n = table.length
    · simp [hn]
    · rw [if_neg hn]
      rcases Nat.lt_or_gt_of_ne hn with hless | hmore
      · rw [List.getElem?_append_left hless]
      · have hout : table.length ≤ n := Nat.le_of_lt hmore
        rw [List.getElem?_append_right hout, List.getElem?_eq_none hout,
          List.getElem?_eq_none (by simp; omega)]

theorem lookup_release (table : Table α) (n m : Nat) :
    lookup (release table n) m = if m = n then none else lookup table m := by
  unfold release lookup
  rw [List.getElem?_set]
  by_cases hm : n = m
  · by_cases hlength : n < table.length <;> simp [hm, hm ▸ hlength]
  · simp [hm, Ne.symm hm]

end TelegramPub.Verified.Descriptors
