import Mathlib

/-!
# A running maximum

A loop keeps the best element so far, starting from a bound that an element has to exceed,
and replaces it only by a strictly better one.  It ends with nothing if no element exceeds
the bound, and otherwise with the first of the greatest ones.
-/

namespace TelegramPub.Verified.RunningMax

variable {α β : Type*} [LinearOrder β] (key : α → β) (bound : β)

/-- A round of the loop. -/
def better (best : Option α) (a : α) : Option α :=
  if best.elim bound key < key a then some a else best

/-- The whole loop. -/
def runningMax (list : List α) : Option α := list.foldl (better key bound) none

variable {key bound} {list : List α}

@[simp] theorem runningMax_nil : runningMax key bound [] = none := rfl

theorem runningMax_concat (list : List α) (a : α) :
    runningMax key bound (list ++ [a]) = better key bound (runningMax key bound list) a := by
  simp [runningMax]

/-- What the loop has seen is at most what it keeps. -/
theorem le_elim_runningMax (key : α → β) (bound : β) (list : List α) :
    bound ≤ (runningMax key bound list).elim bound key ∧
      ∀ a ∈ list, key a ≤ (runningMax key bound list).elim bound key := by
  induction list using List.reverseRecOn with
  | nil => simp
  | append_singleton list last ih =>
    obtain ⟨hbound, hall⟩ := ih
    rw [runningMax_concat]
    unfold better
    split
    · next hlt =>
        refine ⟨hbound.trans hlt.le, fun a ha => ?_⟩
        rcases List.mem_append.1 ha with ha | ha
        · exact (hall a ha).trans hlt.le
        · exact (congrArg key (List.mem_singleton.1 ha)).le
    · next hge =>
        refine ⟨hbound, fun a ha => ?_⟩
        rcases List.mem_append.1 ha with ha | ha
        · exact hall a ha
        · rw [List.mem_singleton.1 ha]
          exact not_lt.1 hge

/-- What the loop keeps is one of the elements, and exceeds the bound. -/
theorem mem_of_runningMax {a : α} (h : runningMax key bound list = some a) :
    a ∈ list ∧ bound < key a := by
  induction list using List.reverseRecOn with
  | nil => cases h
  | append_singleton list last ih =>
    rw [runningMax_concat] at h
    unfold better at h
    split at h
    · next hlt =>
        obtain rfl := Option.some.inj h
        have hbound := (le_elim_runningMax key bound list).1
        exact ⟨List.mem_append_right _ (List.mem_singleton_self _), hbound.trans_lt hlt⟩
    · obtain ⟨hmem, hlt⟩ := ih h
      exact ⟨List.mem_append_left _ hmem, hlt⟩

theorem le_of_runningMax {a b : α} (h : runningMax key bound list = some a) (hb : b ∈ list) :
    key b ≤ key a := by
  have hall := (le_elim_runningMax key bound list).2 b hb
  rwa [h] at hall

theorem runningMax_eq_none_iff :
    runningMax key bound list = none ↔ ∀ a ∈ list, key a ≤ bound := by
  constructor
  · intro h a ha
    have hall := (le_elim_runningMax key bound list).2 a ha
    rwa [h] at hall
  · intro h
    cases hmax : runningMax key bound list with
    | none => rfl
    | some a =>
      obtain ⟨hmem, hlt⟩ := mem_of_runningMax hmax
      exact absurd (h a hmem) (not_le.2 hlt)

end TelegramPub.Verified.RunningMax
