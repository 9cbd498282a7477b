import Mathlib

/-!
# The steps of a list down to a bottom

Read from its first member to its last and from there to a bottom below all of them, a
list in a linear order steps down or up.  A value that is between the bottom and some
member, without being one, is passed by a step down: `exists_step_around`.  That no step
down passes a *member* is a condition on the order of the list; with it, two steps down
to different members pass no common value (`apart_of_clear`).
-/

namespace TelegramPub.Verified.Descents

variable {α : Type*}

/-- Each member with the next one, the last with the bottom. -/
def steps : List α → α → List (α × α)
  | [], _ => []
  | x :: xs, bottom => (x, xs.headD bottom) :: steps xs bottom

variable {xs : List α} {bottom : α}

theorem fst_mem {s : α × α} (h : s ∈ steps xs bottom) : s.1 ∈ xs := by
  induction xs with
  | nil => cases h
  | cons x xs ih =>
    rcases List.mem_cons.1 h with heq | hs
    · simp [heq]
    · exact .tail _ (ih hs)

theorem headD_mem (xs : List α) (bottom : α) : xs.headD bottom ∈ xs ∨ xs.headD bottom = bottom := by
  cases xs with
  | nil => exact .inr rfl
  | cons x xs => exact .inl (.head _)

/-- A step ends at a member other than the first, or at the bottom. -/
theorem snd_mem {s : α × α} (h : s ∈ steps xs bottom) : s.2 ∈ xs.tail ∨ s.2 = bottom := by
  induction xs with
  | nil => cases h
  | cons x xs ih =>
    rcases List.mem_cons.1 h with heq | hs
    · rw [heq]
      exact headD_mem xs bottom
    · rcases ih hs with hmem | heq
      · exact .inl (List.mem_of_mem_tail hmem)
      · exact .inr heq

variable [LinearOrder α]

/-- The values that a step down passes. -/
def passed (s : α × α) : Set α := Set.Ioo s.2 s.1

/-- No step passes a member. -/
def Clear (xs : List α) (bottom : α) : Prop := ∀ s ∈ steps xs bottom, ∀ x ∈ xs, x ∉ passed s

instance (xs : List α) (bottom : α) : Decidable (Clear xs bottom) :=
  inferInstanceAs (Decidable (∀ s ∈ steps xs bottom, ∀ x ∈ xs, ¬(s.2 < x ∧ x < s.1)))

/-- Where the list starts above a value and the bottom is below it, a step passes it. -/
theorem exists_step_around {x : α} (hbottom : bottom < x) (hmem : x ∉ xs)
    (habove : ∃ y ∈ xs, x < y) : ∃ s ∈ steps xs bottom, x ∈ passed s := by
  induction xs with
  | nil =>
    obtain ⟨y, hy, _⟩ := habove
    cases hy
  | cons y ys ih =>
    simp only [List.mem_cons, not_or] at hmem
    by_cases hlater : ∃ z ∈ ys, x < z
    · obtain ⟨s, hs, hx⟩ := ih hmem.2 hlater
      exact ⟨s, List.mem_cons_of_mem _ hs, hx⟩
    · have hy : x < y := by
        obtain ⟨z, hz, hxz⟩ := habove
        rcases List.mem_cons.1 hz with heq | hz
        · exact heq ▸ hxz
        · exact absurd ⟨z, hz, hxz⟩ hlater
      have hnext : ys.headD bottom < x := by
        rcases headD_mem ys bottom with hz | hz
        · rcases lt_trichotomy (ys.headD bottom) x with hlt | heq | hgt
          · exact hlt
          · exact absurd (heq ▸ hz) hmem.2
          · exact absurd ⟨_, hz, hgt⟩ hlater
        · exact hz.symm ▸ hbottom
      exact ⟨(y, ys.headD bottom), List.mem_cons_self, hnext, hy⟩

theorem bottom_le_snd (hbottom : ∀ x ∈ xs, bottom < x) {s : α × α} (hs : s ∈ steps xs bottom) :
    bottom ≤ s.2 := by
  rcases snd_mem hs with hmem | heq
  · exact (hbottom _ (List.mem_of_mem_tail hmem)).le
  · exact heq.ge

/-- Two steps that pass no member and end at different ones have no value in common. -/
theorem apart_of_clear (hclear : Clear xs bottom) (hbottom : ∀ x ∈ xs, bottom < x)
    {s t : α × α} (hs : s ∈ steps xs bottom) (ht : t ∈ steps xs bottom) (hne : s.2 < t.2) :
    s.1 ≤ t.2 := by
  have hmem : t.2 ∈ xs := by
    rcases snd_mem ht with hmem | heq
    · exact List.mem_of_mem_tail hmem
    · exact absurd (bottom_le_snd hbottom hs) (not_le.2 (heq ▸ hne))
  by_contra hlt
  exact hclear s hs _ hmem ⟨hne, not_le.1 hlt⟩

end TelegramPub.Verified.Descents
