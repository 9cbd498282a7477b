import Mathlib.Data.List.Nodup

/-!
# Updating the first match of a list

The source's loops over arrays often look for the first element with some
property, change or remove it, and stop.  `updateFirst p f` is that loop:
the first element satisfying `p` becomes `f a`, or disappears when `f a` is
`none`; the others keep their places.

When the elements carry distinct keys that `f` does not change, such a loop
either leaves the list of keys alone (`map_updateFirst_of_some`) or erases
exactly one of them (`map_updateFirst_of_none`).
-/

namespace TelegramPub.Verified.FirstMatch

variable {α κ : Type*}

/-- Replace the first element that satisfies `p` by `f a`, or remove it. -/
def updateFirst (p : α → Bool) (f : α → Option α) : List α → List α
  | [] => []
  | a :: as =>
    if p a then
      match f a with
      | some b => b :: as
      | none => as
    else a :: updateFirst p f as

variable {p : α → Bool} {f : α → Option α}

/-- Nothing happens without a match. -/
theorem updateFirst_of_find?_none :
    ∀ {xs : List α}, xs.find? p = none → updateFirst p f xs = xs := by
  intro xs
  induction xs with
  | nil => intro _; rfl
  | cons a as ih =>
    intro h
    have ha : p a = false := by
      simpa using List.find?_eq_none.1 h a (by simp)
    have has : as.find? p = none := by
      simpa [List.find?_cons, ha] using h
    simp [updateFirst, ha, ih has]

/-- What is in the list afterwards was there before or took the place of a match. -/
theorem mem_updateFirst {b : α} :
    ∀ {xs : List α}, b ∈ updateFirst p f xs → b ∈ xs ∨ ∃ a ∈ xs, f a = some b := by
  intro xs
  induction xs with
  | nil => intro h; exact .inl h
  | cons a as ih =>
    intro h
    unfold updateFirst at h
    split at h
    · split at h
      · rename_i b' hb'
        rcases List.mem_cons.1 h with heq | hmem
        · exact .inr ⟨a, List.mem_cons_self, heq ▸ hb'⟩
        · exact .inl (.tail _ hmem)
      · exact .inl (.tail _ h)
    · rcases List.mem_cons.1 h with heq | hmem
      · exact .inl (heq ▸ List.mem_cons_self)
      · rcases ih hmem with hold | ⟨a', ha', hf⟩
        · exact .inl (.tail _ hold)
        · exact .inr ⟨a', List.mem_cons_of_mem _ ha', hf⟩

/-- A match that is replaced by an element of the same key leaves the keys
alone. -/
theorem map_updateFirst_of_some {key : α → κ} :
    ∀ {xs : List α} {a b : α}, xs.find? p = some a → f a = some b →
      key b = key a → (updateFirst p f xs).map key = xs.map key := by
  intro xs
  induction xs with
  | nil => intro a b h; simp at h
  | cons x xs ih =>
    intro a b hfind hf hkey
    by_cases hx : p x = true
    · have hxa : x = a := by simpa [List.find?_cons, hx] using hfind
      subst hxa
      simp [updateFirst, hx, hf, hkey]
    · have hfind' : xs.find? p = some a := by
        simpa [List.find?_cons, hx] using hfind
      simp [updateFirst, hx, ih hfind' hf hkey]

theorem map_updateFirst_of_none [DecidableEq κ] {key : α → κ} :
    ∀ {xs : List α} {a : α}, (xs.map key).Nodup → xs.find? p = some a →
      f a = none → (updateFirst p f xs).map key = (xs.map key).erase (key a) := by
  intro xs
  induction xs with
  | nil => intro a _ h; simp at h
  | cons x xs ih =>
    intro a hnd hfind hf
    by_cases hx : p x = true
    · have hxa : x = a := by simpa [List.find?_cons, hx] using hfind
      subst hxa
      simp [updateFirst, hx, hf]
    · have hfind' : xs.find? p = some a := by
        simpa [List.find?_cons, hx] using hfind
      have hmem : key a ∈ xs.map key :=
        List.mem_map_of_mem (List.mem_of_find?_eq_some hfind')
      have hne : key x ≠ key a := by
        intro heq
        rw [List.map_cons, List.nodup_cons] at hnd
        exact hnd.1 (heq ▸ hmem)
      have hnd' : (xs.map key).Nodup := by
        rw [List.map_cons, List.nodup_cons] at hnd
        exact hnd.2
      simp [updateFirst, hx, ih hnd' hfind' hf, hne]

/-- In a table without repetitions the first match of a key is the only one. -/
theorem find_of_nodup [BEq κ] [LawfulBEq κ] {key : α → κ} {xs : List α}
    (hnodup : (xs.map key).Nodup) {a : α} (hmem : a ∈ xs) :
    xs.find? (fun x => key x == key a) = some a := by
  induction xs with
  | nil => cases hmem
  | cons x xs ih =>
    rw [List.map_cons, List.nodup_cons] at hnodup
    rcases List.mem_cons.1 hmem with rfl | hmem
    · exact List.find?_cons_of_pos (beq_self_eq_true _)
    · have hne : key x ≠ key a := fun heq => hnodup.1 (heq ▸ List.mem_map_of_mem hmem)
      rw [List.find?_cons_of_neg (by simpa using hne)]
      exact ih hnodup.2 hmem

end TelegramPub.Verified.FirstMatch
