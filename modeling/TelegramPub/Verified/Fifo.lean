import Mathlib.Data.List.Basic

/-!
# Queues with obligations

A queue of pending work may carry obligations: an element that is only harmless
because of what stands behind it.  `Trailed R q` says that every element `a` of
the queue `q` satisfies `R a behind`, where `behind` is the part of the queue
that is worked off after it.

The queue is used first in, first out: the head leaves (`Trailed.tail`), and new
elements come at the end, where they can only help those before them
(`Trailed.append`, `Trailed.discharge`).
-/

namespace TelegramPub.Verified.Fifo

variable {α : Type*}

/-- Every element stands in the relation `R` to what is behind it. -/
def Trailed (R : α → List α → Prop) : List α → Prop
  | [] => True
  | a :: behind => R a behind ∧ Trailed R behind

variable {R : α → List α → Prop}

theorem Trailed.head {a : α} {behind : List α} (h : Trailed R (a :: behind)) : R a behind := h.1

theorem Trailed.tail {a : α} {behind : List α}
    (h : Trailed R (a :: behind)) : Trailed R behind := h.2

/-- A weaker relation, needed for the elements of the queue only. -/
theorem Trailed.mono {R S : α → List α → Prop} :
    ∀ {q : List α}, Trailed R q → (∀ a ∈ q, ∀ behind, R a behind → S a behind) → Trailed S q := by
  intro q
  induction q with
  | nil => intro _ _; trivial
  | cons a behind ih =>
    intro h himp
    refine ⟨himp a (List.mem_cons_self ..) behind h.1, ih h.2 ?_⟩
    intro b hb
    exact himp b (.tail a hb)

/-- An element at the end discharges the obligations that it is the answer to. -/
theorem Trailed.discharge {R S : α → List α → Prop} {b : α} {q : List α} (h : Trailed R q)
    (hstep : ∀ a behind, R a behind → S a (behind ++ [b])) (hb : S b []) :
    Trailed S (q ++ [b]) := by
  induction q with
  | nil => exact ⟨hb, trivial⟩
  | cons a behind ih => exact ⟨hstep a behind h.1, ih h.2⟩

/-- An element that needs nothing behind it may join the queue. -/
theorem Trailed.append
    (hmore : ∀ a behind b, R a behind → R a (behind ++ [b])) {b : α} (hb : R b [])
    {q : List α} (h : Trailed R q) : Trailed R (q ++ [b]) :=
  h.discharge (fun a behind => hmore a behind b) hb

end TelegramPub.Verified.Fifo
