import Mathlib.Data.List.Basic

/-!
# Runs of a state machine

Every port of this development is a state machine: a step function on a
state type, driven by an arbitrary list of events.  This module is the small
library those ports share.  It names nothing of the ported program.

A run is a left fold of the step function.  Two kinds of statement are made
about runs:

* **invariants**: a predicate that holds initially and that no step breaks
  holds after every run (`run_invariant`);
* **guarded invariants**: the same, for the runs all of whose steps meet a
  guard that is read in the state *before* the step (`guarded_invariant`).

`guarded_mono` is the same for a property of the steps.  When the guard is also
necessary, `guarded_congr` turns a one-step equivalence into an equivalence
about whole runs, and `reached_iff_guarded` says it for the states a run reaches.
-/

namespace TelegramPub.Verified.Machine

variable {σ ε : Type*}

/-- The state reached from `s` by taking the events of `es` in order. -/
def run (step : σ → ε → σ) (s : σ) (es : List ε) : σ := es.foldl step s

@[simp] theorem run_nil (step : σ → ε → σ) (s : σ) : run step s [] = s := rfl

@[simp] theorem run_cons (step : σ → ε → σ) (s : σ) (e : ε) (es : List ε) :
    run step s (e :: es) = run step (step s e) es := rfl

theorem run_append (step : σ → ε → σ) (s : σ) (es fs : List ε) :
    run step s (es ++ fs) = run step (run step s es) fs :=
  List.foldl_append

variable {step : σ → ε → σ} {Inv : σ → Prop}

/-- A predicate that no step breaks survives every run. -/
theorem run_invariant (hstep : ∀ s e, Inv s → Inv (step s e)) :
    ∀ (es : List ε) (s : σ), Inv s → Inv (run step s es) := by
  intro es
  induction es with
  | nil => intro s hs; exact hs
  | cons e es ih => intro s hs; exact ih _ (hstep s e hs)

/-- Every event of the run meets the guard `g` in the state it is taken in. -/
def Guarded (step : σ → ε → σ) (g : σ → ε → Prop) : σ → List ε → Prop
  | _, [] => True
  | s, e :: es => g s e ∧ Guarded step g (step s e) es

instance Guarded.decidable (step : σ → ε → σ) (g : σ → ε → Prop) [∀ s e, Decidable (g s e)] :
    ∀ (s : σ) (es : List ε), Decidable (Guarded step g s es)
  | _, [] => isTrue trivial
  | s, e :: es =>
    have := Guarded.decidable step g (step s e) es
    inferInstanceAs (Decidable (g s e ∧ Guarded step g (step s e) es))

variable {g P : σ → ε → Prop}

/-- A guard that no event can fail. -/
theorem guarded_of_forall (h : ∀ s e, g s e) :
    ∀ (es : List ε) (s : σ), Guarded step g s es := by
  intro es
  induction es with
  | nil => intro s; trivial
  | cons e es ih => intro s; exact ⟨h s e, ih _⟩

theorem guarded_append (step : σ → ε → σ) (g : σ → ε → Prop) :
    ∀ (es fs : List ε) (s : σ), Guarded step g s (es ++ fs) ↔
      (Guarded step g s es ∧ Guarded step g (run step s es) fs) := by
  intro es
  induction es with
  | nil => intro fs s; simp [Guarded]
  | cons e es ih =>
    intro fs s
    simp only [List.cons_append, Guarded, run_cons, ih, and_assoc]

/-- The beginning of a guarded run. -/
theorem Guarded.take {es : List ε} {s : σ} (h : Guarded step g s es) (k : Nat) :
    Guarded step g s (es.take k) := by
  rw [← List.take_append_drop k es, guarded_append] at h
  exact h.1

/-- A run that meets two guards. -/
theorem Guarded.and {g' : σ → ε → Prop} :
    ∀ {es : List ε} {s : σ}, Guarded step g s es → Guarded step g' s es →
      Guarded step (fun s e => g s e ∧ g' s e) s es := by
  intro es
  induction es with
  | nil => intro s _ _; trivial
  | cons e es ih => intro s hg hg'; exact ⟨⟨hg.1, hg'.1⟩, ih hg.2 hg'.2⟩

theorem Guarded.imp {g' : σ → ε → Prop} (h : ∀ s e, g s e → g' s e) :
    ∀ {es : List ε} {s : σ}, Guarded step g s es → Guarded step g' s es := by
  intro es
  induction es with
  | nil => intro s _; trivial
  | cons e es ih => intro s hg; exact ⟨h s e hg.1, ih hg.2⟩

/-- A predicate that no guarded step breaks survives every guarded run. -/
theorem guarded_invariant (hstep : ∀ s e, g s e → Inv s → Inv (step s e)) :
    ∀ (es : List ε) (s : σ), Guarded step g s es → Inv s →
      Inv (run step s es) := by
  intro es
  induction es with
  | nil => intro s _ hs; exact hs
  | cons e es ih => intro s hg hs; exact ih _ hg.2 (hstep s e hg.1 hs)

/-- The steps of a guarded run satisfy `P`, as soon as the guard gives `P` and
keeps the invariant on every single step. -/
theorem guarded_mono (hstep : ∀ s e, Inv s → g s e → P s e ∧ Inv (step s e)) :
    ∀ (es : List ε) (s : σ), Inv s → Guarded step g s es → Guarded step P s es := by
  intro es
  induction es with
  | nil => intro s _ _; trivial
  | cons e es ih =>
    intro s hs hg
    obtain ⟨hP, hs'⟩ := hstep s e hs hg.1
    exact ⟨hP, ih _ hs' hg.2⟩

/-- The steps of a run satisfy `P` exactly when they meet the guard `g`, as
soon as the two agree on every single step taken from an invariant state. -/
theorem guarded_congr (hstep : ∀ s e, Inv s → Inv (step s e))
    (hiff : ∀ s e, Inv s → (P s e ↔ g s e)) :
    ∀ (es : List ε) (s : σ), Inv s →
      (Guarded step P s es ↔ Guarded step g s es) := by
  intro es
  induction es with
  | nil => intro s _; simp [Guarded]
  | cons e es ih =>
    intro s hs
    simp only [Guarded, hiff s e hs, ih _ (hstep s e hs)]

/-- The same for the runs whose steps all meet `h`, where the invariant may
need the guard to survive a step. -/
theorem guarded_congr_within {h : σ → ε → Prop}
    (hstep : ∀ s e, Inv s → h s e → g s e → Inv (step s e))
    (hiff : ∀ s e, Inv s → h s e → (P s e ↔ g s e)) :
    ∀ (es : List ε) (s : σ), Inv s → Guarded step h s es →
      (Guarded step P s es ↔ Guarded step g s es) := by
  intro es
  induction es with
  | nil => intro s _ _; simp [Guarded]
  | cons e es ih =>
    intro s hs hh
    simp only [Guarded, hiff s e hs hh.1]
    refine and_congr_right fun hg => ?_
    exact ih _ (hstep s e hs hh.1 hg) hh.2

/-- `P` holds in every state that a run reaches exactly when the run meets the guard, as
soon as the guard keeps the invariant and a step that fails it breaks `P`. -/
theorem reached_iff_guarded (step : σ → ε → σ) (g : σ → ε → Prop) (P : σ → Prop)
    (hP : ∀ s, Inv s → P s) (hstep : ∀ s e, Inv s → g s e → Inv (step s e))
    (hback : ∀ s e, Inv s → ¬ g s e → ¬ P (step s e)) :
    ∀ (es : List ε) (s : σ), Inv s →
      ((∀ k, P (run step s (es.take k))) ↔ Guarded step g s es) := by
  intro es
  induction es with
  | nil =>
    intro s hs
    exact ⟨fun _ => trivial, fun _ k => by simpa using hP s hs⟩
  | cons e es ih =>
    intro s hs
    constructor
    · intro hreached
      have hg : g s e := by
        by_contra hg
        exact hback s e hs hg (hreached 1)
      exact ⟨hg, (ih _ (hstep s e hs hg)).1 fun k => hreached (k + 1)⟩
    · intro hg k
      cases k with
      | zero => exact hP s hs
      | succ k => exact (ih _ (hstep s e hs hg.1)).2 hg.2 k

end TelegramPub.Verified.Machine
