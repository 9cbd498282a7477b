import Mathlib.NumberTheory.LegendreSymbol.QuadraticReciprocity

/-!
# Small numbers modulo a safe prime

A safe prime `p` above 7 is 3 modulo 4 and 2 modulo 3, so the reciprocity law decides by the
remainder of `p` modulo a small number whether 2, 3, 5, 6 or 7 is a square.  A square other
than 0 and 1 has the order `(p - 1) / 2`, which is a prime.
-/

namespace TelegramPub.Verified.SafePrime

/-- A prime whose half is a prime, above the small ones. -/
structure IsSafePrime (p : Nat) : Prop where
  prime : p.Prime
  half : ((p - 1) / 2).Prime
  gt : 7 < p

variable {p : Nat}

/-- The half is an odd number. -/
theorem IsSafePrime.mod_four (h : IsSafePrime p) : p % 4 = 3 := by
  have hp : p % 2 = 1 := h.prime.eq_two_or_odd.resolve_left (by have := h.gt; omega)
  have hhalf : (p - 1) / 2 % 2 = 1 := h.half.eq_two_or_odd.resolve_left (by have := h.gt; omega)
  omega

theorem IsSafePrime.mod_three (h : IsSafePrime p) : p % 3 = 2 := by
  have hgt := h.gt
  have hfour := h.mod_four
  have hp : p % 3 ≠ 0 := fun hzero => by
    have h3 := (Nat.prime_dvd_prime_iff_eq Nat.prime_three h.prime).1 (Nat.dvd_of_mod_eq_zero hzero)
    omega
  have hhalf : (p - 1) / 2 % 3 ≠ 0 := fun hzero => by
    have h3 := (Nat.prime_dvd_prime_iff_eq Nat.prime_three h.half).1 (Nat.dvd_of_mod_eq_zero hzero)
    omega
  omega

theorem IsSafePrime.ne_two (h : IsSafePrime p) : p ≠ 2 := by
  have := h.gt
  omega

theorem residues_five : ∀ r < 5, r ≠ 0 → (IsSquare ((r : Nat) : ZMod 5) ↔ r = 1 ∨ r = 4) := by
  decide

theorem residues_seven :
    ∀ r < 7, (¬ IsSquare ((r : Nat) : ZMod 7) ↔ r = 3 ∨ r = 5 ∨ r = 6) := by
  decide

theorem IsSafePrime.isSquare_two (h : IsSafePrime p) : IsSquare (2 : ZMod p) ↔ p % 8 = 7 := by
  have := Fact.mk h.prime
  have hfour := h.mod_four
  rw [ZMod.exists_sq_eq_two_iff h.ne_two]
  omega

theorem IsSafePrime.isSquare_three (h : IsSafePrime p) : IsSquare (3 : ZMod p) := by
  have := Fact.mk h.prime
  have hgt := h.gt
  have hnot : ¬ IsSquare ((p : Nat) : ZMod 3) := by
    rw [← ZMod.natCast_mod p 3, h.mod_three]
    decide
  exact_mod_cast (ZMod.exists_sq_eq_prime_iff_of_mod_four_eq_three h.mod_four
    (show 3 % 4 = 3 by decide) (by omega)).2 hnot

theorem isSquare_four : IsSquare (4 : ZMod p) := ⟨2, by norm_num⟩

theorem IsSafePrime.isSquare_five (h : IsSafePrime p) :
    IsSquare (5 : ZMod p) ↔ p % 5 = 1 ∨ p % 5 = 4 := by
  have := Fact.mk h.prime
  have := Fact.mk Nat.prime_five
  have hgt := h.gt
  have hne : p % 5 ≠ 0 := fun hzero => by
    have h5 := (Nat.prime_dvd_prime_iff_eq Nat.prime_five h.prime).1 (Nat.dvd_of_mod_eq_zero hzero)
    omega
  have hswap := ZMod.exists_sq_eq_prime_iff_of_mod_four_eq_one (p := 5) (q := p) (by decide)
    h.ne_two
  rw [← ZMod.natCast_mod p 5, residues_five _ (Nat.mod_lt _ (by decide)) hne] at hswap
  rw [hswap]
  norm_cast

theorem IsSafePrime.isSquare_six (h : IsSafePrime p) :
    IsSquare (6 : ZMod p) ↔ p % 24 = 19 ∨ p % 24 = 23 := by
  have := Fact.mk h.prime
  have hgt := h.gt
  have hthree := h.mod_three
  have hne : (3 : ZMod p) ≠ 0 := by
    have h3 : ((3 : Nat) : ZMod p) ≠ 0 := fun hzero =>
      absurd (Nat.le_of_dvd (by decide) ((ZMod.natCast_eq_zero_iff 3 p).1 hzero)) (by omega)
    exact_mod_cast h3
  obtain ⟨s, hs⟩ := h.isSquare_three
  have hs0 : s ≠ 0 := fun hzero => hne (by rw [hs, hzero, mul_zero])
  have hsix : (6 : ZMod p) = 2 * (s * s) := by
    rw [← hs]
    norm_num
  have htwo : IsSquare (6 : ZMod p) ↔ IsSquare (2 : ZMod p) := by
    constructor
    · rintro ⟨t, ht⟩
      refine ⟨t / s, ?_⟩
      rw [div_mul_div_comm, ← ht, hsix]
      field_simp
    · rintro ⟨t, ht⟩
      exact ⟨t * s, by rw [hsix, ht]; ring⟩
  rw [htwo, h.isSquare_two]
  omega

theorem IsSafePrime.isSquare_seven (h : IsSafePrime p) :
    IsSquare (7 : ZMod p) ↔ p % 7 = 3 ∨ p % 7 = 5 ∨ p % 7 = 6 := by
  have := Fact.mk h.prime
  have := Fact.mk (show Nat.Prime 7 by decide)
  have hgt := h.gt
  have hswap := ZMod.exists_sq_eq_prime_iff_of_mod_four_eq_three h.mod_four
    (show 7 % 4 = 3 by decide) (by omega)
  rw [← ZMod.natCast_mod p 7, residues_seven _ (Nat.mod_lt _ (by decide))] at hswap
  rw [← hswap]
  norm_cast

theorem IsSafePrime.isSquare_iff_orderOf (h : IsSafePrime p) {a : ZMod p} (h0 : a ≠ 0)
    (h1 : a ≠ 1) :
    IsSquare a ↔ orderOf a = (p - 1) / 2 := by
  have := Fact.mk h.prime
  have := Fact.mk h.half
  have hhalf : p / 2 = (p - 1) / 2 := by
    have := h.mod_four
    omega
  rw [ZMod.euler_criterion p h0, hhalf]
  constructor
  · intro hpow
    exact orderOf_eq_prime hpow h1
  · intro horder
    rw [← horder]
    exact pow_orderOf_eq_one a

/-- A small number is neither 0 nor 1. -/
theorem IsSafePrime.natCast_ne (h : IsSafePrime p) {g : Nat} (hg : 2 ≤ g) (hg7 : g ≤ 7) :
    (g : ZMod p) ≠ 0 ∧ (g : ZMod p) ≠ 1 := by
  have hgt := h.gt
  constructor
  · intro hzero
    have := Nat.le_of_dvd (by omega) ((ZMod.natCast_eq_zero_iff g p).1 hzero)
    omega
  · intro hone
    have hmod : g % p = 1 % p := (ZMod.natCast_eq_natCast_iff' g 1 p).1 (by rw [hone, Nat.cast_one])
    rw [Nat.mod_eq_of_lt (by omega), Nat.mod_eq_of_lt (by omega)] at hmod
    omega

end TelegramPub.Verified.SafePrime
