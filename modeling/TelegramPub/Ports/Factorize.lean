import TelegramPub.Verified.Loop
import Mathlib.Data.Nat.Prime.Basic
import Mathlib.Data.Nat.ModEq
import Mathlib.Tactic.Ring

/-!
# MTFactorize

A search for a cycle of `x ↦ x² + q`, with a new start for every pass.  The three loops inside
one another are the pass, the turns of the search and the multiplication; the greatest common
divisor has two loops of its own.

The numbers have 64 bits and their sums wrap.  `lrand48` gives numbers of 31 bits, two for each
pass.  The shift that makes the bound of a pass counts modulo 32, as the processors do it; the
language gives it no meaning from the thirteenth pass on.
-/

namespace TelegramPub.Ports.Factorize

open Verified.Loop

/-- What can go wrong. -/
inductive Fault where
  | divisionByZero
  | rangeException
  | endless
  deriving DecidableEq

/-- What `lrand48` gives. -/
abbrev Draws := Nat → Fin (2 ^ 31)

/-! ## The greatest common divisor -/

/-- `while ((v & 1) == 0) v >>= 1`. -/
def stripTurn (v : UInt64) : Except Fault (UInt64 ⊕ UInt64) :=
  if v &&& 1 = 0 then .ok (.inl (v >>> 1)) else .ok (.inr v)

def strip (v : UInt64) : Except Fault UInt64 := loop .endless stripTurn (v.toNat + 1) v

def mygcdTurn (s : UInt64 × UInt64) : Except Fault ((UInt64 × UInt64) ⊕ UInt64) :=
  if s.1 ≠ 0 ∧ s.2 ≠ 0 then do
    let b ← strip s.2
    let a ← strip s.1
    if a > b then pure (.inl (a - b, b)) else pure (.inl (a, b - a))
  else pure (.inr (if s.2 = 0 then s.1 else s.2))

/-- `mygcd`. -/
def mygcd (a b : UInt64) : Except Fault UInt64 :=
  loop .endless mygcdTurn (a.toNat + b.toNat + 1) (a, b)

structure Product where
  a : UInt64
  b : UInt64
  c : UInt64

/-- `if (s >= what) s -= what`. -/
def reduce (what s : UInt64) : UInt64 := if s ≥ what then s - what else s

def productTurn (what : UInt64) (m : Product) : Except Fault (Product ⊕ UInt64) :=
  if m.b ≠ 0 then
    let c := if m.b &&& 1 ≠ 0 then reduce what (m.c + m.a) else m.c
    .ok (.inl { a := reduce what (m.a + m.a), b := m.b >>> 1, c })
  else .ok (.inr m.c)

/-- The multiplication of `x` by itself begins with `q`. -/
def squareStart (q x : UInt64) : Product := { a := x, b := x, c := q }

def square (what q x : UInt64) : Except Fault UInt64 :=
  loop .endless (productTurn what) (x.toNat + 1) (squareStart q x)

/-- The variables of a pass. -/
structure Search where
  j : Nat
  it : Nat
  x : UInt64
  y : UInt64
  g : UInt64

/-- `if (!(j & (j - 1))) y = x`. -/
def Search.nextY (s : Search) (x : UInt64) : UInt64 := if s.j &&& (s.j - 1) = 0 then x else s.y

def searchTurn (what q : UInt64) (lim : Int) (s : Search) : Except Fault (Search ⊕ Search) :=
  if s.j < lim then do
    let it := s.it + 1
    let x ← square what q s.x
    let z := if x < s.y then what + x - s.y else x - s.y
    let g ← mygcd z what
    if g ≠ 1 then pure (.inr { s with it, x, g })
    else pure (.inl { j := s.j + 1, it, x, y := s.nextY x, g })
  else pure (.inr s)

/-- `a % b`. -/
def modulo (a b : UInt64) : Except Fault UInt64 :=
  if b = 0 then .error .divisionByZero else .ok (a % b)

/-- `1 << (i + 18)`. -/
def limit (i : Nat) : Int := ((1 : BitVec 32) <<< ((i + 18) % 32)).toInt

/-- The counters of the passes. -/
structure Passes where
  i : Nat := 0
  it : Nat := 0
  g : UInt64 := 0

/-- How a pass begins: `q` and the variables. -/
def passStart (draws : Draws) (what : UInt64) (s : Passes) : Except Fault (UInt64 × Search) := do
  let q ← modulo ((UInt64.ofNat (draws (2 * s.i)) &&& 15) + 17) what
  let x ← modulo (UInt64.ofNat (draws (2 * s.i + 1))) (what - 1)
  pure (q, { j := 1, it := s.it, x := x + 1, y := x + 1, g := s.g })

/-- Whether a divisor is a proper one. -/
def isProper (what g : UInt64) : Bool := 1 < g && g < what

def passTurn (draws : Draws) (what : UInt64) (s : Passes) : Except Fault (Passes ⊕ UInt64) :=
  if s.i < 3 ∨ s.it < 1000 then do
    let (q, start) ← passStart draws what s
    let lim := limit s.i
    let found ← loop .endless (searchTurn what q lim) (lim.toNat + 1) start
    if isProper what found.g then pure (.inr found.g)
    else pure (.inl { i := s.i + 1, it := found.it, g := found.g })
  else pure (.inr s.g)

/-- `MTFactorize`: the factors, or `none` when it returns `false`. -/
def mtFactorize (draws : Draws) (what : UInt64) : Except Fault (Option (UInt64 × UInt64)) := do
  let g ← loop .endless (passTurn draws what) 4000 {}
  if isProper what g then
    let p1 := g
    let p2 := what / g
    pure (some (if p1 > p2 then (p2, p1) else (p1, p2)))
  else pure none

/-! ## The greatest common divisor -/

theorem toNat_and_one (v : UInt64) : (v &&& 1).toNat = v.toNat % 2 := by
  rw [UInt64.toNat_and]
  exact Nat.and_one_is_mod v.toNat

theorem toNat_half (v : UInt64) : (v >>> 1).toNat = v.toNat / 2 := by
  rw [UInt64.toNat_shiftRight]
  exact Nat.shiftRight_one v.toNat

variable {v what : UInt64}

/-- The lowest bit says whether a number is even. -/
theorem and_one_eq_zero : v &&& 1 = 0 ↔ v.toNat % 2 = 0 := by
  rw [← UInt64.toNat_inj, toNat_and_one]
  rfl

theorem ne_zero_iff : v ≠ 0 ↔ 0 < v.toNat := by
  rw [ne_eq, ← UInt64.toNat_inj, Nat.pos_iff_ne_zero]
  rfl

/-- An odd divisor of a number that loses factors of two. -/
def SameOddDivisors (v w : UInt64) : Prop := ∀ d : Nat, d % 2 = 1 → (d ∣ v.toNat ↔ d ∣ w.toNat)

theorem sameOddDivisors_half (h : v.toNat % 2 = 0) : SameOddDivisors v (v >>> 1) := by
  intro d hd
  have hcoprime : Nat.Coprime d 2 := (Nat.coprime_two_right).2 (Nat.odd_iff.2 hd)
  have htwice : v.toNat = 2 * (v >>> 1).toNat := by
    rw [toNat_half]
    omega
  rw [htwice]
  exact hcoprime.dvd_mul_left

/-- A positive number keeps its odd divisors and becomes odd. -/
theorem strip_spec (hv : v ≠ 0) :
    ∃ w, strip v = .ok w ∧ w.toNat % 2 = 1 ∧ w.toNat ≤ v.toNat ∧ SameOddDivisors v w := by
  refine loop_total (I := fun u => 0 < u.toNat ∧ u.toNat ≤ v.toNat ∧ SameOddDivisors v u)
    UInt64.toNat ?_ ⟨ne_zero_iff.1 hv, le_refl _, fun _ _ => Iff.rfl⟩ (Nat.lt_succ_self _)
  intro u ⟨hpos, hle, hsame⟩
  by_cases heven : u.toNat % 2 = 0
  · left
    have hhalf := toNat_half u
    refine ⟨u >>> 1, by rw [stripTurn, if_pos (and_one_eq_zero.2 heven)], ⟨?_, ?_, ?_⟩, ?_⟩
    · omega
    · omega
    · intro d hd
      exact (hsame d hd).trans (sameOddDivisors_half heven d hd)
    · omega
  · right
    exact ⟨u, by rw [stripTurn, if_neg (mt and_one_eq_zero.1 heven)], by omega, hle, hsame⟩

/-- The odd common divisors. -/
def SameCommonDivisors (s t : UInt64 × UInt64) : Prop :=
  ∀ d : Nat, d % 2 = 1 →
    ((d ∣ s.1.toNat ∧ d ∣ s.2.toNat) ↔ (d ∣ t.1.toNat ∧ d ∣ t.2.toNat))

/-- In front of every turn the first number is positive, and it is odd when the second one is
zero. -/
structure GcdInvariant (start s : UInt64 × UInt64) : Prop where
  pos : 0 < s.1.toNat
  odd : s.2.toNat = 0 → s.1.toNat % 2 = 1
  same : SameCommonDivisors start s

/-- One turn with positive numbers. -/
theorem mygcdTurn_spec {start s : UInt64 × UInt64} (h : GcdInvariant start s)
    (hpos : 0 < s.2.toNat) :
    ∃ s', mygcdTurn s = .ok (.inl s') ∧ GcdInvariant start s' ∧
      s'.1.toNat + s'.2.toNat < s.1.toNat + s.2.toNat := by
  obtain ⟨b, hb, hbodd, hble, hbsame⟩ := strip_spec (ne_zero_iff.2 hpos)
  obtain ⟨a, ha, haodd, hale, hasame⟩ := strip_spec (ne_zero_iff.2 h.pos)
  have hsame : ∀ d : Nat, d % 2 = 1 →
      ((d ∣ start.1.toNat ∧ d ∣ start.2.toNat) ↔ (d ∣ a.toNat ∧ d ∣ b.toNat)) := by
    intro d hd
    rw [h.same d hd, hasame d hd, hbsame d hd]
  have hturn : mygcdTurn s =
      if a > b then .ok (.inl (a - b, b)) else .ok (.inl (a, b - a)) := by
    rw [mygcdTurn, if_pos ⟨ne_zero_iff.2 h.pos, ne_zero_iff.2 hpos⟩, hb, ha]
    rfl
  by_cases hlt : b.toNat < a.toNat
  · have hsub : (a - b).toNat = a.toNat - b.toNat := UInt64.toNat_sub_of_le _ _ (le_of_lt hlt)
    refine ⟨(a - b, b), by rw [hturn, if_pos (UInt64.lt_iff_toNat_lt.2 hlt)], ⟨?_, ?_, ?_⟩, ?_⟩
    · show 0 < (a - b).toNat
      omega
    · show b.toNat = 0 → _
      omega
    · intro d hd
      show _ ↔ d ∣ (a - b).toNat ∧ d ∣ b.toNat
      rw [hsame d hd, hsub]
      constructor
      · rintro ⟨hda, hdb⟩
        exact ⟨Nat.dvd_sub hda hdb, hdb⟩
      · rintro ⟨hdsub, hdb⟩
        exact ⟨(Nat.dvd_sub_iff_left (le_of_lt hlt) hdb).1 hdsub, hdb⟩
    · show (a - b).toNat + b.toNat < _
      omega
  · have hle : a.toNat ≤ b.toNat := not_lt.1 hlt
    have hsub : (b - a).toNat = b.toNat - a.toNat := UInt64.toNat_sub_of_le _ _ hle
    refine ⟨(a, b - a), by rw [hturn, if_neg (mt UInt64.lt_iff_toNat_lt.1 hlt)], ⟨?_, ?_, ?_⟩, ?_⟩
    · show 0 < a.toNat
      omega
    · intro _
      exact haodd
    · intro d hd
      show _ ↔ d ∣ a.toNat ∧ d ∣ (b - a).toNat
      rw [hsame d hd, hsub]
      constructor
      · rintro ⟨hda, hdb⟩
        exact ⟨hda, Nat.dvd_sub hdb hda⟩
      · rintro ⟨hda, hdsub⟩
        exact ⟨hda, (Nat.dvd_sub_iff_left hle hda).1 hdsub⟩
    · show a.toNat + (b - a).toNat < _
      omega

/-- What is asked of a divisor of two numbers. -/
structure CommonDivisor (a b g : UInt64) : Prop where
  left : g.toNat ∣ a.toNat
  right : g.toNat ∣ b.toNat
  odd : 0 < a.toNat → 0 < b.toNat → g.toNat % 2 = 1
  greatest : 0 < a.toNat → 0 < b.toNat →
    ∀ d : Nat, d % 2 = 1 → d ∣ a.toNat → d ∣ b.toNat → d ∣ g.toNat

/-- Without a zero the loop ends in the odd part of the greatest common divisor. -/
theorem mygcd_pos {a b : UInt64} (ha : 0 < a.toNat) (hb : 0 < b.toNat) :
    ∃ g, mygcd a b = .ok g ∧ CommonDivisor a b g := by
  have hstart : GcdInvariant (a, b) (a, b) := ⟨ha, fun hzero => by
    have hzero : b.toNat = 0 := hzero
    omega, fun _ _ => Iff.rfl⟩
  refine loop_total (fun s => s.1.toNat + s.2.toNat) ?_ hstart (Nat.lt_succ_self _)
  intro s h
  by_cases hzero : s.2.toNat = 0
  · right
    have hs2 : s.2 = 0 := UInt64.toNat_inj.1 hzero
    have hodd := h.odd hzero
    have hdvd : ∀ d : Nat, d % 2 = 1 → ((d ∣ a.toNat ∧ d ∣ b.toNat) ↔ d ∣ s.1.toNat) := by
      intro d hd
      rw [h.same d hd, hzero, and_iff_left (Nat.dvd_zero d)]
    refine ⟨s.1, by rw [mygcdTurn, if_neg (fun hne => hne.2 hs2), if_pos hs2]; rfl, ?_⟩
    obtain ⟨hleft, hright⟩ := (hdvd s.1.toNat hodd).2 (Nat.dvd_refl _)
    exact ⟨hleft, hright, fun _ _ => hodd, fun _ _ d hd hda hdb => (hdvd d hd).1 ⟨hda, hdb⟩⟩
  · left
    exact mygcdTurn_spec h (Nat.pos_of_ne_zero hzero)

theorem mygcd_spec (a b : UInt64) : ∃ g, mygcd a b = .ok g ∧ CommonDivisor a b g := by
  by_cases hpos : 0 < a.toNat ∧ 0 < b.toNat
  · exact mygcd_pos hpos.1 hpos.2
  · have hzero : ¬ (a ≠ 0 ∧ b ≠ 0) := fun h => hpos ⟨ne_zero_iff.1 h.1, ne_zero_iff.1 h.2⟩
    refine ⟨if b = 0 then a else b, ?_, ?_⟩
    · simp only [mygcd, loop, mygcdTurn, if_neg hzero]
      rfl
    · have hvacuous : 0 < a.toNat → 0 < b.toNat → False := fun ha hb => hpos ⟨ha, hb⟩
      by_cases hb : b = 0
      · rw [if_pos hb]
        refine ⟨Nat.dvd_refl _, ?_, fun ha hb => (hvacuous ha hb).elim, fun ha hb =>
          (hvacuous ha hb).elim⟩
        rw [hb]
        exact Nat.dvd_zero _
      · have ha : a = 0 := not_not.1 fun ha => hzero ⟨ha, hb⟩
        rw [if_neg hb]
        refine ⟨?_, Nat.dvd_refl _, fun ha hb => (hvacuous ha hb).elim, fun ha hb =>
          (hvacuous ha hb).elim⟩
        rw [ha]
        exact Nat.dvd_zero _

theorem toNat_add {u : UInt64} (h : u.toNat + v.toNat < 2 ^ 64) :
    (u + v).toNat = u.toNat + v.toNat := by
  rw [UInt64.toNat_add]
  exact Nat.mod_eq_of_lt h

/-- A sum of two numbers below `what` has at most one `what` too many. -/
theorem reduce_add {u : UInt64} (hwhat : what.toNat < 2 ^ 63) (hu : u.toNat < what.toNat)
    (hv : v.toNat < what.toNat) :
    (reduce what (u + v)).toNat < what.toNat ∧
      (reduce what (u + v)).toNat ≡ u.toNat + v.toNat [MOD what.toNat] := by
  have hsum : (u + v).toNat = u.toNat + v.toNat := toNat_add (by omega)
  by_cases hle : what.toNat ≤ u.toNat + v.toNat
  · have hge : u + v ≥ what := UInt64.le_iff_toNat_le.2 (by omega)
    have hsub : (u + v - what).toNat = u.toNat + v.toNat - what.toNat := by
      rw [UInt64.toNat_sub_of_le _ _ hge, hsum]
    rw [reduce, if_pos hge, hsub]
    refine ⟨by omega, ?_⟩
    have hback : u.toNat + v.toNat = u.toNat + v.toNat - what.toNat + what.toNat := by omega
    calc u.toNat + v.toNat - what.toNat
        ≡ u.toNat + v.toNat - what.toNat + what.toNat [MOD what.toNat] := by
          simp [Nat.ModEq]
      _ = u.toNat + v.toNat := hback.symm
  · have hlt : ¬ u + v ≥ what := fun hge => hle (by
      have := UInt64.le_iff_toNat_le.1 hge
      omega)
    rw [reduce, if_neg hlt, hsum]
    exact ⟨by omega, Nat.ModEq.refl _⟩

/-- What the multiplication keeps: the numbers are reduced, and what is added already and what
is still to be added make the result. -/
structure ProductInvariant (what : UInt64) (result : Nat) (m : Product) : Prop where
  a : m.a.toNat < what.toNat
  c : m.c.toNat < what.toNat
  value : m.c.toNat + m.a.toNat * m.b.toNat ≡ result [MOD what.toNat]

theorem productInvariant_step {result : Nat} {m m' : Product} (hwhat : what.toNat < 2 ^ 63)
    (h : ProductInvariant what result m) (hturn : productTurn what m = .ok (.inl m'))
    : ProductInvariant what result m' := by
  obtain ⟨ha, hadouble⟩ := reduce_add hwhat h.a h.a
  obtain ⟨hc, hcsum⟩ := reduce_add hwhat h.c h.a
  rw [productTurn] at hturn
  split at hturn
  · cases hturn
    have hhalf := toNat_half m.b
    by_cases heven : m.b.toNat % 2 = 0
    · have hskip : ¬ m.b &&& 1 ≠ 0 := not_not.2 (and_one_eq_zero.2 heven)
      simp only [if_neg hskip]
      refine ⟨ha, h.c, ?_⟩
      have hb : m.b.toNat = 2 * (m.b >>> 1).toNat := by omega
      calc m.c.toNat + (reduce what (m.a + m.a)).toNat * (m.b >>> 1).toNat
          ≡ m.c.toNat + (m.a.toNat + m.a.toNat) * (m.b >>> 1).toNat [MOD what.toNat] :=
            (hadouble.mul_right _).add_left _
        _ = m.c.toNat + m.a.toNat * m.b.toNat := by rw [hb]; ring
        _ ≡ result [MOD what.toNat] := h.value
    · have hadd : m.b &&& 1 ≠ 0 := mt and_one_eq_zero.1 heven
      simp only [if_pos hadd]
      refine ⟨ha, hc, ?_⟩
      have hb : m.b.toNat = 2 * (m.b >>> 1).toNat + 1 := by omega
      calc (reduce what (m.c + m.a)).toNat + (reduce what (m.a + m.a)).toNat * (m.b >>> 1).toNat
          ≡ m.c.toNat + m.a.toNat + (m.a.toNat + m.a.toNat) * (m.b >>> 1).toNat
              [MOD what.toNat] := hcsum.add (hadouble.mul_right _)
        _ = m.c.toNat + m.a.toNat * m.b.toNat := by rw [hb]; ring
        _ ≡ result [MOD what.toNat] := h.value
  · cases hturn

theorem productInvariant_start {q x : UInt64} (hq : q.toNat < what.toNat)
    (hx : x.toNat < what.toNat) :
    ProductInvariant what (q.toNat + x.toNat * x.toNat) (squareStart q x) :=
  ⟨hx, hq, Nat.ModEq.refl _⟩

/-- The multiplication ends, and it is the one modulo `what` when no sum wraps. -/
theorem square_spec (what q x : UInt64) :
    ∃ r, square what q x = .ok r ∧
      (what.toNat < 2 ^ 63 → q.toNat < what.toNat → x.toNat < what.toNat →
        r.toNat = (q.toNat + x.toNat * x.toNat) % what.toNat) := by
  refine loop_total (I := fun m => what.toNat < 2 ^ 63 → q.toNat < what.toNat →
      x.toNat < what.toNat → ProductInvariant what (q.toNat + x.toNat * x.toNat) m)
    (fun m => m.b.toNat) ?_ (fun _ hq hx => productInvariant_start hq hx) (Nat.lt_succ_self _)
  intro m h
  by_cases hb : m.b ≠ 0
  · grind [ne_zero_iff, productInvariant_step, productTurn, toNat_half]
  · right
    refine ⟨m.c, by rw [productTurn, if_neg hb], fun hwhat hq hx => ?_⟩
    have hinv := h hwhat hq hx
    have hvalue := hinv.value
    have hzero : m.b.toNat = 0 := by rw [not_not.1 hb]; rfl
    rw [hzero, Nat.mul_zero, Nat.add_zero] at hvalue
    rw [← hvalue, Nat.mod_eq_of_lt hinv.c]

theorem searchTurn_cases (what q : UInt64) (lim : Int) (s : Search) :
    (lim ≤ s.j ∧ searchTurn what q lim s = .ok (.inr s)) ∨
      (s.j < lim ∧ ∃ x g y, square what q s.x = .ok x ∧ g.toNat ∣ what.toNat ∧
        (searchTurn what q lim s = .ok (.inr { s with it := s.it + 1, x, g }) ∨
          searchTurn what q lim s = .ok (.inl { j := s.j + 1, it := s.it + 1, x, y, g }))) := by
  by_cases hlim : (s.j : Int) < lim
  · right
    obtain ⟨x, hx, _⟩ := square_spec what q s.x
    obtain ⟨g, hg, hdivisor⟩ := mygcd_spec (if x < s.y then what + x - s.y else x - s.y) what
    refine ⟨hlim, x, g, s.nextY x, hx, hdivisor.right, ?_⟩
    have hturn : searchTurn what q lim s =
        if g ≠ 1 then .ok (.inr { s with it := s.it + 1, x, g })
        else .ok (.inl { j := s.j + 1, it := s.it + 1, x, y := s.nextY x, g }) := by
      rw [searchTurn, if_pos hlim, hx]
      show (mygcd _ what >>= _) = _
      rw [hg]
      rfl
    by_cases hone : g ≠ 1
    · left
      rw [hturn, if_pos hone]
    · right
      rw [hturn, if_neg hone]
  · left
    exact ⟨not_lt.1 hlim, by rw [searchTurn, if_neg hlim]; rfl⟩

/-- The multiplication gives a reduced number. -/
theorem square_lt {q x r : UInt64} (hwhat : what.toNat < 2 ^ 63) (hq : q.toNat < what.toNat)
    (hx : x.toNat < what.toNat) (h : square what q x = .ok r) :
    r.toNat < what.toNat := by
  obtain ⟨r', hr', hvalue⟩ := square_spec what q x
  rw [hr'] at h
  cases h
  rw [hvalue hwhat hq hx]
  exact Nat.mod_lt _ (by omega)

/-- The numbers of the sequence are reduced, the last one too. -/
theorem searchTurn_reduced {q : UInt64} {lim : Int} {s s' : Search} (hwhat : what.toNat < 2 ^ 63)
    (hq : q.toNat < what.toNat) (hx : s.x.toNat < what.toNat)
    (hturn : searchTurn what q lim s = .ok (.inl s') ∨ searchTurn what q lim s = .ok (.inr s')) :
    s'.x.toNat < what.toNat := by
  rcases searchTurn_cases what q lim s with ⟨_, hend⟩ | ⟨_, x, g, y, hsquare, _, hend | hnext⟩
  · grind
  · rw [hend] at hturn
    rcases hturn with h | h <;> cases h
    exact square_lt hwhat hq hx hsquare
  · rw [hnext] at hturn
    rcases hturn with h | h <;> cases h
    exact square_lt hwhat hq hx hsquare

/-- What a search leaves: a bound above one gives at least one turn, and a new `g` is a
divisor. -/
structure SearchResult (what : UInt64) (lim : Int) (start r : Search) : Prop where
  it : start.it ≤ r.it
  turns : 1 < lim → start.it < r.it
  g : r.g = start.g ∨ r.g.toNat ∣ what.toNat

theorem search_spec (what q : UInt64) (lim : Int) (start : Search) (hj : start.j = 1) :
    ∃ r, loop .endless (searchTurn what q lim) (lim.toNat + 1) start = .ok r ∧
      SearchResult what lim start r := by
  refine loop_total (I := fun s => (start.it < s.it ∨ start.it = s.it ∧ s.j = 1) ∧
      (s.g = start.g ∨ s.g.toNat ∣ what.toNat))
    (fun s => lim.toNat - s.j) ?_ ⟨.inr ⟨rfl, hj⟩, .inl rfl⟩ (by omega)
  rintro s ⟨hit, hg⟩
  rcases searchTurn_cases what q lim s with ⟨hlim, hend⟩ |
    ⟨hlim, x, g, y, _, hdvd, hend | hnext⟩
  · right
    exact ⟨s, hend, by omega, by omega, hg⟩
  · right
    refine ⟨_, hend, ?_, fun _ => ?_, .inr hdvd⟩
    · show start.it ≤ s.it + 1
      omega
    · show start.it < s.it + 1
      omega
  · grind

/-- From two on there is nothing to divide by zero. -/
theorem passStart_spec (draws : Draws) (hwhat : 2 ≤ what.toNat) (s : Passes) :
    ∃ q x, passStart draws what s = .ok (q, { j := 1, it := s.it, x, y := x, g := s.g }) ∧
      q.toNat < what.toNat ∧ x.toNat < what.toNat := by
  have hone : (what - 1).toNat = what.toNat - 1 :=
    UInt64.toNat_sub_of_le _ _ (UInt64.le_iff_toNat_le.2 (Nat.le_of_lt hwhat))
  have hne : what ≠ 0 := ne_zero_iff.2 (by omega)
  have hne1 : what - 1 ≠ 0 := ne_zero_iff.2 (by omega)
  refine ⟨((UInt64.ofNat (draws (2 * s.i)) &&& 15) + 17) % what,
    UInt64.ofNat (draws (2 * s.i + 1)) % (what - 1) + 1, ?_, ?_, ?_⟩
  · rw [passStart, modulo, if_neg hne, modulo, if_neg hne1]
    rfl
  · rw [UInt64.toNat_mod]
    exact Nat.mod_lt _ (by omega)
  · have hmod : (UInt64.ofNat (draws (2 * s.i + 1)) % (what - 1)).toNat < what.toNat - 1 := by
      rw [UInt64.toNat_mod, hone]
      exact Nat.mod_lt _ (by omega)
    have hlt := what.toNat_lt
    have hsucc : (UInt64.ofNat (draws (2 * s.i + 1)) % (what - 1) + 1).toNat =
        (UInt64.ofNat (draws (2 * s.i + 1)) % (what - 1)).toNat + 1 :=
      toNat_add (by
        show _ + 1 < 2 ^ 64
        omega)
    omega

/-- How long a bound stays below two. -/
def late (i : Nat) : Nat :=
  if (i + 18) % 32 = 31 then 2 else if (i + 18) % 32 = 0 then 1 else 0

theorem limit_of_late {i : Nat} (h : late i = 0) : 1 < limit i := by
  have hall : ∀ k : Fin 32, (k : Nat) ≠ 31 → (k : Nat) ≠ 0 →
      1 < ((1 : BitVec 32) <<< (k : Nat)).toInt := by decide
  have hk : (i + 18) % 32 < 32 := Nat.mod_lt _ (by decide)
  refine hall ⟨(i + 18) % 32, hk⟩ (fun h31 => ?_) (fun h0 => ?_)
  · rw [late, if_pos h31] at h
    cases h
  · have h0 : (i + 18) % 32 = 0 := h0
    simp [late, h0] at h

theorem late_succ {i : Nat} : late i ≠ 0 → late (i + 1) < late i := by
  simp only [late]
  split_ifs <;> omega

theorem late_le (i : Nat) : late i ≤ 2 := by
  unfold late
  split_ifs <;> omega

/-- A turn with a bound above one counts, and it is at most two turns until such a one. -/
def Passes.variant (s : Passes) : Nat := 3 * (1000 - s.it) + 3 * (3 - s.i) + late s.i

theorem variant_lt {s : Passes} (hrun : s.i < 3 ∨ s.it < 1000) {it : Nat} {g : UInt64}
    (hit : s.it ≤ it) (hturns : 1 < limit s.i → s.it < it) :
    Passes.variant { i := s.i + 1, it, g } < s.variant := by
  have hle := late_le (s.i + 1)
  simp only [Passes.variant]
  by_cases hlate : late s.i = 0
  · have hmore := hturns (limit_of_late hlate)
    omega
  · have hnext := late_succ hlate
    omega

/-- A pass ends, and what it finds divides. -/
theorem passTurn_spec (draws : Draws) (hwhat : 2 ≤ what.toNat) {s : Passes}
    (hg : s.g = 0 ∨ s.g.toNat ∣ what.toNat) :
    (∃ s', passTurn draws what s = .ok (.inl s') ∧ (s'.g = 0 ∨ s'.g.toNat ∣ what.toNat) ∧
        s'.variant < s.variant) ∨
      ∃ g, passTurn draws what s = .ok (.inr g) ∧ (g = 0 ∨ g.toNat ∣ what.toNat) := by
  by_cases hrun : s.i < 3 ∨ s.it < 1000
  · obtain ⟨q, x, hstart, _, _⟩ := passStart_spec draws hwhat s
    obtain ⟨r, hr, hit, hturns, hrg⟩ := search_spec what q (limit s.i)
      { j := 1, it := s.it, x, y := x, g := s.g } rfl
    have hturn : passTurn draws what s =
        if isProper what r.g then .ok (.inr r.g)
        else .ok (.inl { i := s.i + 1, it := r.it, g := r.g }) := by
      rw [passTurn, if_pos hrun, hstart]
      show (loop _ _ _ _ >>= _) = _
      rw [hr]
      rfl
    have hdvd : r.g = 0 ∨ r.g.toNat ∣ what.toNat := by
      grind
    by_cases hproper : isProper what r.g = true
    · right
      exact ⟨r.g, by rw [hturn, if_pos hproper], hdvd⟩
    · left
      exact ⟨_, by rw [hturn, if_neg hproper], hdvd, variant_lt hrun hit hturns⟩
  · right
    exact ⟨s.g, by rw [passTurn, if_neg hrun]; rfl, hg⟩

theorem passes_spec (draws : Draws) (hwhat : 2 ≤ what.toNat) :
    ∃ g, loop .endless (passTurn draws what) 4000 {} = .ok g ∧
      (g = 0 ∨ g.toNat ∣ what.toNat) :=
  loop_total Passes.variant (fun _ hg => passTurn_spec draws hwhat hg) (.inl rfl) (by decide)

/-- Two proper factors in their order. -/
def IsFactorization (what resA resB : UInt64) : Prop :=
  1 < resA ∧ resA ≤ resB ∧ resA.toNat * resB.toNat = what.toNat

/-- A proper divisor and its quotient, the smaller one first. -/
theorem isFactorization_of_dvd {g : UInt64} (hproper : isProper what g = true)
    (hdvd : g.toNat ∣ what.toNat) {resA resB : UInt64}
    (h : (if g > what / g then (what / g, g) else (g, what / g)) = (resA, resB)) :
    IsFactorization what resA resB := by
  simp only [isProper, Bool.and_eq_true, decide_eq_true_eq] at hproper
  obtain ⟨h1, hlt⟩ := hproper
  have h1 : 1 < g.toNat := UInt64.lt_iff_toNat_lt.1 h1
  have hlt : g.toNat < what.toNat := UInt64.lt_iff_toNat_lt.1 hlt
  have hquot : (what / g).toNat = what.toNat / g.toNat := UInt64.toNat_div _ _
  have hmul : g.toNat * (what / g).toNat = what.toNat := by
    rw [hquot]
    exact Nat.mul_div_cancel' hdvd
  have hquot1 : 1 < (what / g).toNat := by
    by_contra hle
    have : (what / g).toNat = 0 ∨ (what / g).toNat = 1 := by omega
    rcases this with h0 | h0 <;> rw [h0] at hmul <;> omega
  split at h
  · next hgt =>
      cases h
      have hle : what / g ≤ g := UInt64.le_iff_toNat_le.2 (le_of_lt hgt)
      exact ⟨UInt64.lt_iff_toNat_lt.2 hquot1, hle, by rw [Nat.mul_comm]; exact hmul⟩
  · next hle =>
      cases h
      exact ⟨UInt64.lt_iff_toNat_lt.2 h1, UInt64.not_lt.1 hle, hmul⟩

/-- From two on `MTFactorize` ends, and what it returns is a factorization. -/
theorem mtFactorize_spec (draws : Draws) (hwhat : 2 ≤ what.toNat) :
    ∃ r, mtFactorize draws what = .ok r ∧
      ∀ resA resB, r = some (resA, resB) → IsFactorization what resA resB := by
  obtain ⟨g, hg, hdvd⟩ := passes_spec draws hwhat
  have hrun : mtFactorize draws what =
      if isProper what g then
        .ok (some (if g > what / g then (what / g, g) else (g, what / g)))
      else .ok none := by
    rw [mtFactorize, hg]
    rfl
  by_cases hproper : isProper what g = true
  · refine ⟨_, by rw [hrun, if_pos hproper], fun resA resB h => ?_⟩
    rcases hdvd with rfl | hdvd
    · cases hproper
    · exact isFactorization_of_dvd hproper hdvd (Option.some.inj h)
  · exact ⟨none, by rw [hrun, if_neg hproper], fun resA resB h => by cases h⟩

/-- No sum of the search wraps: in every turn of every pass `x` is below `what`, before and
after, and the sums of every turn of the multiplication are below `2^64`. -/
def NoSumWraps (draws : Draws) (what : UInt64) : Prop :=
  ∀ passes, Visits (passTurn draws what) {} passes → ∀ q start,
    passStart draws what passes = .ok (q, start) →
      ∀ s, Visits (searchTurn what q (limit passes.i)) start s →
        s.x.toNat < what.toNat ∧
          (∀ r, searchTurn what q (limit passes.i) s = .ok (.inr r) → r.x.toNat < what.toNat) ∧
          ∀ m, Visits (productTurn what) (squareStart q s.x) m →
            m.c.toNat + m.a.toNat < 2 ^ 64 ∧ m.a.toNat + m.a.toNat < 2 ^ 64

theorem noSumWraps (draws : Draws) (h2 : 2 ≤ what.toNat) (hwhat : what.toNat < 2 ^ 63)
    : NoSumWraps draws what := by
  intro passes _ q start hstart s hs
  obtain ⟨q', x, hpass, hq, hx⟩ := passStart_spec draws h2 passes
  rw [hpass] at hstart
  cases hstart
  have hreduced : s.x.toNat < what.toNat :=
    hs.invariant (I := fun s => s.x.toNat < what.toNat)
      (fun s s' hs hturn => searchTurn_reduced hwhat hq hs (.inl hturn)) hx
  refine ⟨hreduced, fun r hr => searchTurn_reduced hwhat hq hreduced (.inr hr), fun m hm => ?_⟩
  have hproduct : ProductInvariant what (q.toNat + s.x.toNat * s.x.toNat) m :=
    hm.invariant (fun m m' hm hturn => productInvariant_step hwhat hm hturn)
      (productInvariant_start hq hreduced)
  have ha := hproduct.a
  have hc := hproduct.c
  omega

/-- `MTFactorize` and `mygcd`. -/
theorem mtFactorize_exact (draws : Draws) (what : UInt64) (h2 : 2 ≤ what.toNat)
    (hwhat : what.toNat < 2 ^ 63) :
    (∃ r, mtFactorize draws what = .ok r ∧
        ∀ resA resB, r = some (resA, resB) → IsFactorization what resA resB) ∧
      NoSumWraps draws what ∧
      ∀ a b, ∃ g, mygcd a b = .ok g ∧ CommonDivisor a b g :=
  ⟨mtFactorize_spec draws h2, noSumWraps draws h2 hwhat, mygcd_spec⟩

/-- A run that finds the factors. -/
theorem mtFactorize_thirtyFive :
    mtFactorize (fun n => Fin.ofNat _ (n * 7919 + 12345)) 35 = .ok (some (5, 7)) ∧
      IsFactorization 35 5 7 := by
  have hrun : mtFactorize (fun n => Fin.ofNat _ (n * 7919 + 12345)) 35 = .ok (some (5, 7)) := by
    decide +kernel
  obtain ⟨⟨r, hr, hfactors⟩, _⟩ :=
    mtFactorize_exact (fun n => Fin.ofNat _ (n * 7919 + 12345)) 35 (by decide) (by decide)
  rw [hrun] at hr
  exact ⟨hrun, hfactors 5 7 (Except.ok.inj hr).symm⟩

end TelegramPub.Ports.Factorize
