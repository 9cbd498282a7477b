import TelegramPub.Verified.Bytes

/-!
# Counter mode

A stream cipher made of a block function: the keystream is the blocks of
successive counters, and each byte of the text is combined with the next byte of
the keystream.  The state between two calls is the next counter, the position in
the current block and the block itself.

`crypt` takes the text byte by byte.  It may be cut anywhere (`crypt_append`), and
the same keystream takes the cipher text back (`crypt_crypt`).  `crypt_keystream` says
which byte of which block is combined with a byte of the text.
-/

namespace TelegramPub.Verified.CounterMode

open Verified.Bytes

/-- The state of the cipher.  The next byte comes from position `num` of the block
`ecount`, or from a new block if `num` is zero. -/
structure Ctr (σ : Type) where
  counter : σ
  num : Nat := 0
  ecount : Data := []
  deriving DecidableEq

variable {σ : Type} (block : σ → Data) (next : σ → σ)

/-- A new block when the last one is used up. -/
def refill (c : Ctr σ) : Ctr σ :=
  if c.num = 0 then { c with counter := next c.counter, ecount := block c.counter } else c

/-- The byte of the keystream at the position. -/
def Ctr.mask (c : Ctr σ) (i : Nat) : UInt8 := c.ecount.getD i 0

/-- The text combined with the keystream. -/
def crypt : Ctr σ → Data → Ctr σ × Data
  | c, [] => (c, [])
  | c, b :: bs =>
    let c := refill block next c
    let rest := crypt { c with num := (c.num + 1) % 16 } bs
    (rest.1, (b ^^^ c.mask c.num) :: rest.2)

@[simp] theorem crypt_nil (c : Ctr σ) : crypt block next c [] = (c, []) := rfl

theorem crypt_append (c : Ctr σ) (xs ys : Data) :
    crypt block next c (xs ++ ys) =
      ((crypt block next (crypt block next c xs).1 ys).1,
        (crypt block next c xs).2 ++ (crypt block next (crypt block next c xs).1 ys).2) := by
  induction xs generalizing c with
  | nil => rfl
  | cons b bs ih => simp [crypt, ih]

@[simp] theorem length_crypt (c : Ctr σ) (xs : Data) :
    (crypt block next c xs).2.length = xs.length := by
  induction xs generalizing c with
  | nil => rfl
  | cons b bs ih => simp [crypt, ih]

/-- Decryption is encryption. -/
theorem crypt_crypt (c : Ctr σ) (xs : Data) :
    crypt block next c (crypt block next c xs).2 = ((crypt block next c xs).1, xs) := by
  induction xs generalizing c with
  | nil => rfl
  | cons b bs ih =>
    simp only [crypt, ih, UInt8.xor_assoc, UInt8.xor_self, UInt8.xor_zero]

theorem crypt_position (c : Ctr σ) {xs ys : Data} (h : xs.length = ys.length) :
    (crypt block next c xs).1 = (crypt block next c ys).1 := by
  induction xs generalizing c ys with
  | nil => rw [List.length_eq_zero_iff.1 h.symm]
  | cons b bs ih =>
    cases ys with
    | nil => simp at h
    | cons b' bs' => exact ih _ (by simpa using h)

/-- A byte of the keystream: the blocks of successive counters one after the other. -/
def keystream (start : σ) (i : Nat) : UInt8 := (block (next^[i / 16] start)).getD (i % 16) 0

/-- The state after some bytes of the keystream were used. -/
structure At (start : σ) (i : Nat) (c : Ctr σ) : Prop where
  position : c.num = i % 16
  fresh : i % 16 = 0 → c.counter = next^[i / 16] start
  used : i % 16 ≠ 0 → c.counter = next^[i / 16 + 1] start ∧ c.ecount = block (next^[i / 16] start)

variable {block next}

theorem At.refill {start : σ} {i : Nat} {c : Ctr σ} (h : At block next start i c) :
    (refill block next c).num = i % 16 ∧
      (refill block next c).counter = next^[i / 16 + 1] start ∧
      (refill block next c).ecount = block (next^[i / 16] start) := by
  unfold CounterMode.refill
  by_cases hnum : c.num = 0
  · have hfresh := h.fresh (h.position.symm.trans hnum)
    rw [if_pos hnum]
    exact ⟨h.position, by rw [hfresh, Function.iterate_succ_apply'], by rw [hfresh]⟩
  · rw [if_neg hnum]
    exact ⟨h.position, h.used fun hzero => hnum (h.position.trans hzero)⟩

/-- Each byte of the text is combined with the byte of the keystream at its place. -/
theorem crypt_keystream {start : σ} (bytes : Data) :
    ∀ {i : Nat} {c : Ctr σ}, At block next start i c →
      (crypt block next c bytes).2 =
          (bytes.zipIdx i).map (fun (b, i) => b ^^^ keystream block next start i) ∧
        At block next start (i + bytes.length) (crypt block next c bytes).1 := by
  induction bytes with
  | nil => exact fun h => ⟨rfl, h⟩
  | cons b bs ih =>
    intro i c h
    obtain ⟨hnum, hcounter, hecount⟩ := h.refill
    have hnext : At block next start (i + 1)
        { refill block next c with num := ((refill block next c).num + 1) % 16 } := by
      refine ⟨?_, fun hfresh => ?_, fun hused => ?_⟩
      · show ((refill block next c).num + 1) % 16 = (i + 1) % 16
        rw [hnum]
        omega
      · have hblock : (i + 1) / 16 = i / 16 + 1 := by omega
        rw [hblock]
        exact hcounter
      · have hblock : (i + 1) / 16 = i / 16 := by omega
        rw [hblock]
        exact ⟨hcounter, hecount⟩
    obtain ⟨hrest, hend⟩ := ih hnext
    have hlength : i + (b :: bs).length = i + 1 + bs.length := by
      rw [List.length_cons]
      omega
    rw [crypt, List.zipIdx_cons, List.map_cons, hlength]
    refine ⟨?_, hend⟩
    dsimp only
    rw [hrest]
    unfold Ctr.mask keystream
    rw [hnum, hecount]

end TelegramPub.Verified.CounterMode
