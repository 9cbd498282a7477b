import TelegramPub.Verified.Bytes

/-!
# Readers over byte strings

A reader walks a byte string from a cursor.  It may run out of data or find a
value it does not accept, which its caller sees as an ordinary failure, or it
may do something the runtime answers by raising an exception; the three are
different outcomes and are kept apart (`Fault`).

The property of interest is *locality* (`Local`): what a reader returns is
decided by the bytes it consumes, so that appending more bytes changes
neither its answer nor how far it advances, unless it had run out of data.  Locality is closed under
sequencing and bounded repetition, and it is exactly what a reader that runs
to the end of its input does not have.

A reader of a *fixed width* (`FixedWidth`) accepts whatever is there and needs no more than that
the bytes are there.
-/

namespace TelegramPub.Verified.ByteReader

open Verified.Bytes

/-- Why a reader returned nothing. -/
inductive Fault where
  /-- The data ended before the value was complete. -/
  | endOfData
  /-- A value that was read is not acceptable. -/
  | rejected
  /-- The runtime raised an exception. -/
  | raised
  deriving DecidableEq

/-- A position in a byte string: how many bytes lie behind it, and the bytes
that lie ahead. -/
structure Cursor where
  offset : Nat
  rest : Data
  deriving DecidableEq

/-- The cursor at the start of a byte string. -/
def Cursor.start (data : Data) : Cursor := ⟨0, data⟩

/-- The same position in a longer string. -/
def Cursor.extend (c : Cursor) (more : Data) : Cursor := ⟨c.offset, c.rest ++ more⟩

abbrev Reader (α : Type) := StateT Cursor (Except Fault) α

/-- The next `n` bytes. -/
def take (n : Nat) : Reader Data := fun c =>
  if n ≤ c.rest.length then
    .ok (c.rest.take n, ⟨c.offset + n, c.rest.drop n⟩)
  else .error .endOfData

/-- Give up: the caller sees an ordinary failure. -/
def giveUp {α : Type} : Reader α := fun _ => .error .rejected

/-- Raise an exception. -/
def raise {α : Type} : Reader α := fun _ => .error .raised

/-- All the bytes ahead, without advancing. -/
def restOfData : Reader Data := fun c => .ok (c.rest, c)

/-- `n` values in a row. -/
def replicateM {α : Type} (p : Reader α) : Nat → Reader (List α)
  | 0 => pure []
  | n + 1 => do
      let a ← p
      let as ← replicateM p n
      return a :: as

variable {c : Cursor}

theorem take_of_le {n : Nat} (h : n ≤ c.rest.length) :
    take n c = .ok (c.rest.take n, ⟨c.offset + n, c.rest.drop n⟩) := if_pos h

theorem take_of_lt {n : Nat} (h : c.rest.length < n) :
    take n c = .error .endOfData := if_neg (by omega)

/-- Bytes that follow the ones a reader consumes are irrelevant to it, both
when it succeeds and when it fails for another reason than the end of the
data. -/
structure Local {α : Type} (p : Reader α) : Prop where
  ok : ∀ {c c' : Cursor} {a : α} (more : Data),
    p c = .ok (a, c') → p (c.extend more) = .ok (a, c'.extend more)
  error : ∀ {c : Cursor} {e : Fault} (more : Data), e ≠ .endOfData →
    p c = .error e → p (c.extend more) = .error e

variable {α β : Type}

theorem bind_apply (p : Reader α) (f : α → Reader β) (c : Cursor) :
    (p >>= f) c = match p c with
      | .ok (a, c') => f a c'
      | .error e => .error e := by
  show (p c >>= fun x => f x.1 x.2) = _
  cases p c with
  | ok x => rfl
  | error e => rfl

@[simp] theorem pure_apply (a : α) (c : Cursor) :
    (pure a : Reader α) c = .ok (a, c) := rfl

theorem local_pure (a : α) : Local (pure a : Reader α) where
  ok := by
    intro c c' b more h
    simp only [pure_apply, Except.ok.injEq, Prod.mk.injEq] at h ⊢
    exact ⟨h.1, by rw [h.2]⟩
  error := by
    intro c e more _ h
    simp at h

variable {p : Reader α}

theorem Local.bind {f : α → Reader β} (hp : Local p) (hf : ∀ a, Local (f a)) : Local (p >>= f) where
  ok := by
    intro c c' b more h
    rw [bind_apply] at h ⊢
    cases hpc : p c with
    | error e => rw [hpc] at h; cases h
    | ok x =>
      rw [hpc] at h
      rw [hp.ok more hpc]
      exact (hf x.1).ok more h
  error := by
    intro c e more he h
    rw [bind_apply] at h ⊢
    cases hpc : p c with
    | error e' =>
      rw [hpc] at h
      cases h
      rw [hp.error more he hpc]
    | ok x =>
      rw [hpc] at h
      rw [hp.ok more hpc]
      exact (hf x.1).error more he h

theorem local_take (n : Nat) : Local (take n) where
  ok := by
    intro c c' a more h
    by_cases hn : n ≤ c.rest.length
    · have hn' : n ≤ (c.rest ++ more).length := by
        rw [List.length_append]; omega
      simp only [take, hn, if_true, Except.ok.injEq, Prod.mk.injEq] at h
      obtain ⟨rfl, rfl⟩ := h
      simp only [take, Cursor.extend, hn', if_true]
      rw [List.take_append_of_le_length hn, List.drop_append_of_le_length hn]
    · simp [take, hn] at h
  error := by
    intro c e more he h
    by_cases hn : n ≤ c.rest.length
    · simp [take, hn] at h
    · simp only [take, hn, if_false, Except.error.injEq] at h
      exact absurd h.symm he

theorem local_giveUp : Local (giveUp : Reader α) where
  ok := by intro c c' a more h; cases h
  error := by intro c e more _ h; exact h

theorem Local.replicateM (hp : Local p) :
    ∀ n, Local (replicateM p n) := by
  intro n
  induction n with
  | zero => exact local_pure []
  | succ n ih =>
    exact hp.bind fun a => ih.bind fun as => local_pure (a :: as)

theorem Local.ite {P : Prop} [Decidable P] {p q : Reader α} (hp : Local p) (hq : Local q)
    : Local (if P then p else q) := by
  split
  · exact hp
  · exact hq

/-! ## Readers of a fixed width -/

/-- The position `n` bytes ahead. -/
def Cursor.advance (c : Cursor) (n : Nat) : Cursor := ⟨c.offset + n, c.rest.drop n⟩

@[simp] theorem Cursor.advance_zero (c : Cursor) : c.advance 0 = c := rfl

theorem Cursor.advance_advance (c : Cursor) (m n : Nat) :
    (c.advance m).advance n = c.advance (m + n) := by
  simp only [advance, List.drop_drop, Nat.add_assoc]

theorem Cursor.length_advance (c : Cursor) (n : Nat) :
    (c.advance n).rest.length = c.rest.length - n := List.length_drop

@[simp] theorem Cursor.length_advance_start (data : Data) (n : Nat) :
    ((Cursor.start data).advance n).rest.length = data.length - n := List.length_drop

theorem giveUp_ne_ok {x : α × Cursor} :
    (giveUp : Reader α) c ≠ .ok x := by
  intro h
  cases h

theorem bind_eq_ok {f : α → Reader β} {c' : Cursor} {b : β} :
    (p >>= f) c = .ok (b, c') ↔ ∃ a d, p c = .ok (a, d) ∧ f a d = .ok (b, c') := by
  rw [bind_apply]
  cases hpc : p c with
  | error e => simp
  | ok x =>
    obtain ⟨a, d⟩ := x
    simp

/-- A reader that accepts any `w` bytes, and nothing shorter. -/
structure FixedWidth {α : Type} (p : Reader α) (w : Nat) : Prop where
  consumes : ∀ {c c' : Cursor} {a : α}, p c = .ok (a, c') →
    w ≤ c.rest.length ∧ c' = c.advance w
  succeeds : ∀ {c : Cursor}, w ≤ c.rest.length → ∃ a, p c = .ok (a, c.advance w)

theorem fixedWidth_take (n : Nat) : FixedWidth (take n) n where
  consumes := by
    intro c c' a h
    by_cases hn : n ≤ c.rest.length
    · rw [take_of_le hn] at h
      exact ⟨hn, (Prod.mk.inj (Except.ok.inj h)).2.symm⟩
    · rw [take_of_lt (by omega)] at h
      cases h
  succeeds := fun hn => ⟨_, take_of_le hn⟩

theorem fixedWidth_pure (a : α) : FixedWidth (pure a : Reader α) 0 where
  consumes := by
    intro c c' b h
    rw [pure_apply] at h
    exact ⟨Nat.zero_le _, (Prod.mk.inj (Except.ok.inj h)).2.symm⟩
  succeeds := fun _ => ⟨a, rfl⟩

theorem FixedWidth.bind {f : α → Reader β} {v w : Nat} (hp : FixedWidth p v)
    (hf : ∀ a, FixedWidth (f a) w) : FixedWidth (p >>= f) (v + w) where
  consumes := by
    intro c c' b h
    obtain ⟨a, d, ha, hb⟩ := bind_eq_ok.1 h
    obtain ⟨hv, rfl⟩ := hp.consumes ha
    obtain ⟨hw, rfl⟩ := (hf a).consumes hb
    rw [Cursor.length_advance] at hw
    exact ⟨by omega, Cursor.advance_advance c v w⟩
  succeeds := by
    intro c h
    obtain ⟨a, ha⟩ := hp.succeeds (c := c) (by omega)
    have hrest : w ≤ (c.advance v).rest.length := by
      rw [Cursor.length_advance]
      omega
    obtain ⟨b, hb⟩ := (hf a).succeeds hrest
    rw [Cursor.advance_advance] at hb
    exact ⟨b, bind_eq_ok.2 ⟨a, _, ha, hb⟩⟩

theorem FixedWidth.replicateM {w : Nat} (hp : FixedWidth p w) :
    ∀ n, FixedWidth (replicateM p n) (n * w) := by
  intro n
  induction n with
  | zero =>
    rw [Nat.zero_mul]
    exact fixedWidth_pure []
  | succ n ih =>
    rw [Nat.succ_mul, Nat.add_comm (n * w)]
    exact hp.bind fun a => ih.bind fun as => fixedWidth_pure (a :: as)

end TelegramPub.Verified.ByteReader
