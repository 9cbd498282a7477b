import TelegramPub.Verified.Bytes

/-!
# Handlers over a received byte string

A handler works through the bytes of a message.  Its checked reads throw when the
bytes run out, and the exception is caught outside.  What the checks do not cover is
kept apart: an assertion that fails, a read past the end of the message, and the call
of a function outside its precondition.  A handler is *safe* on a message when it
meets none of these and leaves with no mutex locked.

The state of a handler is the rest of the message.

* `safeOutcome_bind_iff`, `Safe.bind` and the rules for the operations: a handler is safe on
  every message when its parts are.
* `readBytes_append`, `readNat_append`: what a checked read takes from the front.
-/

namespace TelegramPub.Verified.CheckedStream

open Verified.Bytes

/-- Why a handler stopped before its end. -/
inductive Stop where
  /-- It is done with the message. -/
  | next
  /-- The whole program gives up. -/
  | failed
  /-- A checked read ran out of bytes, and the exception was caught. -/
  | outOfRange
  /-- An assertion failed. -/
  | assertion
  /-- Bytes past the end of the message were read. -/
  | outside
  /-- A function was called outside its precondition. -/
  | precondition
  deriving DecidableEq

/-- A stop, and whether a mutex was locked at that point. -/
structure Halt where
  stop : Stop
  mutexLocked : Bool := false
  deriving DecidableEq

/-- A handler takes bytes from the front of the message. -/
abbrev Handler (α : Type) := StateT Data (Except Halt) α

def halt {α : Type} (stop : Stop) : Handler α := fun _ => .error { stop }

def remaining : Handler Nat := fun rest => .ok (rest.length, rest)

/-- A checked read of `n` bytes. -/
def readBytes (n : Nat) : Handler Data := fun rest =>
  if rest.length < n then .error { stop := .outOfRange } else .ok (rest.take n, rest.drop n)

/-- A checked read of a little-endian number of `n` bytes. -/
def readNat (n : Nat) : Handler Nat := do
  let bytes ← readBytes n
  return leNat bytes

/-- A checked step forward. -/
def skip (n : Nat) : Handler Unit := fun rest =>
  if rest.length < n then .error { stop := .outOfRange } else .ok ((), rest.drop n)

/-- An unchecked look at the next `n` bytes. -/
def peek (n : Nat) : Handler Data := fun rest =>
  if rest.length < n then .error { stop := .outside } else .ok (rest.take n, rest)

/-- An assertion. -/
def check (P : Prop) [Decidable P] : Handler Unit := fun rest =>
  if P then .ok ((), rest) else .error { stop := .assertion }

/-- A part that runs with a mutex locked. -/
def holdingMutex {α : Type} (m : Handler α) : Handler α := fun rest =>
  match m rest with
  | .ok r => .ok r
  | .error h => .error { h with mutexLocked := true }

variable {α β : Type} {rest : Data}

variable {m : Handler α}

theorem bind_ok {f : α → Handler β} {rest' : Data} {a : α}
    (h : m rest = .ok (a, rest')) : (m >>= f) rest = f a rest' := by
  show (m rest >>= fun r => f r.1 r.2) = _
  rw [h]
  rfl

theorem bind_error {f : α → Handler β} {e : Halt} (h : m rest = .error e)
    : (m >>= f) rest = .error e := by
  show (m rest >>= fun r => f r.1 r.2) = _
  rw [h]
  rfl

@[simp] theorem pure_apply (a : α) (rest : Data) :
    (pure a : Handler α) rest = .ok (a, rest) := rfl

variable {n : Nat}

theorem readBytes_of_lt (h : rest.length < n) :
    readBytes n rest = .error { stop := .outOfRange } := if_pos h

theorem readBytes_of_le (h : n ≤ rest.length) :
    readBytes n rest = .ok (rest.take n, rest.drop n) := if_neg (by omega)

theorem readBytes_append {bytes : Data} (h : bytes.length = n) (rest : Data) :
    readBytes n (bytes ++ rest) = .ok (bytes, rest) := by
  subst h
  rw [readBytes_of_le (by simp)]
  simp

theorem readNat_of_lt (h : rest.length < n) :
    readNat n rest = .error { stop := .outOfRange } := bind_error (readBytes_of_lt h)

theorem readNat_of_le (h : n ≤ rest.length) :
    readNat n rest = .ok (leNat (rest.take n), rest.drop n) := bind_ok (readBytes_of_le h)

theorem readNat_append {bytes : Data} (h : bytes.length = n) (rest : Data) :
    readNat n (bytes ++ rest) = .ok (leNat bytes, rest) := bind_ok (readBytes_append h rest)

/-- Reading back a number that was written in `n` bytes. -/
theorem readNat_natLE {v : Nat} (hv : v < 256 ^ n) (rest : Data) :
    readNat n (natLE n v ++ rest) = .ok (v, rest) := by
  rw [readNat_append (length_natLE n v), leNat_natLE, Nat.mod_eq_of_lt hv]

theorem skip_of_le (h : n ≤ rest.length) :
    skip n rest = .ok ((), rest.drop n) := if_neg (by omega)

theorem skip_append {bytes : Data} (h : bytes.length = n) (rest : Data) :
    skip n (bytes ++ rest) = .ok ((), rest) := by
  subst h
  rw [skip_of_le (by simp)]
  simp

theorem peek_of_lt (h : rest.length < n) :
    peek n rest = .error { stop := .outside } := if_pos h

theorem peek_of_le (h : n ≤ rest.length) :
    peek n rest = .ok (rest.take n, rest) := if_neg (by omega)

/-- A handler ends, or stops in a way that the program provides for. -/
def SafeOutcome {α : Type} : Except Halt (α × Data) → Prop
  | .ok _ => True
  | .error h =>
    h.mutexLocked = false ∧ (h.stop = .next ∨ h.stop = .failed ∨ h.stop = .outOfRange)

instance {α : Type} (o : Except Halt (α × Data)) : Decidable (SafeOutcome o) :=
  match o with
  | .ok _ => .isTrue trivial
  | .error _ => inferInstanceAs (Decidable (_ ∧ _))

/-- A handler is safe on every message. -/
def Safe {α : Type} (m : Handler α) : Prop := ∀ rest, SafeOutcome (m rest)

theorem safeOutcome_error_iff {stop : Stop} :
    SafeOutcome (.error { stop } : Except Halt (α × Data)) ↔
      (stop = .next ∨ stop = .failed ∨ stop = .outOfRange) := by
  simp [SafeOutcome]

/-- The parts of a handler one after the other. -/
theorem safeOutcome_bind_iff (m : Handler α) (f : α → Handler β) (rest : Data) :
    SafeOutcome ((m >>= f) rest) ↔
      SafeOutcome (m rest) ∧ ∀ a rest', m rest = .ok (a, rest') → SafeOutcome (f a rest') := by
  cases h : m rest with
  | ok r =>
    rw [bind_ok (show m rest = .ok (r.1, r.2) from h)]
    constructor
    · rintro hf
      refine ⟨trivial, ?_⟩
      rintro a rest' heq
      obtain rfl := Except.ok.inj heq
      exact hf
    · rintro ⟨_, hf⟩
      exact hf r.1 r.2 rfl
  | error e =>
    rw [bind_error h]
    exact ⟨fun he => ⟨he, fun _ _ heq => nomatch heq⟩, fun hs => hs.1⟩

theorem Safe.bind {f : α → Handler β} (hm : Safe m) (hf : ∀ a, Safe (f a)) : Safe (m >>= f) :=
  fun rest => (safeOutcome_bind_iff m f rest).mpr ⟨hm rest, fun a rest' _ => hf a rest'⟩

theorem Safe.pure (a : α) : Safe (pure a : Handler α) := fun _ => trivial

theorem Safe.ite {P : Prop} [Decidable P] {m n : Handler α} (hm : Safe m) (hn : Safe n)
    : Safe (if P then m else n) := by
  split
  · exact hm
  · exact hn

theorem safe_halt {stop : Stop} (h : stop = .next ∨ stop = .failed ∨ stop = .outOfRange)
    : Safe (halt stop : Handler α) :=
  fun _ => ⟨rfl, h⟩

theorem safe_next : Safe (halt .next : Handler α) := safe_halt (.inl rfl)

theorem safe_failed : Safe (halt .failed : Handler α) := safe_halt (.inr (.inl rfl))

theorem safe_readBytes (n : Nat) : Safe (readBytes n) := by
  intro rest
  unfold readBytes
  split
  · exact ⟨rfl, .inr (.inr rfl)⟩
  · trivial

theorem safe_readNat (n : Nat) : Safe (readNat n) :=
  (safe_readBytes n).bind fun _ => Safe.pure _

theorem safe_skip (n : Nat) : Safe (skip n) := by
  intro rest
  unfold skip
  split
  · exact ⟨rfl, .inr (.inr rfl)⟩
  · trivial

/-- A part that ends may run with the mutex locked. -/
theorem safeOutcome_holdingMutex {rest' : Data} {a : α}
    (h : m rest = .ok (a, rest')) : SafeOutcome (holdingMutex m rest) := by
  unfold holdingMutex
  rw [h]
  trivial

end TelegramPub.Verified.CheckedStream
