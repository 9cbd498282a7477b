import TelegramPub.Verified.ByteReader

/-!
# Readers that undo an encoding

`Reads p bytes a` says that the reader `p` takes exactly these bytes, whatever follows them,
and returns `a`.  A reader put together from smaller ones reads the encodings of the parts
one after the other.
-/

namespace TelegramPub.Verified.ByteReader

open Verified.Bytes

variable {α β : Type}

def Reads (p : Reader α) (bytes : Data) (a : α) : Prop :=
  ∀ (offset : Nat) (more : Data),
    p ⟨offset, bytes ++ more⟩ = .ok (a, ⟨offset + bytes.length, more⟩)

theorem reads_pure (a : α) : Reads (pure a) [] a := fun _ _ => rfl

theorem Reads.bind {p : Reader α} {f : α → Reader β} {bytes bytes' : Data} {a : α} {b : β}
    (hp : Reads p bytes a) (hf : Reads (f a) bytes' b) : Reads (p >>= f) (bytes ++ bytes') b := by
  intro offset more
  rw [bind_apply, List.append_assoc, hp]
  show f a ⟨offset + bytes.length, bytes' ++ more⟩ = _
  rw [hf, List.length_append, Nat.add_assoc]

/-- A last step that only makes the result. -/
theorem Reads.map {p : Reader α} {bytes : Data} {a : α} (hp : Reads p bytes a) (f : α → β) :
    Reads (p >>= fun a => pure (f a)) bytes (f a) := by
  have h := hp.bind (f := fun a => pure (f a)) (reads_pure (f a))
  rwa [List.append_nil] at h

theorem reads_take (bytes : Data) : Reads (take bytes.length) bytes bytes := by
  intro offset more
  rw [take_of_le (by simp), List.take_left, List.drop_left]

/-- A reader of as many elements as are asked for takes the first ones. -/
theorem reads_replicateM {p : Reader α} {encode : α → Data} {as : List α}
    (h : ∀ a ∈ as, Reads p (encode a) a) {n : Nat} (hn : n ≤ as.length) :
    Reads (replicateM p n) ((as.take n).flatMap encode) (as.take n) := by
  induction n generalizing as with
  | zero => exact reads_pure []
  | succ n ih =>
    cases as with
    | nil => simp at hn
    | cons a as =>
      have hlater : ∀ b ∈ as, Reads p (encode b) b :=
        fun b hb => h b (.tail _ hb)
      have hrest := ih hlater (by simpa using hn)
      exact (h a (.head _)).bind (hrest.map _)

/-- What a reader of an encoding makes of a whole string. -/
theorem Reads.start {p : Reader α} {bytes : Data} {a : α} (h : Reads p bytes a) (more : Data) :
    p (.start (bytes ++ more)) = .ok (a, ⟨bytes.length, more⟩) := by
  rw [Cursor.start, h, Nat.zero_add]

end TelegramPub.Verified.ByteReader
