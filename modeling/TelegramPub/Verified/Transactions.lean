import Mathlib

/-!
# Sessions with transactions

A session with a database: the tables as the session sees them, the tables that are
committed, and whether a transaction is open.  Outside a transaction every statement
commits at once.  A procedure that may be called inside a transaction or outside of one
should leave it as it is: `Keeps`.  The usual pattern, a begin and a commit unless there
is a transaction already, does so if what stands between them does (`keeps_bracket`).
-/

namespace TelegramPub.Verified.Transactions

/-- What a session has asked of the database. -/
inductive Statement where
  | beginTransaction
  | commit
  | rollback
  | update
  deriving DecidableEq

/-- A session; without a transaction it sees what is committed. -/
structure Session (σ : Type) where
  committed : σ
  current : σ
  inTransaction : Bool := false
  issued : List Statement := []
  settled : inTransaction = false → current = committed

namespace Session

variable {σ β : Type}

def beginTransaction (s : Session σ) : Session σ where
  committed := s.committed
  current := s.current
  inTransaction := true
  issued := s.issued ++ [.beginTransaction]
  settled h := by cases h

def commit (s : Session σ) : Session σ where
  committed := s.current
  current := s.current
  inTransaction := false
  issued := s.issued ++ [.commit]
  settled _ := rfl

/-- What is not committed is lost. -/
def rollback (s : Session σ) : Session σ where
  committed := s.committed
  current := s.committed
  inTransaction := false
  issued := s.issued ++ [.rollback]
  settled _ := rfl

def update (s : Session σ) (f : σ → σ) : Session σ where
  committed := if s.inTransaction then s.committed else f s.current
  current := f s.current
  inTransaction := s.inTransaction
  issued := s.issued ++ [.update]
  settled h := by simp [h]

/-- One update after the other. -/
def execute (s : Session σ) (fs : List (σ → σ)) : Session σ := fs.foldl update s

/-- The procedure in a transaction: the one that is open, or its own. -/
def bracket (f : Session σ → Session σ) (s : Session σ) : Session σ :=
  let wasInTransaction := s.inTransaction
  let s := if wasInTransaction then s else s.beginTransaction
  let s := f s
  if wasInTransaction then s else s.commit

/-- No transaction is open, and a failure loses nothing. -/
structure Settled (s : Session σ) : Prop where
  closed : s.inTransaction = false
  kept : s.rollback.current = s.current

/-- The open transaction goes on: since then there have been updates only. -/
structure Inside (s t : Session σ) : Prop where
  inTransaction : t.inTransaction = true
  committed : t.committed = s.committed
  issued : ∃ more, t.issued = s.issued ++ more ∧ ∀ statement ∈ more, statement = .update

/-- A procedure leaves the transaction as it finds it, and a part of the tables unchanged. -/
structure Keeps (part : σ → β) (f : Session σ → Session σ) : Prop where
  outside : ∀ s, s.inTransaction = false → (f s).inTransaction = false
  inside : ∀ s, s.inTransaction = true → Inside s (f s)
  part : ∀ s, part (f s).current = part s.current

section Rules

variable {part : σ → β} {f g : Session σ → Session σ} {s t u : Session σ}

/-- Outside a transaction there is nothing to lose. -/
theorem settled_iff : Settled s ↔ s.inTransaction = false :=
  ⟨Settled.closed, fun h => ⟨h, (s.settled h).symm⟩⟩

theorem Inside.refl (h : s.inTransaction = true) : Inside s s :=
  ⟨h, rfl, [], (List.append_nil _).symm, fun _ hmem => by cases hmem⟩

theorem Inside.trans (h : Inside s t) (h' : Inside t u) : Inside s u := by
  obtain ⟨more, hmore, hupdates⟩ := h.issued
  obtain ⟨more', hmore', hupdates'⟩ := h'.issued
  refine ⟨h'.inTransaction, h'.committed.trans h.committed, more ++ more', ?_, ?_⟩
  · rw [hmore', hmore, List.append_assoc]
  · intro statement hmem
    rcases List.mem_append.1 hmem with hmem | hmem
    · exact hupdates statement hmem
    · exact hupdates' statement hmem

theorem keeps_id : Keeps part (fun s => s) where
  outside _ h := h
  inside _ h := .refl h
  part _ := rfl

theorem Keeps.comp (hf : Keeps part f) (hg : Keeps part g) : Keeps part fun s => g (f s) where
  outside s h := hg.outside _ (hf.outside s h)
  inside s h := (hf.inside s h).trans (hg.inside _ (hf.inside s h).inTransaction)
  part s := (hg.part _).trans (hf.part s)

theorem keeps_update {w : σ → σ} (hw : ∀ tables, part (w tables) = part tables) :
    Keeps part fun s => s.update w where
  outside _ h := h
  inside s h := ⟨h, by simp [update, h], [.update], rfl, fun _ hmem => List.mem_singleton.1 hmem⟩
  part s := hw s.current

theorem keeps_execute {ws : List (σ → σ)}
    (hws : ∀ w ∈ ws, ∀ tables, part (w tables) = part tables) :
    Keeps part fun s => s.execute ws := by
  induction ws with
  | nil => exact keeps_id
  | cons w ws ih =>
    have hfirst := keeps_update (hws w (.head _))
    have hrest := ih fun w' hw' => hws w' (.tail _ hw')
    exact hfirst.comp hrest

/-- Procedures one after the other. -/
theorem keeps_foldl {ι : Type} {step : Session σ → ι → Session σ} {list : List ι}
    (hstep : ∀ a ∈ list, Keeps part fun s => step s a) :
    Keeps part fun s => list.foldl step s := by
  induction list with
  | nil => exact keeps_id
  | cons a list ih =>
    have hfirst := hstep a (.head _)
    have hrest := ih fun b hb => hstep b (.tail _ hb)
    exact hfirst.comp hrest

theorem beginUnless_current (s : Session σ) :
    (if s.inTransaction = true then s else s.beginTransaction).current = s.current := by
  split <;> rfl

theorem bracket_of_outside (h : s.inTransaction = false) :
    bracket f s = (f s.beginTransaction).commit := by
  simp [bracket, h]

theorem bracket_of_inside (h : s.inTransaction = true) : bracket f s = f s := by
  simp [bracket, h]

/-- A begin and a commit unless there is a transaction already. -/
theorem keeps_bracket (hf : Keeps part f) : Keeps part (bracket f) where
  outside s h := by
    rw [bracket_of_outside h]
    rfl
  inside s h := by
    rw [bracket_of_inside h]
    exact hf.inside s h
  part s := by
    cases h : s.inTransaction with
    | false =>
      rw [bracket_of_outside h]
      exact hf.part s.beginTransaction
    | true =>
      rw [bracket_of_inside h]
      exact hf.part s

end Rules

end Session

end TelegramPub.Verified.Transactions
