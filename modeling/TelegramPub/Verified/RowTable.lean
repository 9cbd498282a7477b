import Mathlib.Data.List.Nodup

/-!
# Tables with growing row ids

A table whose primary key is assigned on insertion and never used twice.  The rows are kept
in the order of their ids, which is the order of their insertion, and the largest id ever
given is remembered.

An id identifies a row (`RowTable.eq_of_id_eq`), and deleting rows by their ids deletes just
the rows that have been named (`RowTable.mem_deleteIds`).
-/

namespace TelegramPub.Verified

/-- A row and its id. -/
structure Row (α : Type*) where
  id : Nat
  value : α
  deriving DecidableEq

/-- The rows of a table, oldest first. -/
structure RowTable (α : Type*) where
  rows : List (Row α)
  lastId : Nat
  ascending : rows.Pairwise (fun r r' => r.id < r'.id)
  le_lastId : ∀ r ∈ rows, r.id ≤ lastId

namespace RowTable

variable {α : Type*}

/-- The table without rows. -/
def empty : RowTable α where
  rows := []
  lastId := 0
  ascending := List.Pairwise.nil
  le_lastId := fun _ h => absurd h List.not_mem_nil

/-- A new row at the end, with a new id. -/
def insert (t : RowTable α) (a : α) : RowTable α where
  rows := t.rows ++ [⟨t.lastId + 1, a⟩]
  lastId := t.lastId + 1
  ascending := by
    rw [List.pairwise_append]
    refine ⟨t.ascending, List.pairwise_singleton _ _, ?_⟩
    intro r hr r' hr'
    rw [List.mem_singleton.1 hr']
    exact Nat.lt_succ_of_le (t.le_lastId r hr)
  le_lastId := by
    intro r hr
    rcases List.mem_append.1 hr with hold | hnew
    · exact Nat.le_succ_of_le (t.le_lastId r hold)
    · exact Nat.le_of_eq (congrArg Row.id (List.mem_singleton.1 hnew))

/-- New rows for a list. -/
def insertAll (t : RowTable α) (l : List α) : RowTable α := l.foldl insert t

/-- The table without the rows that meet a condition. -/
def deleteWhere (t : RowTable α) (p : Row α → Bool) : RowTable α where
  rows := t.rows.filter fun r => !p r
  lastId := t.lastId
  ascending := t.ascending.filter _
  le_lastId := fun r hr => t.le_lastId r (List.mem_filter.1 hr).1

/-- The table without the rows that have one of these ids. -/
def deleteIds (t : RowTable α) (ids : List Nat) : RowTable α :=
  t.deleteWhere fun r => ids.contains r.id

@[simp] theorem rows_insert (t : RowTable α) (a : α) :
    (t.insert a).rows = t.rows ++ [⟨t.lastId + 1, a⟩] := rfl

variable {t : RowTable α}

theorem mem_insert {a : α} {r : Row α} :
    r ∈ (t.insert a).rows ↔ r ∈ t.rows ∨ r = ⟨t.lastId + 1, a⟩ := by
  rw [rows_insert, List.mem_append, List.mem_singleton]

/-- The rows that a list becomes behind an id. -/
def newRows : Nat → List α → List (Row α)
  | _, [] => []
  | lastId, a :: l => ⟨lastId + 1, a⟩ :: newRows (lastId + 1) l

theorem rows_insertAll : ∀ (l : List α) (t : RowTable α),
    (t.insertAll l).rows = t.rows ++ newRows t.lastId l := by
  intro l
  induction l with
  | nil => intro t; exact (List.append_nil _).symm
  | cons a l ih =>
    intro t
    have hrest := ih (t.insert a)
    rw [rows_insert, List.append_assoc] at hrest
    exact hrest

theorem lastId_insertAll : ∀ (l : List α) (t : RowTable α),
    (t.insertAll l).lastId = t.lastId + l.length := by
  intro l
  induction l with
  | nil => intro t; rfl
  | cons a l ih =>
    intro t
    have hrest : ((t.insert a).insertAll l).lastId = t.lastId + 1 + l.length := ih (t.insert a)
    rw [List.length_cons]
    exact hrest.trans (by omega)

theorem exists_newRow {a : α} : ∀ {l : List α} (lastId : Nat), a ∈ l →
    ∃ r ∈ newRows lastId l, r.value = a := by
  intro l
  induction l with
  | nil => intro lastId ha; exact absurd ha List.not_mem_nil
  | cons b l ih =>
    intro lastId ha
    rcases List.mem_cons.1 ha with rfl | ha
    · exact ⟨_, List.mem_cons_self .., rfl⟩
    · obtain ⟨r, hr, hvalue⟩ := ih (lastId + 1) ha
      exact ⟨r, List.mem_cons_of_mem _ hr, hvalue⟩

theorem of_mem_newRows : ∀ {l : List α} {lastId : Nat} {r : Row α}, r ∈ newRows lastId l →
    lastId < r.id ∧ r.value ∈ l := by
  intro l
  induction l with
  | nil => intro lastId r hr; exact absurd hr List.not_mem_nil
  | cons a l ih =>
    intro lastId r hr
    rcases List.mem_cons.1 hr with rfl | hr
    · exact ⟨Nat.lt_succ_self _, List.mem_cons_self ..⟩
    · obtain ⟨hlt, hvalue⟩ := ih hr
      exact ⟨by omega, List.mem_cons_of_mem a hvalue⟩

theorem mem_deleteWhere {p : Row α → Bool} {r : Row α} :
    r ∈ (t.deleteWhere p).rows ↔ r ∈ t.rows ∧ p r = false := by
  unfold deleteWhere
  rw [List.mem_filter, Bool.not_eq_true']

theorem mem_deleteIds {ids : List Nat} {r : Row α} :
    r ∈ (t.deleteIds ids).rows ↔ r ∈ t.rows ∧ r.id ∉ ids := by
  unfold deleteIds
  rw [mem_deleteWhere, ← Bool.not_eq_true, List.contains_iff_mem]

theorem nodup_ids (t : RowTable α) : (t.rows.map Row.id).Nodup :=
  List.pairwise_map.2 (t.ascending.imp fun h => Nat.ne_of_lt h)

/-- An id identifies a row. -/
theorem eq_of_id_eq {r r' : Row α} (hr : r ∈ t.rows) (hr' : r' ∈ t.rows)
    (h : r.id = r'.id) : r = r' :=
  List.inj_on_of_nodup_map t.nodup_ids hr hr' h

end RowTable

end TelegramPub.Verified
