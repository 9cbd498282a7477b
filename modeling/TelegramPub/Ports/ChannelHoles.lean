import TelegramPub.Verified.Machine
import Mathlib

/-!
# TGDatabase: the holes of a channel

The ranges of message ids of a channel that have not been loaded are stored as holes,
one row each, with the upper end as the key.  `_addChannelHole` should unite a new
range with the stored ones: it looks for the holes that the new one intersects, merges
their ends, deletes their rows and inserts the merged hole.  What it removes and adds is
also reported, for the list of messages on the screen.

The loop deletes the row of the *new* hole each time, not the row of the hole it has
come to, and reports the same wrong id.  An intersected hole with another upper end
stays, overlapping the merged one; or it has the upper end of the merged hole, and the
row of the merged hole is refused by the primary key.
-/

namespace TelegramPub.Ports.ChannelHoles

open Verified.Machine

/-- A `TGMessageHole`. -/
structure Hole where
  minId : Int
  minTimestamp : Int := 0
  maxId : Int
  maxTimestamp : Int := 0
  deriving DecidableEq

namespace Hole

def isEqual (h other : Hole) : Bool :=
  h.minId == other.minId && h.maxId == other.maxId && h.maxTimestamp == other.maxTimestamp

def intersects (h other : Hole) : Bool := h.minId ≤ other.maxId && h.maxId ≥ other.minId

def covers (h other : Hole) : Bool := other.minId ≥ h.minId && other.maxId ≤ h.maxId

/-- The ends after a round of the loop over the intersected holes. -/
def extend (h currentHole : Hole) : Hole where
  minId := if currentHole.minId < h.minId then currentHole.minId else h.minId
  minTimestamp := if currentHole.minId < h.minId then currentHole.minTimestamp else h.minTimestamp
  maxId := if currentHole.maxId > h.maxId then currentHole.maxId else h.maxId
  maxTimestamp := if currentHole.maxId > h.maxId then currentHole.maxTimestamp else h.maxTimestamp

/-- The id of the message that stands for a hole. -/
def mid (h : Hole) : Int := -h.maxId

/-- No id is in both. -/
def Apart (g h : Hole) : Prop := g.maxId < h.minId ∨ h.maxId < g.minId

theorem intersects_iff {g h : Hole} :
    g.intersects h = true ↔ g.minId ≤ h.maxId ∧ h.minId ≤ g.maxId := by
  simp [intersects]

theorem covers_iff {g h : Hole} : g.covers h = true ↔ g.minId ≤ h.minId ∧ h.maxId ≤ g.maxId := by
  simp [covers]

theorem isEqual_iff {g h : Hole} : g.isEqual h = true ↔
    g.minId = h.minId ∧ g.maxId = h.maxId ∧ g.maxTimestamp = h.maxTimestamp := by
  simp [isEqual, and_assoc]

theorem isEqual_refl (h : Hole) : h.isEqual h = true := isEqual_iff.2 ⟨rfl, rfl, rfl⟩

instance : Std.Symm Apart := ⟨fun _ _ h => h.symm⟩

theorem mid_eq_iff {g h : Hole} : g.mid = h.mid ↔ g.maxId = h.maxId := by
  unfold mid
  omega

end Hole

/-- `INSERT`: the upper end is the primary key. -/
def insertRow (rows : List Hole) (hole : Hole) : List Hole :=
  if rows.any (·.maxId == hole.maxId) then rows else rows ++ [hole]

/-- `DELETE … WHERE max_id=?`. -/
def deleteRow (rows : List Hole) (maxId : Int) : List Hole := rows.filter (·.maxId != maxId)

def maxIdLe (g h : Hole) : Prop := g.maxId ≤ h.maxId

instance : DecidableRel maxIdLe := fun g h => inferInstanceAs (Decidable (g.maxId ≤ h.maxId))

/-- `WHERE max_id>? ORDER BY max_id LIMIT 1`. -/
def nextHole (rows : List Hole) (maxId : Int) : Option Hole :=
  ((rows.filter (·.maxId > maxId)).insertionSort maxIdLe).head?

def intersectingHoles (rows : List Hole) (hole : Hole) : List Hole :=
  let previous := rows.filter fun h => h.maxId ≥ hole.minId && h.maxId ≤ hole.maxId
  let next := (nextHole rows hole.maxId).toList.filter hole.intersects
  (previous ++ next).insertionSort maxIdLe

/-- What a call reports to the list of messages. -/
structure Report where
  addedMessages : List Hole := []
  removedMessages : List Int := []
  deriving DecidableEq

/-- A round of the loop over the intersected holes: the merged hole, the rows and the
reported ids. -/
def mergeRound (hole : Hole) (s : Hole × List Hole × List Int) (currentHole : Hole) :
    Hole × List Hole × List Int :=
  (s.1.extend currentHole, deleteRow s.2.1 hole.maxId, s.2.2 ++ [hole.mid])

def addChannelHole (rows : List Hole) (hole : Hole) : List Hole × Report :=
  let intersectedHoles := intersectingHoles rows hole
  if intersectedHoles.isEmpty then
    (insertRow rows hole, { addedMessages := [hole] })
  else
    let (updatedHole, rows, removed) := intersectedHoles.foldl (mergeRound hole) (hole, rows, [])
    (insertRow rows updatedHole, { addedMessages := [updatedHole], removedMessages := removed })

/-- The holes on the screen after a report. -/
def Report.apply (report : Report) (shown : List Hole) : List Hole :=
  shown.filter (fun h => !report.removedMessages.contains h.mid) ++ report.addedMessages

def step (rows : List Hole) (hole : Hole) : List Hole := (addChannelHole rows hole).1

/-! ## What adding a hole should do -/

/-- The ids that the holes cover. -/
def cover (rows : List Hole) : Set Int := {id | ∃ h ∈ rows, id ∈ Set.Icc h.minId h.maxId}

/-- No hole is empty, and no id is in two of them. -/
structure WellFormed (rows : List Hole) : Prop where
  ordered : ∀ h ∈ rows, h.minId ≤ h.maxId
  apart : rows.Pairwise Hole.Apart

/-- The same holes, as `TGMessageHole` compares them. -/
def SameHoles (shown stored : List Hole) : Prop :=
  (∀ g ∈ shown, ∃ h ∈ stored, h.isEqual g = true) ∧ ∀ h ∈ stored, ∃ g ∈ shown, h.isEqual g = true

/-- The call unites the new hole with the stored ones, and its report makes the holes on
the screen those that are stored. -/
structure AddsExactly (rows : List Hole) (hole : Hole) : Prop where
  apart : (step rows hole).Pairwise Hole.Apart
  cover : cover (step rows hole) = cover rows ∪ Set.Icc hole.minId hole.maxId
  shown : SameHoles ((addChannelHole rows hole).2.apply rows) (step rows hole)

/-- Every intersected hole ends where the new one ends, or covers it. -/
def EndsOrCovers (rows : List Hole) (hole : Hole) : Prop :=
  ∀ g ∈ rows, g.intersects hole = true → g.maxId = hole.maxId ∨ g.covers hole = true

instance (rows : List Hole) (hole : Hole) : Decidable (EndsOrCovers rows hole) :=
  inferInstanceAs (Decidable (∀ g ∈ rows, _))

/-- The arguments of a call. -/
def Ordered (_ : List Hole) (hole : Hole) : Prop := hole.minId ≤ hole.maxId

section Rows

variable {rows : List Hole} {hole : Hole}

/-- Two rows with a common id are one. -/
theorem WellFormed.eq_of_common (h : WellFormed rows) {g k : Hole} (hg : g ∈ rows) (hk : k ∈ rows)
    {id : Int} (hgid : g.minId ≤ id ∧ id ≤ g.maxId) (hkid : k.minId ≤ id ∧ id ≤ k.maxId) :
    g = k := by
  by_contra hne
  rcases h.apart.forall hg hk hne with hlt | hlt
  · omega
  · omega

theorem pairwise_sorted (holes : List Hole) :
    (holes.insertionSort maxIdLe).Pairwise fun g k => g.maxId ≤ k.maxId := by
  have htotal : Std.Total maxIdLe := ⟨fun g k => Int.le_total g.maxId k.maxId⟩
  have htrans : IsTrans Hole maxIdLe := ⟨fun _ _ _ => Int.le_trans⟩
  exact List.pairwise_insertionSort maxIdLe holes

theorem nextHole_eq_none {maxId : Int} :
    nextHole rows maxId = none ↔ ∀ g ∈ rows, g.maxId ≤ maxId := by
  unfold nextHole
  rw [List.head?_eq_none_iff, ← List.length_eq_zero_iff, List.length_insertionSort,
    List.length_eq_zero_iff, List.filter_eq_nil_iff]
  simp

theorem nextHole_eq_some {maxId : Int} {n : Hole} (h : nextHole rows maxId = some n) :
    n ∈ rows ∧ maxId < n.maxId ∧ ∀ g ∈ rows, maxId < g.maxId → n.maxId ≤ g.maxId := by
  have hsorted := pairwise_sorted (rows.filter (·.maxId > maxId))
  unfold nextHole at h
  obtain ⟨rest, hrest⟩ := List.head?_eq_some_iff.1 h
  have hmem : ∀ g, g ∈ n :: rest ↔ g ∈ rows ∧ maxId < g.maxId := by
    intro g
    rw [← hrest, (List.perm_insertionSort _ _).mem_iff]
    simp
  rw [hrest, List.pairwise_cons] at hsorted
  have hn := (hmem n).1 (.head _)
  refine ⟨hn.1, hn.2, fun g hg hlt => ?_⟩
  rcases List.mem_cons.1 ((hmem g).2 ⟨hg, hlt⟩) with rfl | hg
  · exact Int.le_refl _
  · exact hsorted.1 g hg

theorem mem_intersectingHoles (h : WellFormed rows) (hole : Hole) (g : Hole) :
    g ∈ intersectingHoles rows hole ↔ g ∈ rows ∧ g.intersects hole = true := by
  unfold intersectingHoles
  rw [(List.perm_insertionSort _ _).mem_iff, List.mem_append, List.mem_filter, List.mem_filter,
    Option.mem_toList, Hole.intersects_iff, Hole.intersects_iff]
  constructor
  · rintro (⟨hg, hends⟩ | ⟨hnext, hmeets⟩)
    · have hordered := h.ordered g hg
      simp only [ge_iff_le, Bool.and_eq_true, decide_eq_true_eq] at hends
      exact ⟨hg, by omega, hends.1⟩
    · exact ⟨(nextHole_eq_some hnext).1, hmeets.2, hmeets.1⟩
  · rintro ⟨hg, hlow, hhigh⟩
    by_cases hend : g.maxId ≤ hole.maxId
    · left
      exact ⟨hg, by simp [hend, hhigh]⟩
    · right
      cases hnext : nextHole rows hole.maxId with
      | none => exact absurd (nextHole_eq_none.1 hnext g hg) hend
      | some n =>
        obtain ⟨hnmem, hnend, hnle⟩ := nextHole_eq_some hnext
        have hnordered := h.ordered n hnmem
        have hnle := hnle g hg (by omega)
        have hsame : n = g :=
          h.eq_of_common hnmem hg ⟨hnordered, le_refl _⟩ ⟨by omega, hnle⟩
        subst hsame
        exact ⟨rfl, hhigh, hlow⟩

/-- The merged hole contains the new one and the intersected ones. -/
theorem le_foldl_extend (holes : List Hole) : ∀ h : Hole,
    (holes.foldl Hole.extend h).minId ≤ h.minId ∧ h.maxId ≤ (holes.foldl Hole.extend h).maxId ∧
      ∀ g ∈ holes, (holes.foldl Hole.extend h).minId ≤ g.minId ∧
        g.maxId ≤ (holes.foldl Hole.extend h).maxId := by
  induction holes with
  | nil => intro h; exact ⟨le_refl _, le_refl _, fun g hg => by cases hg⟩
  | cons first holes ih =>
    intro h
    obtain ⟨hmin, hmax, hall⟩ := ih (h.extend first)
    have hext : (h.extend first).minId ≤ h.minId ∧ (h.extend first).minId ≤ first.minId ∧
        h.maxId ≤ (h.extend first).maxId ∧ first.maxId ≤ (h.extend first).maxId := by
      unfold Hole.extend
      dsimp only
      split <;> split <;> omega
    rw [List.foldl_cons]
    refine ⟨by omega, by omega, ?_⟩
    intro g hg
    rcases List.mem_cons.1 hg with rfl | hg
    · omega
    · exact hall g hg

variable {g : Hole}

theorem foldl_extend_same (holes : List Hole) : ∀ h : Hole, h.minId ≤ g.minId →
    g.maxId ≤ h.maxId → (∀ k ∈ holes, k = g) → holes.foldl Hole.extend h = h := by
  induction holes with
  | nil => intro h _ _ _; rfl
  | cons first holes ih =>
    intro h hmin hmax hall
    have hfirst : first = g := hall first (.head _)
    have hsame : h.extend first = h := by
      unfold Hole.extend
      rw [hfirst, if_neg (by omega), if_neg (by omega), if_neg (by omega), if_neg (by omega)]
    rw [List.foldl_cons, hsame]
    exact ih h hmin hmax fun k hk => hall k (.tail _ hk)

theorem deleteRow_deleteRow (rows : List Hole) (maxId : Int) :
    deleteRow (deleteRow rows maxId) maxId = deleteRow rows maxId := by
  unfold deleteRow
  rw [List.filter_filter]
  simp only [Bool.and_self]

theorem foldl_mergeRound (hole : Hole) (holes : List Hole) : ∀ s : Hole × List Hole × List Int,
    holes.foldl (mergeRound hole) s =
      (holes.foldl Hole.extend s.1, if holes = [] then s.2.1 else deleteRow s.2.1 hole.maxId,
        s.2.2 ++ holes.map fun _ => hole.mid) := by
  induction holes with
  | nil => intro s; simp
  | cons first holes ih =>
    grind [deleteRow_deleteRow, mergeRound]

/-- The hole that a call merges. -/
def merged (rows : List Hole) (hole : Hole) : Hole :=
  (intersectingHoles rows hole).foldl Hole.extend hole

theorem merged_contains (rows : List Hole) (hole : Hole) :
    (merged rows hole).covers hole = true ∧
      ∀ g ∈ intersectingHoles rows hole, (merged rows hole).covers g = true := by
  obtain ⟨hmin, hmax, hall⟩ := le_foldl_extend (intersectingHoles rows hole) hole
  exact ⟨Hole.covers_iff.2 ⟨hmin, hmax⟩, fun g hg => Hole.covers_iff.2 (hall g hg)⟩

theorem addChannelHole_of_none (h : intersectingHoles rows hole = []) :
    addChannelHole rows hole = (insertRow rows hole, { addedMessages := [hole] }) := by
  unfold addChannelHole
  rw [h]
  rfl

theorem addChannelHole_of_some (h : intersectingHoles rows hole ≠ []) :
    addChannelHole rows hole =
      (insertRow (deleteRow rows hole.maxId) (merged rows hole),
        { addedMessages := [merged rows hole]
          removedMessages := (intersectingHoles rows hole).map fun _ => hole.mid }) := by
  unfold addChannelHole merged
  dsimp only
  rw [foldl_mergeRound, if_neg (by rwa [List.isEmpty_iff]), if_neg h]
  rfl

theorem mem_deleteRow {maxId : Int} :
    g ∈ deleteRow rows maxId ↔ g ∈ rows ∧ g.maxId ≠ maxId := by
  simp [deleteRow]

/-- The holes on the screen after a call that merges. -/
theorem mem_apply_of_some (h : intersectingHoles rows hole ≠ []) :
    g ∈ (addChannelHole rows hole).2.apply rows ↔
      g ∈ deleteRow rows hole.maxId ∨ g = merged rows hole := by
  rw [addChannelHole_of_some h, Report.apply, List.mem_append, List.mem_filter, List.mem_singleton,
    mem_deleteRow]
  have hcontains : ((intersectingHoles rows hole).map fun _ => hole.mid).contains g.mid =
      decide (g.maxId = hole.maxId) := by
    rw [Bool.eq_iff_iff, List.contains_iff_mem, decide_eq_true_eq]
    constructor
    · intro hmem
      obtain ⟨_, _, heq⟩ := List.mem_map.1 hmem
      exact (Hole.mid_eq_iff.1 heq).symm
    · intro heq
      obtain ⟨k, hk⟩ := List.exists_mem_of_ne_nil _ h
      exact List.mem_map.2 ⟨k, hk, (Hole.mid_eq_iff.2 heq).symm⟩
  rw [hcontains]
  simp

/-! ## When adding a hole is exact -/

theorem apart_of_not_intersects {g h : Hole} (hno : ¬g.intersects h = true) : g.Apart h := by
  rw [Hole.intersects_iff] at hno
  unfold Hole.Apart
  omega

theorem insertRow_of_new (hnew : ∀ k ∈ rows, k.maxId ≠ g.maxId) :
    insertRow rows g = rows ++ [g] := by
  unfold insertRow
  rw [if_neg]
  simpa using hnew

theorem insertRow_of_mem {g k : Hole} (hk : k ∈ rows) (hsame : k.maxId = g.maxId) :
    insertRow rows g = rows := by
  unfold insertRow
  rw [if_pos]
  simpa using ⟨k, hk, hsame⟩

theorem mem_cover_append {rows' : List Hole} {id : Int} :
    id ∈ cover (rows ++ rows') ↔ id ∈ cover rows ∨ id ∈ cover rows' := by
  simp only [cover, Set.mem_ofPred_eq, List.mem_append, or_and_right, exists_or]

theorem mem_cover_singleton {id : Int} :
    id ∈ cover [g] ↔ id ∈ Set.Icc g.minId g.maxId := by
  simp [cover]

theorem wellFormed_append (h : WellFormed rows) (hg : g.minId ≤ g.maxId)
    (hapart : ∀ k ∈ rows, k.Apart g) : WellFormed (rows ++ [g]) := by
  refine ⟨?_, ?_⟩
  · intro k hk
    rcases List.mem_append.1 hk with hk | hk
    · exact h.ordered k hk
    · rw [List.mem_singleton.1 hk]
      exact hg
  · refine List.pairwise_append.2 ⟨h.apart, List.pairwise_singleton _ _, ?_⟩
    intro k hk k' hk'
    rw [List.mem_singleton.1 hk']
    exact hapart k hk

theorem WellFormed.deleteRow (h : WellFormed rows) (maxId : Int) :
    WellFormed (deleteRow rows maxId) :=
  ⟨fun k hk => h.ordered k (mem_deleteRow.1 hk).1, h.apart.filter _⟩

theorem exact_of_none (h : WellFormed rows) (hole_le : hole.minId ≤ hole.maxId)
    (hnone : intersectingHoles rows hole = []) :
    AddsExactly rows hole ∧ WellFormed (step rows hole) := by
  have hapart : ∀ k ∈ rows, k.Apart hole := by
    intro k hk
    apply apart_of_not_intersects
    intro hmeets
    have hmem := (mem_intersectingHoles h hole k).2 ⟨hk, hmeets⟩
    rw [hnone] at hmem
    cases hmem
  have hnew : ∀ k ∈ rows, k.maxId ≠ hole.maxId := by
    intro k hk heq
    have hk_le := h.ordered k hk
    rcases hapart k hk with hlt | hlt
    · omega
    · omega
  have hadd := addChannelHole_of_none hnone
  rw [insertRow_of_new hnew] at hadd
  have hstep : step rows hole = rows ++ [hole] := congrArg Prod.fst hadd
  have hwf := wellFormed_append h hole_le hapart
  refine ⟨⟨hstep ▸ hwf.apart, ?_, ?_⟩, hstep ▸ hwf⟩
  · ext id
    rw [hstep, mem_cover_append, mem_cover_singleton, Set.mem_union]
  · have happly : (addChannelHole rows hole).2.apply rows = rows ++ [hole] := by
      rw [hadd]
      simp [Report.apply]
    rw [happly, hstep]
    exact ⟨fun g hg => ⟨g, hg, g.isEqual_refl⟩, fun g hg => ⟨g, hg, g.isEqual_refl⟩⟩

/-- The only intersected hole has the upper end of the new one: its row is replaced. -/
theorem exact_of_end (h : WellFormed rows) (hole_le : hole.minId ≤ hole.maxId)
    (hg : g ∈ rows) (hend : g.maxId = hole.maxId)
    (honly : ∀ k ∈ intersectingHoles rows hole, k = g)
    (hsome : intersectingHoles rows hole ≠ []) :
    AddsExactly rows hole ∧ WellFormed (step rows hole) := by
  have hg_le := h.ordered g hg
  have hmin := (Hole.covers_iff.1 (merged_contains rows hole).1).1
  have hmerged : (merged rows hole).maxId = hole.maxId ∧
      ((merged rows hole).minId = hole.minId ∨ (merged rows hole).minId = g.minId) := by
    unfold merged
    obtain ⟨first, rest, hcons⟩ := List.exists_cons_of_ne_nil hsome
    have hfirst : first = g := honly first (hcons ▸ List.mem_cons_self)
    have hext : (hole.extend g).maxId = hole.maxId ∧ (hole.extend g).minId ≤ g.minId ∧
        ((hole.extend g).minId = hole.minId ∨ (hole.extend g).minId = g.minId) := by
      unfold Hole.extend
      dsimp only
      rw [if_neg (by omega : ¬g.maxId > hole.maxId)]
      split
      · exact ⟨rfl, by omega, .inr rfl⟩
      · exact ⟨rfl, by omega, .inl rfl⟩
    rw [hcons, List.foldl_cons, hfirst, foldl_extend_same rest (hole.extend g) hext.2.1 (by omega)
      fun k hk => honly k (hcons ▸ List.mem_cons_of_mem _ hk)]
    exact ⟨hext.1, hext.2.2⟩
  have hin : (merged rows hole).minId ≤ g.minId := by
    obtain ⟨k, hk⟩ := List.exists_mem_of_ne_nil _ hsome
    exact honly k hk ▸ (Hole.covers_iff.1 ((merged_contains rows hole).2 k hk)).1
  have hadd := addChannelHole_of_some hsome
  rw [insertRow_of_new fun k hk => by rw [hmerged.1]; exact (mem_deleteRow.1 hk).2] at hadd
  have hstep : step rows hole = deleteRow rows hole.maxId ++ [merged rows hole] :=
    congrArg Prod.fst hadd
  have hapart : ∀ k ∈ deleteRow rows hole.maxId, k.Apart (merged rows hole) := by
    intro k hk
    obtain ⟨hk, hne⟩ := mem_deleteRow.1 hk
    have hgk : k.Apart g := h.apart.forall hk hg fun heq => hne (by rw [heq, hend])
    have hnot : k.Apart hole := by
      apply apart_of_not_intersects
      intro hmeets
      have heq := honly k ((mem_intersectingHoles h hole k).2 ⟨hk, hmeets⟩)
      exact hne (by rw [heq, hend])
    have hk_le := h.ordered k hk
    unfold Hole.Apart at *
    omega
  have hwf := wellFormed_append (h.deleteRow hole.maxId) (by omega) hapart
  refine ⟨⟨hstep ▸ hwf.apart, ?_, ?_⟩, hstep ▸ hwf⟩
  · ext id
    rw [hstep, mem_cover_append, mem_cover_singleton, Set.mem_union]
    constructor
    · rintro (⟨k, hk, hid⟩ | hid)
      · exact .inl ⟨k, (mem_deleteRow.1 hk).1, hid⟩
      · rw [Set.mem_Icc] at hid
        by_cases hgid : g.minId ≤ id
        · exact .inl ⟨g, hg, hgid, by omega⟩
        · exact .inr ⟨by omega, by omega⟩
    · rintro (⟨k, hk, hid⟩ | hid)
      · by_cases hkend : k.maxId = hole.maxId
        · have hkg : k = g := h.eq_of_common hk hg ⟨h.ordered k hk, le_refl _⟩ ⟨by omega, by omega⟩
          subst hkg
          exact .inr ⟨by have := hid.1; omega, by have := hid.2; omega⟩
        · exact .inl ⟨k, mem_deleteRow.2 ⟨hk, hkend⟩, hid⟩
      · exact .inr ⟨by have := hid.1; omega, by have := hid.2; omega⟩
  · have hshown : ∀ k, k ∈ (addChannelHole rows hole).2.apply rows ↔ k ∈ step rows hole := by
      intro k
      rw [mem_apply_of_some hsome, hstep, List.mem_append, List.mem_singleton]
    exact ⟨fun k hk => ⟨k, (hshown k).1 hk, k.isEqual_refl⟩,
      fun k hk => ⟨k, (hshown k).2 hk, k.isEqual_refl⟩⟩

/-- A stored hole reaches further and covers the new one: the merged hole is that one,
and the row is refused. -/
theorem exact_of_cover (h : WellFormed rows) (hole_le : hole.minId ≤ hole.maxId) (hg : g ∈ rows)
    (hcovers : g.covers hole = true) (hbeyond : hole.maxId < g.maxId)
    (honly : ∀ k ∈ intersectingHoles rows hole, k = g)
    (hsome : intersectingHoles rows hole ≠ []) :
    AddsExactly rows hole ∧ WellFormed (step rows hole) := by
  have hmin := (Hole.covers_iff.1 hcovers).1
  have hmerged : g.isEqual (merged rows hole) = true := by
    unfold merged
    obtain ⟨first, rest, hcons⟩ := List.exists_cons_of_ne_nil hsome
    have hfirst : first = g := honly first (hcons ▸ List.mem_cons_self)
    have hext : g.isEqual (hole.extend g) = true := by
      rw [Hole.isEqual_iff]
      unfold Hole.extend
      dsimp only
      rw [if_pos hbeyond, if_pos hbeyond]
      refine ⟨?_, rfl, rfl⟩
      split
      · rfl
      · omega
    have hsame := Hole.isEqual_iff.1 hext
    rw [hcons, List.foldl_cons, hfirst,
      foldl_extend_same rest (hole.extend g) (le_of_eq hsame.1.symm) (le_of_eq hsame.2.1)
        fun k hk => honly k (hcons ▸ List.mem_cons_of_mem _ hk)]
    exact hext
  have hkept : deleteRow rows hole.maxId = rows := by
    apply List.filter_eq_self.2
    intro k hk
    simp only [bne_iff_ne]
    intro hend
    have hk_le := h.ordered k hk
    have hmeets : k.intersects hole = true := Hole.intersects_iff.2 ⟨by omega, by omega⟩
    have hkg := honly k ((mem_intersectingHoles h hole k).2 ⟨hk, hmeets⟩)
    rw [hkg] at hend
    omega
  have hstep : step rows hole = rows := by
    unfold step
    rw [addChannelHole_of_some hsome, hkept]
    exact insertRow_of_mem hg (Hole.isEqual_iff.1 hmerged).2.1
  refine ⟨⟨hstep.symm ▸ h.apart, ?_, ?_⟩, hstep.symm ▸ h⟩
  · rw [hstep]
    apply (Set.union_eq_self_of_subset_right _).symm
    intro id hid
    exact ⟨g, hg, by have := hid.1; omega, by have := hid.2; omega⟩
  · rw [hstep]
    refine ⟨?_, ?_⟩
    · intro k hk
      rw [mem_apply_of_some hsome, hkept] at hk
      rcases hk with hk | rfl
      · exact ⟨k, hk, k.isEqual_refl⟩
      · exact ⟨g, hg, hmerged⟩
    · intro k hk
      exact ⟨k, (mem_apply_of_some hsome).2 (.inl (hkept.symm ▸ hk)), k.isEqual_refl⟩

/-- An intersected hole that neither ends with the new one nor covers it is still stored,
and so the merged hole is not, or not apart from it. -/
theorem endsOrCovers_of_exact (h : WellFormed rows) (hexact : AddsExactly rows hole) :
    EndsOrCovers rows hole := by
  intro g hg hmeets
  by_contra hneither
  rw [not_or] at hneither
  have hmem := (mem_intersectingHoles h hole g).2 ⟨hg, hmeets⟩
  have hsome : intersectingHoles rows hole ≠ [] := List.ne_nil_of_mem hmem
  have hkept : g ∈ step rows hole := by
    grind [addChannelHole_of_some, insertRow, mem_deleteRow, step]
  obtain ⟨r, hr, hsame⟩ := hexact.shown.1 _ ((mem_apply_of_some hsome).2 (.inr rfl))
  obtain ⟨hcovers, hall⟩ := merged_contains rows hole
  have hcontains := Hole.covers_iff.1 (hall g hmem)
  have hequal := Hole.isEqual_iff.1 hsame
  have hg_le := h.ordered g hg
  have hrg : r = g := by
    by_contra hne
    rcases hexact.apart.forall hr hkept hne with hlt | hlt
    · omega
    · omega
  subst hrg
  apply hneither.2
  have hhole := Hole.covers_iff.1 hcovers
  exact Hole.covers_iff.2 ⟨by omega, by omega⟩

theorem exact_of_endsOrCovers (h : WellFormed rows) (hole_le : hole.minId ≤ hole.maxId)
    (hends : EndsOrCovers rows hole) : AddsExactly rows hole ∧ WellFormed (step rows hole) := by
  by_cases hsome : intersectingHoles rows hole = []
  · exact exact_of_none h hole_le hsome
  · have hcontains : ∀ k ∈ intersectingHoles rows hole,
        k ∈ rows ∧ k.minId ≤ hole.maxId ∧ hole.maxId ≤ k.maxId := by
      intro k hk
      obtain ⟨hk, hmeets⟩ := (mem_intersectingHoles h hole k).1 hk
      refine ⟨hk, (Hole.intersects_iff.1 hmeets).1, ?_⟩
      rcases hends k hk hmeets with hend | hcovers
      · omega
      · exact (Hole.covers_iff.1 hcovers).2
    obtain ⟨g, hgmem⟩ := List.exists_mem_of_ne_nil _ hsome
    obtain ⟨hg, hgid⟩ := hcontains g hgmem
    have honly : ∀ k ∈ intersectingHoles rows hole, k = g := fun k hk =>
      h.eq_of_common (hcontains k hk).1 hg (hcontains k hk).2 hgid
    by_cases hend : g.maxId = hole.maxId
    · exact exact_of_end h hole_le hg hend honly hsome
    · rcases hends g hg ((mem_intersectingHoles h hole g).1 hgmem).2 with heq | hcovers
      · exact absurd heq hend
      · exact exact_of_cover h hole_le hg hcovers (by omega) honly hsome

end Rows

/-- Adding holes one after the other, to any holes that are apart, is exact in every call
if and only if in every call each intersected hole ends where the new one ends, or
covers it. -/
theorem addChannelHoles_exact (rows : List Hole) (holes : List Hole) (h : WellFormed rows)
    (hordered : Guarded step Ordered rows holes) :
    Guarded step AddsExactly rows holes ↔ Guarded step EndsOrCovers rows holes := by
  refine guarded_congr_within ?_ ?_ holes rows h hordered
  · intro rows hole h hole_le hends
    exact (exact_of_endsOrCovers h hole_le hends).2
  · intro rows hole h hole_le
    exact ⟨endsOrCovers_of_exact h, fun hends => (exact_of_endsOrCovers h hole_le hends).1⟩

/-- A hole, one below it, and one that has the end of the first. -/
theorem separateHoles_exact :
    Guarded step AddsExactly []
      [{ minId := 5, maxId := 10 }, { minId := 1, maxId := 3 }, { minId := 4, maxId := 10 }] := by
  refine (addChannelHoles_exact [] _ ⟨?_, List.Pairwise.nil⟩ ?_).2 ?_
  · intro h hh
    cases hh
  · simp [Guarded, Ordered]
  · exact ⟨by decide +kernel, by decide +kernel, by decide +kernel, trivial⟩

/-- A hole from 1 to 6, and then one from 5 to 8: the stored hole stays, and overlaps the
merged one. -/
theorem overlapping_holes_stored :
    ¬Guarded step AddsExactly [] [{ minId := 1, maxId := 6 }, { minId := 5, maxId := 8 }] ∧
      run step [] [{ minId := 1, maxId := 6 }, { minId := 5, maxId := 8 }] =
        [{ minId := 1, maxId := 6 }, { minId := 1, maxId := 8 }] := by
  have hrun : run step [] [{ minId := 1, maxId := 6 }, { minId := 5, maxId := 8 }] =
      [{ minId := 1, maxId := 6 }, { minId := 1, maxId := 8 }] := by
    decide +kernel
  refine ⟨?_, hrun⟩
  rintro ⟨-, hexact, -⟩
  have hapart := hexact.apart
  change (run step [] [{ minId := 1, maxId := 6 }, { minId := 5, maxId := 8 }]).Pairwise _ at hapart
  rw [hrun, List.pairwise_pair] at hapart
  rcases hapart with hlt | hlt
  · revert hlt
    decide
  · revert hlt
    decide

end TelegramPub.Ports.ChannelHoles
