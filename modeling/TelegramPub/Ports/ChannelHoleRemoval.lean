import TelegramPub.Ports.ChannelHoles

/-!
# TGDatabase: removing a range from the holes of a channel

When the messages of a range have been loaded, `_removeChannelHole` cuts the range out of
the stored holes.  It looks for the holes that the range intersects, deletes their rows,
and inserts what `exclude:` leaves of each: nothing, one piece, or one on either side.

The rows of holes that are apart are always found, and the pieces have new keys.  So what
remains are the other holes and the pieces (`removeChannelHole_rows`), and these are also
what the reported ids and holes lead to on the screen.
-/

namespace TelegramPub.Ports.ChannelHoles

/-! ## Cutting one hole -/

/-- `exclude:`.  The new ends lie between those of the two holes and do not overflow. -/
def Hole.exclude (h other : Hole) : List Hole :=
  if other.minId ≤ h.minId then
    if other.maxId < h.maxId then
      [{ h with
         minId := other.maxId + 1, minTimestamp := other.maxTimestamp }]
    else []
  else
    { h with
      maxId := other.minId - 1, maxTimestamp := other.minTimestamp } ::
    if other.maxId < h.maxId then
      [{ h with
         minId := other.maxId + 1, minTimestamp := other.maxTimestamp }]
    else []

/-- What the loop adds for an intersected hole. -/
def pieces (hole currentHole : Hole) : List Hole :=
  if hole.covers currentHole then [] else currentHole.exclude hole

def removeChannelHole (rows : List Hole) (hole : Hole) : List Hole × Report :=
  let intersectedHoles := intersectingHoles rows hole
  if intersectedHoles.isEmpty then (rows, {})
  else
    let addedHoles := intersectedHoles.flatMap (pieces hole)
    let rows := intersectedHoles.foldl (fun rows currentHole => deleteRow rows currentHole.maxId)
      rows
    (addedHoles.foldl insertRow rows,
      { addedMessages := addedHoles, removedMessages := intersectedHoles.map Hole.mid })

section Pieces

variable {hole g p : Hole}

/-- A piece lies in the hole that was cut. -/
theorem piece_bounds (hmeets : g.intersects hole = true) (hp : p ∈ pieces hole g) :
    g.minId ≤ p.minId ∧ p.minId ≤ p.maxId ∧ p.maxId ≤ g.maxId := by
  rw [Hole.intersects_iff] at hmeets
  unfold pieces Hole.exclude at hp
  split at hp
  case isTrue => cases hp
  case isFalse =>
    grind

theorem mem_pieces_iff (hole_le : hole.minId ≤ hole.maxId) (hmeets : g.intersects hole = true)
    (id : Int) : (∃ p ∈ pieces hole g, p.minId ≤ id ∧ id ≤ p.maxId) ↔
      (g.minId ≤ id ∧ id ≤ g.maxId) ∧ ¬(hole.minId ≤ id ∧ id ≤ hole.maxId) := by
  have hcovers := @Hole.covers_iff hole g
  rw [Hole.intersects_iff] at hmeets
  unfold pieces Hole.exclude
  split
  case isTrue hall =>
    grind
  case isFalse hnot =>
    have hends : ¬(hole.minId ≤ g.minId ∧ g.maxId ≤ hole.maxId) := fun h => hnot (hcovers.2 h)
    split
    case isTrue hlow =>
      rw [if_pos (by omega)]
      simp only [List.mem_singleton, exists_eq_left]
      omega
    case isFalse hlow =>
      split
      case isTrue hhigh =>
        simp only [List.mem_cons, List.not_mem_nil, or_false, exists_eq_or_imp,
          exists_eq_left]
        omega
      case isFalse hhigh =>
        simp only [List.mem_singleton, exists_eq_left]
        omega

theorem pieces_apart (hole_le : hole.minId ≤ hole.maxId) :
    (pieces hole g).Pairwise Hole.Apart := by
  unfold pieces Hole.exclude
  split
  case isTrue => exact List.Pairwise.nil
  case isFalse =>
    split
    case isTrue =>
      grind
    case isFalse =>
      split
      case isTrue =>
        refine List.pairwise_pair.2 (.inl ?_)
        dsimp only
        omega
      case isFalse => exact List.pairwise_singleton _ _

end Pieces

section Rows

variable {rows : List Hole} {hole : Hole}

theorem WellFormed.nodup (h : WellFormed rows) : rows.Nodup := by
  refine List.Pairwise.imp_of_mem (fun {g k} hg _ hapart heq => ?_) h.apart
  have hordered := h.ordered g hg
  subst heq
  rcases hapart with hlt | hlt <;> omega

theorem nodup_intersectingHoles (h : WellFormed rows) (hole : Hole) :
    (intersectingHoles rows hole).Nodup := by
  unfold intersectingHoles
  have hnext : (nextHole rows hole.maxId).toList.Nodup := by
    cases nextHole rows hole.maxId <;> simp
  rw [(List.perm_insertionSort _ _).nodup_iff]
  refine List.Nodup.append (h.nodup.filter _) (hnext.filter _) ?_
  intro g hprevious hnext
  have hend := (List.mem_filter.1 hprevious).2
  have hnextmem := Option.mem_toList.1 (List.mem_of_mem_filter hnext)
  have hbehind := (nextHole_eq_some hnextmem).2.1
  simp only [Bool.and_eq_true, decide_eq_true_eq] at hend
  omega

theorem intersectingHoles_apart (h : WellFormed rows) (hole : Hole) :
    (intersectingHoles rows hole).Pairwise Hole.Apart := by
  refine (nodup_intersectingHoles h hole).pairwise_of_forall_ne fun g hg k hk hne => ?_
  exact h.apart.forall ((mem_intersectingHoles h hole g).1 hg).1
    ((mem_intersectingHoles h hole k).1 hk).1 hne

theorem foldl_deleteRow (holes : List Hole) : ∀ rows : List Hole,
    holes.foldl (fun rows currentHole => deleteRow rows currentHole.maxId) rows =
      rows.filter fun g => !(holes.map Hole.maxId).contains g.maxId := by
  induction holes with
  | nil => simp
  | cons first holes ih =>
    intro rows
    rw [List.foldl_cons, ih]
    unfold deleteRow
    rw [List.filter_filter]
    refine List.filter_congr fun g _ => ?_
    rw [List.map_cons, List.contains_cons, Bool.not_or, Bool.and_comm]
    rfl

theorem maxId_mem_iff (h : WellFormed rows) {g : Hole} (hg : g ∈ rows) :
    g.maxId ∈ (intersectingHoles rows hole).map Hole.maxId ↔ g.intersects hole = true := by
  rw [List.mem_map]
  constructor
  · rintro ⟨k, hk, hsame⟩
    obtain ⟨hk, hmeets⟩ := (mem_intersectingHoles h hole k).1 hk
    have hgordered := h.ordered g hg
    have hkordered := h.ordered k hk
    have heq : k = g :=
      h.eq_of_common hk hg ⟨hkordered, le_refl _⟩ ⟨by omega, by omega⟩
    exact heq ▸ hmeets
  · intro hmeets
    exact ⟨g, (mem_intersectingHoles h hole g).2 ⟨hg, hmeets⟩, rfl⟩

/-- The holes that the range does not intersect. -/
def keptRows (rows : List Hole) (hole : Hole) : List Hole := rows.filter (!·.intersects hole)

def addedHoles (rows : List Hole) (hole : Hole) : List Hole :=
  (intersectingHoles rows hole).flatMap (pieces hole)

theorem foldl_deleteRow_intersecting (h : WellFormed rows) :
    (intersectingHoles rows hole).foldl
      (fun rows currentHole => deleteRow rows currentHole.maxId) rows = keptRows rows hole := by
  rw [foldl_deleteRow]
  refine List.filter_congr fun g hg => ?_
  congr 1
  rw [Bool.eq_iff_iff, List.contains_iff_mem]
  exact maxId_mem_iff h hg

/-- Rows with keys of their own are appended. -/
theorem foldl_insertRow (added : List Hole) : ∀ rows : List Hole, WellFormed (rows ++ added) →
    added.foldl insertRow rows = rows ++ added := by
  induction added with
  | nil => simp
  | cons first added ih =>
    intro rows h
    have hnew : ∀ k ∈ rows, k.maxId ≠ first.maxId := by
      intro k hk hsame
      have hfirst : first ∈ rows ++ first :: added := by simp
      have hapart := (List.pairwise_append.1 h.apart).2.2 k hk first (.head _)
      have hkordered := h.ordered k (List.mem_append_left _ hk)
      have hordered := h.ordered first hfirst
      rcases hapart with hlt | hlt <;> omega
    have happend : rows ++ first :: added = (rows ++ [first]) ++ added := by simp
    rw [List.foldl_cons, insertRow_of_new hnew, happend]
    exact ih _ (happend ▸ h)

theorem mem_addedHoles (h : WellFormed rows) {p : Hole} :
    p ∈ addedHoles rows hole ↔
      ∃ g ∈ rows, g.intersects hole = true ∧ p ∈ pieces hole g := by
  unfold addedHoles
  rw [List.mem_flatMap]
  constructor
  · rintro ⟨g, hg, hp⟩
    obtain ⟨hg, hmeets⟩ := (mem_intersectingHoles h hole g).1 hg
    exact ⟨g, hg, hmeets, hp⟩
  · rintro ⟨g, hg, hmeets, hp⟩
    exact ⟨g, (mem_intersectingHoles h hole g).2 ⟨hg, hmeets⟩, hp⟩

theorem apart_of_within {g k p q : Hole} (hapart : g.Apart k)
    (hp : g.minId ≤ p.minId ∧ p.maxId ≤ g.maxId) (hq : k.minId ≤ q.minId ∧ q.maxId ≤ k.maxId) :
    p.Apart q := by
  unfold Hole.Apart at hapart ⊢
  omega

theorem wellFormed_remaining (h : WellFormed rows) (hole_le : hole.minId ≤ hole.maxId) :
    WellFormed (keptRows rows hole ++ addedHoles rows hole) := by
  refine ⟨?_, List.pairwise_append.2 ⟨h.apart.filter _, ?_, ?_⟩⟩
  · intro p hp
    rcases List.mem_append.1 hp with hkept | hadded
    · exact h.ordered p (List.mem_of_mem_filter hkept)
    · obtain ⟨g, hg, hmeets, hp⟩ := (mem_addedHoles h).1 hadded
      exact (piece_bounds hmeets hp).2.1
  · unfold addedHoles
    refine List.pairwise_flatMap.2 ⟨fun _ _ => pieces_apart hole_le, ?_⟩
    refine List.Pairwise.imp_of_mem ?_ (intersectingHoles_apart h hole)
    intro g k hg hk hapart p hp q hq
    obtain ⟨hg, hmeets⟩ := (mem_intersectingHoles h hole g).1 hg
    obtain ⟨hk, hmeets'⟩ := (mem_intersectingHoles h hole k).1 hk
    obtain ⟨hpmin, -, hpmax⟩ := piece_bounds hmeets hp
    obtain ⟨hqmin, -, hqmax⟩ := piece_bounds hmeets' hq
    exact apart_of_within hapart ⟨hpmin, hpmax⟩ ⟨hqmin, hqmax⟩
  · intro k hk p hp
    obtain ⟨hk, hno⟩ := List.mem_filter.1 hk
    obtain ⟨g, hg, hmeets, hp⟩ := (mem_addedHoles h).1 hp
    obtain ⟨hpmin, -, hpmax⟩ := piece_bounds hmeets hp
    have hne : k ≠ g := by
      rintro rfl
      rw [hmeets] at hno
      cases hno
    exact apart_of_within (h.apart.forall hk hg hne) ⟨le_refl _, le_refl _⟩ ⟨hpmin, hpmax⟩

/-- What is stored afterwards. -/
theorem removeChannelHole_rows (h : WellFormed rows) (hole_le : hole.minId ≤ hole.maxId) :
    (removeChannelHole rows hole).1 = keptRows rows hole ++ addedHoles rows hole := by
  unfold removeChannelHole
  dsimp only
  split
  case isTrue hnone =>
    rw [List.isEmpty_iff] at hnone
    unfold addedHoles
    rw [hnone, List.flatMap_nil, List.append_nil]
    refine (List.filter_eq_self.2 fun g hg => ?_).symm
    rw [Bool.not_eq_true', Bool.eq_false_iff]
    intro hmeets
    have hmem := (mem_intersectingHoles h hole g).2 ⟨hg, hmeets⟩
    rw [hnone] at hmem
    cases hmem
  case isFalse =>
    rw [foldl_deleteRow_intersecting h]
    exact foldl_insertRow _ _ (wellFormed_remaining h hole_le)

/-- What the report leads to. -/
theorem removeChannelHole_shown (h : WellFormed rows) :
    (removeChannelHole rows hole).2.apply rows =
      keptRows rows hole ++ addedHoles rows hole := by
  have hmids : ∀ g ∈ rows, ((intersectingHoles rows hole).map Hole.mid).contains g.mid =
      g.intersects hole := by
    intro g hg
    rw [Bool.eq_iff_iff, List.contains_iff_mem, ← maxId_mem_iff h hg, List.mem_map, List.mem_map]
    exact exists_congr fun k => and_congr_right fun _ => Hole.mid_eq_iff
  have hfilter : (rows.filter fun g =>
      !((intersectingHoles rows hole).map Hole.mid).contains g.mid) = keptRows rows hole :=
    List.filter_congr fun g hg => congrArg _ (hmids g hg)
  unfold removeChannelHole Report.apply
  dsimp only
  split
  case isTrue hnone =>
    grind [addedHoles]
  case isFalse => rw [hfilter]; rfl

end Rows

/-! ## Removal is set difference -/

/-- The call cuts the range out of the stored holes, and its report makes the holes on the
screen those that are stored. -/
structure RemovesExactly (rows : List Hole) (hole : Hole) : Prop where
  wellFormed : WellFormed (removeChannelHole rows hole).1
  cover : cover (removeChannelHole rows hole).1 = cover rows \ Set.Icc hole.minId hole.maxId
  untouched : ∀ g ∈ rows, g.intersects hole = false → g ∈ (removeChannelHole rows hole).1
  shown : (removeChannelHole rows hole).2.apply rows = (removeChannelHole rows hole).1

/-- Removing a range from holes that are apart is exact. -/
theorem removeChannelHole_exact (rows : List Hole) (hole : Hole) (h : WellFormed rows)
    (hole_le : hole.minId ≤ hole.maxId) : RemovesExactly rows hole := by
  have hrows := removeChannelHole_rows h hole_le
  refine ⟨hrows ▸ wellFormed_remaining h hole_le, ?_, ?_, ?_⟩
  · ext id
    rw [hrows, mem_cover_append]
    constructor
    · rintro (⟨g, hg, hid⟩ | ⟨p, hp, hid⟩)
      · obtain ⟨hg, hno⟩ := List.mem_filter.1 hg
        refine ⟨⟨g, hg, hid⟩, fun hmem => ?_⟩
        rw [Bool.not_eq_true', Bool.eq_false_iff, ne_eq, Hole.intersects_iff] at hno
        exact hno ⟨le_trans hid.1 hmem.2, le_trans hmem.1 hid.2⟩
      · obtain ⟨g, hg, hmeets, hp⟩ := (mem_addedHoles h).1 hp
        obtain ⟨hin, hout⟩ := (mem_pieces_iff hole_le hmeets id).1 ⟨p, hp, hid⟩
        exact ⟨⟨g, hg, hin⟩, hout⟩
    · rintro ⟨⟨g, hg, hid⟩, hout⟩
      by_cases hmeets : g.intersects hole = true
      · obtain ⟨p, hp, hpid⟩ := (mem_pieces_iff hole_le hmeets id).2 ⟨hid, hout⟩
        exact .inr ⟨p, (mem_addedHoles h).2 ⟨g, hg, hmeets, hp⟩, hpid⟩
      · refine .inl ⟨g, List.mem_filter.2 ⟨hg, ?_⟩, hid⟩
        rw [Bool.not_eq_true', Bool.eq_false_iff]
        exact hmeets
  · intro g hg hno
    rw [hrows]
    refine List.mem_append_left _ (List.mem_filter.2 ⟨hg, ?_⟩)
    rw [hno]
    rfl
  · rw [hrows]
    exact removeChannelHole_shown h

/-- A range that cuts the ends off two holes. -/
theorem middle_removed :
    RemovesExactly [{ minId := 1, maxId := 6 }, { minId := 8, maxId := 12 }]
      { minId := 5, maxId := 9 } := by
  refine removeChannelHole_exact _ _ ⟨?_, ?_⟩ (by decide)
  · decide
  · exact List.pairwise_pair.2 (.inl (by decide))

end TelegramPub.Ports.ChannelHoles
