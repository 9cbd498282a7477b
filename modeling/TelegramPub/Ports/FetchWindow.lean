import TelegramPub.Verified.FirstMatch
import TelegramPub.Verified.Pieces
import TelegramPub.Ports.PartFetch
import TelegramPub.Ports.PartAnswers

/-!
# The window of a fetch

With a known size the stretch that is fetched is cut into pieces of the preferred size, and
the manager has a window of them: those before it are committed, those in it are waited for
or have arrived, those behind it are not asked for yet (`Windowed`).  `commitParts_spec` and
`fetchLoop_spec` are what the two loops of `checkState` do to the window, and
`Windowed.fetched_part` is what the arrival of a piece does.
-/

namespace TelegramPub.Ports.PartFetch

open Verified Verified.Bytes Verified.Pieces
open Ports.PartDownload (preferredPartSize hashesMatch slice updatedLimit)

def Output.data : Output → Data
  | .partReady _ data => data
  | .completed | .failed => []

/-- What the blocks passed to `partReady` hold, one behind the other. -/
def delivered (outputs : List Output) : Data := outputs.flatMap Output.data

/-- Only `partReady` is called. -/
def AllReady (outputs : List Output) : Prop :=
  ∀ output ∈ outputs, ∃ offset data, output = .partReady offset data

theorem delivered_partReady (offset : Nat) (data : Data) (outputs : List Output) :
    delivered (.partReady offset data :: outputs) = data ++ delivered outputs :=
  rfl

theorem delivered_append (outputs outputs' : List Output) :
    delivered (outputs ++ outputs') = delivered outputs ++ delivered outputs' :=
  List.flatMap_append

theorem AllReady.append {outputs outputs' : List Output} (h : AllReady outputs)
    (h' : AllReady outputs') : AllReady (outputs ++ outputs') := by
  intro output hmem
  rcases List.mem_append.1 hmem with hmem | hmem
  · exact h output hmem
  · exact h' output hmem

theorem AllReady.completed_notMem {outputs : List Output} (h : AllReady outputs) :
    .completed ∉ outputs := by
  intro hmem
  obtain ⟨_, _, heq⟩ := h _ hmem
  cases heq

/-- The keys of both tables. -/
def offsets (m : Manager) : List Nat :=
  m.fetchingParts.map (·.offset) ++ m.fetchedParts.map (·.1)

/-- Where a piece begins. -/
abbrev pieceStart (location stop j : Nat) : Nat := edge location preferredPartSize stop j

/-- The bytes of a piece. -/
abbrev piece (file : Data) (location stop j : Nat) : Data :=
  span file (pieceStart location stop j) (pieceStart location stop (j + 1))

/-- The answer to the request for a piece ends where the piece ends. -/
def Fits (file : Data) (location stop j : Nat) : Prop :=
  (slice file (pieceStart location stop j)
      (updatedLimit (pieceStart location stop (j + 1) - pieceStart location stop j))).length =
    pieceStart location stop (j + 1) - pieceStart location stop j

/-- The pieces from `first` to `next` are waited for or have arrived. -/
structure Windowed (file : Data) (location stop first next : Nat) (m : Manager) : Prop where
  le : first ≤ next
  before : ∀ j < next, pieceStart location stop j < stop
  committed : m.committedOffset = pieceStart location stop first
  fetching : ∀ p ∈ m.fetchingParts, ∃ j, first ≤ j ∧ j < next ∧
    p.offset = pieceStart location stop j ∧ p.offset + p.size = pieceStart location stop (j + 1)
  fetched : ∀ p ∈ m.fetchedParts, ∃ j, first ≤ j ∧ j < next ∧
    p = (pieceStart location stop j, piece file location stop j)
  nodup : (offsets m).Nodup
  covered : ∀ j, first ≤ j → j < next → pieceStart location stop j ∈ offsets m
  fits : ∀ j < next, pieceStart location stop j ∉ m.fetchingParts.map (·.offset) →
    Fits file location stop j

theorem preferredPartSize_pos : 0 < preferredPartSize := by decide

section Commits

variable {sha256 : Data → Data} {file : Data} {location stop : Nat}

theorem length_piece (hstop : stop ≤ file.length) (j : Nat) :
    pieceStart location stop j + (piece file location stop j).length =
      pieceStart location stop (j + 1) := by
  have hle : pieceStart location stop j ≤ pieceStart location stop (j + 1) :=
    edge_mono (Nat.le_succ j)
  have hlength : (piece file location stop j).length =
      pieceStart location stop (j + 1) - pieceStart location stop j :=
    length_span ((edge_le_stop _).trans hstop)
  rw [hlength, Nat.add_sub_of_le hle]

theorem commitParts_of_notMem {offsets : List Nat} {m : Manager}
    (h : m.committedOffset ∉ offsets) : commitParts sha256 offsets m = (m, [], false) := by
  induction offsets with
  | nil => rfl
  | cons offset offsets ih =>
    have hne : offset ≠ m.committedOffset := fun heq => h (heq ▸ List.mem_cons_self)
    rw [commitParts, if_pos hne]
    exact ih fun hmem => h (.tail _ hmem)

theorem commitParts_head {offset : Nat} {offsets : List Nat} {m : Manager} {data : Data}
    (hnone : m.cdnFilePartHashes = none) (hat : offset = m.committedOffset)
    (hfind : m.fetchedParts.find? (·.1 == offset) = some (offset, data)) :
    commitParts sha256 (offset :: offsets) m =
      (let rest := commitParts sha256 offsets
        { m with
          committedOffset := m.committedOffset + data.length
          fetchedParts := m.fetchedParts.filter (·.1 ≠ offset) }
      (rest.1, .partReady offset data :: rest.2.1, rest.2.2)) := by
  have hmatch : hashesMatch sha256 m.cdnFilePartHashes offset data = true := by
    rw [hnone]
    rfl
  rw [commitParts, if_neg (not_not_intro hat), hfind]
  dsimp only
  rw [if_pos hmatch]

/-- The loop commits the pieces from the first on that have arrived without a gap. -/
theorem commitParts_window (hstop : stop ≤ file.length) (sorted : List Nat) :
    ∀ (m : Manager) (first next : Nat), m.cdnFilePartHashes = none → first ≤ next →
      (∀ j < next, pieceStart location stop j < stop) →
      m.committedOffset = pieceStart location stop first →
      (∀ p ∈ m.fetchedParts, ∃ j, first ≤ j ∧ j < next ∧
        p = (pieceStart location stop j, piece file location stop j)) →
      (m.fetchedParts.map (·.1)).Nodup → sorted.Pairwise (· < ·) →
      (∀ offset ∈ sorted, offset ∈ m.fetchedParts.map (·.1)) →
      ∃ first' fetchedParts outputs,
        commitParts sha256 sorted m =
          ({ m with committedOffset := pieceStart location stop first', fetchedParts },
            outputs, false) ∧
        first ≤ first' ∧ first' ≤ next ∧ AllReady outputs ∧
        delivered outputs =
          span file (pieceStart location stop first) (pieceStart location stop first') ∧
        fetchedParts.Sublist m.fetchedParts ∧
        (∀ p, p ∈ fetchedParts ↔
          p ∈ m.fetchedParts ∧ pieceStart location stop first' ≤ p.1) ∧
        (∀ j, first ≤ j → j < first' → pieceStart location stop j ∈ sorted) ∧
        pieceStart location stop first' ∉ sorted := by
  induction sorted with
  | nil =>
    intro m first next _ hle hbefore hcommitted hfetched _ _ _
    refine ⟨first, m.fetchedParts, [], ?_, Nat.le_refl _, hle, ?_, ?_, List.Sublist.refl _, ?_,
      fun j hj hj' => absurd hj' (Nat.not_lt.2 hj), List.not_mem_nil⟩
    · rw [commitParts, ← hcommitted]
    · exact fun output hmem => absurd hmem List.not_mem_nil
    · rw [span_self]
      rfl
    · intro p
      constructor
      · intro hp
        obtain ⟨j, hj, _, rfl⟩ := hfetched p hp
        exact ⟨hp, edge_mono hj⟩
      · exact fun hp => hp.1
  | cons offset sorted ih =>
    intro m first next hnone hle hbefore hcommitted hfetched hnodup hsorted hkeys
    rw [List.pairwise_cons] at hsorted
    obtain ⟨p, hp, hpoffset⟩ := List.mem_map.1 (hkeys offset (.head _))
    obtain ⟨j, hfirst, hnext, rfl⟩ := hfetched p hp
    dsimp only at hpoffset
    by_cases hat : offset = m.committedOffset
    · have hj : j = first := by
        rw [hat, hcommitted] at hpoffset
        exact edge_inj preferredPartSize_pos (hbefore j hnext)
          (hbefore first (by omega)) hpoffset
      subst hj
      rw [hpoffset] at hp
      have hfind := FirstMatch.find_of_nodup hnodup hp
      have hstep : pieceStart location stop j < pieceStart location stop (j + 1) :=
        edge_lt_succ preferredPartSize_pos (hbefore j hnext)
      have hcommitted' : m.committedOffset + (piece file location stop j).length =
          pieceStart location stop (j + 1) := by
        rw [hcommitted, length_piece hstop]
      obtain ⟨first', fetchedParts, outputs, hrest, hle', hnext', hready, hdata, hsub, hmem,
          hin, hnot⟩ := ih
        { m with
          committedOffset := m.committedOffset + (piece file location stop j).length
          fetchedParts := m.fetchedParts.filter (·.1 ≠ offset) }
        (j + 1) next hnone hnext hbefore hcommitted'
        (by
          intro q hq
          obtain ⟨hq, hne⟩ := List.mem_filter.1 hq
          obtain ⟨i, hi, hi', rfl⟩ := hfetched q hq
          refine ⟨i, Nat.lt_of_le_of_ne hi fun heq => ?_, hi', rfl⟩
          rw [← heq, hpoffset] at hne
          simp at hne)
        (hnodup.sublist ((List.filter_sublist).map _)) hsorted.2
        (by
          intro o ho
          obtain ⟨q, hq, rfl⟩ := List.mem_map.1 (hkeys o (.tail _ ho))
          have hne := Nat.ne_of_gt (hsorted.1 _ ho)
          exact List.mem_map_of_mem (List.mem_filter.2 ⟨hq, by simpa using hne⟩))
      refine ⟨first', fetchedParts, .partReady offset (piece file location stop j) :: outputs,
        ?_, by omega, hnext', ?_, ?_, hsub.trans List.filter_sublist, ?_, ?_, ?_⟩
      · rw [commitParts_head hnone hat hfind]
        dsimp only
        rw [hrest]
      · intro output houtput
        rcases List.mem_cons.1 houtput with rfl | houtput
        · exact ⟨_, _, rfl⟩
        · exact hready output houtput
      · rw [delivered_partReady, hdata]
        exact span_append file (edge_mono (Nat.le_succ j)) (edge_mono hle')
      · intro q
        rw [hmem q]
        dsimp only
        rw [List.mem_filter]
        refine ⟨fun h => ⟨h.1.1, h.2⟩, fun h => ⟨⟨h.1, ?_⟩, h.2⟩⟩
        have hge : pieceStart location stop (j + 1) ≤ q.1 := (edge_mono hle').trans h.2
        simp only [ne_eq, decide_not, Bool.not_eq_eq_eq_not, Bool.not_true, decide_eq_false_iff_not]
        omega
      · grind
      · intro hin
        have hge : pieceStart location stop (j + 1) ≤ pieceStart location stop first' :=
          edge_mono hle'
        rcases List.mem_cons.1 hin with heq | hin
        · omega
        · exact hnot hin
    · have hgt : m.committedOffset < offset := by
        have hmono : pieceStart location stop first ≤ pieceStart location stop j :=
          edge_mono hfirst
        omega
      have hnotMem : m.committedOffset ∉ offset :: sorted := by
        intro hin
        rcases List.mem_cons.1 hin with heq | hin
        · exact hat heq.symm
        · have hlt := hsorted.1 _ hin
          omega
      refine ⟨first, m.fetchedParts, [], ?_, Nat.le_refl _, hle, ?_, ?_, List.Sublist.refl _, ?_,
        fun i hi hi' => absurd hi' (Nat.not_lt.2 hi), ?_⟩
      · rw [commitParts_of_notMem hnotMem, ← hcommitted]
      · exact fun output hmem => absurd hmem List.not_mem_nil
      · rw [span_self]
        rfl
      · intro q
        constructor
        · intro hq
          obtain ⟨i, hi, _, rfl⟩ := hfetched q hq
          exact ⟨hq, edge_mono hi⟩
        · exact fun hq => hq.1
      · rw [← hcommitted]
        exact hnotMem

theorem sorted_keys {keys : List Nat} (h : keys.Nodup) :
    (keys.insertionSort (· ≤ ·)).Pairwise (· < ·) := by
  have hle := List.pairwise_insertionSort (· ≤ ·) keys
  have hne : (keys.insertionSort (· ≤ ·)).Nodup :=
    (List.perm_insertionSort (· ≤ ·) keys).nodup_iff.2 h
  exact hle.imp₂ (fun _ _ hle hne => Nat.lt_of_le_of_ne hle hne) hne

/-- What `checkState` commits, and the window that is left. -/
theorem Windowed.commitParts (sha256 : Data → Data) {first next : Nat} {m : Manager}
    (hstop : stop ≤ file.length)
    (h : Windowed file location stop first next m) (hnone : m.cdnFilePartHashes = none) :
    ∃ first' fetchedParts outputs,
      commitParts sha256 ((m.fetchedParts.map (·.1)).insertionSort (· ≤ ·)) m =
        ({ m with committedOffset := pieceStart location stop first', fetchedParts },
          outputs, false) ∧
      first ≤ first' ∧ AllReady outputs ∧
      delivered outputs =
        span file (pieceStart location stop first) (pieceStart location stop first') ∧
      Windowed file location stop first' next
        { m with committedOffset := pieceStart location stop first', fetchedParts } ∧
      pieceStart location stop first' ∉ fetchedParts.map (·.1) := by
  have hnodup : (m.fetchedParts.map (·.1)).Nodup := h.nodup.sublist (List.sublist_append_right _ _)
  have hperm := List.perm_insertionSort (· ≤ ·) (m.fetchedParts.map (·.1))
  obtain ⟨first', fetchedParts, outputs, hcommit, hle, hnext, hready, hdata, hsub, hmem, hin,
      hnot⟩ :=
    commitParts_window hstop ((m.fetchedParts.map (·.1)).insertionSort (· ≤ ·)) m first next
      hnone h.le h.before h.committed h.fetched hnodup (sorted_keys hnodup)
      fun offset hoffset => hperm.mem_iff.1 hoffset
  have hnotKey : pieceStart location stop first' ∉ m.fetchedParts.map (·.1) :=
    fun hin => hnot (hperm.mem_iff.2 hin)
  refine ⟨first', fetchedParts, outputs, hcommit, hle, hready, hdata, ?_, fun hin =>
    hnotKey ((hsub.map _).subset hin)⟩
  have hkeep : ∀ j, j < next → pieceStart location stop first' ≤ pieceStart location stop j →
      first' ≤ j := by
    intro j hj hge
    by_contra hlt
    have hless : pieceStart location stop j < pieceStart location stop first' :=
      edge_lt_edge preferredPartSize_pos (by omega) (h.before j hj)
    omega
  exact
    { h with
      le := hnext
      committed := rfl
      fetching := by
        intro p hp
        obtain ⟨j, hj, hj', hat, hend⟩ := h.fetching p hp
        refine ⟨j, ?_, hj', hat, hend⟩
        by_contra hlt
        have harrived := hperm.mem_iff.1 (hin j hj (by omega))
        rw [← hat] at harrived
        exact List.disjoint_of_nodup_append h.nodup (List.mem_map_of_mem hp) harrived
      fetched := by
        intro p hp
        obtain ⟨hp, hge⟩ := (hmem p).1 hp
        obtain ⟨j, _, hj', rfl⟩ := h.fetched p hp
        exact ⟨j, hkeep j hj' hge, hj', rfl⟩
      nodup := h.nodup.sublist ((List.Sublist.refl _).append (hsub.map _))
      covered := by
        intro j hj hj'
        rcases List.mem_append.1 (h.covered j (by omega) hj') with hin | hin
        · exact List.mem_append_left _ hin
        · obtain ⟨p, hp, hat⟩ := List.mem_map.1 hin
          refine List.mem_append_right _ (List.mem_map.2 ⟨p, (hmem p).2 ⟨hp, ?_⟩, hat⟩)
          rw [hat]
          exact edge_mono hj }

end Commits

theorem foldl_max_le_iff {α : Type} (f : α → Nat) (xs : List α) :
    ∀ start bound : Nat, xs.foldl (fun next x => max next (f x)) start ≤ bound ↔
      start ≤ bound ∧ ∀ x ∈ xs, f x ≤ bound := by
  induction xs with
  | nil => simp
  | cons x xs ih =>
    grind

theorem nextOffset_le_iff (m : Manager) (bound : Nat) :
    nextOffset m ≤ bound ↔ m.committedOffset ≤ bound ∧
      (∀ p ∈ m.fetchingParts, p.offset + p.size ≤ bound) ∧
      ∀ p ∈ m.fetchedParts, p.1 + p.2.length ≤ bound := by
  unfold nextOffset
  rw [foldl_max_le_iff, foldl_max_le_iff, and_assoc]

section Window

variable {file : Data} {location stop first next : Nat} {m : Manager}

/-- New parts begin where the window ends. -/
theorem Windowed.nextOffset_eq (hstop : stop ≤ file.length)
    (h : Windowed file location stop first next m) :
    nextOffset m = pieceStart location stop next := by
  apply Nat.le_antisymm
  · rw [nextOffset_le_iff, h.committed]
    refine ⟨edge_mono h.le, ?_, ?_⟩
    · intro p hp
      obtain ⟨j, _, hj, _, hend⟩ := h.fetching p hp
      rw [hend]
      exact edge_mono hj
    · intro p hp
      obtain ⟨j, _, hj, rfl⟩ := h.fetched p hp
      rw [length_piece hstop]
      exact edge_mono hj
  · obtain ⟨hcommitted, hfetching, hfetched⟩ :=
      (nextOffset_le_iff m (nextOffset m)).1 (Nat.le_refl _)
    rcases Nat.eq_or_lt_of_le h.le with heq | hlt
    · rw [← heq, ← h.committed]
      exact hcommitted
    · obtain ⟨last, rfl⟩ : ∃ last, next = last + 1 := ⟨next - 1, by omega⟩
      have hlast : ∀ j, j < last + 1 →
          pieceStart location stop j = pieceStart location stop last → j = last := fun j hj heq =>
        edge_inj preferredPartSize_pos (h.before j hj) (h.before last (Nat.lt_succ_self _)) heq
      rcases List.mem_append.1 (h.covered last (by omega) (Nat.lt_succ_self _)) with hin | hin
      · obtain ⟨p, hp, hat⟩ := List.mem_map.1 hin
        obtain ⟨j, _, hj, hat', hend⟩ := h.fetching p hp
        have hle := hfetching p hp
        rwa [hend, hlast j hj (hat'.symm.trans hat)] at hle
      · obtain ⟨p, hp, hat⟩ := List.mem_map.1 hin
        obtain ⟨j, _, hj, rfl⟩ := h.fetched p hp
        have hle := hfetched _ hp
        rwa [length_piece hstop, hlast j hj hat] at hle

/-- The part that is added for the next piece. -/
def nextPart (m : Manager) (location stop next : Nat) : PendingPart :=
  { offset := pieceStart location stop next
    size := min (stop - pieceStart location stop next) preferredPartSize
    request := if m.hasValue then some m.requestData else none }

theorem Windowed.add (h : Windowed file location stop first next m)
    (hless : pieceStart location stop next < stop) :
    Windowed file location stop first (next + 1)
      { m with fetchingParts := m.fetchingParts ++ [nextPart m location stop next] } := by
  have hfresh : pieceStart location stop next ∉ offsets m := by
    intro hin
    obtain ⟨j, hj, heq⟩ : ∃ j, j < next ∧
        pieceStart location stop next = pieceStart location stop j := by
      rcases List.mem_append.1 hin with hin | hin
      · obtain ⟨p, hp, hat⟩ := List.mem_map.1 hin
        obtain ⟨j, _, hj, hat', _⟩ := h.fetching p hp
        exact ⟨j, hj, hat.symm.trans hat'⟩
      · obtain ⟨p, hp, hat⟩ := List.mem_map.1 hin
        obtain ⟨j, _, hj, rfl⟩ := h.fetched p hp
        exact ⟨j, hj, hat.symm⟩
    have hsame := edge_inj preferredPartSize_pos hless (h.before j hj) heq
    omega
  have hperm : (offsets { m with
      fetchingParts := m.fetchingParts ++ [nextPart m location stop next] }).Perm
      (pieceStart location stop next :: offsets m) := by
    unfold offsets
    dsimp only
    rw [List.map_append, List.append_assoc]
    exact List.perm_middle
  exact
    { le := h.le.trans (Nat.le_succ _)
      before := by
        intro j hj
        rcases Nat.lt_succ_iff_lt_or_eq.1 hj with hj | rfl
        · exact h.before j hj
        · exact hless
      committed := h.committed
      fetching := by
        intro p hp
        rcases List.mem_append.1 hp with hp | hp
        · obtain ⟨j, hj, hj', hat⟩ := h.fetching p hp
          exact ⟨j, hj, by omega, hat⟩
        · rw [List.mem_singleton.1 hp]
          refine ⟨next, h.le, Nat.lt_succ_self _, rfl, ?_⟩
          show pieceStart location stop next +
            min (stop - pieceStart location stop next) preferredPartSize = _
          rw [Nat.min_comm]
          exact edge_succ.symm
      fetched := by
        intro p hp
        obtain ⟨j, hj, hj', heq⟩ := h.fetched p hp
        exact ⟨j, hj, by omega, heq⟩
      nodup := hperm.nodup_iff.2 (List.nodup_cons.2 ⟨hfresh, h.nodup⟩)
      covered := by
        intro j hj hj'
        rw [hperm.mem_iff]
        rcases Nat.lt_succ_iff_lt_or_eq.1 hj' with hj' | rfl
        · exact .tail _ (h.covered j hj hj')
        · exact .head _
      fits := by
        intro j hj hnot
        dsimp only at hnot
        rw [List.map_append] at hnot
        rcases Nat.lt_succ_iff_lt_or_eq.1 hj with hj | rfl
        · exact h.fits j hj fun hin => hnot (List.mem_append_left _ hin)
        · exact absurd (List.mem_append_right _ (.head _)) hnot }

/-- The loop extends the window, and adds a part for each new piece. -/
theorem fetchLoop_spec (hstop : stop ≤ file.length) (n : Nat) :
    ∀ (m : Manager) (next : Nat), Windowed file location stop first next m →
      upperBound m = stop →
      ∃ parts, fetchLoop n m = { m with fetchingParts := m.fetchingParts ++ parts } ∧
        Windowed file location stop first (next + parts.length)
          { m with fetchingParts := m.fetchingParts ++ parts } ∧
        (∀ p ∈ parts, p.request = if m.hasValue then some m.requestData else none) ∧
        parts.length ≤ n ∧ (n ≠ 0 → pieceStart location stop next < stop → parts ≠ []) := by
  induction n with
  | zero =>
    intro m next h _
    refine ⟨[], ?_, ?_, fun p hp => absurd hp List.not_mem_nil, Nat.le_refl _, fun hne =>
      absurd rfl hne⟩
    · rw [fetchLoop, List.append_nil]
    · rw [List.append_nil]
      exact h
  | succ n ih =>
    intro m next h hbound
    rw [fetchLoop]
    dsimp only
    rw [h.nextOffset_eq hstop, hbound]
    by_cases hless : pieceStart location stop next < stop
    · rw [if_pos hless]
      obtain ⟨parts, hloop, hwindow, hrequests, hlength, _⟩ := ih
        { m with fetchingParts := m.fetchingParts ++ [nextPart m location stop next] }
        (next + 1) (h.add hless) hbound
      dsimp only at hloop hwindow hrequests
      rw [List.append_assoc, List.singleton_append] at hloop hwindow
      refine ⟨nextPart m location stop next :: parts, hloop, ?_, ?_, Nat.succ_le_succ hlength,
        fun _ _ => List.cons_ne_nil _ _⟩
      · rw [List.length_cons, Nat.add_comm parts.length 1, ← Nat.add_assoc]
        exact hwindow
      · intro p hp
        rcases List.mem_cons.1 hp with rfl | hp
        · rfl
        · exact hrequests p hp
    · rw [if_neg hless]
      refine ⟨[], ?_, ?_, fun p hp => absurd hp List.not_mem_nil, Nat.zero_le _,
        fun _ hless' => absurd hless' hless⟩
      · rw [List.append_nil]
      · rw [List.append_nil]
        exact h

/-- `_fetchedParts` and `_fetchingParts` after the data of a part have arrived. -/
def arrive (m : Manager) (offset : Nat) (data : Data) : Manager :=
  { m with
    fetchingParts := m.fetchingParts.filter (·.offset ≠ offset)
    fetchedParts := m.fetchedParts.filter (·.1 ≠ offset) ++ [(offset, data)] }

/-- A piece that was waited for has arrived. -/
theorem Windowed.arrive (h : Windowed file location stop first next m) {j : Nat} (hj : first ≤ j)
    (hj' : j < next) (hfits : Fits file location stop j) :
    Windowed file location stop first next
      (arrive m (pieceStart location stop j) (piece file location stop j)) := by
  have hoffsets : offsets (PartFetch.arrive m (pieceStart location stop j)
      (piece file location stop j)) =
      (offsets m).filter (· ≠ pieceStart location stop j) ++ [pieceStart location stop j] := by
    unfold offsets PartFetch.arrive
    rw [List.map_append, List.filter_append, List.filter_map, List.filter_map, List.append_assoc]
    rfl
  exact
    { h with
      fetching := fun p hp => h.fetching p (List.mem_of_mem_filter hp)
      fetched := by
        intro p hp
        rcases List.mem_append.1 hp with hp | hp
        · exact h.fetched p (List.mem_of_mem_filter hp)
        · exact ⟨j, hj, hj', List.mem_singleton.1 hp⟩
      nodup := by
        rw [hoffsets]
        refine (h.nodup.filter _).append (List.nodup_singleton _) ?_
        simp
      covered := by
        intro i hi hi'
        rw [hoffsets]
        by_cases heq : pieceStart location stop i = pieceStart location stop j
        · rw [heq]
          exact List.mem_append_right _ (.head _)
        · refine List.mem_append_left _ (List.mem_filter.2 ⟨h.covered i hi hi', ?_⟩)
          simpa using heq
      fits := by
        intro i hi hnot
        by_cases heq : pieceStart location stop i = pieceStart location stop j
        · rwa [edge_inj preferredPartSize_pos (h.before i hi) (h.before j hj') heq]
        · refine h.fits i hi fun hin => hnot ?_
          obtain ⟨p, hp, hat⟩ := List.mem_map.1 hin
          refine List.mem_map.2 ⟨p, List.mem_filter.2 ⟨hp, ?_⟩, hat⟩
          rw [hat]
          simpa using heq }

theorem isComplete_eq (m : Manager) :
    isComplete m = decide (upperBound m ≤ m.committedOffset) := by
  unfold isComplete upperBound
  cases m.completeSize with
  | none => exact Bool.false_or _
  | some size =>
    grind

/-- Only the parts and the committed offset are others. -/
def OnlyParts (m m' : Manager) : Prop :=
  ∃ committedOffset fetchedParts fetchingParts,
    m' = { m with committedOffset, fetchedParts, fetchingParts }

/-- Whenever `checkState` runs, it commits what it can; then it completes the fetch, or waits
for a part. -/
theorem Windowed.checkState (sha256 : Data → Data) (hstop : stop ≤ file.length)
    (h : Windowed file location stop first next m) (hnone : m.cdnFilePartHashes = none)
    (hbound : upperBound m = stop) (hfree : m.fetchingParts.length < m.parallelParts) :
    ∃ m' first' parts outputs,
      checkState sha256 m =
        (m', outputs ++ (if stop ≤ m'.committedOffset then [.completed] else [])) ∧
      OnlyParts m m' ∧ m'.fetchingParts = m.fetchingParts ++ parts ∧ first ≤ first' ∧
      Windowed file location stop first' (next + parts.length) m' ∧ AllReady outputs ∧
      delivered outputs = span file m.committedOffset m'.committedOffset ∧
      (∀ p ∈ parts, p.request = if m.hasValue then some m.requestData else none) ∧
      m'.fetchingParts.length ≤ m.parallelParts ∧ (m'.fetchingParts = [] ↔ stop ≤ m'.committedOffset) := by
  obtain ⟨first', fetchedParts, outputs, hcommit, hle, hready, hdata, hwindow, hnot⟩ :=
    h.commitParts sha256 hstop hnone
  rw [← h.committed] at hdata
  unfold PartFetch.checkState
  dsimp only
  rw [hcommit]
  rw [if_neg Bool.false_ne_true, isComplete_eq]
  have hbound' : upperBound { m with
      committedOffset := pieceStart location stop first', fetchedParts } = stop := hbound
  rw [hbound']
  by_cases hend : stop ≤ pieceStart location stop first'
  · have hempty : ∀ j, first' ≤ j → ¬ j < next := fun j hj hlt => by
      have hless := edge_lt_stop hj (hwindow.before j hlt)
      exact absurd hend (Nat.not_le.2 hless)
    have hnil : m.fetchingParts = [] := by
      refine List.eq_nil_iff_forall_not_mem.2 fun p hp => ?_
      obtain ⟨j, hj, hj', _⟩ := hwindow.fetching p hp
      exact hempty j hj hj'
    rw [if_pos (decide_eq_true hend)]
    refine ⟨{ m with committedOffset := pieceStart location stop first', fetchedParts }, first',
      [], outputs, ?_, ⟨_, _, _, rfl⟩, (List.append_nil _).symm, hle, hwindow, hready, hdata, ?_,
      Nat.le_of_lt hfree, ?_⟩
    · dsimp only
      rw [if_pos hend]
    · exact fun p hp => absurd hp List.not_mem_nil
    · exact ⟨fun _ => hend, fun _ => hnil⟩
  · rw [if_neg (by simpa using hend)]
    obtain ⟨parts, hloop, hextended, hrequests, hlength, hadds⟩ :=
      fetchLoop_spec hstop (m.parallelParts - m.fetchingParts.length) _ next hwindow hbound'
    rw [hloop]
    refine ⟨_, first', parts, outputs, ?_, ⟨_, _, _, rfl⟩, rfl, hle, hextended, hready, hdata,
      hrequests, ?_, ?_⟩
    · dsimp only
      rw [if_neg hend, List.append_nil]
    · rw [List.length_append]
      omega
    dsimp only
    refine ⟨fun hnil => ?_, fun hend' => absurd hend' hend⟩
    obtain ⟨hfetching, hparts⟩ := List.append_eq_nil_iff.1 hnil
    have hfirst : first' = next := by
      by_contra hne
      have hcovered := hwindow.covered first' (Nat.le_refl _)
        (Nat.lt_of_le_of_ne hwindow.le hne)
      rcases List.mem_append.1 hcovered with hin | hin
      · grind
      · exact hnot hin
    subst hfirst
    exact absurd hparts (hadds (by omega) (Nat.not_le.1 hend))

/-- What the outstanding and the fetched parts reach over. -/
def reaches (m : Manager) : List (Nat × Nat) :=
  m.fetchingParts.map (fun p => (p.offset, p.offset + p.size)) ++
    m.fetchedParts.map fun p => (p.1, p.1 + p.2.length)

def NoOverlap (m : Manager) : Prop := (reaches m).Pairwise fun a b => a.2 ≤ b.1 ∨ b.2 ≤ a.1

theorem Windowed.noOverlap (hstop : stop ≤ file.length)
    (h : Windowed file location stop first next m) : NoOverlap m := by
  have hpiece : ∀ a ∈ reaches m, ∃ j < next,
      a = (pieceStart location stop j, pieceStart location stop (j + 1)) := by
    intro a ha
    rcases List.mem_append.1 ha with ha | ha
    · obtain ⟨p, hp, rfl⟩ := List.mem_map.1 ha
      obtain ⟨j, _, hj, hat, hend⟩ := h.fetching p hp
      exact ⟨j, hj, Prod.ext hat hend⟩
    · obtain ⟨p, hp, rfl⟩ := List.mem_map.1 ha
      obtain ⟨j, _, hj, rfl⟩ := h.fetched p hp
      exact ⟨j, hj, Prod.ext rfl (length_piece hstop j)⟩
  have hkeys : (reaches m).map Prod.fst = offsets m := by
    unfold reaches offsets
    rw [List.map_append, List.map_map, List.map_map]
    rfl
  have hdistinct : (reaches m).Pairwise fun a b => a.1 ≠ b.1 :=
    List.pairwise_map.1 (hkeys ▸ h.nodup)
  refine hdistinct.imp_of_mem fun {a b} ha hb hne => ?_
  obtain ⟨i, _, rfl⟩ := hpiece a ha
  obtain ⟨j, _, rfl⟩ := hpiece b hb
  rcases Nat.lt_trichotomy i j with hlt | rfl | hgt
  · exact .inl (edge_mono hlt)
  · exact absurd rfl hne
  · exact .inr (edge_mono hgt)

end Window

end TelegramPub.Ports.PartFetch
