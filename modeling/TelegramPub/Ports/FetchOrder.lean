import TelegramPub.Ports.FetchRuns

/-!
# The order of a fetch

With a given size there are up to four parts (`Known`), without one a single part
(`Unknown`), and the size is learnt from a short answer.  `delivers_file` is the fetch from
some location to the end of the file: whatever the order of the answers, the blocks are
delivered in order, the assertion on the length of an answer holds, and the fetch completes
once.
-/

namespace TelegramPub.Ports.PartFetch

open Verified Verified.Bytes Verified.Machine Verified.Pieces
open Ports.PartDownload
  (preferredPartSize updatedLimit slice length_slice slice_zeros le_updatedLimit
  updatedLimit_preferred)

variable {sha256 : Data → Data} {file : Data} {location stop : Nat}

/-- The tables of a fetch with a size. -/
structure Known (file : Data) (location stop left : Nat) (m : Manager) : Prop where
  size : m.completeSize.isSome = true
  bound : upperBound m = stop
  parallel : m.parallelParts = 4
  atMost : m.fetchingParts.length ≤ 4
  waits : m.fetchingParts = [] ↔ stop ≤ m.committedOffset
  window : ∃ first next, Windowed file location stop first next m ∧
    count location preferredPartSize stop - next + m.fetchingParts.length ≤ left

variable {m : Manager}

/-- What `checkState` does to a window. -/
theorem Windowed.moves (sha256 : Data → Data) {first next : Nat} (hlocation : location ≤ stop)
    (hstop : stop ≤ file.length)
    (h : Windowed file location stop first next m) (hplain : Plain m)
    (hsize : m.completeSize.isSome = true) (hbound : upperBound m = stop)
    (hparallel : m.parallelParts = 4) (hfree : m.fetchingParts.length < 4) :
    MovesOn file m (PartFetch.checkState sha256 m) ∧
      Known file location stop
        (count location preferredPartSize stop - next + m.fetchingParts.length)
        (PartFetch.checkState sha256 m).1 := by
  obtain ⟨m', first', parts, outputs, hcheck, honly, hparts, hle, hwindow, hready, hdata,
      hrequests, hlength, hwaits⟩ :=
    h.checkState sha256 hstop hplain.hashes hbound (by omega)
  rw [hcheck]
  have hcount : next + parts.length ≤ count location preferredPartSize stop := by
    rcases Nat.eq_zero_or_pos (next + parts.length) with hzero | hpos
    · omega
    · have hlast := hwindow.before (next + parts.length - 1) (by omega)
      rw [edge_lt_iff preferredPartSize_pos hlocation] at hlast
      omega
  have hsame : ∀ m'' : Manager, OnlyParts m m'' → m''.completeSize = m.completeSize ∧
      upperBound m'' = upperBound m ∧ m''.parallelParts = m.parallelParts ∧
      m''.ended = m.ended ∧ m''.cdnFilePartHashes = m.cdnFilePartHashes ∧
      m''.requestData = m.requestData ∧ m''.hasValue = m.hasValue := by
    rintro _ ⟨_, _, _, rfl⟩
    exact ⟨rfl, rfl, rfl, rfl, rfl, rfl, rfl⟩
  obtain ⟨hcomplete, hupper, hpar, hended, hhashes, hsource, hvalue⟩ := hsame m' honly
  constructor
  · refine ⟨⟨hended.trans hplain.goes, hhashes.trans hplain.hashes, hsource.trans hplain.source,
      ?_⟩, ?_, outputs, ?_, hready, hdata⟩
    · intro p hp
      dsimp only at hp
      rw [hparts] at hp
      rw [hvalue]
      rcases List.mem_append.1 hp with hp | hp
      · exact hplain.requests p hp
      · rw [hrequests p hp, hplain.source]
    · rw [h.committed, hwindow.committed]
      exact edge_mono hle
    · dsimp only
      simp only [hwaits]
  · refine ⟨by rw [hcomplete, hsize], hupper.trans hbound, hpar.trans hparallel, ?_, hwaits,
      first', next + parts.length, hwindow, ?_⟩
    · rw [← hparallel]
      exact hlength
    · rw [hparts, List.length_append]
      omega

variable {part : PendingPart}

theorem partFetched_known {data : Data} (hlength : data.length = part.size) :
    partFetched sha256 m part data =
      PartFetch.checkState sha256 (arrive m part.offset data) := by
  have hnot : ¬ (m.completeSize = none ∧ data.length < part.size) := by omega
  unfold partFetched
  rw [if_neg fun hwrong => hwrong.2 hlength]
  rw [if_neg hnot]
  rfl

theorem answerTo_fits {j : Nat} (hat : part.offset = pieceStart location stop j)
    (hsize : part.size = pieceStart location stop (j + 1) - pieceStart location stop j)
    (hfits : Fits file location stop j) : answerTo file part = piece file location stop j := by
  unfold Fits at hfits
  unfold answerTo
  rw [hat, hsize]
  unfold slice at hfits ⊢
  rw [List.length_take] at hfits
  exact List.take_eq_take_iff.2 (by omega)

variable {left : Nat}

/-- The answer to a request: the assertion fails exactly when the piece does not fit. -/
theorem Known.answer (hlocation : location ≤ stop) (hstop : stop ≤ file.length)
    (h : Known file location stop left m) (hplain : Plain m) (hpart : part ∈ m.fetchingParts) :
    ∃ left', left' < left ∧
      ((∃ j, pieceStart location stop j < stop ∧ ¬ Fits file location stop j) ∧
          partFetched sha256 m part (answerTo file part) = ({ m with ended := true }, []) ∨
        MovesOn file m (partFetched sha256 m part (answerTo file part)) ∧
          Known file location stop left' (partFetched sha256 m part (answerTo file part)).1) := by
  obtain ⟨first, next, hwindow, hleft⟩ := h.window
  obtain ⟨j, hj, hj', hat, hend⟩ := hwindow.fetching part hpart
  have hsize : part.size = pieceStart location stop (j + 1) - pieceStart location stop j := by
    omega
  have hpos : 0 < m.fetchingParts.length := List.length_pos_of_mem hpart
  by_cases hfits : Fits file location stop j
  · have hanswer := answerTo_fits hat hsize hfits
    have hlength : (answerTo file part).length = part.size := by
      unfold answerTo
      rw [hat, hsize]
      exact hfits
    have hless : (m.fetchingParts.filter (·.offset ≠ part.offset)).length <
        m.fetchingParts.length :=
      List.length_filter_lt_length_iff_exists.2 ⟨part, hpart, by simp⟩
    have hsmaller := h.atMost
    have hplain' : Plain (arrive m part.offset (answerTo file part)) :=
      ⟨hplain.goes, hplain.hashes, hplain.source, fun p hp =>
        hplain.requests p (List.mem_of_mem_filter hp)⟩
    have harrive := hwindow.arrive hj hj' hfits
    rw [← hanswer, ← hat] at harrive
    obtain ⟨hmoves, hknown⟩ := harrive.moves sha256 hlocation hstop hplain' h.size
      h.bound h.parallel (by
        show (m.fetchingParts.filter (·.offset ≠ part.offset)).length < 4
        omega)
    rw [partFetched_known hlength]
    refine ⟨_, ?_, .inr ⟨⟨hmoves.plain, hmoves.le, hmoves.outputs⟩, hknown⟩⟩
    show count location preferredPartSize stop - next +
      (m.fetchingParts.filter (·.offset ≠ part.offset)).length < left
    omega
  · refine ⟨left - 1, by omega, .inl ⟨⟨j, hwindow.before j hj', hfits⟩, ?_⟩⟩
    unfold partFetched
    refine if_pos ⟨h.size, fun hlength => hfits ?_⟩
    unfold answerTo at hlength
    rwa [hat, hsize] at hlength

theorem Windowed.withRequests {first next : Nat} (h : Windowed file location stop first next m) :
    Windowed file location stop first next (PartFetch.withRequests m) := by
  have hoffset : (PartFetch.withRequests m).fetchingParts.map (·.offset) = m.fetchingParts.map (·.offset) := by
    unfold PartFetch.withRequests
    rw [List.map_map]
    rfl
  have hoffsets : offsets (PartFetch.withRequests m) = offsets m := by
    unfold offsets
    rw [hoffset]
    rfl
  exact
    { h with
      fetching := by
        intro p hp
        obtain ⟨q, hq, rfl⟩ := List.mem_map.1 hp
        exact h.fetching q hq
      nodup := hoffsets ▸ h.nodup
      covered := fun j hj hj' => hoffsets ▸ h.covered j hj hj'
      fits := fun j hj hnot => h.fits j hj (hoffset ▸ hnot) }

theorem Known.requestData (h : Known file location stop left m) :
    Known file location stop left (withRequests m) := by
  obtain ⟨first, next, hwindow, hleft⟩ := h.window
  have hlength : (withRequests m).fetchingParts.length = m.fetchingParts.length :=
    List.length_map _
  refine ⟨h.size, h.bound, h.parallel, ?_, ?_, first, next, hwindow.withRequests, ?_⟩
  · rw [hlength]
    exact h.atMost
  · rw [← List.length_eq_zero_iff, hlength, List.length_eq_zero_iff]
    exact h.waits
  · rw [hlength]
    exact hleft

/-- The end of the range of a fetch with a size. -/
def knownStop (size location length : Nat) : Nat :=
  min (location + min (location + length) size) size

theorem known_tables (sha256 : Data → Data) {size : Nat} (length : Nat) (hlocation : location ≤ size)
    (hsize : size = file.length) :
    Tables sha256 file (initWithResource (some size) location length)
      (count location preferredPartSize (knownStop size location length))
      (∃ j, pieceStart location (knownStop size location length) j <
          knownStop size location length ∧
        ¬ Fits file location (knownStop size location length) j)
      (Known file location (knownStop size location length)) := by
  have hstart : location ≤ knownStop size location length := by
    unfold knownStop
    omega
  have hstop : knownStop size location length ≤ file.length := by
    unfold knownStop
    omega
  refine ⟨fun hasValue => ?_, fun left m part hknown hplain hpart => ?_, fun left m hknown => ?_⟩
  · have hempty : Windowed file location (knownStop size location length) 0 0
        { initWithResource (some size) location length with hasValue } :=
      { le := Nat.le_refl _
        before := fun j hj => absurd hj (Nat.not_lt_zero j)
        committed := (edge_zero hstart).symm
        fetching := fun p hp => absurd hp List.not_mem_nil
        fetched := fun p hp => absurd hp List.not_mem_nil
        nodup := List.nodup_nil
        covered := fun j _ hj => absurd hj (Nat.not_lt_zero j)
        fits := fun j hj => absurd hj (Nat.not_lt_zero j) }
    have hmoves := hempty.moves sha256 hstart hstop
      ⟨rfl, rfl, rfl, fun p hp => absurd hp List.not_mem_nil⟩ rfl rfl rfl (Nat.zero_lt_succ 3)
    have hnone : ({ initWithResource (some size) location length with hasValue } :
        Manager).fetchingParts.length = 0 := rfl
    rwa [hnone, Nat.add_zero, Nat.sub_zero] at hmoves
  · exact hknown.answer hstart hstop hplain hpart
  · exact hknown.requestData

/-- Where a fetch without a size ends: the limit of the last request is rounded up, but the
file may end before it. -/
def fetchEnd (file : Data) (location stop : Nat) : Nat :=
  if stop ≤ location then location
  else
    let lastStart := location + preferredPartSize * ((stop - location - 1) / preferredPartSize)
    min file.length (lastStart + updatedLimit (stop - lastStart))

/-- The tables of a fetch without a size. -/
structure Unknown (file : Data) (location stop left : Nat) (m : Manager) : Prop where
  parallel : m.parallelParts = 1
  range : m.location + m.length = stop
  fetched : m.fetchedParts = []
  committed_le : m.committedOffset ≤ file.length
  stage : m.fetchingParts = [] ∧ m.committedOffset = fetchEnd file location stop ∨
    ∃ k request, m.completeSize = none ∧
      m.committedOffset = location + preferredPartSize * k ∧ m.committedOffset < stop ∧
      m.fetchingParts = [⟨m.committedOffset, min (stop - m.committedOffset) preferredPartSize,
        request⟩] ∧
      (file.length - m.committedOffset) / preferredPartSize + 1 ≤ left

theorem fetchLoop_one (hnext : nextOffset m = m.committedOffset)
    (hless : m.committedOffset < upperBound m) :
    fetchLoop 1 m =
      { m with
        fetchingParts := m.fetchingParts ++ [⟨m.committedOffset,
          min (upperBound m - m.committedOffset) preferredPartSize,
          if m.hasValue then some m.requestData else none⟩] } := by
  rw [fetchLoop]
  rw [hnext, if_pos hless]
  rfl

theorem checkState_of_none (sha256 : Data → Data) (hfetched : m.fetchedParts = []) :
    checkState sha256 m =
      if isComplete m then (m, [.completed])
      else (fetchLoop (m.parallelParts - m.fetchingParts.length) m, []) := by
  have hsorted : (m.fetchedParts.map (·.1)).insertionSort (· ≤ ·) = [] := by
    rw [hfetched]
    rfl
  unfold checkState
  rw [hsorted]
  rfl

theorem checkState_idle (hfetched : m.fetchedParts = [])
    (hfetching : m.fetchingParts = []) (hparallel : m.parallelParts = 1) :
    checkState sha256 m =
      if upperBound m ≤ m.committedOffset then (m, [.completed])
      else
        ({ m with
            fetchingParts := [⟨m.committedOffset,
              min (upperBound m - m.committedOffset) preferredPartSize,
              if m.hasValue then some m.requestData else none⟩] }, []) := by
  have hnext : nextOffset m = m.committedOffset := by
    unfold nextOffset
    rw [hfetched, hfetching]
    rfl
  have hcount : m.parallelParts - m.fetchingParts.length = 1 := by
    rw [hparallel, hfetching]
    rfl
  rw [checkState_of_none sha256 hfetched, isComplete_eq, hcount]
  by_cases hend : upperBound m ≤ m.committedOffset
  · rw [if_pos (decide_eq_true hend), if_pos hend]
  · rw [if_neg (by simpa using hend), if_neg hend, fetchLoop_one hnext (Nat.not_le.1 hend),
      hfetching, List.nil_append]

/-- The only part has arrived. -/
theorem checkState_single {data : Data} (hnone : m.cdnFilePartHashes = none)
    (hfetched : m.fetchedParts = [(m.committedOffset, data)]) :
    checkState sha256 m =
      (let rest := checkState sha256
        { m with committedOffset := m.committedOffset + data.length, fetchedParts := [] }
      (rest.1, .partReady m.committedOffset data :: rest.2)) := by
  have hfind : m.fetchedParts.find? (·.1 == m.committedOffset) =
      some (m.committedOffset, data) := by
    rw [hfetched]
    exact List.find?_cons_of_pos (beq_self_eq_true _)
  have hgone : m.fetchedParts.filter (·.1 ≠ m.committedOffset) = [] := by
    rw [hfetched]
    simp
  have hsorted : (m.fetchedParts.map (·.1)).insertionSort (· ≤ ·) = [m.committedOffset] := by
    rw [hfetched]
    rfl
  have hrest := checkState_of_none sha256 (m :=
    { m with committedOffset := m.committedOffset + data.length, fetchedParts := [] }) rfl
  rw [hrest]
  unfold checkState
  dsimp only
  rw [hsorted, commitParts_head hnone rfl hfind, hgone]
  dsimp only [commitParts]
  simp only [Bool.false_eq_true, if_false]
  by_cases hend : isComplete
      { m with committedOffset := m.committedOffset + data.length, fetchedParts := [] } = true
  · rw [if_pos hend]
    exact if_pos hend
  · rw [if_neg hend]
    exact if_neg hend

/-- What `checkState` does when nothing has arrived and nothing is waited for. -/
theorem idle_moves (sha256 : Data → Data) (left : Nat) (hplain : Plain m)
    (hparallel : m.parallelParts = 1) (hrange : m.location + m.length = stop)
    (hfetched : m.fetchedParts = []) (hfetching : m.fetchingParts = [])
    (hle : m.committedOffset ≤ file.length)
    (hstage : upperBound m ≤ m.committedOffset ∧ m.committedOffset = fetchEnd file location stop ∨
      m.completeSize = none ∧ m.committedOffset < stop ∧
        (∃ k, m.committedOffset = location + preferredPartSize * k) ∧
        (file.length - m.committedOffset) / preferredPartSize + 1 ≤ left) :
    MovesOn file m (checkState sha256 m) ∧
      Unknown file location stop left (checkState sha256 m).1 := by
  have hnothing : delivered [] = span file m.committedOffset m.committedOffset :=
    (span_self _ _).symm
  have hready : AllReady [] := fun output hmem => absurd hmem List.not_mem_nil
  rw [checkState_idle hfetched hfetching hparallel]
  rcases hstage with ⟨hend, hat⟩ | ⟨hsize, hless, ⟨k, hat⟩, hleft⟩
  · rw [if_pos hend]
    refine ⟨⟨hplain, Nat.le_refl _, [], ?_, hready, hnothing⟩,
      hparallel, hrange, hfetched, hle, .inl ⟨hfetching, hat⟩⟩
    rw [if_pos hfetching]
    rfl
  · have hbound : upperBound m = stop := by
      unfold upperBound
      rw [hsize]
      exact hrange
    rw [hbound, if_neg (Nat.not_le.2 hless)]
    refine ⟨⟨⟨hplain.goes, hplain.hashes, hplain.source, ?_⟩, Nat.le_refl _, [], ?_, hready,
      hnothing⟩, hparallel, hrange, hfetched, hle,
      .inr ⟨k, _, hsize, hat, hless, rfl, hleft⟩⟩
    · intro p hp
      rw [List.mem_singleton.1 hp, hplain.source]
    · dsimp only
      rw [if_neg (List.cons_ne_nil _ _)]
      rfl

/-- The part that was waited for is delivered, and `checkState` goes on behind it. -/
theorem MovesOn.ready {data : Data}
    (hdata : data = span file m.committedOffset (m.committedOffset + data.length))
    {m' : Manager} (hat : m'.committedOffset = m.committedOffset + data.length)
    {result : Manager × List Output} (h : MovesOn file m' result) :
    MovesOn file m (result.1, .partReady m.committedOffset data :: result.2) := by
  obtain ⟨ready, houtputs, hready, hnew⟩ := h.outputs
  have hle := h.le
  rw [hat] at hle hnew
  refine ⟨h.plain, by dsimp only; omega, .partReady m.committedOffset data :: ready, ?_, ?_, ?_⟩
  · dsimp only
    rw [houtputs]
    rfl
  · intro output hmem
    rcases List.mem_cons.1 hmem with rfl | hmem
    · exact ⟨_, _, rfl⟩
    · exact hready output hmem
  · show data ++ delivered ready = _
    rw [hnew, ← span_append file (Nat.le_add_right m.committedOffset data.length) hle, ← hdata]

theorem fetchEnd_eq {offset k : Nat} (hat : offset = location + preferredPartSize * k)
    (hless : offset < stop) (hle : offset ≤ file.length)
    (hlast : file.length < offset + min (stop - offset) preferredPartSize ∨
      stop - offset ≤ preferredPartSize) :
    offset + min (updatedLimit (min (stop - offset) preferredPartSize)) (file.length - offset) =
      fetchEnd file location stop := by
  have hsize : preferredPartSize = 131072 := rfl
  unfold fetchEnd
  rw [if_neg (by omega)]
  dsimp only
  by_cases hone : stop - offset ≤ preferredPartSize
  · grind
  · have hshort := hlast.resolve_right hone
    have hreach := le_updatedLimit
      (stop - (location + preferredPartSize * ((stop - location - 1) / preferredPartSize)))
    have hbefore : location + preferredPartSize * ((stop - location - 1) / preferredPartSize) <
        stop := by
      rw [hsize] at hat ⊢
      omega
    rw [Nat.min_eq_right (Nat.le_of_not_le hone), updatedLimit_preferred]
    rw [Nat.min_eq_right (Nat.le_of_not_le hone)] at hshort
    omega

theorem Unknown.answer (h : Unknown file location stop left m) (hplain : Plain m)
    (hpart : part ∈ m.fetchingParts) :
    ∃ left', left' < left ∧
      (False ∧ partFetched sha256 m part (answerTo file part) = ({ m with ended := true }, []) ∨
        MovesOn file m (partFetched sha256 m part (answerTo file part)) ∧
          Unknown file location stop left' (partFetched sha256 m part (answerTo file part)).1) := by
  rcases h.stage with ⟨hnone, _⟩ | ⟨k, request, hsize, hat, hless, hparts, hleft⟩
  · rw [hnone] at hpart
    cases hpart
  rw [hparts, List.mem_singleton] at hpart
  subst hpart
  have hlength := length_slice file m.committedOffset
    (updatedLimit (min (stop - m.committedOffset) preferredPartSize))
  have hcommitted := h.committed_le
  have hpreferred : preferredPartSize = 131072 := rfl
  have hlimit := le_updatedLimit (min (stop - m.committedOffset) preferredPartSize)
  unfold answerTo
  dsimp only
  generalize hdata : slice file m.committedOffset
    (updatedLimit (min (stop - m.committedOffset) preferredPartSize)) = data at hlength ⊢
  have hspan : data = span file m.committedOffset (m.committedOffset + data.length) := by
    unfold span
    rw [← hdata]
    unfold slice
    exact List.take_eq_take_iff.2 (by rw [List.length_take]; omega)
  have hfetch : ∃ completeSize, partFetched sha256 m ⟨m.committedOffset,
        min (stop - m.committedOffset) preferredPartSize, request⟩ data =
      checkState sha256
        { m with
          completeSize, fetchingParts := [], fetchedParts := [(m.committedOffset, data)] } ∧
      (data.length < min (stop - m.committedOffset) preferredPartSize ∧
          completeSize = some (m.committedOffset + data.length) ∨
        min (stop - m.committedOffset) preferredPartSize ≤ data.length ∧ completeSize = none) := by
    have hgone : (m.fetchingParts.filter fun p => p.offset ≠ m.committedOffset) = [] := by
      rw [hparts]
      simp
    unfold partFetched
    rw [if_neg (by rw [hsize]; simp)]
    by_cases hshort : data.length < min (stop - m.committedOffset) preferredPartSize
    · refine ⟨some (m.committedOffset + data.length), ?_, .inl ⟨hshort, rfl⟩⟩
      dsimp only
      rw [if_pos ⟨hsize, hshort⟩]
      dsimp only
      rw [hgone, h.fetched]
      rfl
    · refine ⟨none, ?_, .inr ⟨Nat.not_lt.1 hshort, rfl⟩⟩
      dsimp only
      rw [if_neg fun hwrong => hshort hwrong.2, hgone, h.fetched, hsize]
      rfl
  obtain ⟨completeSize, hfetch, hlearnt⟩ := hfetch
  have hidle := @idle_moves file location stop
    { m with
      committedOffset := m.committedOffset + data.length, completeSize, fetchingParts := []
      fetchedParts := [] } sha256 (left - 1)
    ⟨hplain.goes, hplain.hashes, hplain.source, fun p hp => absurd hp List.not_mem_nil⟩
    h.parallel h.range rfl rfl (by dsimp only; omega)
  have hsingle := @checkState_single sha256
    { m with
      completeSize, fetchingParts := [], fetchedParts := [(m.committedOffset, data)] }
    data hplain.hashes rfl
  obtain ⟨hmoves, hunknown⟩ := hidle (by
    dsimp only
    by_cases hlast : file.length < m.committedOffset +
        min (stop - m.committedOffset) preferredPartSize ∨
      stop - m.committedOffset ≤ preferredPartSize
    · have hend := fetchEnd_eq hat hless hcommitted hlast
      rw [← hlength] at hend
      refine .inl ⟨?_, hend⟩
      unfold upperBound
      dsimp only
      rcases hlearnt with ⟨hshort, rfl⟩ | ⟨hfull, rfl⟩
      · exact Nat.min_le_right _ _
      · dsimp only
        have hrange := h.range
        omega
    · have hwhole : data.length = preferredPartSize := by
        have hmin : min (stop - m.committedOffset) preferredPartSize = preferredPartSize := by
          omega
        rw [hmin, updatedLimit_preferred] at hlength
        omega
      rcases hlearnt with ⟨hshort, _⟩ | ⟨_, hnone⟩
      · omega
      · refine .inr ⟨hnone, by omega, ⟨k + 1, ?_⟩, ?_⟩
        · rw [hat, hwhole, Nat.mul_succ]
          omega
        · rw [hpreferred] at hwhole hleft hlast ⊢
          omega)
  rw [hfetch, hsingle]
  have hpos : 0 < left := Nat.lt_of_lt_of_le (Nat.succ_pos _) hleft
  exact ⟨left - 1, by omega, .inr ⟨hmoves.ready hspan rfl, hunknown⟩⟩

theorem Unknown.requestData (h : Unknown file location stop left m) :
    Unknown file location stop left (withRequests m) := by
  refine ⟨h.parallel, h.range, h.fetched, h.committed_le, ?_⟩
  rcases h.stage with ⟨hnone, hat⟩ | ⟨k, request, hsize, hat, hless, hparts, hleft⟩
  · refine .inl ⟨?_, hat⟩
    unfold withRequests
    rw [hnone]
    rfl
  · refine .inr ⟨k, some m.requestData, hsize, hat, hless, ?_, hleft⟩
    unfold withRequests
    rw [hparts]
    rfl

theorem unknown_tables (sha256 : Data → Data) (length : Nat) (hlocation : location ≤ file.length) :
    Tables sha256 file (initWithResource none location length)
      ((file.length - location) / preferredPartSize + 1) False
      (Unknown file location (location + length)) := by
  refine ⟨fun hasValue => ?_, fun left m part hunknown hplain hpart =>
    hunknown.answer hplain hpart, fun left m hunknown => hunknown.requestData⟩
  refine idle_moves sha256 _ ⟨rfl, rfl, rfl, fun p hp => absurd hp List.not_mem_nil⟩ rfl rfl rfl
    rfl hlocation ?_
  by_cases hempty : location + length ≤ location
  · refine .inl ⟨hempty, ?_⟩
    unfold fetchEnd
    rw [if_pos hempty]
    rfl
  · exact .inr ⟨rfl, Nat.not_le.1 hempty, ⟨0, rfl⟩, Nat.le_refl _⟩

/-! ## To the end of the file -/

/-- What holds in every state of a fetch that goes to the end of the file. -/
structure OrderedDelivery (file : Data) (location : Nat) (s : Fetch) : Prop where
  /-- The assertion on the length of an answer has not failed. -/
  goes : s.manager.ended = false
  /-- The loop that rounds a limit up has ended. -/
  rounded : ∀ p ∈ s.manager.fetchingParts,
    updatedLimit p.size % 4096 = 0 ∧ 1048576 % updatedLimit p.size = 0
  noOverlap : NoOverlap s.manager
  answerable : s.manager.hasValue = true → ∀ p ∈ s.manager.fetchingParts,
    awaited s.manager p.offset = some (p, .file)
  inOrder : delivered s.outputs <+: file.drop location
  goesOn : s.isStarted = false ∨ s.manager.fetchingParts ≠ [] → .completed ∉ s.outputs
  finished : s.isStarted = true → s.manager.fetchingParts = [] →
    ∃ ready, s.outputs = ready ++ [.completed] ∧ AllReady ready ∧
      delivered ready = file.drop location

theorem Calls.ordered {s : Fetch} (h : Calls file location s)
    (hsizes : ∀ p ∈ s.manager.fetchingParts, p.size ≤ preferredPartSize)
    (hoverlap : NoOverlap s.manager) (hnodup : (s.manager.fetchingParts.map (·.offset)).Nodup)
    (hle : s.manager.committedOffset ≤ file.length)
    (hend : s.manager.fetchingParts = [] → s.manager.committedOffset = file.length) :
    OrderedDelivery file location s := by
  obtain ⟨ready, houtputs, hready, hdata⟩ := h.outputs
  refine
    { goes := h.plain.goes
      rounded := fun p hp => PartDownload.updatedLimit_admissible
        ((hsizes p hp).trans (by decide))
      noOverlap := hoverlap
      answerable := ?_
      inOrder := ?_
      goesOn := ?_
      finished := ?_ }
  · intro hvalue p hp
    have hrequest := h.plain.requests p hp
    rw [if_pos hvalue] at hrequest
    unfold awaited
    rw [FirstMatch.find_of_nodup hnodup hp, Option.bind_some, hrequest]
    rfl
  · have hall : delivered s.outputs = delivered ready := by
      rw [houtputs, delivered_append]
      split <;> exact List.append_nil _
    rw [hall, hdata, ← span_to_end]
    exact span_prefix file h.le hle
  · intro hwaits
    have hne : s.manager.fetchingParts ≠ [] := hwaits.resolve_left fun hfalse => by
      rw [h.started] at hfalse
      cases hfalse
    rw [houtputs, if_neg hne, List.append_nil]
    exact hready.completed_notMem
  · intro _ hnil
    rw [if_pos hnil] at houtputs
    rw [hend hnil, span_to_end] at hdata
    exact ⟨ready, houtputs, hready, hdata⟩

theorem Known.ordered {s : Fetch} (h : Calls file location s)
    (hknown : Known file location file.length left s.manager) :
    OrderedDelivery file location s := by
  obtain ⟨first, next, hwindow, _⟩ := hknown.window
  have hle : s.manager.committedOffset ≤ file.length := by
    rw [hwindow.committed]
    exact edge_le_stop first
  refine h.ordered ?_ (hwindow.noOverlap (Nat.le_refl _))
    (hwindow.nodup.sublist (List.sublist_append_left _ _)) hle fun hnil =>
      Nat.le_antisymm hle (hknown.waits.1 hnil)
  intro p hp
  obtain ⟨j, _, _, hat, hend⟩ := hwindow.fetching p hp
  have hstep : pieceStart location file.length (j + 1) = pieceStart location file.length j +
      min preferredPartSize (file.length - pieceStart location file.length j) := edge_succ
  omega

theorem Unknown.ordered {s : Fetch} (h : Calls file location s)
    (hunknown : Unknown file location stop left s.manager)
    (hend : fetchEnd file location stop = file.length) : OrderedDelivery file location s := by
  have hnone := hunknown.fetched
  rcases hunknown.stage with ⟨hnil, hat⟩ | ⟨k, request, _, _, _, hparts, _⟩
  · have hreaches : reaches s.manager = [] := by
      unfold reaches
      rw [hnil, hnone]
      rfl
    refine h.ordered (fun p hp => ?_) ?_ ?_ hunknown.committed_le fun _ => hat.trans hend
    · rw [hnil] at hp
      cases hp
    · unfold NoOverlap
      rw [hreaches]
      exact List.Pairwise.nil
    · rw [hnil]
      exact List.nodup_nil
  · have hreaches : ∃ a, reaches s.manager = [a] := by
      unfold reaches
      rw [hparts, hnone]
      exact ⟨_, rfl⟩
    obtain ⟨a, hreaches⟩ := hreaches
    refine h.ordered (fun p hp => ?_) ?_ ?_ hunknown.committed_le fun hnil => ?_
    · grind
    · unfold NoOverlap
      rw [hreaches]
      exact List.pairwise_singleton _ _
    · rw [hparts]
      exact List.nodup_singleton _
    · rw [hparts] at hnil
      cases hnil

/-- With the whole file as its range, every piece fits. -/
theorem fits_of_end {j : Nat} (hless : pieceStart location file.length j < file.length) :
    Fits file location file.length j := by
  have hstep : pieceStart location file.length (j + 1) = pieceStart location file.length j +
      min preferredPartSize (file.length - pieceStart location file.length j) := edge_succ
  have hlimit := le_updatedLimit
    (pieceStart location file.length (j + 1) - pieceStart location file.length j)
  unfold Fits
  rw [length_slice]
  by_cases hwhole : pieceStart location file.length (j + 1) - pieceStart location file.length j =
      preferredPartSize
  · rw [hwhole, updatedLimit_preferred]
    omega
  · omega

theorem fetchEnd_of_behind (hlocation : location ≤ file.length) (hstop : file.length < stop) :
    fetchEnd file location stop = file.length := by
  have hreach := le_updatedLimit
    (stop - (location + preferredPartSize * ((stop - location - 1) / preferredPartSize)))
  have hmul := Nat.mul_div_le (stop - location - 1) preferredPartSize
  unfold fetchEnd
  rw [if_neg (by omega)]
  dsimp only
  omega

/-- A fetch from a location to the end of a file, with the right size or without one, in
every order of the answers: the blocks come in order, the parts never overlap, nothing fails,
and the fetch completes once it waits for nothing.  The number of answers is bounded. -/
theorem delivers_file (sha256 : Data → Data) (aes : Data → Equiv.Perm (BitVec 128)) (file : Data)
    (hfile : file.length < 2 ^ 30) (location : Nat) (hlocation : location ≤ file.length)
    (size : Option Nat) (hsize : size = none ∨ size = some file.length) (events : List Event)
    (hevents : Guarded (fetchStep sha256 aes) (Allowed file)
      (Fetch.create size location (2 ^ 31 - 1)) events) :
    OrderedDelivery file location
        (run (fetchStep sha256 aes) (Fetch.create size location (2 ^ 31 - 1)) events) ∧
      events.countP (·.isAnswer) ≤ (file.length - location) / preferredPartSize + 1 := by
  have hcreated : ∀ m : Manager, Fresh m → m.fetchedParts = [] →
      OrderedDelivery file location { manager := m } := by
    intro m hfresh hnone
    have hreaches : reaches m = [] := by
      unfold reaches
      rw [hfresh.fetching, hnone]
      rfl
    exact
      { goes := hfresh.goes
        rounded := fun p hp => by rw [hfresh.fetching] at hp; cases hp
        noOverlap := by
          unfold NoOverlap
          rw [hreaches]
          exact List.Pairwise.nil
        answerable := fun _ p hp => by rw [hfresh.fetching] at hp; cases hp
        inOrder := List.nil_prefix
        goesOn := fun _ => List.not_mem_nil
        finished := fun hstarted => by cases hstarted }
  have hpreferred : preferredPartSize = 131072 := rfl
  rcases hsize with rfl | rfl
  · obtain ⟨left, hleft, hstage⟩ := (unknown_tables sha256 (2 ^ 31 - 1) hlocation).run aes
      ⟨rfl, rfl, rfl, rfl⟩ events _ _ (.created false) hevents
    refine ⟨?_, by omega⟩
    change Stage file _ _ _ _ left (run (fetchStep sha256 aes)
      (Fetch.create none location (2 ^ 31 - 1)) events) at hstage
    generalize run (fetchStep sha256 aes) (Fetch.create none location (2 ^ 31 - 1)) events = s
      at hstage
    cases hstage with
    | created hasValue => exact hcreated _ ⟨rfl, rfl, rfl, rfl⟩ rfl
    | fetching hcalls hholds =>
      exact Unknown.ordered hcalls hholds (fetchEnd_of_behind hlocation (by omega))
    | ended hmay _ _ => exact absurd hmay id
  · have hstop : knownStop file.length location (2 ^ 31 - 1) = file.length := by
      unfold knownStop
      omega
    have htables := known_tables sha256 (2 ^ 31 - 1) hlocation rfl
    rw [hstop] at htables
    obtain ⟨left, hleft, hstage⟩ := htables.run aes ⟨rfl, rfl, rfl, rfl⟩ events _ _
      (.created false) hevents
    constructor
    · change Stage file _ _ _ _ left (run (fetchStep sha256 aes)
        (Fetch.create (some file.length) location (2 ^ 31 - 1)) events) at hstage
      generalize run (fetchStep sha256 aes)
        (Fetch.create (some file.length) location (2 ^ 31 - 1)) events = s at hstage
      cases hstage with
      | created hasValue => exact hcreated _ ⟨rfl, rfl, rfl, rfl⟩ rfl
      | fetching hcalls hholds => exact Known.ordered hcalls hholds
      | ended hmay _ _ =>
        obtain ⟨j, hless, hnot⟩ := hmay
        exact absurd (fits_of_end hless) hnot
    · unfold count at hleft
      rw [hpreferred] at hleft ⊢
      omega

theorem answerTo_zeros (n : Nat) (part : PendingPart) :
    answerTo (List.replicate n 0) part =
      List.replicate (min (updatedLimit part.size) (n - part.offset)) 0 := by
  rw [answerTo, slice_zeros]

/-- The short answer to the last of two requests comes first. -/
def lastFirst : List Event :=
  [.start, .requestData, .answered 131073 (.file [0, 0, 0]),
    .answered 1 (.file (List.replicate 131072 0))]

/-- Two parts, of which the second is answered first. -/
theorem delivers_lastFirst :
    OrderedDelivery (List.replicate 131076 0) 1
        (run (fetchStep id fun _ => Equiv.refl _) (Fetch.create (some 131076) 1 (2 ^ 31 - 1))
          lastFirst) ∧
      lastFirst.countP Event.isAnswer ≤
        ((List.replicate 131076 (0 : UInt8)).length - 1) / preferredPartSize + 1 := by
  have hlast : PartDownload.Answer.file [0, 0, 0] =
      .file (answerTo (List.replicate 131076 0) ⟨131073, 3, some .file⟩) := by
    rw [answerTo_zeros, Nat.min_eq_right (by exact le_updatedLimit 3)]
    rfl
  have hfirst : PartDownload.Answer.file (List.replicate 131072 0) =
      .file (answerTo (List.replicate 131076 0) ⟨1, preferredPartSize, some .file⟩) := by
    rw [answerTo_zeros, updatedLimit_preferred]
    rfl
  exact delivers_file id (fun _ => Equiv.refl _) (List.replicate 131076 0)
    (by rw [List.length_replicate]; decide) 1 (by rw [List.length_replicate]; decide)
    (some 131076) (.inr (by rw [List.length_replicate])) _
    ⟨rfl, trivial, ⟨rfl, _, rfl, hlast⟩, ⟨rfl, _, rfl, hfirst⟩, trivial⟩

end TelegramPub.Ports.PartFetch
