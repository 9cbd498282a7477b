import TelegramPub.Ports.FetchOrder

/-!
# The range of a fetch

The limit of the last request of a range is rounded up, so its answer may go on behind the
range.  `clippedData` is computed for this case, but the whole answer is kept: without a size
it is delivered, and with a size the assertion on its length fails.  With a size, moreover, the
end of the range is taken for its length, so that a range which does not begin at zero is left
behind.  `staysInside_iff` is when none of this happens.
-/

namespace TelegramPub.Ports.PartFetch

open Verified.Bytes Verified.Machine Verified.Pieces
open Ports.PartDownload (preferredPartSize updatedLimit updatedLimitFrom slice
  length_slice le_updatedLimit updatedLimit_preferred updatedLimit_admissible)

/-- The sizes that are not rounded up. -/
def IsAdmissible (length : Nat) : Prop := length % 4096 = 0 ∧ 1048576 % length = 0

/-- The size of the last part of a range. -/
def lastPartSize (length : Nat) : Nat :=
  length - preferredPartSize * ((length - 1) / preferredPartSize)

instance (length : Nat) : Decidable (IsAdmissible length) :=
  inferInstanceAs (Decidable (_ ∧ _))

theorem updatedLimit_eq_self_iff {length : Nat} (h : length ≤ 1048576) :
    updatedLimit length = length ↔ IsAdmissible length := by
  constructor
  · intro heq
    have hadmissible := updatedLimit_admissible h
    rwa [heq] at hadmissible
  · intro hadmissible
    unfold updatedLimit
    cases 1048576 - length with
    | zero => rfl
    | succ fuel =>
      rw [updatedLimitFrom, if_neg]
      rintro (hwrong | hwrong)
      · exact hwrong hadmissible.1
      · exact hwrong hadmissible.2

section Ends

variable {file : Data} {location stop : Nat}

/-- No request goes on behind the end of the range. -/
def EndsExactly (file : Data) (location stop : Nat) : Prop :=
  stop = file.length ∨ stop = location ∨ IsAdmissible (lastPartSize (stop - location))

theorem lastPartSize_le (length : Nat) : lastPartSize length ≤ preferredPartSize := by
  have hpreferred : preferredPartSize = 131072 := rfl
  unfold lastPartSize
  rw [hpreferred]
  omega

theorem lastPartSize_pos {length : Nat} (h : 0 < length) : 0 < lastPartSize length := by
  have hpreferred : preferredPartSize = 131072 := rfl
  unfold lastPartSize
  rw [hpreferred]
  omega

theorem fetchEnd_eq_stop_iff (hlocation : location ≤ stop) (hstop : stop ≤ file.length) :
    fetchEnd file location stop = stop ↔ EndsExactly file location stop := by
  have hpreferred : preferredPartSize = 131072 := rfl
  unfold fetchEnd EndsExactly
  by_cases hempty : stop ≤ location
  · rw [if_pos hempty]
    exact ⟨fun heq => .inr (.inl heq.symm), fun _ => Nat.le_antisymm hlocation hempty⟩
  · rw [if_neg hempty]
    dsimp only
    have hlast : stop - (location + preferredPartSize * ((stop - location - 1) / preferredPartSize)) =
        lastPartSize (stop - location) := by
      unfold lastPartSize
      omega
    have hbefore : location + preferredPartSize * ((stop - location - 1) / preferredPartSize) +
        lastPartSize (stop - location) = stop := by
      unfold lastPartSize
      rw [hpreferred]
      omega
    have hlimit := le_updatedLimit (lastPartSize (stop - location))
    have hsmall : lastPartSize (stop - location) ≤ 1048576 :=
      (lastPartSize_le _).trans (by decide)
    rw [hlast, ← updatedLimit_eq_self_iff hsmall]
    omega

/-- A piece before the end is whole, or it is the last one. -/
theorem piece_whole_or_last {j : Nat} (hless : pieceStart location stop j < stop) :
    pieceStart location stop (j + 1) - pieceStart location stop j = preferredPartSize ∧
        pieceStart location stop j + preferredPartSize ≤ stop ∨
      pieceStart location stop (j + 1) - pieceStart location stop j =
          lastPartSize (stop - location) ∧
        pieceStart location stop j + lastPartSize (stop - location) = stop := by
  have hpreferred : preferredPartSize = 131072 := rfl
  have hstep : pieceStart location stop (j + 1) = pieceStart location stop j +
      min preferredPartSize (stop - pieceStart location stop j) := edge_succ
  have hat : pieceStart location stop j = location + preferredPartSize * j := edge_of_lt hless
  by_cases hwhole : pieceStart location stop j + preferredPartSize ≤ stop
  · exact .inl ⟨by omega, hwhole⟩
  · have hlast : lastPartSize (stop - location) = stop - pieceStart location stop j := by
      unfold lastPartSize
      rw [hpreferred] at hat hwhole ⊢
      omega
    exact .inr (by omega)

theorem fits_whole {j : Nat} (hstop : stop ≤ file.length)
    (hsize : pieceStart location stop (j + 1) - pieceStart location stop j = preferredPartSize)
    (hend : pieceStart location stop j + preferredPartSize ≤ stop) :
    Fits file location stop j := by
  unfold Fits
  rw [length_slice, hsize, updatedLimit_preferred]
  omega

theorem fits_last_iff {j : Nat} (hstop : stop ≤ file.length)
    (hsize : pieceStart location stop (j + 1) - pieceStart location stop j =
      lastPartSize (stop - location))
    (hend : pieceStart location stop j + lastPartSize (stop - location) = stop) :
    Fits file location stop j ↔
      stop = file.length ∨ IsAdmissible (lastPartSize (stop - location)) := by
  have hlimit := le_updatedLimit (lastPartSize (stop - location))
  have hsmall : lastPartSize (stop - location) ≤ 1048576 :=
    (lastPartSize_le _).trans (by decide)
  unfold Fits
  rw [length_slice, hsize, ← updatedLimit_eq_self_iff hsmall]
  omega

theorem fits_iff (hlocation : location ≤ stop) (hstop : stop ≤ file.length) :
    (∀ j, pieceStart location stop j < stop → Fits file location stop j) ↔
      EndsExactly file location stop := by
  have hpreferred : preferredPartSize = 131072 := rfl
  constructor
  · intro hfits
    by_cases hempty : stop = location
    · exact .inr (.inl hempty)
    have hat : pieceStart location stop ((stop - location - 1) / preferredPartSize) =
        location + preferredPartSize * ((stop - location - 1) / preferredPartSize) := by
      unfold pieceStart edge
      rw [hpreferred]
      omega
    have hend : pieceStart location stop ((stop - location - 1) / preferredPartSize) +
        lastPartSize (stop - location) = stop := by
      rw [hat]
      unfold lastPartSize
      rw [hpreferred]
      omega
    have hpos : 0 < lastPartSize (stop - location) := lastPartSize_pos (by omega)
    have hless : pieceStart location stop ((stop - location - 1) / preferredPartSize) < stop := by
      omega
    have hsize : pieceStart location stop ((stop - location - 1) / preferredPartSize + 1) -
        pieceStart location stop ((stop - location - 1) / preferredPartSize) =
        lastPartSize (stop - location) := by
      have hle := lastPartSize_le (stop - location)
      rcases piece_whole_or_last hless with hwhole | hlast <;> omega
    rcases (fits_last_iff hstop hsize hend).1 (hfits _ hless) with hwhole | hadmissible
    · exact .inl hwhole
    · exact .inr (.inr hadmissible)
  · intro hends j hless
    rcases piece_whole_or_last hless with ⟨hsize, hend⟩ | ⟨hsize, hend⟩
    · exact fits_whole hstop hsize hend
    · refine (fits_last_iff hstop hsize hend).2 ?_
      rcases hends with hwhole | hempty | hadmissible
      · exact .inl hwhole
      · have hstart : location ≤ pieceStart location stop j := start_le_edge hlocation j
        omega
      · exact .inr hadmissible

end Ends

/-- What is to hold in every state of a fetch of a range. -/
structure StaysInside (file : Data) (location length : Nat) (s : Fetch) : Prop where
  inside : delivered s.outputs <+: slice file location length
  exact : s.IsFinished →
    s.manager.ended = false ∧ delivered s.outputs = slice file location length

/-- When a fetch delivers its range. -/
def StaysInRange (file : Data) (size : Option Nat) (location length : Nat) : Prop :=
  location + length = file.length ∨
    (size = none ∨ location = 0) ∧ (length = 0 ∨ IsAdmissible (lastPartSize length))

/-- Where the requests of a fetch end. -/
def rangeStop (size : Option Nat) (location length : Nat) : Nat :=
  match size with
  | some size => knownStop size location length
  | none => location + length

section Ranges

variable {file : Data} {location length : Nat} {size : Option Nat}

theorem staysInRange_iff (hrange : location + length ≤ file.length)
    (hsize : size = none ∨ size = some file.length) :
    StaysInRange file size location length ↔
      rangeStop size location length = location + length ∧
        EndsExactly file location (location + length) := by
  have hempty : location + length = location ↔ length = 0 := by omega
  unfold StaysInRange EndsExactly
  rw [Nat.add_sub_cancel_left, hempty]
  rcases hsize with rfl | rfl
  · simp only [rangeStop, true_and, true_or]
  · have hstop : rangeStop (some file.length) location length = location + length ↔
        location + length = file.length ∨ location = 0 := by
      show knownStop file.length location length = location + length ↔ _
      unfold knownStop
      omega
    rw [hstop]
    simp only [reduceCtorEq, false_or]
    tauto

theorem Calls.delivered {s : Fetch} (h : Calls file location s) :
    delivered s.outputs = span file location s.manager.committedOffset := by
  obtain ⟨ready, houtputs, _, hdata⟩ := h.outputs
  have hall : PartFetch.delivered s.outputs = PartFetch.delivered ready := by
    rw [houtputs, delivered_append]
    split <;> exact List.append_nil _
  exact hall.trans hdata

theorem slice_eq_span (file : Data) (location length : Nat) :
    slice file location length = span file location (location + length) := by
  unfold slice span
  rw [Nat.add_sub_cancel_left]

variable {sha256 : Data → Data} (aes : Data → Equiv.Perm (BitVec 128)) {m₀ : Manager}
  {most : Nat} {mayEnd : Prop} {tables : Nat → Manager → Prop}

/-- A fetch whose tables end at the end of the range. -/
theorem Tables.staysInside (htables : Tables sha256 file m₀ most mayEnd tables)
    (hfresh : Fresh m₀) (hat : m₀.committedOffset = location) (hnever : ¬ mayEnd)
    (hvalue : m₀.hasValue = false)
    (hends : ∀ left m, tables left m → m.committedOffset ≤ location + length ∧
      (m.fetchingParts = [] → m.committedOffset = location + length)) (events : List Event)
    (hevents : Guarded (fetchStep sha256 aes) (Allowed file) { manager := m₀ } events) :
    StaysInside file location length
      (Verified.Machine.run (fetchStep sha256 aes) { manager := m₀ } events) := by
  obtain ⟨left, _, hstage⟩ := htables.run aes hfresh events most _ (.start hvalue) hevents
  generalize Verified.Machine.run (fetchStep sha256 aes) { manager := m₀ } events = s at hstage
  cases hstage with
  | created hasValue => exact ⟨List.nil_prefix, fun hfinished => by cases hfinished.1⟩
  | ended hmay _ _ => exact absurd hmay hnever
  | fetching hcalls hholds =>
    obtain ⟨hle, hend⟩ := hends left s.manager hholds
    rw [hat] at hcalls
    constructor
    · rw [hcalls.delivered, slice_eq_span]
      exact span_prefix file hcalls.le hle
    · intro hfinished
      have hnil : s.manager.fetchingParts = [] := hfinished.2.resolve_left fun hended => by
        rw [hcalls.plain.goes] at hended
        cases hended
      exact ⟨hcalls.plain.goes, by rw [hcalls.delivered, hend hnil, slice_eq_span]⟩

theorem Tables.final (htables : Tables sha256 file m₀ most mayEnd tables) (hfresh : Fresh m₀)
    (hvalue : m₀.hasValue = false) :
    ∃ events, Guarded (fetchStep sha256 aes) (Allowed file) { manager := m₀ } events ∧
      (Verified.Machine.run (fetchStep sha256 aes) { manager := m₀ } events).IsFinished ∧
      ∃ left, Stage file m₀ most mayEnd tables left
        (Verified.Machine.run (fetchStep sha256 aes) { manager := m₀ } events) := by
  have hstart : Allowed file { manager := m₀ } .start := rfl
  obtain ⟨left, _, hstage⟩ := htables.step aes hfresh (.start hvalue) hstart
  obtain ⟨events, hguarded, hfinished⟩ := htables.finishes aes hfresh left _ rfl hstage
  obtain ⟨left', _, hlast⟩ := htables.run aes hfresh events left _ hstage hguarded
  exact ⟨.start :: events, ⟨hstart, hguarded⟩, hfinished, left', hlast⟩

/-- Fetches that end elsewhere, or fail the assertion. -/
theorem Tables.leaves (htables : Tables sha256 file m₀ most mayEnd tables) (hfresh : Fresh m₀)
    (hat : m₀.committedOffset = location) (hvalue : m₀.hasValue = false)
    (hrange : location + length ≤ file.length)
    (hends : ∀ left m, tables left m → m.fetchingParts = [] →
      m.committedOffset ≤ file.length ∧ m.committedOffset ≠ location + length) :
    ∃ events, Guarded (fetchStep sha256 aes) (Allowed file) { manager := m₀ } events ∧
      ¬ StaysInside file location length
        (Verified.Machine.run (fetchStep sha256 aes) { manager := m₀ } events) := by
  obtain ⟨events, hguarded, hfinished, left, hstage⟩ := htables.final aes hfresh hvalue
  refine ⟨events, hguarded, fun hstays => ?_⟩
  obtain ⟨hgoes, hall⟩ := hstays.exact hfinished
  generalize Verified.Machine.run (fetchStep sha256 aes) { manager := m₀ } events = s
    at hstage hfinished hgoes hall
  cases hstage with
  | created hasValue => cases hfinished.1
  | ended _ _ hended =>
    rw [hgoes] at hended
    cases hended
  | fetching hcalls hholds =>
    have hnil : s.manager.fetchingParts = [] := hfinished.2.resolve_left fun hended => by
      rw [hgoes] at hended
      cases hended
    obtain ⟨hle, hne⟩ := hends left s.manager hholds hnil
    rw [hat] at hcalls
    rw [hcalls.delivered, slice_eq_span] at hall
    have hlength := congrArg List.length hall
    rw [length_span hle, length_span hrange] at hlength
    have hbehind := hcalls.le
    omega

end Ranges

theorem Unknown.end_eq {left : Nat} {m : Manager} {file : Data} {location stop : Nat}
    (h : Unknown file location stop left m) (hnil : m.fetchingParts = []) :
    m.committedOffset = fetchEnd file location stop := by
  rcases h.stage with ⟨_, hat⟩ | ⟨_, _, _, _, _, hparts, _⟩
  · exact hat
  · rw [hnil] at hparts
    cases hparts

theorem Known.end_eq {left : Nat} {m : Manager} {file : Data} {location stop : Nat}
    (h : Known file location stop left m) :
    m.committedOffset ≤ stop ∧ (m.fetchingParts = [] → m.committedOffset = stop ∧
      ∀ j, pieceStart location stop j < stop → Fits file location stop j) := by
  obtain ⟨first, next, hwindow, _⟩ := h.window
  have hle : m.committedOffset ≤ stop := by
    rw [hwindow.committed]
    exact edge_le_stop first
  refine ⟨hle, fun hnil => ?_⟩
  have hend := Nat.le_antisymm hle (h.waits.1 hnil)
  refine ⟨hend, fun j hless => hwindow.fits j ?_ (by rw [hnil]; exact List.not_mem_nil)⟩
  by_contra hge
  have hmono : pieceStart location stop first ≤ pieceStart location stop j :=
    edge_mono (hwindow.le.trans (Nat.not_lt.1 hge))
  rw [← hwindow.committed] at hmono
  omega

/-- A limit is at least 4096. -/
theorem answerTo_short {file : Data} {part : PendingPart} (hsize : 0 < part.size)
    (hsmall : part.size ≤ 1048576) (hfile : file.length ≤ part.offset + 4096) :
    answerTo file part = file.drop part.offset := by
  have hle := le_updatedLimit part.size
  have hadmissible := (updatedLimit_admissible hsmall).1
  unfold answerTo slice
  exact List.take_of_length_le (by rw [List.length_drop]; omega)

/-- A fetch of a range inside a file passes exactly the bytes of the range, in every order of
the answers, if and only if no part of it ends behind the range.  Offsets are 32-bit numbers, so
this is about files of less than `2 ^ 31 - 2 ^ 17` bytes. -/
theorem staysInside_iff (sha256 : Data → Data) (aes : Data → Equiv.Perm (BitVec 128))
    (file : Data) (size : Option Nat) (hsize : size = none ∨ size = some file.length)
    (location length : Nat) (hrange : location + length ≤ file.length) :
    (∀ events, Guarded (fetchStep sha256 aes) (Allowed file)
        (Fetch.create size location length) events →
      StaysInside file location length
        (run (fetchStep sha256 aes) (Fetch.create size location length) events)) ↔
      StaysInRange file size location length := by
  have hlocation : location ≤ file.length := by omega
  rw [staysInRange_iff hrange hsize]
  have hends_iff := fits_iff (Nat.le_add_right location length) hrange
  rcases hsize with rfl | rfl
  · have htables := unknown_tables sha256 length hlocation
    rw [← fetchEnd_eq_stop_iff (Nat.le_add_right location length) hrange]
    constructor
    · intro hall
      refine ⟨rfl, ?_⟩
      by_contra hne
      obtain ⟨events, hguarded, hleaves⟩ := htables.leaves aes ⟨rfl, rfl, rfl, rfl⟩ rfl
        rfl hrange fun left m hunknown hnil =>
          ⟨hunknown.committed_le, by rw [hunknown.end_eq hnil]; exact hne⟩
      exact hleaves (hall events hguarded)
    · rintro ⟨_, hend⟩ events hguarded
      refine htables.staysInside aes ⟨rfl, rfl, rfl, rfl⟩ rfl id rfl (fun left m hunknown => ?_) events
        hguarded
      refine ⟨?_, fun hnil => (hunknown.end_eq hnil).trans hend⟩
      rcases hunknown.stage with ⟨_, hat⟩ | ⟨_, _, _, _, hless, _⟩
      · rw [hat, hend]
        exact Nat.le_refl _
      · exact Nat.le_of_lt hless
  · have htables := known_tables sha256 length hlocation rfl
    constructor
    · intro hall
      by_contra hnot
      obtain ⟨events, hguarded, hleaves⟩ := htables.leaves aes ⟨rfl, rfl, rfl, rfl⟩ rfl
        rfl hrange fun left m hknown hnil => by
          obtain ⟨hat, hfits⟩ := hknown.end_eq.2 hnil
          refine ⟨by rw [hat]; exact Nat.min_le_right _ _, fun heq => hnot ?_⟩
          rw [hat] at heq
          rw [heq] at hfits
          exact ⟨heq, hends_iff.1 hfits⟩
      exact hleaves (hall events hguarded)
    · rintro ⟨hstop, hends⟩ events hguarded
      have hstop : knownStop file.length location length = location + length := hstop
      rw [hstop] at htables
      refine htables.staysInside aes ⟨rfl, rfl, rfl, rfl⟩ rfl ?_ rfl (fun left m hknown => ?_) events
        hguarded
      · rintro ⟨j, hless, hnot⟩
        exact hnot (hends_iff.2 hends j hless)
      · exact ⟨hknown.end_eq.1, fun hnil => (hknown.end_eq.2 hnil).1⟩

/-- A range that ends inside the file, whose last request has an admissible size. -/
theorem staysInside_lastFirst :
    StaysInside (List.replicate 200000 0) 0 135168
      (run (fetchStep id fun _ => Equiv.refl _) (Fetch.create (some 200000) 0 135168)
        [.start, .requestData, .answered 131072 (.file (List.replicate 4096 0)),
          .answered 0 (.file (List.replicate 131072 0))]) := by
  have hlast : PartDownload.Answer.file (List.replicate 4096 0) =
      .file (answerTo (List.replicate 200000 0) ⟨131072, 4096, some .file⟩) := by
    rw [answerTo_zeros, (updatedLimit_eq_self_iff (by decide)).2 (by decide)]
    rfl
  have hfirst : PartDownload.Answer.file (List.replicate 131072 0) =
      .file (answerTo (List.replicate 200000 0) ⟨0, preferredPartSize, some .file⟩) := by
    rw [answerTo_zeros, updatedLimit_preferred]
    rfl
  have hwaits : (run (fetchStep id fun _ => Equiv.refl _) (Fetch.create (some 200000) 0 135168)
        [.start, .requestData, .answered 131072 (.file (List.replicate 4096 0))]).manager.ended =
        false ∧
      awaited (run (fetchStep id fun _ => Equiv.refl _) (Fetch.create (some 200000) 0 135168)
        [.start, .requestData, .answered 131072 (.file (List.replicate 4096 0))]).manager 0 =
        some (⟨0, preferredPartSize, some .file⟩, .file) := by
    decide +kernel
  exact (staysInside_iff id (fun _ => Equiv.refl _) (List.replicate 200000 0) (some 200000)
    (.inr (by rw [List.length_replicate])) 0 135168 (by rw [List.length_replicate]; decide)).2
    (.inr ⟨.inr rfl, .inr (by decide)⟩) _
    ⟨rfl, trivial, ⟨rfl, _, rfl, hlast⟩, ⟨hwaits.1, _, hwaits.2, hfirst⟩, trivial⟩
/-- One byte of three.  Without a size all three are delivered, with the size the assertion
fails; and the second byte is followed by the third. -/
theorem ranges_left :
    (∃ events, Guarded (fetchStep id fun _ => Equiv.refl _) (Allowed [1, 2, 3])
        (Fetch.create none 0 1) events ∧
      ¬ StaysInside [1, 2, 3] 0 1
        (run (fetchStep id fun _ => Equiv.refl _) (Fetch.create none 0 1) events)) ∧
      (∃ events, Guarded (fetchStep id fun _ => Equiv.refl _) (Allowed [1, 2, 3])
          (Fetch.create (some 3) 0 1) events ∧
        (run (fetchStep id fun _ => Equiv.refl _) (Fetch.create (some 3) 0 1)
          events).manager.ended = true) ∧
      ∃ events, Guarded (fetchStep id fun _ => Equiv.refl _) (Allowed [1, 2, 3])
          (Fetch.create (some 3) 1 1) events ∧
        ¬ StaysInside [1, 2, 3] 1 1
          (run (fetchStep id fun _ => Equiv.refl _) (Fetch.create (some 3) 1 1) events) := by
  have hone : PartDownload.Answer.file [1, 2, 3] =
      .file (answerTo [1, 2, 3] ⟨0, 1, some .file⟩) := by
    rw [answerTo_short (by decide) (by decide) (by decide)]
    rfl
  have htwo : PartDownload.Answer.file [2, 3] =
      .file (answerTo [1, 2, 3] ⟨1, 2, some .file⟩) := by
    rw [answerTo_short (by decide) (by decide) (by decide)]
    rfl
  refine ⟨⟨[.start, .requestData, .answered 0 (.file [1, 2, 3])],
      ⟨rfl, trivial, ⟨rfl, _, rfl, hone⟩, trivial⟩, fun hstays => ?_⟩,
    ⟨[.start, .requestData, .answered 0 (.file [1, 2, 3])],
      ⟨rfl, trivial, ⟨rfl, _, rfl, hone⟩, trivial⟩, rfl⟩,
    ⟨[.start, .requestData, .answered 1 (.file [2, 3])],
      ⟨rfl, trivial, ⟨rfl, _, rfl, htwo⟩, trivial⟩, fun hstays => ?_⟩⟩
  · exact absurd hstays.inside (by decide +kernel)
  · exact absurd hstays.inside (by decide +kernel)

end TelegramPub.Ports.PartFetch
