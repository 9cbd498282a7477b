import TelegramPub.Ports.ResourceUpdates

/-!
# What the data queue does to files

Only a result of a fetch changes files: the one of its descriptor grows, which need not be the
one of its resource, and the last result links the complete file.
-/

namespace TelegramPub.Ports.ResourceStatus

open Verified.Bytes Verified.Descriptors Ports.MediaBox

variable {R : Type*}

/-- A fetch that has a descriptor has opened its partial file. -/
def Opened (b : Box R) : Prop :=
  ∀ fetch ∈ b.fetches, fetch.fd.isSome → (b.partialFile fetch.resource).isSome

theorem status_eq_local {s : State R} {r : R} : s.status r = .statusLocal ↔ fileSize (s.box.completeFile r) ≠ 0 := by
  unfold State.status
  split
  · simp [*]
  · split <;> simp [*]

theorem fileSize_completeFile (b : Box R) (r : R) :
    fileSize (b.completeFile r) = if b.complete r then fileSize (b.partialFile r) else 0 := by
  unfold Box.completeFile
  split <;> rfl

/-- The status is the same if the files of the resource and its fetch are. -/
theorem status_congr {s s' : State R} {r : R}
    (hsize : fileSize (s'.box.completeFile r) = fileSize (s.box.completeFile r))
    (hfetch : s'.box.fetchDisposable r = s.box.fetchDisposable r) : s'.status r = s.status r := by
  unfold State.status
  rw [hsize, hfetch]

/-! ## Steps that change no file -/

/-- The files and the fetches are the same; a fetch may be over. -/
structure SameFiles (b b' : Box R) : Prop where
  partialFile : b'.partialFile = b.partialFile
  complete : b'.complete = b.complete
  length : b'.fetches.length = b.fetches.length
  fetches : ∀ fetch' ∈ b'.fetches, ∃ fetch ∈ b.fetches,
    fetch'.resource = fetch.resource ∧ fetch'.fd = fetch.fd

theorem SameFiles.of_eq {b b' : Box R} (hpart : b'.partialFile = b.partialFile)
    (hcomplete : b'.complete = b.complete) (hfetches : b'.fetches = b.fetches) :
    SameFiles b b' :=
  ⟨hpart, hcomplete, congrArg List.length hfetches, fun fetch hfetch =>
    ⟨fetch, hfetches ▸ hfetch, rfl, rfl⟩⟩

theorem SameFiles.refl (b : Box R) : SameFiles b b := SameFiles.of_eq rfl rfl rfl

theorem SameFiles.trans {b b' b'' : Box R} (h : SameFiles b b') (h' : SameFiles b' b'') :
    SameFiles b b'' where
  partialFile := h'.partialFile.trans h.partialFile
  complete := h'.complete.trans h.complete
  length := h'.length.trans h.length
  fetches := by
    intro fetch'' hfetch''
    obtain ⟨fetch', hfetch', hresource', hfd'⟩ := h'.fetches fetch'' hfetch''
    obtain ⟨fetch, hfetch, hresource, hfd⟩ := h.fetches fetch' hfetch'
    exact ⟨fetch, hfetch, hresource'.trans hresource, hfd'.trans hfd⟩

theorem SameFiles.opened {b b' : Box R} (h : SameFiles b b') (hopened : Opened b) : Opened b' := by
  intro fetch' hfetch' hfd
  obtain ⟨fetch, hfetch, hresource, hfd'⟩ := h.fetches fetch' hfetch'
  rw [h.partialFile, hresource]
  exact hopened fetch hfetch (hfd' ▸ hfd)

theorem SameFiles.fileSize {b b' : Box R} (h : SameFiles b b') (r : R) :
    fileSize (b'.completeFile r) = MediaBox.fileSize (b.completeFile r) := by
  unfold Box.completeFile
  rw [h.complete, h.partialFile]

/-- A fetch is replaced by one of the same resource with the same descriptor. -/
theorem SameFiles.set (b : Box R) {f : Nat} {fetch fetch' : Fetch R}
    (hf : b.fetches[f]? = some fetch) (hresource : fetch'.resource = fetch.resource)
    (hfd : fetch'.fd = fetch.fd) : SameFiles b { b with fetches := b.fetches.set f fetch' } where
  partialFile := rfl
  complete := rfl
  length := List.length_set
  fetches := by
    intro other hother
    rcases List.mem_or_eq_of_mem_set hother with hmem | rfl
    · exact ⟨other, hmem, rfl, rfl⟩
    · exact ⟨fetch, List.mem_of_getElem? hf, hresource, hfd⟩

theorem closeFile_same (b : Box R) (f : Nat) : SameFiles b (b.closeFile f) := by
  unfold Box.closeFile
  split <;> exact SameFiles.of_eq rfl rfl rfl

theorem closeFile_fetchDisposable (b : Box R) (f : Nat) :
    (b.closeFile f).fetchDisposable = b.fetchDisposable := by
  unfold Box.closeFile
  split <;> rfl

theorem disposeFetch_same (b : Box R) (f : Nat) : SameFiles b (b.disposeFetch f) := by
  unfold Box.disposeFetch
  split
  · exact SameFiles.refl b
  · grind [SameFiles, SameFiles.refl, SameFiles.set, closeFile_same]

variable [DecidableEq R]

theorem dropFetch_same (b : Box R) (r : R) : SameFiles b (b.dropFetch r) := by
  unfold Box.dropFetch
  split
  · exact SameFiles.refl b
  · rename_i f _
    have hsame := disposeFetch_same b f
    exact ⟨hsame.partialFile, hsame.complete, hsame.length, hsame.fetches⟩

theorem dropFetch_fetchDisposable (b : Box R) (r : R) :
    (b.dropFetch r).fetchDisposable = Function.update b.fetchDisposable r none := by
  unfold Box.dropFetch
  split
  · rename_i hnone
    exact (Function.update_eq_self_iff.2 hnone.symm).symm
  · rfl

theorem removeSubscriber_same (b : Box R) (subscriber : Nat) (r : R) :
    SameFiles b (b.removeSubscriber subscriber r) := by
  have hremoved : SameFiles b { b with
      fetchSubscribers :=
        Function.update b.fetchSubscribers r ((b.fetchSubscribers r).erase subscriber) } :=
    SameFiles.of_eq rfl rfl rfl
  unfold Box.removeSubscriber
  dsimp only
  split
  · exact hremoved.trans (dropFetch_same _ r)
  · exact hremoved

theorem removeSubscriber_fetchSubscribers (b : Box R) (subscriber : Nat) (r : R) :
    (b.removeSubscriber subscriber r).fetchSubscribers r =
      (b.fetchSubscribers r).erase subscriber := by
  unfold Box.removeSubscriber
  dsimp only
  split
  · unfold Box.dropFetch Box.disposeFetch Box.closeFile
    split
    · simp
    · split
      · simp
      · split
        · simp
        · split <;> simp
  · simp

theorem removeSubscriber_fetchDisposable (b : Box R) (subscriber : Nat) (r : R) :
    (b.removeSubscriber subscriber r).fetchDisposable =
      if (b.fetchSubscribers r).erase subscriber = [] then
        Function.update b.fetchDisposable r none
      else b.fetchDisposable := by
  unfold Box.removeSubscriber
  simp only [List.isEmpty_iff]
  split
  · exact dropFetch_fetchDisposable _ r
  · rfl

/-- The resource whose file a result of a fetch is written to. -/
def target (b : Box R) (fetch : Fetch R) : Option R :=
  match fetch.fd with
  | some fd => lookup b.descriptors fd
  | none => some fetch.resource

/-- What a result does to the files. -/
structure Written (b b' : Box R) (fetch : Fetch R) (data : Data) (complete : Bool) : Prop where
  size : ∀ q, fileSize (b'.partialFile q) =
    fileSize (b.partialFile q) + if target b fetch = some q then data.length else 0
  complete : ∀ q, b'.complete q = (b.complete q || (complete && decide (q = fetch.resource)))
  fetchDisposable : b'.fetchDisposable = b.fetchDisposable
  length : b'.fetches.length = b.fetches.length
  opened : Opened b'

/-- The file that a descriptor stands for grows. -/
theorem fileSize_write (b : Box R) (fd : Nat) (data : Data) (q : R) :
    fileSize ((b.write fd data).partialFile q) =
      fileSize (b.partialFile q) + if lookup b.descriptors fd = some q then data.length else 0 := by
  unfold Box.write fileSize
  split
  · grind
  · rename_i hnone
    simp [hnone]

theorem isSome_write (b : Box R) (fd : Nat) (data : Data) {q : R} (h : (b.partialFile q).isSome) :
    ((b.write fd data).partialFile q).isSome := by
  unfold Box.write
  split
  · grind
  · exact h

theorem write_eq (b : Box R) (fd : Nat) (data : Data) :
    b.write fd data = { b with partialFile := (b.write fd data).partialFile } := by
  unfold Box.write
  split <;> rfl

/-- `open` makes an empty file at most, and the descriptor stands for it. -/
theorem openFile_written {b : Box R} {f : Nat} {fetch : Fetch R} (hf : b.fetches[f]? = some fetch)
    (hopened : Opened b) :
    Written b (b.openFile f fetch) fetch [] false ∧
      ((b.openFile f fetch).partialFile fetch.resource).isSome ∧
      lookup (b.openFile f fetch).descriptors (fetch.fd.getD (lowestFree b.descriptors)) =
        target b fetch := by
  unfold Box.openFile target
  cases hfd : fetch.fd with
  | some fd =>
    refine ⟨?_, hopened fetch (List.mem_of_getElem? hf) (by simp [hfd]), rfl⟩
    exact {
      size := fun q => by simp
      complete := fun q => by simp
      fetchDisposable := rfl
      length := rfl
      opened := hopened }
  | none =>
    refine ⟨?_, by simp, by simp [lookup_insert]⟩
    exact {
      size := fun q => by
        by_cases hq : q = fetch.resource <;> simp [hq, fileSize]
      complete := fun q => by simp
      fetchDisposable := rfl
      length := List.length_set
      opened := fun other hother hother' => by
        by_cases hresource : other.resource = fetch.resource
        · simp [hresource]
        · rcases List.mem_or_eq_of_mem_set hother with hmem | rfl
          · simpa [hresource] using hopened other hmem hother'
          · exact absurd rfl hresource }

theorem result_written {b : Box R} {f : Nat} {fetch : Fetch R} (hf : b.fetches[f]? = some fetch)
    (hopened : Opened b) (data : Data) (complete : Bool) :
    Written b (b.result f data complete) fetch data complete := by
  obtain ⟨hwritten, hsome, hlookup⟩ := openFile_written hf hopened
  unfold Box.result
  rw [hf]
  dsimp only
  generalize b.openFile f fetch = t at *
  generalize fetch.fd.getD (lowestFree b.descriptors) = fd at *
  have hsome' := isSome_write t fd data hsome
  have hgrown : Written b (t.write fd data) fetch data false := by
    refine {
      size := fun q => ?_
      complete := fun q => ?_
      fetchDisposable := ?_
      length := ?_
      opened := ?_ }
    · rw [fileSize_write, hlookup, hwritten.size]
      simp
    · rw [write_eq]
      exact hwritten.complete q
    · rw [write_eq]
      exact hwritten.fetchDisposable
    · rw [write_eq]
      exact hwritten.length
    · rw [write_eq]
      intro other hother hfd
      exact isSome_write t fd data (hwritten.opened other hother hfd)
  cases complete with
  | false => exact hgrown
  | true =>
    rw [if_pos rfl]
    unfold Box.link
    rw [if_pos hsome']
    exact {
      size := hgrown.size
      complete := fun q => by
        have hbefore := hgrown.complete q
        by_cases hq : q = fetch.resource
        · simp [hq]
        · simpa [hq] using hbefore
      fetchDisposable := hgrown.fetchDisposable
      length := hgrown.length
      opened := hgrown.opened }

/-! ## The start of a fetch -/

/-- What the start of a fetch changes; the legacy cache completes the resource at once. -/
structure Started (b b' : Box R) (r : R) (cached : Bool) : Prop where
  size : ∀ q, q ≠ r ∨ cached = false →
    fileSize (b'.partialFile q) = fileSize (b.partialFile q)
  complete : ∀ q, b'.complete q = (b.complete q || (cached && decide (q = r)))
  current : (b'.fetchDisposable r).isSome
  fetchDisposable : ∀ q, q ≠ r → b'.fetchDisposable q = b.fetchDisposable q
  length : b'.fetches.length = b.fetches.length + 1
  opened : Opened b'

theorem startFetch_started (contents : R → Data) {b : Box R} (hopened : Opened b) (r : R)
    (cached : Bool) : Started b (b.startFetch contents r cached) r cached := by
  have hnew : Opened { b with
      fetches := b.fetches ++ [{ resource := r, position := fileSize (b.partialFile r) }] } := by
    intro fetch hfetch hfd
    rcases List.mem_append.1 hfetch with hold | hlast
    · exact hopened fetch hold hfd
    · rw [List.mem_singleton.1 hlast] at hfd
      cases hfd
  cases cached with
  | false =>
    exact {
      size := fun _ _ => rfl
      complete := fun q => by simp [Box.startFetch]
      current := by simp [Box.startFetch]
      fetchDisposable := fun q hq => by simp [Box.startFetch, hq]
      length := by simp [Box.startFetch]
      opened := hnew }
  | true =>
    have hwritten := @result_written R _ _ b.fetches.length
      { resource := r, position := fileSize (b.partialFile r) } (by simp) hnew (contents r) true
    have hsame := disposeFetch_same (Box.result
      { b with
        fetches := b.fetches ++ [{ resource := r, position := fileSize (b.partialFile r) }] }
      b.fetches.length (contents r) true) b.fetches.length
    unfold Box.startFetch
    dsimp only
    rw [if_pos rfl]
    exact {
      size := fun q hq => by
        have hqr : r ≠ q := (hq.resolve_right (by simp)).symm
        rw [hsame.partialFile, hwritten.size, target]
        simp [hqr]
      complete := fun q => by
        rw [hsame.complete, hwritten.complete]
      current := by simp
      fetchDisposable := fun q hq => by simp [hq]
      length := by
        rw [hsame.length, hwritten.length]
        simp
      opened := hsame.opened hwritten.opened }

end TelegramPub.Ports.ResourceStatus
