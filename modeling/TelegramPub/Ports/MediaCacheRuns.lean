import TelegramPub.Ports.MediaCache

/-!
# Runs of the cache

Each step keeps the invariant, if results and the legacy cache are in order
(`step_intact`), so that no file is corrupted (`files_uncorrupted`).  Out of order they are:
a fetch that is started while results of an old one are on the queue appends the same
bytes again, a result may go to the file of another resource, and the legacy cache appends
the whole to a part (`cache_corrupted`).
-/

namespace TelegramPub.Ports.MediaBox

open Verified.Bytes Verified.Descriptors Verified.Machine

variable {R : Type*} {contents : R → Data} {s : Box R}

variable {dataQueue : List (Block R)}

section Queue

theorem pending_enqueue (s : Box R) (blocks : List (Block R)) (f : Nat) :
    (s.enqueue blocks).pending f = s.pending f ++ blocks.filter (Block.isOf f) :=
  List.filter_append ..

/-- A block that is of no fetch. -/
def Block.isFree (block : Block R) : Prop := ∀ f, block.isOf f = false

theorem Intact.enqueue (h : Intact contents s) {block : Block R} (hfree : block.isFree) :
    Intact contents (s.enqueue [block]) :=
  h.congr rfl rfl rfl rfl rfl fun f => by simp [pending_enqueue, hfree f]

/-- The block that runs is taken from the queue. -/
theorem Intact.dequeue (h : Intact contents s) {block : Block R}
    (hqueue : s.dataQueue = block :: dataQueue) (hfree : block.isFree) :
    Intact contents { s with dataQueue } :=
  h.congr rfl rfl rfl rfl rfl fun f => by simp [Box.pending, hqueue, hfree f]

/-- The blocks that are left when one of a fetch is taken. -/
theorem pending_dequeue {block : Block R} (hqueue : s.dataQueue = block :: dataQueue) (f : Nat) :
    s.pending f =
      if block.isOf f then block :: dataQueue.filter (Block.isOf f)
      else dataQueue.filter (Block.isOf f) := by
  unfold Box.pending
  rw [hqueue, List.filter_cons]

theorem countP_results (f : Nat) (pieces : List Data) :
    (results (R := R) f pieces).countP Block.isClose = 0 := by
  induction pieces with
  | nil => rfl
  | cons piece pieces ih => simp [results, Block.isClose]

end Queue

section Deliveries

theorem Intact.append (h : Intact contents s) {f : Nat} {fetch fetch' : Fetch R}
    (hf : s.fetches[f]? = some fetch) (hlive : fetch.disposed = false)
    (hresource : fetch'.resource = fetch.resource) (hfd : fetch'.fd = fetch.fd)
    {blocks : List (Block R)} (hblocks : ∀ block ∈ blocks, ∀ g, block.isOf g = (f == g))
    (hclosing : blocks.countP Block.isClose ≤ if fetch'.disposed then 1 else 0)
    (hprogress : ∀ partialFile complete,
      Progress (contents fetch.resource) partialFile complete (s.pending f) f fetch →
      Progress (contents fetch.resource) partialFile complete (s.pending f ++ blocks) f fetch') :
    Intact contents ({ s with fetches := s.fetches.set f fetch' }.enqueue blocks) := by
  have hfetches :
      ∀ g, (s.fetches.set f fetch')[g]? = if g = f then some fetch' else s.fetches[g]? :=
    getElem?_set_of_some hf fetch'
  have hown : ({ s with fetches := s.fetches.set f fetch' }.enqueue blocks).pending f =
      s.pending f ++ blocks := by
    rw [pending_enqueue, List.filter_eq_self.2 fun block hblock => by simp [hblocks block hblock]]
    rfl
  have hothers : ∀ g, g ≠ f →
      ({ s with fetches := s.fetches.set f fetch' }.enqueue blocks).pending g = s.pending g := by
    intro g hg
    rw [pending_enqueue, List.filter_eq_nil_iff.2 fun block hblock => by
      simp [hblocks block hblock, Ne.symm hg], List.append_nil]
    rfl
  have hheld : ∀ fd, Held (s.pending f ++ blocks) fetch' fd → Held (s.pending f) fetch fd :=
    fun fd hfd' => ⟨hfd ▸ hfd'.1, .inl hlive⟩
  have htouched : Touched s ({ s with fetches := s.fetches.set f fetch' }.enqueue blocks)
      fetch.resource f := {
    partialFile := fun _ _ => rfl
    complete := fun _ _ => rfl
    fetchDisposable := fun _ _ => rfl
    fetches := fun g hg => (hfetches g).trans (if_neg hg)
    pending := hothers
    lookup := fun _ _ _ _ _ _ => rfl }
  have hsound : Sound contents ({ s with fetches := s.fetches.set f fetch' }.enqueue blocks)
      fetch.resource f fetch' := {
    fetch_eq := (hfetches f).trans (if_pos rfl)
    resource := hresource
    begun := h.begun fetch.resource
    whole := h.whole fetch.resource
    current := by
      intro g hg
      obtain ⟨fetch₀, hfetch₀, hresource₀, hprogress₀⟩ := h.current fetch.resource g hg
      by_cases hgf : g = f
      · subst hgf
        rw [hf] at hfetch₀
        cases hfetch₀
        refine ⟨fetch', (hfetches g).trans (if_pos rfl), hresource, ?_⟩
        rw [hown]
        exact hprogress _ _ hprogress₀
      · refine ⟨fetch₀, (hfetches g).trans ((if_neg hgf).trans hfetch₀), hresource₀, ?_⟩
        rw [hothers g hgf]
        exact hprogress₀
    closing := by
      have hnone := h.closing f fetch hf
      rw [hlive] at hnone
      rw [hown, List.countP_append, Nat.le_zero.1 hnone, Nat.zero_add]
      exact hclosing
    owned := by
      intro fd hfd'
      rw [hown] at hfd'
      refine ⟨h.owned f fetch fd hf (hheld fd hfd'), fun g fetch₁ hg hfetch₁ hheld₁ => ?_⟩
      rw [hothers g hg] at hheld₁
      have hfetch₂ := (hfetches g).symm.trans hfetch₁
      rw [if_neg hg] at hfetch₂
      exact hg (h.distinct g f fetch₁ fetch fd hfetch₂ hf hheld₁ (hheld fd hfd')) }
  exact h.of_touched htouched hsound (h.other_fetch hf rfl)

theorem Intact.deliver (h : Intact contents s) (f length : Nat) :
    Intact contents (s.deliver contents f length) := by
  unfold Box.deliver
  cases hf : s.fetches[f]? with
  | none => exact h
  | some fetch =>
    dsimp only
    cases hlive : fetch.disposed with
    | true => exact h
    | false =>
      rw [if_neg (by decide)]
      refine h.append hf hlive ?_ ?_ ?_ ?_ ?_
      · rfl
      · rfl
      · simp [Block.isOf]
      · simp [Block.isClose]
      intro partialFile complete hprogress
      cases hprogress with
      | loading pieces hpending _ hle hwritten =>
        refine .loading
          (pieces ++ [((contents fetch.resource).drop fetch.position).take length])
          ?_ rfl ?_ ?_
        · rw [hpending]
          simp [results]
        · simp only [List.length_take, List.length_drop]
          omega
        · have hpiece := List.prefix_iff_eq_take.1
            (List.take_prefix length ((contents fetch.resource).drop fetch.position))
          rw [List.flatten_append, ← List.append_assoc, hwritten, List.take_add, ← hpiece]
          simp
      | ending pieces _ hover _ => simp [hlive] at hover
      | linked _ hover _ _ => simp [hlive] at hover

theorem Intact.finish (h : Intact contents s) (f : Nat) :
    Intact contents (s.finish contents f) := by
  unfold Box.finish
  cases hf : s.fetches[f]? with
  | none => exact h
  | some fetch =>
    dsimp only
    split
    · exact h
    · rename_i hgoes
      have hlive : fetch.disposed = false := by simpa using fun hover => hgoes (.inl hover)
      have hlength : (contents fetch.resource).length ≤ fetch.position :=
        Nat.not_lt.1 fun hless => hgoes (.inr hless)
      refine h.append hf hlive ?_ ?_ ?_ ?_ ?_
      · rfl
      · rfl
      · simp [Block.isOf]
      · simp [Block.isClose]
      intro partialFile complete hprogress
      cases hprogress with
      | loading pieces hpending _ hle hwritten =>
        rw [List.take_of_length_le hlength] at hwritten
        exact .ending pieces (by rw [hpending]) rfl hwritten
      | ending pieces _ hover _ => simp [hlive] at hover
      | linked _ hover _ _ => simp [hlive] at hover

end Deliveries

section Results

variable {bytes : Data} {partialFile : Option Data} {complete : Bool} {f : Nat} {fetch : Fetch R}
  {pending : List (Block R)} {data : Data} {last : Bool}

/-- While there are results on the queue, the descriptor is not closed. -/
theorem Progress.held
    (h : Progress bytes partialFile complete (.result f data last :: pending) f fetch) (fd : Nat)
    (hfd : fetch.fd = some fd) : Held (.result f data last :: pending) fetch fd := by
  refine ⟨hfd, ?_⟩
  cases h with
  | loading _ _ hlive _ _ => exact .inl hlive
  | ending pieces hpending _ _ =>
    rw [hpending, List.countP_append, countP_results]
    exact .inr (by simp [Block.isClose])
  | linked hpending _ _ _ => rcases hpending with hpending | hpending <;> cases hpending

theorem whole_of_prefix (hbytes : partialFile.getD [] ++ data <+: bytes)
    (hwhole : partialFile = some bytes) : some (partialFile.getD [] ++ data) = some bytes := by
  rw [hwhole, Option.getD_some] at hbytes ⊢
  refine congrArg some (hbytes.eq_of_length_le ?_)
  rw [List.length_append]
  exact Nat.le_add_right _ _

/-- The first result on the queue is the one to write. -/
theorem Progress.result
    (h : Progress bytes partialFile complete (.result f data last :: pending) f fetch)
    (hwhole : complete → partialFile = some bytes) (fd : Option Nat) :
    partialFile.getD [] ++ data <+: bytes ∧
      (last || complete → some (partialFile.getD [] ++ data) = some bytes) ∧
      Progress bytes (some (partialFile.getD [] ++ data)) (last || complete) pending f
        { fetch with fd } := by
  cases h with
  | loading pieces hpending hlive hle hwritten =>
    cases pieces with
    | nil => cases hpending
    | cons piece pieces =>
      cases hpending
      have hnext : partialFile.getD [] ++ data ++ pieces.flatten =
          bytes.take fetch.position := by simpa using hwritten
      have hpiece : partialFile.getD [] ++ data <+: bytes.take fetch.position :=
        ⟨pieces.flatten, hnext⟩
      have hbytes := hpiece.trans (List.take_prefix _ _)
      exact ⟨hbytes, fun hcomplete => whole_of_prefix hbytes (hwhole hcomplete),
        .loading pieces rfl hlive hle hnext⟩
  | ending pieces hpending hover hwritten =>
    cases pieces with
    | nil =>
      cases hpending
      have hall : partialFile.getD [] ++ [] = bytes := hwritten
      rw [hall]
      exact ⟨List.prefix_refl _, fun _ => rfl, .linked (.inl rfl) hover rfl rfl⟩
    | cons piece pieces =>
      cases hpending
      have hnext : partialFile.getD [] ++ data ++ pieces.flatten = bytes := by
        simpa using hwritten
      have hbytes : partialFile.getD [] ++ data <+: bytes := ⟨pieces.flatten, hnext⟩
      exact ⟨hbytes, fun hcomplete => whole_of_prefix hbytes (hwhole hcomplete),
        .ending pieces rfl hover hnext⟩
  | linked hpending _ _ _ => rcases hpending with hpending | hpending <;> cases hpending

variable [DecidableEq R]

theorem Intact.result (h : Intact contents s)
    (hqueue : s.dataQueue = .result f data last :: dataQueue) (hf : s.fetches[f]? = some fetch)
    (hcurrent : s.fetchDisposable fetch.resource = some f) :
    Intact contents ({ s with dataQueue }.result f data last) := by
  obtain ⟨fetch', hfetch', _, hprogress⟩ := h.current fetch.resource f hcurrent
  rw [hf] at hfetch'
  cases hfetch'
  have hpending := pending_dequeue hqueue
  have hfirst : s.pending f = .result f data last :: dataQueue.filter (Block.isOf f) := by
    rw [hpending, if_pos (by simp [Block.isOf])]
  rw [hfirst] at hprogress
  have hspec : Resulted { s with dataQueue } ({ s with dataQueue }.result f data last) f fetch data
      last := by
    refine result_spec (s := { s with dataQueue }) hf (fun fd hfd => ?_) data last
    exact h.owned f fetch fd hf (hfirst ▸ hprogress.held fd hfd)
  obtain ⟨hbytes, hnowWhole, hnext⟩ := hprogress.result (h.whole fetch.resource)
    (some (fetch.fd.getD (lowestFree s.descriptors)))
  generalize { s with dataQueue }.result f data last = s' at hspec
  have hpending' : ∀ g, s'.pending g = dataQueue.filter (Block.isOf g) := fun g => by
    unfold Box.pending
    rw [hspec.dataQueue]
  have hothers : ∀ g, g ≠ f → s'.pending g = s.pending g := fun g hg => by
    rw [hpending', hpending, if_neg (by simpa [Block.isOf] using Ne.symm hg)]
  have hfiles : s'.partialFile fetch.resource =
      some ((s.partialFile fetch.resource).getD [] ++ data) := by simp [hspec.partialFile]
  have hcomplete : s'.complete fetch.resource = (last || s.complete fetch.resource) := by
    rw [hspec.complete]
    cases last <;> simp
  have hnew : ∀ g fetch₁, g ≠ f → s.fetches[g]? = some fetch₁ →
      ¬ Held (s.pending g) fetch₁ (fetch.fd.getD (lowestFree s.descriptors)) := by
    intro g fetch₁ hg hfetch₁ hheld
    cases hown : fetch.fd with
    | none =>
      rw [hown, Option.getD_none] at hheld
      have hused := h.owned g fetch₁ _ hfetch₁ hheld
      rw [lookup_lowestFree] at hused
      cases hused
    | some fd =>
      rw [hown, Option.getD_some] at hheld
      exact hg (h.distinct g f fetch₁ fetch fd hfetch₁ hf hheld (hfirst ▸ hprogress.held fd hown))
  have htouched : Touched s s' fetch.resource f := {
    partialFile := fun q hq => by rw [hspec.partialFile, Function.update_of_ne hq]
    complete := fun q hq => by
      rw [hspec.complete]
      split
      · exact Function.update_of_ne hq _ _
      · rfl
    fetchDisposable := fun _ _ => by rw [hspec.fetchDisposable]
    fetches := fun g hg => by rw [hspec.fetches, if_neg hg]
    pending := hothers
    lookup := fun g fetch₁ fd hg hfetch₁ hheld => by
      rw [hspec.lookup, if_neg]
      rintro rfl
      exact hnew g fetch₁ hg hfetch₁ hheld }
  have hsound : Sound contents s' fetch.resource f
      { fetch with fd := some (fetch.fd.getD (lowestFree s.descriptors)) } := {
    fetch_eq := by rw [hspec.fetches, if_pos rfl]
    resource := rfl
    begun := fun written hwritten => by
      rw [hfiles, Option.some.injEq] at hwritten
      exact hwritten ▸ hbytes
    whole := fun hwhole => by
      rw [hcomplete] at hwhole
      rw [hfiles]
      exact hnowWhole hwhole
    current := fun g hg => by
      rw [hspec.fetchDisposable, hcurrent] at hg
      cases hg
      refine ⟨_, (hspec.fetches f).trans (if_pos rfl), rfl, ?_⟩
      rw [hfiles, hcomplete, hpending']
      exact hnext
    closing := by
      have hclosing := h.closing f fetch hf
      rw [hfirst] at hclosing
      rw [hpending']
      simpa [Block.isClose] using hclosing
    owned := fun fd hheld => by
      have hfd := Option.some.inj hheld.1
      subst hfd
      refine ⟨by rw [hspec.lookup, if_pos rfl], fun g fetch₁ hg hfetch₁ hheld₁ => ?_⟩
      rw [hspec.fetches, if_neg hg] at hfetch₁
      rw [hothers g hg] at hheld₁
      exact hnew g fetch₁ hg hfetch₁ hheld₁ }
  exact h.of_touched htouched hsound (h.other_fetch hf rfl)

end Results

section Ends

theorem Progress.close {bytes : Data} {partialFile : Option Data} {complete : Bool} {f : Nat}
    {fetch : Fetch R} {pending : List (Block R)}
    (h : Progress bytes partialFile complete (.close f :: pending) f fetch) :
    Progress bytes partialFile complete pending f fetch := by
  cases h with
  | loading pieces hpending _ _ _ => cases pieces <;> cases hpending
  | ending pieces hpending _ _ => cases pieces <;> cases hpending
  | linked hpending hover hcomplete hwritten =>
    rcases hpending with hpending | hpending
    · cases hpending
      exact .linked (.inr rfl) hover hcomplete hwritten
    · cases hpending

theorem Intact.close (h : Intact contents s) {f : Nat}
    (hqueue : s.dataQueue = .close f :: dataQueue) :
    Intact contents ({ s with dataQueue }.closeFile f) := by
  have hpending := pending_dequeue hqueue
  have hfirst : s.pending f = .close f :: dataQueue.filter (Block.isOf f) := by
    rw [hpending, if_pos (by simp [Block.isOf])]
  obtain ⟨fetch, hf⟩ : ∃ fetch, s.fetches[f]? = some fetch := by
    refine Option.ne_none_iff_exists'.1 fun hnone => ?_
    have hempty := h.known f hnone
    rw [hfirst] at hempty
    cases hempty
  have hclosing := h.closing f fetch hf
  rw [hfirst, List.countP_cons_of_pos rfl] at hclosing
  have hover : fetch.disposed = true := by
    by_contra hlive
    rw [if_neg hlive] at hclosing
    omega
  have hlast : (dataQueue.filter (Block.isOf f)).countP Block.isClose = 0 := by
    rw [if_pos hover] at hclosing
    omega
  have hheld : ∀ fd, fetch.fd = some fd → Held (s.pending f) fetch fd := by
    intro fd hfd
    rw [hfirst]
    exact ⟨hfd, .inr (by simp [Block.isClose])⟩
  obtain ⟨descriptors, hclose, hlookup⟩ := closeFile_eq (s := { s with dataQueue }) hf
  rw [hclose]
  have hothers : ∀ g, g ≠ f →
      ({ s with dataQueue, descriptors } : Box R).pending g = s.pending g := fun g hg => by
    rw [hpending, if_neg (by simpa [Block.isOf] using Ne.symm hg)]
    rfl
  have htouched : Touched s { s with dataQueue, descriptors } fetch.resource f := {
    partialFile := fun _ _ => rfl
    complete := fun _ _ => rfl
    fetchDisposable := fun _ _ => rfl
    fetches := fun _ _ => rfl
    pending := hothers
    lookup := fun g fetch₁ fd hg hfetch₁ hheld₁ => by
      refine (hlookup fd).trans (if_neg fun hfd => ?_)
      exact hg (h.distinct g f fetch₁ fetch fd hfetch₁ hf hheld₁ (hheld fd hfd)) }
  have hsound : Sound contents { s with dataQueue, descriptors } fetch.resource f fetch := {
    fetch_eq := hf
    resource := rfl
    begun := h.begun fetch.resource
    whole := h.whole fetch.resource
    current := by
      intro g hg
      obtain ⟨fetch₁, hfetch₁, hresource₁, hprogress⟩ := h.current fetch.resource g hg
      refine ⟨fetch₁, hfetch₁, hresource₁, ?_⟩
      by_cases hgf : g = f
      · subst hgf
        rw [hfirst] at hprogress
        exact hprogress.close
      · rw [hothers g hgf]
        exact hprogress
    closing := hlast.le.trans (Nat.zero_le _)
    owned := fun fd hheld' => by
      rcases hheld'.2 with hlive | hleft
      · rw [hover] at hlive
        cases hlive
      · exact absurd hlast hleft }
  exact h.of_touched htouched hsound (h.other_fetch hf rfl)

variable [DecidableEq R]

theorem Intact.dropFetch (h : Intact contents s) (r : R) : Intact contents (s.dropFetch r) := by
  unfold Box.dropFetch
  cases hcurrent : s.fetchDisposable r with
  | none => exact h
  | some f =>
    obtain ⟨fetch, hf, hresource, hprogress⟩ := h.current r f hcurrent
    have hspec := disposeFetch_spec hf
    have hlive : fetch.disposed = false → (s.pending f).countP Block.isClose = 0 := by
      intro hlive
      have hclosing := h.closing f fetch hf
      rw [hlive] at hclosing
      exact Nat.le_zero.1 hclosing
    dsimp only
    generalize s.disposeFetch f = s' at hspec
    have hpending : ∀ g, s'.pending g = s.pending g := fun g => by
      unfold Box.pending
      rw [hspec.dataQueue]
    have htouched : Touched s
        { s' with fetchDisposable := Function.update s.fetchDisposable r none } r f := {
      partialFile := fun _ _ => by rw [hspec.partialFile]
      complete := fun _ _ => by rw [hspec.complete]
      fetchDisposable := fun q hq => Function.update_of_ne hq _ _
      fetches := fun g hg => (hspec.fetches g).trans (if_neg hg)
      pending := fun g _ => hpending g
      lookup := fun g fetch₁ fd hg hfetch₁ hheld₁ => by
        refine (hspec.lookup fd).trans (if_neg fun hfd => ?_)
        exact hg (h.distinct g f fetch₁ fetch fd hfetch₁ hf hheld₁ ⟨hfd.2, .inl hfd.1⟩) }
    have hsound : Sound contents
        { s' with fetchDisposable := Function.update s.fetchDisposable r none } r f
        { fetch with disposed := true } := {
      fetch_eq := (hspec.fetches f).trans (if_pos rfl)
      resource := hresource
      begun := by rw [hspec.partialFile]; exact h.begun r
      whole := by rw [hspec.partialFile, hspec.complete]; exact h.whole r
      current := fun g hg => by simp at hg
      closing := by
        have hclosing := h.closing f fetch hf
        show (s'.pending f).countP Block.isClose ≤ 1
        rw [hpending]
        exact hclosing.trans (by split <;> omega)
      owned := fun fd hheld => by
        have hleft : (s.pending f).countP Block.isClose ≠ 0 := by
          rw [← hpending f]
          exact hheld.2.resolve_left fun hfalse => by cases hfalse
        have hheld₀ : Held (s.pending f) fetch fd := ⟨hheld.1, .inr hleft⟩
        refine ⟨?_, fun g fetch₁ hg hfetch₁ hheld₁ => ?_⟩
        · refine (hspec.lookup fd).trans ((if_neg fun hfd => hleft (hlive hfd.1)).trans ?_)
          exact hresource ▸ h.owned f fetch fd hf hheld₀
        · have hfetch₂ := (hspec.fetches g).symm.trans hfetch₁
          rw [if_neg hg] at hfetch₂
          have hheld₂ : Held (s.pending g) fetch₁ fd := by
            rw [← hpending g]
            exact hheld₁
          exact hg (h.distinct g f fetch₁ fetch fd hfetch₂ hf hheld₂ hheld₀) }
    exact h.of_touched htouched hsound (h.other_fetch hf hresource)

end Ends

section Starts

theorem getElem?_concat (fetches : List (Fetch R)) (fetch : Fetch R) (g : Nat) :
    (fetches ++ [fetch])[g]? = if g = fetches.length then some fetch else fetches[g]? := by
  rw [List.getElem?_append]
  split
  · rw [if_neg (by omega)]
  · grind

variable [DecidableEq R]

/-- A new fetch, of which nothing is on the queue and which has no open descriptor. -/
theorem Intact.start (h : Intact contents s) {s' : Box R} {r : R} {fetch : Fetch R}
    (hresource : fetch.resource = r)
    (hfetches : ∀ g, s'.fetches[g]? =
      if g = s.fetches.length then some fetch else s.fetches[g]?)
    (hqueue : s'.dataQueue = s.dataQueue)
    (hdisposable : s'.fetchDisposable =
      Function.update s.fetchDisposable r (some s.fetches.length))
    (hlookup : ∀ fd, lookup s'.descriptors fd = lookup s.descriptors fd)
    (hfiles : ∀ q, q ≠ r → s'.partialFile q = s.partialFile q)
    (hcomplete : ∀ q, q ≠ r → s'.complete q = s.complete q)
    (hbegun : ∀ data, s'.partialFile r = some data → data <+: contents r)
    (hwhole : s'.complete r → s'.partialFile r = some (contents r))
    (hclosed : fetch.fd = none ∨ fetch.disposed = true)
    (hprogress : Progress (contents r) (s'.partialFile r) (s'.complete r) [] s.fetches.length
      fetch) : Intact contents s' := by
  have hpending : ∀ g, s'.pending g = s.pending g := fun g => by
    unfold Box.pending
    rw [hqueue]
  have hnone : s.fetches[s.fetches.length]? = none := List.getElem?_eq_none (Nat.le_refl _)
  have hempty : s'.pending s.fetches.length = [] := by rw [hpending, h.known _ hnone]
  have hfetch : s'.fetches[s.fetches.length]? = some fetch := by rw [hfetches, if_pos rfl]
  have htouched : Touched s s' r s.fetches.length := {
    partialFile := hfiles
    complete := hcomplete
    fetchDisposable := fun q hq => by rw [hdisposable, Function.update_of_ne hq]
    fetches := fun g hg => by rw [hfetches, if_neg hg]
    pending := fun g _ => hpending g
    lookup := fun _ _ fd _ _ _ => hlookup fd }
  have hsound : Sound contents s' r s.fetches.length fetch := {
    fetch_eq := hfetch
    resource := hresource
    begun := hbegun
    whole := hwhole
    current := fun g hg => by
      rw [hdisposable, Function.update_self] at hg
      cases hg
      exact ⟨fetch, hfetch, hresource, hempty.symm ▸ hprogress⟩
    closing := by simp [hempty]
    owned := fun fd hheld => by
      rw [hempty] at hheld
      rcases hclosed with hnoFd | hover
      · rw [hheld.1] at hnoFd
        cases hnoFd
      · have hleft := hheld.2.resolve_left (by simp [hover])
        exact absurd rfl hleft }
  refine h.of_touched htouched hsound fun q g _ hg => ?_
  rintro rfl
  obtain ⟨fetch₁, hfetch₁, _⟩ := h.current q _ hg
  rw [hnone] at hfetch₁
  cases hfetch₁

theorem Intact.startFetch (h : Intact contents s) (r : R) {cached : Bool}
    (hcached : cached → fileSize (s.partialFile r) = 0) :
    Intact contents (s.startFetch contents r cached) := by
  unfold Box.startFetch
  cases cached with
  | false =>
    have hbegun : (s.partialFile r).getD [] <+: contents r := by
      cases hfile : s.partialFile r with
      | none => exact List.nil_prefix
      | some data => exact h.begun r data hfile
    refine h.start (r := r) ?_ (getElem?_concat s.fetches _) rfl rfl (fun _ => rfl)
      (fun _ _ => rfl) (fun _ _ => rfl) (h.begun r) (h.whole r) (.inl ?_) ?_
    · rfl
    · rfl
    · refine .loading [] rfl rfl hbegun.length_le ?_
      rw [List.flatten_nil, List.append_nil]
      exact List.prefix_iff_eq_take.1 hbegun
  | true =>
    have hempty : (s.partialFile r).getD [] = [] := List.length_eq_zero_iff.1 (hcached rfl)
    dsimp only
    rw [if_pos rfl]
    generalize hfetch : ({ resource := r, position := fileSize (s.partialFile r) } : Fetch R) =
      fetch
    have hresource : fetch.resource = r := by rw [← hfetch]
    have hresult := result_spec (s := { s with fetches := s.fetches ++ [fetch] })
      ((getElem?_concat s.fetches fetch _).trans (if_pos rfl))
      (fun fd hfd => by rw [← hfetch] at hfd; cases hfd) (contents r) true
    generalize ({ s with fetches := s.fetches ++ [fetch] } : Box R).result s.fetches.length
      (contents r) true = written at hresult
    have hdisposed := disposeFetch_spec ((hresult.fetches _).trans (if_pos rfl))
    generalize written.disposeFetch s.fetches.length = s' at hdisposed
    have hfile : s'.partialFile r = some (contents r) := by
      rw [hdisposed.partialFile, hresult.partialFile, hresource]
      simp [hempty]
    have hwhole : s'.complete r = true := by
      rw [hdisposed.complete, hresult.complete, hresource]
      simp
    have hnoFd : fetch.fd = none := by rw [← hfetch]
    have hlive : fetch.disposed = false := by rw [← hfetch]
    have hfetches : ∀ g, s'.fetches[g]? = if g = s.fetches.length then
        some { fetch with fd := some (lowestFree s.descriptors), disposed := true }
        else s.fetches[g]? := by
      intro g
      rw [hdisposed.fetches, hresult.fetches, getElem?_concat, hnoFd]
      split <;> rfl
    have hlookup : ∀ fd, lookup s'.descriptors fd = lookup s.descriptors fd := by
      intro fd
      rw [hdisposed.lookup, hresult.lookup, hnoFd, hlive]
      by_cases hfd : lowestFree s.descriptors = fd
      · simp [← hfd]
      · simp [hfd, Ne.symm hfd]
    have hnew : ({ fetch with fd := some (lowestFree s.descriptors), disposed := true } :
        Fetch R).resource = r := hresource
    refine h.start hnew hfetches (hdisposed.dataQueue.trans hresult.dataQueue) rfl hlookup
      (fun q hq => ?_) (fun q hq => ?_) (fun data hdata => ?_) (fun _ => hfile) (.inr rfl)
      (.linked (.inr rfl) rfl hwhole hfile)
    · exact (congrFun hdisposed.partialFile q).trans <| (congrFun hresult.partialFile q).trans <|
        Function.update_of_ne (hresource ▸ hq) _ _
    · exact (congrFun hdisposed.complete q).trans <| (congrFun hresult.complete q).trans <|
        Function.update_of_ne (hresource ▸ hq) _ _
    · rw [show s'.partialFile r = some data from hdata, Option.some.injEq] at hfile
      exact hfile ▸ List.prefix_refl _

end Starts

section Runs

variable [DecidableEq R]

theorem Intact.removeSubscriber (h : Intact contents s) (subscriber : Nat) (r : R) :
    Intact contents (s.removeSubscriber subscriber r) := by
  unfold Box.removeSubscriber
  have hremoved : Intact contents { s with
      fetchSubscribers :=
        Function.update s.fetchSubscribers r ((s.fetchSubscribers r).erase subscriber) } :=
    h.congr rfl rfl rfl rfl rfl fun _ => rfl
  dsimp only
  split
  · exact hremoved.dropFetch r
  · exact hremoved

theorem Intact.setDisposable (h : Intact contents s) (subscriber : Nat) (r : R) :
    Intact contents (s.setDisposable subscriber r) := by
  unfold Box.setDisposable
  split
  · exact h.removeSubscriber subscriber r
  · exact h.congr rfl rfl rfl rfl rfl fun _ => rfl

theorem Intact.fetchedResource (h : Intact contents s) (subscriber : Nat) (r : R) {cached : Bool}
    (hcached : cached → s.startsFetch r → fileSize (s.partialFile r) = 0) :
    Intact contents (s.fetchedResource contents subscriber r cached) := by
  unfold Box.fetchedResource
  split
  · exact h
  · rename_i hsize
    refine Intact.setDisposable ?_ subscriber r
    have hadded : Intact contents (s.addSubscriber subscriber r) :=
      h.congr rfl rfl rfl rfl rfl fun _ => rfl
    unfold Box.ensureFetch
    split
    · rename_i hidle
      have hnone : s.fetchDisposable r = none := hidle
      refine hadded.startFetch r fun hcache => hcached hcache ?_
      simp only [Box.startsFetch, hnone, Option.isNone_none, Bool.and_true, beq_iff_eq]
      exact not_not.1 hsize
    · exact hadded

theorem step_intact (h : Intact contents s) {event : Event R} (horderly : Orderly s event) :
    Intact contents (step contents s event) := by
  cases event with
  | fetchedResource r =>
    have hnamed : Intact contents { s with subscribers := s.subscribers + 1 } :=
      h.congr rfl rfl rfl rfl rfl fun _ => rfl
    exact hnamed.enqueue fun _ => rfl
  | dispose subscriber =>
    unfold step
    dsimp only
    split
    · have hremoved : Intact contents
          { s with disposables := s.disposables.filter (·.1 != subscriber) } :=
        h.congr rfl rfl rfl rfl rfl fun _ => rfl
      exact hremoved.enqueue fun _ => rfl
    · exact h.congr rfl rfl rfl rfl rfl fun _ => rfl
  | cancelInteractiveResourceFetch r => exact h.enqueue fun _ => rfl
  | deliver f length => exact h.deliver f length
  | finish f => exact h.finish f
  | perform cached =>
    unfold step
    unfold Orderly at horderly
    dsimp only at horderly ⊢
    split
    · exact h
    · rename_i block dataQueue hqueue
      rw [hqueue] at horderly
      unfold Box.perform
      cases block with
      | fetchedResource subscriber r =>
        exact (h.dequeue hqueue fun _ => rfl).fetchedResource subscriber r horderly
      | result f data last =>
        obtain ⟨fetch, hf, hcurrent⟩ := Option.bind_eq_some_iff.1 (beq_iff_eq.1 horderly)
        exact h.result hqueue hf hcurrent
      | close f => exact h.close hqueue
      | dispose subscriber r =>
        exact (h.dequeue hqueue fun _ => rfl).removeSubscriber subscriber r
      | cancel r => exact (h.dequeue hqueue fun _ => rfl).dropFetch r
  | restart =>
    exact {
      begun := h.begun
      whole := h.whole
      current := fun _ _ hfalse => by cases hfalse
      known := fun _ _ => rfl
      closing := fun _ _ hfalse => by cases hfalse
      owned := fun _ _ _ hfalse => by cases hfalse
      distinct := fun _ _ _ _ _ hfalse => by cases hfalse }

end Runs

/-- In every run in order, no file is corrupted in any state. -/
theorem files_uncorrupted {R : Type*} [DecidableEq R] (contents : R → Data)
    (events : List (Event R)) (horderly : Guarded (step contents) Orderly {} events) (k : Nat) :
    Uncorrupted contents (run (step contents) {} (events.take k)) := by
  rw [← List.take_append_drop k events, guarded_append] at horderly
  have hstep : ∀ s event, Orderly s event → Intact contents s →
      Intact contents (step contents s event) :=
    fun _ _ hg h => step_intact h hg
  exact (guarded_invariant hstep _ _ horderly.1 intact_init).uncorrupted

/-- Two resources. -/
def sample : Nat → Data
  | 0 => [1, 2]
  | _ => [3]

/-- A fetch is cancelled between its results, and another one gets the rest. -/
def interrupted : List (Event Nat) :=
  [.fetchedResource 0, .perform false, .deliver 0 1, .perform false,
    .cancelInteractiveResourceFetch 0, .fetchedResource 0, .perform false, .perform false,
    .deliver 1 1, .finish 1, .perform false, .perform false]

/-- A fetch given up and begun again completes its file. -/
theorem interrupted_uncorrupted :
    (run (step sample) {} interrupted).completeFile 0 = some [1, 2] ∧
      Uncorrupted sample (run (step sample) {} (interrupted.take 12)) :=
  ⟨by decide +kernel, files_uncorrupted sample interrupted (by decide +kernel) 12⟩

/-! ## Corrupted files -/

/-- A fetch is cancelled and started again while its only result is on its way. -/
def repeatedBytes : List (Event Nat) :=
  [.fetchedResource 0, .perform false, .cancelInteractiveResourceFetch 0, .fetchedResource 0,
    .deliver 0 2, .perform false, .perform false, .deliver 1 2, .finish 1, .perform false,
    .perform false, .perform false]

/-- The descriptor of a cancelled fetch is that of another one when its result runs. -/
def foreignBytes : List (Event Nat) :=
  [.fetchedResource 0, .perform false, .fetchedResource 1, .perform false, .deliver 0 1,
    .perform false, .cancelInteractiveResourceFetch 0, .deliver 1 1, .deliver 0 1, .finish 1,
    .perform false, .perform false, .perform false, .perform false]

/-- The legacy cache answers when there is a part already. -/
def cachedBytes : List (Event Nat) :=
  [.fetchedResource 0, .perform false, .deliver 0 1, .perform false,
    .cancelInteractiveResourceFetch 0, .perform false, .fetchedResource 0, .perform true]

theorem not_uncorrupted {R : Type*} {contents : R → Data} {s : Box R} {r : R} {data : Data}
    (hfile : s.completeFile r = some data) (hne : data ≠ contents r) : ¬ Uncorrupted contents s :=
  fun h => hne ((h r).2 data hfile)

/-- Each of the three leaves a wrong file that is marked as complete. -/
theorem cache_corrupted :
    ¬ Uncorrupted sample (run (step sample) {} repeatedBytes) ∧
      ¬ Uncorrupted sample (run (step sample) {} foreignBytes) ∧
      ¬ Uncorrupted sample (run (step sample) {} cachedBytes) :=
  ⟨not_uncorrupted (r := 0) (show _ = some [1, 2, 1, 2] by decide +kernel) (by decide),
    not_uncorrupted (r := 1) (show _ = some [3, 2] by decide +kernel) (by decide),
    not_uncorrupted (r := 0) (show _ = some [1, 1, 2] by decide +kernel) (by decide)⟩

end TelegramPub.Ports.MediaBox
