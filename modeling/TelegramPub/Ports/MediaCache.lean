import TelegramPub.Ports.MediaBox

/-!
# The cache stays whole

As long as no result of an old fetch runs, and the legacy cache answers for resources
without data only, what the partial file of a resource holds and what is on the queue for
its fetch are together a beginning of the resource (`Progress`).  A descriptor that is not
closed yet is the one of its fetch (`Held`).
-/

namespace TelegramPub.Ports.MediaBox

open Verified.Bytes Verified.Descriptors

variable {R : Type*} {contents : R → Data}

/-! ## Blocks of a fetch -/

/-- The block is one of the fetch. -/
def Block.isOf (f : Nat) : Block R → Bool
  | .result g _ _ => g == f
  | .close g => g == f
  | _ => false

def Block.isClose : Block R → Bool
  | .close _ => true
  | _ => false

/-- The blocks of a fetch that are on the queue. -/
def Box.pending (s : Box R) (f : Nat) : List (Block R) := s.dataQueue.filter (Block.isOf f)

/-- The results of a fetch that runs. -/
def results (f : Nat) (pieces : List Data) : List (Block R) := pieces.map (.result f · false)

/-- The descriptor of a fetch that is not closed yet. -/
def Held (pending : List (Block R)) (fetch : Fetch R) (fd : Nat) : Prop :=
  fetch.fd = some fd ∧ (fetch.disposed = false ∨ pending.countP Block.isClose ≠ 0)

/-- How far the fetch of a resource is. -/
inductive Progress (contents : Data) (partialFile : Option Data) (complete : Bool)
    (pending : List (Block R)) (f : Nat) (fetch : Fetch R) : Prop
  /-- Results are delivered. -/
  | loading (pieces : List Data) (pending_eq : pending = results f pieces)
      (live : fetch.disposed = false) (position_le : fetch.position ≤ contents.length)
      (written : partialFile.getD [] ++ pieces.flatten = contents.take fetch.position)
  /-- The last result is on the queue. -/
  | ending (pieces : List Data)
      (pending_eq : pending = results f pieces ++ [.result f [] true, .close f])
      (ended : fetch.disposed = true)
      (written : partialFile.getD [] ++ pieces.flatten = contents)
  /-- The complete file is there. -/
  | linked (pending_eq : pending = [.close f] ∨ pending = []) (ended : fetch.disposed = true)
      (complete_eq : complete = true) (written : partialFile = some contents)

/-- The states of the cache. -/
structure Intact (contents : R → Data) (s : Box R) : Prop where
  begun : ∀ r data, s.partialFile r = some data → data <+: contents r
  whole : ∀ r, s.complete r → s.partialFile r = some (contents r)
  current : ∀ r f, s.fetchDisposable r = some f → ∃ fetch, s.fetches[f]? = some fetch ∧
    fetch.resource = r ∧
    Progress (contents r) (s.partialFile r) (s.complete r) (s.pending f) f fetch
  known : ∀ f, s.fetches[f]? = none → s.pending f = []
  closing : ∀ f fetch, s.fetches[f]? = some fetch →
    (s.pending f).countP Block.isClose ≤ if fetch.disposed then 1 else 0
  owned : ∀ f fetch fd, s.fetches[f]? = some fetch → Held (s.pending f) fetch fd →
    lookup s.descriptors fd = some fetch.resource
  distinct : ∀ f g fetch fetch' fd, s.fetches[f]? = some fetch → s.fetches[g]? = some fetch' →
    Held (s.pending f) fetch fd → Held (s.pending g) fetch' fd → f = g

variable {s : Box R}

theorem Intact.uncorrupted (h : Intact contents s) : Uncorrupted contents s := by
  intro r
  refine ⟨h.begun r, fun data hdata => ?_⟩
  unfold Box.completeFile at hdata
  split at hdata
  · rename_i hcomplete
    rw [h.whole r hcomplete] at hdata
    exact (Option.some.inj hdata).symm
  · cases hdata

theorem intact_init : Intact contents ({} : Box R) where
  begun := fun _ _ h => by cases h
  whole := fun _ h => by cases h
  current := fun _ _ h => by cases h
  known := fun _ _ => rfl
  closing := fun _ _ h => by cases h
  owned := fun _ _ _ h => by cases h
  distinct := fun _ _ _ _ _ h => by cases h

/-! ## Steps that change one fetch -/

/-- What a step for one fetch leaves as it was. -/
structure Touched (s s' : Box R) (r : R) (f : Nat) : Prop where
  partialFile : ∀ q, q ≠ r → s'.partialFile q = s.partialFile q
  complete : ∀ q, q ≠ r → s'.complete q = s.complete q
  fetchDisposable : ∀ q, q ≠ r → s'.fetchDisposable q = s.fetchDisposable q
  fetches : ∀ g, g ≠ f → s'.fetches[g]? = s.fetches[g]?
  pending : ∀ g, g ≠ f → s'.pending g = s.pending g
  lookup : ∀ g fetch fd, g ≠ f → s.fetches[g]? = some fetch → Held (s.pending g) fetch fd →
    lookup s'.descriptors fd = lookup s.descriptors fd

/-- What the fetch and its resource are after the step. -/
structure Sound (contents : R → Data) (s : Box R) (r : R) (f : Nat) (fetch : Fetch R) :
    Prop where
  fetch_eq : s.fetches[f]? = some fetch
  resource : fetch.resource = r
  begun : ∀ data, s.partialFile r = some data → data <+: contents r
  whole : s.complete r → s.partialFile r = some (contents r)
  current : ∀ g, s.fetchDisposable r = some g → ∃ fetch', s.fetches[g]? = some fetch' ∧
    fetch'.resource = r ∧
    Progress (contents r) (s.partialFile r) (s.complete r) (s.pending g) g fetch'
  closing : (s.pending f).countP Block.isClose ≤ if fetch.disposed then 1 else 0
  owned : ∀ fd, Held (s.pending f) fetch fd → lookup s.descriptors fd = some r ∧
    ∀ g fetch', g ≠ f → s.fetches[g]? = some fetch' → ¬ Held (s.pending g) fetch' fd

variable {f : Nat} {fetch : Fetch R}

theorem Intact.of_touched {s s' : Box R} {r : R} (h : Intact contents s)
    (htouched : Touched s s' r f) (hsound : Sound contents s' r f fetch)
    (hother : ∀ q g, q ≠ r → s.fetchDisposable q = some g → g ≠ f) : Intact contents s' where
  begun := by
    intro q
    by_cases hq : q = r
    · subst hq
      exact hsound.begun
    · rw [htouched.partialFile q hq]
      exact h.begun q
  whole := by
    intro q
    by_cases hq : q = r
    · subst hq
      exact hsound.whole
    · rw [htouched.partialFile q hq, htouched.complete q hq]
      exact h.whole q
  current := by
    intro q g hg
    by_cases hq : q = r
    · subst hq
      exact hsound.current g hg
    · rw [htouched.fetchDisposable q hq] at hg
      have hne := hother q g hq hg
      rw [htouched.fetches g hne, htouched.pending g hne, htouched.partialFile q hq,
        htouched.complete q hq]
      exact h.current q g hg
  known := by
    intro g hg
    by_cases hgf : g = f
    · rw [hgf, hsound.fetch_eq] at hg
      cases hg
    · rw [htouched.fetches g hgf] at hg
      rw [htouched.pending g hgf]
      exact h.known g hg
  closing := by
    intro g fetch' hg
    by_cases hgf : g = f
    · subst hgf
      rw [hsound.fetch_eq] at hg
      cases hg
      exact hsound.closing
    · rw [htouched.fetches g hgf] at hg
      rw [htouched.pending g hgf]
      exact h.closing g fetch' hg
  owned := by
    intro g fetch' fd hg hheld
    by_cases hgf : g = f
    · subst hgf
      rw [hsound.fetch_eq] at hg
      cases hg
      rw [hsound.resource]
      exact (hsound.owned fd hheld).1
    · rw [htouched.fetches g hgf] at hg
      rw [htouched.pending g hgf] at hheld
      rw [htouched.lookup g fetch' fd hgf hg hheld]
      exact h.owned g fetch' fd hg hheld
  distinct := by
    intro g g' fetch₁ fetch₂ fd hg hg' hheld hheld'
    by_cases hgf : g = f
    · subst hgf
      rw [hsound.fetch_eq] at hg
      cases hg
      by_contra hne
      exact (hsound.owned fd hheld).2 g' fetch₂ (Ne.symm hne) hg' hheld'
    · by_cases hgf' : g' = f
      · subst hgf'
        rw [hsound.fetch_eq] at hg'
        cases hg'
        exact absurd hheld ((hsound.owned fd hheld').2 g fetch₁ hgf hg)
      · rw [htouched.fetches g hgf] at hg
        rw [htouched.fetches g' hgf'] at hg'
        rw [htouched.pending g hgf] at hheld
        rw [htouched.pending g' hgf'] at hheld'
        exact h.distinct g g' fetch₁ fetch₂ fd hg hg' hheld hheld'

/-- Another resource has another fetch. -/
theorem Intact.other_fetch (h : Intact contents s) {r : R}
    (hf : s.fetches[f]? = some fetch) (hresource : fetch.resource = r) (q : R) (g : Nat)
    (hq : q ≠ r) (hg : s.fetchDisposable q = some g) : g ≠ f := by
  rintro rfl
  obtain ⟨fetch', hfetch', hresource', _⟩ := h.current q g hg
  rw [hf] at hfetch'
  cases hfetch'
  exact hq (hresource'.symm.trans hresource)

theorem Intact.congr {s s' : Box R} (h : Intact contents s)
    (hfiles : s'.partialFile = s.partialFile) (hcomplete : s'.complete = s.complete)
    (hdescriptors : s'.descriptors = s.descriptors)
    (hfetches : s'.fetches = s.fetches) (hdisposable : s'.fetchDisposable = s.fetchDisposable)
    (hpending : ∀ f, s'.pending f = s.pending f) : Intact contents s' where
  begun := by
    rw [hfiles]
    exact h.begun
  whole := by
    rw [hfiles, hcomplete]
    exact h.whole
  current := by
    rw [hdisposable, hfetches, hfiles, hcomplete]
    simpa only [hpending] using h.current
  known := by
    rw [hfetches]
    simpa only [hpending] using h.known
  closing := by
    rw [hfetches]
    simpa only [hpending] using h.closing
  owned := by
    rw [hfetches, hdescriptors]
    simpa only [hpending] using h.owned
  distinct := by
    rw [hfetches]
    simpa only [hpending] using h.distinct

section Operations

theorem getElem?_set_of_some {fetches : List (Fetch R)}
    (hf : fetches[f]? = some fetch) (x : Fetch R) (g : Nat) :
    (fetches.set f x)[g]? = if g = f then some x else fetches[g]? := by
  have hlength := (List.getElem?_eq_some_iff.1 hf).1
  rw [List.getElem?_set]
  by_cases hg : f = g
  · simp [hg, hg ▸ hlength]
  · simp [hg, Ne.symm hg]

theorem closeFile_eq (hf : s.fetches[f]? = some fetch) :
    ∃ descriptors, s.closeFile f = { s with descriptors } ∧
      ∀ fd, lookup descriptors fd =
        if fetch.fd = some fd then none else lookup s.descriptors fd := by
  unfold Box.closeFile
  rw [hf, Option.bind_some]
  cases fetch.fd with
  | none => exact ⟨s.descriptors, rfl, fun fd => by simp⟩
  | some n =>
    refine ⟨release s.descriptors n, rfl, fun fd => ?_⟩
    simp [lookup_release, eq_comm]

/-- What a disposal does. -/
structure Disposed (s s' : Box R) (f : Nat) (fetch : Fetch R) : Prop where
  partialFile : s'.partialFile = s.partialFile
  complete : s'.complete = s.complete
  fetchDisposable : s'.fetchDisposable = s.fetchDisposable
  dataQueue : s'.dataQueue = s.dataQueue
  fetches : ∀ g, s'.fetches[g]? =
    if g = f then some { fetch with disposed := true } else s.fetches[g]?
  lookup : ∀ fd, lookup s'.descriptors fd =
    if fetch.disposed = false ∧ fetch.fd = some fd then none else lookup s.descriptors fd

theorem disposeFetch_spec
    (hf : s.fetches[f]? = some fetch) : Disposed s (s.disposeFetch f) f fetch := by
  unfold Box.disposeFetch
  rw [hf]
  dsimp only
  cases hdisposed : fetch.disposed with
  | true =>
    rw [if_pos rfl]
    refine ⟨rfl, rfl, rfl, rfl, fun g => ?_, fun fd => by simp [hdisposed]⟩
    split
    · rename_i hg
      rw [hg, hf, ← hdisposed]
    · rfl
  | false =>
    rw [if_neg (by decide)]
    obtain ⟨descriptors, hclose, hlookup⟩ := closeFile_eq
      (s := { s with fetches := s.fetches.set f { fetch with disposed := true } })
      ((getElem?_set_of_some hf _ f).trans (if_pos rfl))
    rw [hclose]
    exact ⟨rfl, rfl, rfl, rfl, getElem?_set_of_some hf _, fun fd => by simp [hlookup, hdisposed]⟩

variable [DecidableEq R]

/-- What a result does. -/
structure Resulted (s s' : Box R) (f : Nat) (fetch : Fetch R) (data : Data) (complete : Bool) :
    Prop where
  partialFile : s'.partialFile = Function.update s.partialFile fetch.resource
    (some ((s.partialFile fetch.resource).getD [] ++ data))
  complete : s'.complete =
    if complete then Function.update s.complete fetch.resource true else s.complete
  fetchDisposable : s'.fetchDisposable = s.fetchDisposable
  dataQueue : s'.dataQueue = s.dataQueue
  fetches : ∀ g, s'.fetches[g]? =
    if g = f then some { fetch with fd := some (fetch.fd.getD (lowestFree s.descriptors)) }
    else s.fetches[g]?
  lookup : ∀ fd, lookup s'.descriptors fd =
    if fd = fetch.fd.getD (lowestFree s.descriptors) then some fetch.resource
    else lookup s.descriptors fd

theorem write_spec {fd : Nat} {r : R} (h : lookup s.descriptors fd = some r) (data : Data) :
    s.write fd data = { s with
      partialFile :=
        Function.update s.partialFile r (some ((s.partialFile r).getD [] ++ data)) } := by
  unfold Box.write
  rw [h]

/-- A result goes to the file of its own resource, if the descriptor is still the one of
its fetch. -/
theorem result_spec (hf : s.fetches[f]? = some fetch)
    (hown : ∀ fd, fetch.fd = some fd → lookup s.descriptors fd = some fetch.resource)
    (data : Data) (complete : Bool) :
    Resulted s (s.result f data complete) f fetch data complete := by
  have hlink : ∀ t : Box R, (t.partialFile fetch.resource).isSome →
      (if complete then t.link fetch.resource else t) = { t with
        complete := if complete then Function.update t.complete fetch.resource true
          else t.complete } := by
    intro t ht
    unfold Box.link
    rw [if_pos ht]
    cases complete <;> rfl
  unfold Box.result Box.openFile
  rw [hf]
  dsimp only
  cases hfd : fetch.fd with
  | some fd =>
    dsimp only [Option.getD_some]
    rw [write_spec (hown fd hfd), hlink _ (by simp)]
    exact {
      partialFile := rfl
      complete := rfl
      fetchDisposable := rfl
      dataQueue := rfl
      fetches := fun g => by
        show s.fetches[g]? = _
        by_cases hg : g = f
        · rw [if_pos hg, hg, hf, hfd, Option.getD_some, ← hfd]
        · rw [if_neg hg]
      lookup := fun n => by
        show lookup s.descriptors n = _
        rw [hfd, Option.getD_some]
        by_cases hn : n = fd
        · rw [if_pos hn, hn, hown fd hfd]
        · rw [if_neg hn] }
  | none =>
    dsimp only [Option.getD_none]
    have hnew : lookup (insert s.descriptors fetch.resource) (lowestFree s.descriptors) =
        some fetch.resource := by rw [lookup_insert, if_pos rfl]
    rw [write_spec hnew, hlink _ (by simp)]
    exact {
      partialFile := by simp
      complete := rfl
      fetchDisposable := rfl
      dataQueue := rfl
      fetches := fun g => by
        rw [hfd]
        exact getElem?_set_of_some hf _ g
      lookup := fun n => by
        rw [hfd]
        exact lookup_insert _ _ n }

end Operations

end TelegramPub.Ports.MediaBox
