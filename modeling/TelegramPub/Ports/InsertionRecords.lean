import Mathlib.Algebra.Group.Int.Units
import Mathlib.Data.List.Dedup
import Mathlib.Data.List.Sort
import TelegramPub.Verified.Insertions

/-!
# TGIndexSet and TGMutableArrayWithIndices

An array that is filled by single insertions and records them, for the batch
insertion of a list view: at which indices the inserted objects stand in the
end, in increasing order, and the objects in that order.  An index is an
`NSUInteger` where it comes in and an `int32_t` where it is recorded.
-/

namespace TelegramPub.Ports.InsertionRecords

open Verified.Insertions

variable {α : Type _}

/-- The value of an `int32_t` with the low bits of `x`. -/
def int32 (x : Int) : Int := x.bmod (2 ^ 32)

/-- `insertIndex:`, its answer and `_indices` behind it. -/
def insertIndex (indices : List Int) (index : Int) : Int × List Int :=
  if index < 0 then (-1, indices)
  else
    let indices := indices.map fun it => if it ≥ index then int32 (it + 1) else it
    let indexLocation := indices.findIdx (· ≥ index)
    (int32 indexLocation, indices.insertIdx indexLocation index)

/-- `indexSet`, as the list it is enumerated in; `addIndex:` raises for an index
that is negative. -/
def indexSet (indices : List Int) : Option (List Nat) :=
  if indices.all (0 ≤ ·) then some ((indices.map Int.toNat).dedup.insertionSort (· ≤ ·)) else none

/-- `TGMutableArrayWithIndices`. -/
structure TGMutableArrayWithIndices (α : Type _) where
  insertIndexSet : List Int
  insertArray : List α
  array : List α

/-- `initWithArray:`. -/
def initWithArray (array : List α) : TGMutableArrayWithIndices α :=
  { insertIndexSet := [], insertArray := [], array }

/-- `insertObject:atIndex:`. -/
def TGMutableArrayWithIndices.insertObject (w : TGMutableArrayWithIndices α) (object : α)
    (index : Nat) : Option (TGMutableArrayWithIndices α) := do
  let array ← insertAt w.array index object
  let inserted := insertIndex w.insertIndexSet (int32 index)
  let insertArray ←
    if inserted.1 ≥ 0 then insertAt w.insertArray inserted.1.toNat object else some w.insertArray
  return { insertIndexSet := inserted.2, insertArray, array }

/-- A sequence of `insertObject:atIndex:`. -/
def TGMutableArrayWithIndices.run (w : TGMutableArrayWithIndices α) :
    List (Nat × α) → Option (TGMutableArrayWithIndices α)
  | [] => some w
  | (index, object) :: insertions => (w.insertObject object index).bind fun w => w.run insertions

/-- `objectsForInsertOperations:`, the indices and the objects. -/
def TGMutableArrayWithIndices.objectsForInsertOperations (w : TGMutableArrayWithIndices α) :
    Option (List Nat × List α) :=
  (indexSet w.insertIndexSet).map fun indices => (indices, w.insertArray)

/-- The record of a run: as many indices as objects, strictly increasing, and
inserted one by one into the first array they give the last one. -/
def Reproduces (array : List α) (w : TGMutableArrayWithIndices α) : Prop :=
  w.insertIndexSet.Pairwise (· < ·) ∧ w.insertIndexSet.length = w.insertArray.length ∧
    ∃ indices objects, w.objectsForInsertOperations = some (indices, objects) ∧
      insertAll array (indices.zip objects) = some w.array

/-- The indices of a sequence of insertions into an array of `count` objects. -/
def Valid : Nat → List Nat → Prop
  | _, [] => True
  | count, index :: later => index ≤ count ∧ Valid (count + 1) later

/-- No inserted object ends at `2 ^ 31` or beyond. -/
def Fits : List Nat → Prop
  | [] => True
  | index :: later => position index later < 2 ^ 31 ∧ Fits later

example : ((initWithArray ["a", "b"]).run [(1, "x"), (1, "y"), (0, "z")]).bind
    (·.objectsForInsertOperations) = some ([0, 2, 3], ["z", "y", "x"]) := by decide

theorem int32_of_lt {n : Nat} (h : n < 2 ^ 31) : int32 n = n := by
  unfold int32
  rw [Int.bmod_def]
  omega

theorem int32_lt (x : Int) : int32 x < 2 ^ 31 := by
  have := Int.bmod_lt (x := x) (m := 2 ^ 32) (by decide)
  unfold int32
  omega

theorem length_le_of_pairwise {indices : List Nat} {bound : Nat}
    (hsorted : indices.Pairwise (· < ·)) (h : ∀ index ∈ indices, index < bound) :
    indices.length ≤ bound := by
  have hsub : indices ⊆ List.range bound := fun index hindex => List.mem_range.2 (h index hindex)
  have hnodup : indices.Nodup := hsorted.imp Nat.ne_of_lt
  simpa using (List.subperm_of_subset hnodup hsub).length_le

variable {records : List (Nat × α)}

/-- An index divides the records that are in order. -/
theorem exists_split (hsorted : (records.map Prod.fst).Pairwise (· < ·)) (index : Nat) :
    ∃ low high, records = low ++ high ∧ (∀ r ∈ low, r.1 < index) ∧ ∀ r ∈ high, index ≤ r.1 := by
  induction records with
  | nil => exact ⟨[], [], rfl, by simp, by simp⟩
  | cons r records ih =>
    obtain ⟨hr, hrest⟩ := List.pairwise_cons.1 hsorted
    by_cases hlt : r.1 < index
    · obtain ⟨low, high, rfl, hlow, hhigh⟩ := ih hrest
      exact ⟨r :: low, high, rfl, by simpa [hlt] using hlow, hhigh⟩
    · exact ⟨[], r :: records, rfl, by simp, by grind⟩

theorem insertIdx_length_append (before after : List α) (a : α) :
    (before ++ after).insertIdx before.length a = before ++ a :: after := by
  induction before with
  | nil => simp
  | cons b before ih => simp [ih]

theorem insertIndex_split {low high : List Nat} {index : Nat} (hlow : ∀ i ∈ low, i < index)
    (hhigh : ∀ i ∈ high, index ≤ i ∧ i + 1 < 2 ^ 31) (hlength : low.length < 2 ^ 31) :
    insertIndex ((low ++ high).map (Nat.cast : Nat → Int)) index =
      ((low.length : Int), (low ++ index :: high.map (· + 1)).map (Nat.cast : Nat → Int)) := by
  have hkept : ∀ i ∈ low, (if (i : Int) ≥ index then int32 (i + 1) else (i : Int)) = i :=
    fun i hi => if_neg (by have := hlow i hi; omega)
  have hmoved : ∀ i ∈ high, (if (i : Int) ≥ index then int32 (i + 1) else (i : Int)) =
      ((i + 1 : Nat) : Int) :=
    fun i hi => (if_pos (Int.ofNat_le.2 (hhigh i hi).1)).trans (int32_of_lt (hhigh i hi).2)
  have hfirst : (low.map (Nat.cast : Nat → Int)).findIdx (· ≥ (index : Int)) = low.length := by
    rw [List.findIdx_eq_length_of_false (by simpa using hlow), List.length_map]
  have hsecond : (high.map fun i => ((i + 1 : Nat) : Int)).findIdx (· ≥ (index : Int)) = 0 := by
    cases high with
    | nil => rfl
    | cons i high =>
      have hle : (index : Int) ≤ i + 1 := by have := hhigh i (List.mem_cons_self ..); omega
      simp [List.findIdx_cons, hle]
  have hplace := insertIdx_length_append (low.map (Nat.cast : Nat → Int))
    (high.map fun i => ((i + 1 : Nat) : Int)) index
  rw [List.length_map] at hplace
  unfold insertIndex
  rw [if_neg (by omega), List.map_append, List.map_append, List.map_map, List.map_map]
  simp only [Function.comp_def]
  rw [List.map_congr_left hkept, List.map_congr_left hmoved, List.findIdx_append, hfirst, hsecond]
  simp only [List.length_map, Nat.lt_irrefl, if_false, Nat.zero_add, hplace, int32_of_lt hlength]
  simp [Function.comp_def]

/-- The record of what was inserted into `array`, with the insertions that come:
every object stands where it was put and moved to, and no index will overflow. -/
structure Recorded (array : List α) (later : List Nat) (w : TGMutableArrayWithIndices α)
    (records : List (Nat × α)) : Prop where
  indices : w.insertIndexSet = (records.map Prod.fst).map (Nat.cast : Nat → Int)
  objects : w.insertArray = records.map Prod.snd
  sorted : (records.map Prod.fst).Pairwise (· < ·)
  fits : ∀ r ∈ records, position r.1 later < 2 ^ 31
  replay : insertAll array records = some w.array

variable {array : List α} {w : TGMutableArrayWithIndices α}

/-- One insertion: the records above the index are shifted, the new one stands
between. -/
theorem Recorded.insertObject {index : Nat} {later : List Nat}
    (h : Recorded array (index :: later) w records) (hvalid : index ≤ w.array.length)
    (hfits : position index later < 2 ^ 31) (object : α) :
    ∃ w' records', w.insertObject object index = some w' ∧ Recorded array later w' records' ∧
      w'.array.length = w.array.length + 1 := by
  obtain ⟨low, high, rfl, hlow, hhigh⟩ := exists_split h.sorted index
  have hindex : index < 2 ^ 31 := Nat.lt_of_le_of_lt (le_position index later) hfits
  have hmoved : ∀ r ∈ high, position (r.1 + 1) later < 2 ^ 31 := fun r hr => by
    have hr' := h.fits r (List.mem_append_right _ hr)
    rwa [position, List.foldl_cons, shift, if_pos (hhigh r hr)] at hr'
  have hkept : ∀ r ∈ low, position r.1 later < 2 ^ 31 := fun r hr => by
    have hr' := h.fits r (List.mem_append_left _ hr)
    rwa [position, List.foldl_cons, shift, if_neg (Nat.not_le.2 (hlow r hr))] at hr'
  have hsorted := h.sorted
  rw [List.map_append, List.pairwise_append] at hsorted
  have hlow' : ∀ i ∈ low.map Prod.fst, i < index := by simpa using hlow
  have hhigh' : ∀ i ∈ high.map Prod.fst, index ≤ i ∧ i + 1 < 2 ^ 31 := by
    rw [List.forall_mem_map]
    exact fun r hr => ⟨hhigh r hr, Nat.lt_of_le_of_lt (le_position _ _) (hmoved r hr)⟩
  have hlength : low.length < 2 ^ 31 := by
    have := length_le_of_pairwise hsorted.1 hlow'
    rw [List.length_map] at this
    omega
  have hinsert := insertIndex_split hlow' hhigh' (by simpa using hlength)
  have hrecorded := h.indices
  rw [List.map_append] at hrecorded
  have hreplay : insertAll array (low ++ (index, object) :: high.map fun r => (r.1 + 1, r.2)) =
      some (w.array.insertIdx index object) := by
    have hall := h.replay
    rw [insertAll_append] at hall ⊢
    obtain ⟨between, hbetween, hrest⟩ := Option.bind_eq_some_iff.1 hall
    rw [hbetween, Option.bind_some, insertAll_shift object hhigh hrest, insertAt_of_le hvalid]
  have hplaced : insertAt w.insertArray low.length object =
      some (low.map Prod.snd ++ object :: high.map Prod.snd) := by
    have hplace := insertIdx_length_append (low.map Prod.snd) (high.map Prod.snd) object
    rw [List.length_map] at hplace
    rw [h.objects, insertAt_of_le (by simp), List.map_append, hplace]
  have hstep : w.insertObject object index = some
      { insertIndexSet := (low.map Prod.fst ++ index :: (high.map Prod.fst).map (· + 1)).map Nat.cast
        insertArray := low.map Prod.snd ++ object :: high.map Prod.snd
        array := w.array.insertIdx index object } := by
    unfold TGMutableArrayWithIndices.insertObject
    rw [insertAt_of_le hvalid, int32_of_lt hindex, hrecorded, hinsert, List.length_map]
    simp [hplaced]
  exact ⟨_, low ++ (index, object) :: high.map fun r => (r.1 + 1, r.2), hstep,
    { indices := by simp [Function.comp_def]
      objects := by simp [Function.comp_def]
      sorted := by
        have hshifted := hsorted.2.1.map (· + 1) fun _ _ => Nat.succ_lt_succ
        rw [List.map_append, List.map_cons, List.map_map, List.pairwise_append]
        simp only [List.map_map, Function.comp_def] at hshifted ⊢
        exact ⟨hsorted.1, List.pairwise_cons.2 ⟨by grind, hshifted⟩, by grind⟩
      fits := by grind
      replay := hreplay }, List.length_insertIdx_of_le_length hvalid object⟩

/-- A sequence of insertions whose objects all end below `2 ^ 31`. -/
theorem Recorded.run {insertions : List (Nat × α)}
    (h : Recorded array (insertions.map Prod.fst) w records)
    (hvalid : Valid w.array.length (insertions.map Prod.fst))
    (hfits : Fits (insertions.map Prod.fst)) :
    ∃ w' records', w.run insertions = some w' ∧ Recorded array [] w' records' := by
  induction insertions generalizing w records with
  | nil => exact ⟨w, records, rfl, h⟩
  | cons insertion insertions ih =>
    obtain ⟨index, object⟩ := insertion
    obtain ⟨w', records', hstep, h', hlength⟩ := h.insertObject hvalid.1 hfits.1 object
    obtain ⟨last, all, hrun, hlast⟩ := ih h' (hlength ▸ hvalid.2) hfits.2
    exact ⟨last, all, by simp [TGMutableArrayWithIndices.run, hstep, hrun], hlast⟩

/-- What is recorded is what a batch insertion needs. -/
theorem Recorded.reproduces (h : Recorded array [] w records) : Reproduces array w := by
  have hnodup : (records.map Prod.fst).Nodup := h.sorted.imp Nat.ne_of_lt
  have hset : indexSet w.insertIndexSet = some (records.map Prod.fst) := by
    have hcast : ((records.map Prod.fst).map (Nat.cast : Nat → Int)).map Int.toNat =
        records.map Prod.fst := by simp [Function.comp_def]
    have horder := (h.sorted.imp Nat.le_of_lt).insertionSort_eq
    rw [indexSet, h.indices, hcast, List.dedup_eq_self.2 hnodup, horder, if_pos (by simp)]
  refine ⟨?_, by simp [h.indices, h.objects], _, _, by
    rw [TGMutableArrayWithIndices.objectsForInsertOperations, hset]; rfl, ?_⟩
  · rw [h.indices]
    exact h.sorted.map _ fun _ _ => Int.ofNat_lt.2
  · simpa [h.objects, List.zip_map'] using h.replay

/-! ## Where the record fails -/

theorem insertObject_eq_some {w' : TGMutableArrayWithIndices α} {object : α} {index : Nat}
    (h : w.insertObject object index = some w') :
    insertAt w.array index object = some w'.array ∧
      w'.insertIndexSet = (insertIndex w.insertIndexSet (int32 index)).2 := by
  cases w'
  unfold TGMutableArrayWithIndices.insertObject at h
  simp only [Option.bind_eq_bind, Option.bind_eq_some_iff, Option.pure_def] at h
  obtain ⟨array, harray, h⟩ := h
  split at h
  · obtain ⟨insertArray, -, h⟩ := Option.bind_eq_some_iff.1 h
    obtain ⟨hindices, -, rfl⟩ := TGMutableArrayWithIndices.mk.inj (Option.some.inj h)
    exact ⟨harray, hindices.symm⟩
  · obtain ⟨hindices, -, rfl⟩ := TGMutableArrayWithIndices.mk.inj (Option.some.inj h)
    exact ⟨harray, hindices.symm⟩

theorem insertIndex_lt {indices : List Int} (h : ∀ it ∈ indices, it < 2 ^ 31) (x : Int) :
    ∀ it ∈ (insertIndex indices (int32 x)).2, it < 2 ^ 31 := by
  have hx := int32_lt x
  unfold insertIndex
  split
  · exact h
  · intro it hit
    cases (List.mem_insertIdx List.findIdx_le_length).1 hit with
    | inl heq => exact heq ▸ hx
    | inr hmem =>
      obtain ⟨old, hold, rfl⟩ := List.mem_map.1 hmem
      split
      · exact int32_lt _
      · exact h old hold

/-- A run: the array takes the insertions, the recorded indices stay `int32_t`. -/
theorem run_eq_some {insertions : List (Nat × α)} {w' : TGMutableArrayWithIndices α}
    (h : w.run insertions = some w') (hw : ∀ it ∈ w.insertIndexSet, it < 2 ^ 31) :
    insertAll w.array insertions = some w'.array ∧ ∀ it ∈ w'.insertIndexSet, it < 2 ^ 31 := by
  induction insertions generalizing w with
  | nil =>
    cases h
    exact ⟨rfl, hw⟩
  | cons insertion insertions ih =>
    obtain ⟨index, object⟩ := insertion
    obtain ⟨next, hnext, hrun⟩ := Option.bind_eq_some_iff.1 h
    obtain ⟨harray, hindices⟩ := insertObject_eq_some hnext
    have hrest := ih hrun (hindices ▸ insertIndex_lt hw _)
    simpa [insertAll, harray] using hrest

/-- Where the objects of a run end below `2 ^ 31`, its indices fit. -/
theorem fits_of_marks {mark : α} {final : List α} {indices : List Nat}
    (h : insertAll array (indices.map fun index => (index, mark)) = some final)
    (hfinal : ∀ p, final[p]? = some mark → p < 2 ^ 31) : Fits indices := by
  induction indices generalizing array with
  | nil => trivial
  | cons index indices ih =>
    obtain ⟨next, hnext, hrest⟩ := Option.bind_eq_some_iff.1 h
    refine ⟨hfinal _ ?_, ih hrest⟩
    have hmoved := getElem?_position hrest index
    rw [List.map_map, Function.comp_def, List.map_id'] at hmoved
    rw [hmoved, ← (insertAt_eq_some.1 hnext).2, List.getElem?_insertIdx_self,
      if_pos (insertAt_eq_some.1 hnext).1]

/-- The objects that a reproduced run inserted end below `2 ^ 31`. -/
theorem Reproduces.lt {mark : α} (harray : mark ∉ array) (h : Reproduces array w)
    (hbound : ∀ it ∈ w.insertIndexSet, it < 2 ^ 31) (p : Nat) (hp : w.array[p]? = some mark) :
    p < 2 ^ 31 := by
  obtain ⟨hsorted, hlength, indices, objects, hrecord, hall⟩ := h
  unfold TGMutableArrayWithIndices.objectsForInsertOperations indexSet at hrecord
  split at hrecord
  · next hnonneg =>
      obtain ⟨rfl, rfl⟩ := Prod.mk.inj (Option.some.inj hrecord)
      have hnats : w.insertIndexSet.map Int.toNat |>.Pairwise (· < ·) := by
        refine List.pairwise_map.2 (hsorted.imp_of_mem fun ha hb hlt => ?_)
        have := List.all_eq_true.1 hnonneg _ ha
        have := List.all_eq_true.1 hnonneg _ hb
        simp at *
        omega
      have horder := (hnats.imp Nat.le_of_lt).insertionSort_eq
      have hnodup : (w.insertIndexSet.map Int.toNat).Nodup := hnats.imp Nat.ne_of_lt
      rw [List.dedup_eq_self.2 hnodup, horder] at hall
      refine mark_lt hall ?_ ?_ (fun q hq => absurd (List.mem_of_getElem? hq) harray) p hp
      · rw [List.map_fst_zip (by simp [hlength])]
        exact hnats
      · intro r hr
        obtain ⟨it, hit, heq⟩ := List.mem_map.1 (List.of_mem_zip hr).1
        have := hbound it hit
        omega
  · simp at hrecord

/-- For arrays of `count` objects and the indices of a sequence of insertions:
whatever the objects are, the record reproduces the array exactly when no
inserted object ends at `2 ^ 31` or beyond. -/
theorem reproduces_iff [Nontrivial α] {count : Nat} {indices : List Nat}
    (hvalid : Valid count indices) :
    (∀ array objects : List α, array.length = count → objects.length = indices.length →
      ∃ w, (initWithArray array).run (indices.zip objects) = some w ∧ Reproduces array w) ↔
        Fits indices := by
  constructor
  · intro h
    obtain ⟨other, mark, hne⟩ := exists_pair_ne α
    obtain ⟨w, hrun, hreproduces⟩ := h (List.replicate count other)
      (List.replicate indices.length mark) (by simp) (by simp)
    have hfinal := run_eq_some hrun (by simp [initWithArray])
    have hzip : indices.zip (List.replicate indices.length mark) =
        indices.map fun index => (index, mark) := by
      rw [← List.map_const, ← List.zip_map']
      simp
    rw [hzip] at hfinal
    refine fits_of_marks hfinal.1 fun p hp => hreproduces.lt (fun hmem => ?_) hfinal.2 p hp
    exact hne (List.eq_of_mem_replicate hmem).symm
  · intro hfits array objects hcount hlength
    have hmap : (indices.zip objects).map Prod.fst = indices :=
      List.map_fst_zip (Nat.le_of_eq hlength.symm)
    have hstart : Recorded array indices (initWithArray array) [] :=
      { indices := rfl, objects := rfl, sorted := List.Pairwise.nil, fits := by simp
        replay := rfl }
    rw [← hmap] at hstart hvalid hfits
    obtain ⟨w, records, hrun, hlast⟩ := hstart.run (by rwa [← hcount] at hvalid) hfits
    exact ⟨w, hrun, hlast.reproduces⟩

/-- Three insertions, two of them at one index. -/
theorem reproduces_three :
    ∃ w, (initWithArray [7, 8]).run ([1, 1, 0].zip [1, 2, 3]) = some w ∧ Reproduces [7, 8] w := by
  have hvalid : Valid 2 [1, 1, 0] := ⟨by decide, by decide, by decide, trivial⟩
  have hfits : Fits [1, 1, 0] := ⟨by decide, by decide, by decide, trivial⟩
  exact (reproduces_iff hvalid).2 hfits [7, 8] [1, 2, 3] rfl rfl

/-- An object behind `2 ^ 31` others is not recorded. -/
theorem not_reproduces_past {mark : α} (hmark : mark ∉ array) :
    ¬ ∃ w, (initWithArray array).run [(2 ^ 31, mark)] = some w ∧ Reproduces array w := by
  rintro ⟨w, hrun, h⟩
  obtain ⟨hall, hbound⟩ := run_eq_some hrun (by simp [initWithArray])
  obtain ⟨next, hnext, hlast⟩ := Option.bind_eq_some_iff.1 hall
  have hat : w.array[2 ^ 31]? = some mark := by
    rw [← Option.some.inj hlast, ← (insertAt_eq_some.1 hnext).2, List.getElem?_insertIdx_self,
      if_pos (insertAt_eq_some.1 hnext).1]
  exact Nat.lt_irrefl _ (h.lt hmark hbound _ hat)

/-- An array of `2 ^ 31` objects and one insertion at its end. -/
theorem insertObject_lost :
    Valid (2 ^ 31) [2 ^ 31] ∧
      ¬ ∃ w, (initWithArray (List.replicate (2 ^ 31) 0)).run [(2 ^ 31, 1)] = some w ∧
        Reproduces (List.replicate (2 ^ 31) 0) w :=
  ⟨⟨Nat.le_refl _, trivial⟩, not_reproduces_past fun hmem =>
    absurd (List.eq_of_mem_replicate hmem) (by decide)⟩

end TelegramPub.Ports.InsertionRecords
