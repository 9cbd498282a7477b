import TelegramPub.Verified.Bytes
import TelegramPub.Verified.Machine
import Mathlib.Data.List.Induction
import Mathlib.Data.List.Nodup

/-!
# The salts of a datacenter

`MTDatacenterAuthInfo` keeps a set of salts, each valid for a range of message ids.
`authSaltForMessageId:` is to choose the one that stays valid for the longest time, but the
loop never updates `bestValidMessageCount`: it ends with the last entry that counts.
`mergeSaltSet:forTimestamp:` keeps the starts of the entries distinct.
-/

namespace TelegramPub.Ports.AuthSalts

open Verified.Bytes Verified.Machine

/-- `MTDatacenterSaltInfo`. -/
structure DatacenterSaltInfo where
  salt : Int
  firstValidMessageId : Int
  lastValidMessageId : Int
  deriving DecidableEq

/-- `validMessageCountAfterId:`. -/
def DatacenterSaltInfo.validMessageCountAfterId (saltInfo : DatacenterSaltInfo)
    (messageId : Int) : Int :=
  if messageId < saltInfo.firstValidMessageId then 0
  else max 0 (int64 (saltInfo.lastValidMessageId - messageId))

/-- `isValidFutureSaltForMessageId:`. -/
def DatacenterSaltInfo.isValidFutureSaltForMessageId (saltInfo : DatacenterSaltInfo)
    (messageId : Int) : Bool :=
  decide (messageId < saltInfo.lastValidMessageId)

/-- `authSaltForMessageId:`. -/
def authSaltForMessageId (saltSet : List DatacenterSaltInfo) (messageId : Int) : Int :=
  let bestValidMessageCount := 0
  saltSet.foldl
    (fun bestSalt saltInfo =>
      let currentValidMessageCount := saltInfo.validMessageCountAfterId messageId
      if currentValidMessageCount ≠ 0 ∧ bestValidMessageCount < currentValidMessageCount then
        saltInfo.salt
      else bestSalt)
    0

/-- `(int64_t)` of a floating point number.  Times are taken as exact. -/
def truncate (q : Rat) : Int := if 0 ≤ q then q.floor else q.ceil

/-- The loop over the updated salts. -/
def addSalts (referenceMessageId : Int) (mergedSaltSet updatedSaltSet : List DatacenterSaltInfo) :
    List DatacenterSaltInfo :=
  updatedSaltSet.foldl
    (fun mergedSaltSet saltInfo =>
      let alreadyExists :=
        mergedSaltSet.any (·.firstValidMessageId == saltInfo.firstValidMessageId)
      if !alreadyExists && saltInfo.isValidFutureSaltForMessageId referenceMessageId then
        mergedSaltSet ++ [saltInfo]
      else mergedSaltSet)
    mergedSaltSet

/-- `mergeSaltSet:forTimestamp:`, with the message id of the timestamp. -/
def mergeAt (saltSet updatedSaltSet : List DatacenterSaltInfo) (referenceMessageId : Int) :
    List DatacenterSaltInfo :=
  addSalts referenceMessageId
    (saltSet.filter (·.isValidFutureSaltForMessageId referenceMessageId)) updatedSaltSet

/-- `mergeSaltSet:forTimestamp:`. -/
def mergeSaltSet (saltSet updatedSaltSet : List DatacenterSaltInfo) (timestamp : Rat) :
    List DatacenterSaltInfo :=
  mergeAt saltSet updatedSaltSet (truncate (timestamp * 4294967296))

/-- An entry is valid for an id in its range. -/
def Valid (saltInfo : DatacenterSaltInfo) (messageId : Int) : Prop :=
  saltInfo.firstValidMessageId ≤ messageId ∧ messageId < saltInfo.lastValidMessageId

instance (saltInfo : DatacenterSaltInfo) (messageId : Int) :
    Decidable (Valid saltInfo messageId) :=
  inferInstanceAs (Decidable (_ ∧ _))

/-- The salt of a valid entry with the greatest remaining validity. -/
def IsBestSalt (saltSet : List DatacenterSaltInfo) (messageId salt : Int) : Prop :=
  ∃ best ∈ saltSet, Valid best messageId ∧ best.salt = salt ∧
    ∀ other ∈ saltSet, Valid other messageId →
      other.lastValidMessageId - messageId ≤ best.lastValidMessageId - messageId

instance (saltSet : List DatacenterSaltInfo) (messageId salt : Int) :
    Decidable (IsBestSalt saltSet messageId salt) :=
  inferInstanceAs (Decidable (∃ best ∈ saltSet, _ ∧ _ ∧ ∀ other ∈ saltSet, _ → _))

/-- What is to be selected: zero is for the case that no entry is valid. -/
structure Selects (saltSet : List DatacenterSaltInfo) (messageId salt : Int) : Prop where
  best : (∃ saltInfo ∈ saltSet, Valid saltInfo messageId) → IsBestSalt saltSet messageId salt
  zero : salt = 0 ↔ ∀ saltInfo ∈ saltSet, ¬ Valid saltInfo messageId

/-- The last entry with a count. -/
def lastCounted (saltSet : List DatacenterSaltInfo) (messageId : Int) :
    Option DatacenterSaltInfo :=
  saltSet.reverse.find? fun saltInfo => saltInfo.validMessageCountAfterId messageId != 0

/-- The last entry that counts has the salt of a best one, and this is not zero; or no entry
is valid, and none counts with another salt than zero. -/
def LastIsBest (saltSet : List DatacenterSaltInfo) (messageId : Int) : Prop :=
  match lastCounted saltSet messageId with
  | none => ∀ saltInfo ∈ saltSet, ¬ Valid saltInfo messageId
  | some last =>
    if last.salt = 0 then ∀ saltInfo ∈ saltSet, ¬ Valid saltInfo messageId
    else IsBestSalt saltSet messageId last.salt

instance (saltSet : List DatacenterSaltInfo) (messageId : Int) :
    Decidable (LastIsBest saltSet messageId) := by
  unfold LastIsBest
  cases lastCounted saltSet messageId <;> infer_instance

theorem validMessageCountAfterId_nonneg (saltInfo : DatacenterSaltInfo) (messageId : Int) :
    0 ≤ saltInfo.validMessageCountAfterId messageId := by
  unfold DatacenterSaltInfo.validMessageCountAfterId
  split
  · exact Int.le_refl 0
  · exact Int.le_max_left 0 _

/-- The loop ends with the last entry that counts. -/
theorem authSaltForMessageId_eq (saltSet : List DatacenterSaltInfo) (messageId : Int) :
    authSaltForMessageId saltSet messageId =
      ((lastCounted saltSet messageId).map (·.salt)).getD 0 := by
  unfold authSaltForMessageId lastCounted
  induction saltSet using List.reverseRecOn with
  | nil => rfl
  | append_singleton saltSet saltInfo ih =>
    have hnonneg := validMessageCountAfterId_nonneg saltInfo messageId
    rw [List.foldl_append, List.foldl_cons, List.foldl_nil, ih, List.reverse_append,
      List.reverse_singleton, List.singleton_append, List.find?_cons]
    by_cases hzero : saltInfo.validMessageCountAfterId messageId = 0
    · simp [hzero]
    · grind

theorem IsBestSalt.valid {saltSet : List DatacenterSaltInfo} {messageId salt : Int}
    (h : IsBestSalt saltSet messageId salt) :
    ¬ ∀ saltInfo ∈ saltSet, ¬ Valid saltInfo messageId := by
  obtain ⟨best, hbest, hvalid, _⟩ := h
  exact fun hnone => hnone best hbest hvalid

/-- The selection is right exactly when the last entry that counts is a best one. -/
theorem selects_iff (saltSet : List DatacenterSaltInfo) (messageId : Int) :
    Selects saltSet messageId (authSaltForMessageId saltSet messageId) ↔
      LastIsBest saltSet messageId := by
  have hzero : (∀ saltInfo ∈ saltSet, ¬ Valid saltInfo messageId) ↔
      Selects saltSet messageId 0 := by
    constructor
    · intro hnone
      refine ⟨fun hsome => ?_, fun _ => hnone, fun _ => rfl⟩
      obtain ⟨saltInfo, hmem, hvalid⟩ := hsome
      exact absurd hvalid (hnone saltInfo hmem)
    · exact fun h => h.zero.1 rfl
  rw [authSaltForMessageId_eq]
  unfold LastIsBest
  cases lastCounted saltSet messageId with
  | none => exact hzero.symm
  | some last =>
    dsimp only [Option.map_some, Option.getD_some]
    split
    · grind
    · rename_i hsalt
      constructor
      · intro h
        apply h.best
        by_contra hnone
        exact hsalt (h.zero.2 fun saltInfo hmem hvalid => hnone ⟨saltInfo, hmem, hvalid⟩)
      · exact fun hbest => ⟨fun _ => hbest, fun h => absurd h hsalt,
          fun hnone => absurd hnone hbest.valid⟩

/-- The starts of the entries are distinct. -/
def DistinctStarts (saltSet : List DatacenterSaltInfo) : Prop :=
  (saltSet.map (·.firstValidMessageId)).Nodup

instance (saltSet : List DatacenterSaltInfo) : Decidable (DistinctStarts saltSet) :=
  inferInstanceAs (Decidable (List.Nodup _))

theorem addSalts_distinct (referenceMessageId : Int) (updated : List DatacenterSaltInfo) :
    ∀ {merged : List DatacenterSaltInfo}, DistinctStarts merged →
      DistinctStarts (addSalts referenceMessageId merged updated) := by
  induction updated with
  | nil => exact id
  | cons saltInfo updated ih =>
    intro merged h
    rw [addSalts, List.foldl_cons]
    apply ih
    dsimp only
    split
    · grind [DistinctStarts]
    · exact h

/-- An entry of the updated salts is new if it is still valid, and neither the merged entries
nor those before it that are still valid have its start. -/
def IsNew (referenceMessageId : Int) (merged updated : List DatacenterSaltInfo)
    (saltInfo : DatacenterSaltInfo) : Prop :=
  ∃ before after, updated = before ++ saltInfo :: after ∧
    saltInfo.isValidFutureSaltForMessageId referenceMessageId = true ∧
    (∀ existing ∈ merged, existing.firstValidMessageId ≠ saltInfo.firstValidMessageId) ∧
    ∀ earlier ∈ before, earlier.isValidFutureSaltForMessageId referenceMessageId = true →
      earlier.firstValidMessageId ≠ saltInfo.firstValidMessageId

variable {referenceMessageId : Int}

/-- The first of the updated salts is new, or one of the others is. -/
theorem isNew_cons {merged updated : List DatacenterSaltInfo}
    {first saltInfo : DatacenterSaltInfo} :
    IsNew referenceMessageId merged (first :: updated) saltInfo ↔
      (saltInfo = first ∧ first.isValidFutureSaltForMessageId referenceMessageId = true ∧
          ∀ existing ∈ merged, existing.firstValidMessageId ≠ first.firstValidMessageId) ∨
        ((first.isValidFutureSaltForMessageId referenceMessageId = true →
            first.firstValidMessageId ≠ saltInfo.firstValidMessageId) ∧
          IsNew referenceMessageId merged updated saltInfo) := by
  constructor
  · rintro ⟨before, after, hsplit, hvalid, hmerged, hbefore⟩
    cases before with
    | nil =>
      cases hsplit
      exact .inl ⟨rfl, hvalid, hmerged⟩
    | cons x before =>
      cases hsplit
      exact .inr ⟨hbefore _ (.head _), before, after, rfl, hvalid, hmerged,
        fun earlier hearlier => hbefore earlier (.tail _ hearlier)⟩
  · rintro (⟨rfl, hvalid, hmerged⟩ | ⟨hfirst, before, after, rfl, hvalid, hmerged, hbefore⟩)
    · exact ⟨[], updated, rfl, hvalid, hmerged, fun _ hnil => by cases hnil⟩
    · refine ⟨first :: before, after, rfl, hvalid, hmerged, fun earlier hearlier => ?_⟩
      rcases List.mem_cons.1 hearlier with rfl | hearlier
      · exact hfirst
      · exact hbefore earlier hearlier

theorem isNew_append {merged updated : List DatacenterSaltInfo}
    {first saltInfo : DatacenterSaltInfo} :
    IsNew referenceMessageId (merged ++ [first]) updated saltInfo ↔
      first.firstValidMessageId ≠ saltInfo.firstValidMessageId ∧
        IsNew referenceMessageId merged updated saltInfo := by
  unfold IsNew
  simp only [List.mem_append, List.mem_singleton, or_imp, forall_and, forall_eq]
  tauto

theorem mem_addSalts (updated : List DatacenterSaltInfo) :
    ∀ {merged : List DatacenterSaltInfo} {saltInfo : DatacenterSaltInfo},
      saltInfo ∈ addSalts referenceMessageId merged updated ↔
        saltInfo ∈ merged ∨ IsNew referenceMessageId merged updated saltInfo := by
  induction updated with
  | nil =>
    intro merged saltInfo
    have hnone : ¬ IsNew referenceMessageId merged [] saltInfo := by
      rintro ⟨before, after, hsplit, _⟩
      simp at hsplit
    simp [addSalts, hnone]
  | cons first updated ih =>
    intro merged saltInfo
    rw [addSalts, List.foldl_cons, ← addSalts, ih, isNew_cons]
    dsimp only
    split
    · grind [isNew_append]
    · rename_i hstays
      simp only [Bool.and_eq_true, Bool.not_eq_true', List.any_eq_false, beq_iff_eq] at hstays
      have hpresent : first.isValidFutureSaltForMessageId referenceMessageId = true →
          ∃ existing ∈ merged, existing.firstValidMessageId = first.firstValidMessageId := by
        intro hvalid
        by_contra hnone
        exact hstays ⟨fun x hx hsame => hnone ⟨x, hx, hsame⟩, hvalid⟩
      constructor
      · intro h
        rcases h with h | h
        · exact .inl h
        · refine .inr (.inr ⟨fun hvalid hsame => ?_, h⟩)
          obtain ⟨existing, hexisting, hstart⟩ := hpresent hvalid
          obtain ⟨_, _, _, _, hmerged, _⟩ := h
          exact hmerged existing hexisting (hstart.trans hsame)
      · grind

/-- The entries that are still valid. -/
def stillValid (saltSet : List DatacenterSaltInfo) (referenceMessageId : Int) :
    List DatacenterSaltInfo :=
  saltSet.filter (·.isValidFutureSaltForMessageId referenceMessageId)

theorem mergeSaltSet_distinct {saltSet : List DatacenterSaltInfo} (h : DistinctStarts saltSet)
    (updated : List DatacenterSaltInfo) (timestamp : Rat) :
    DistinctStarts (mergeSaltSet saltSet updated timestamp) :=
  addSalts_distinct _ updated (h.sublist (List.filter_sublist.map _))

/-- The selection is right exactly when the last entry that counts is a best one.  Merges
keep the starts distinct, and hold the entries that are still valid, old and new. -/
theorem salts_exact (saltSet : List DatacenterSaltInfo) (messageId : Int)
    (calls : List (List DatacenterSaltInfo × Rat)) (updated : List DatacenterSaltInfo)
    (timestamp : Rat) (saltInfo : DatacenterSaltInfo) :
    (Selects saltSet messageId (authSaltForMessageId saltSet messageId) ↔
        LastIsBest saltSet messageId) ∧
      (DistinctStarts saltSet →
        DistinctStarts (run (fun saltSet call => mergeSaltSet saltSet call.1 call.2) saltSet
          calls)) ∧
      (saltInfo ∈ mergeSaltSet saltSet updated timestamp ↔
        saltInfo ∈ stillValid saltSet (truncate (timestamp * 4294967296)) ∨
          IsNew (truncate (timestamp * 4294967296))
            (stillValid saltSet (truncate (timestamp * 4294967296))) updated saltInfo) := by
  refine ⟨selects_iff saltSet messageId, fun h => ?_, mem_addSalts updated⟩
  have hstep : ∀ saltSet (call : List DatacenterSaltInfo × Rat), DistinctStarts saltSet →
      DistinctStarts (mergeSaltSet saltSet call.1 call.2) :=
    fun _ call h => mergeSaltSet_distinct h call.1 call.2
  exact run_invariant hstep calls saltSet h

/-- A new salt that starts when an old one ends. -/
theorem merged_salts :
    Selects [⟨1, 0, 50⟩, ⟨2, 10, 100⟩] 20 (authSaltForMessageId [⟨1, 0, 50⟩, ⟨2, 10, 100⟩] 20) ∧
      DistinctStarts (run (fun saltSet call => mergeSaltSet saltSet call.1 call.2) [⟨1, 0, 50⟩]
        [([⟨2, 10, 100⟩], 0)]) :=
  ⟨(salts_exact _ 20 [] [] 0 ⟨1, 0, 50⟩).1.2 (by decide +kernel),
    (salts_exact [⟨1, 0, 50⟩] 20 [([⟨2, 10, 100⟩], 0)] [] 0 ⟨1, 0, 50⟩).2.1 (by decide +kernel)⟩

/-- Two salts are valid, and the one that ends first is chosen. -/
theorem shorter_salt_selected :
    ¬ Selects [⟨1, 0, 100⟩, ⟨2, 0, 50⟩] 10
      (authSaltForMessageId [⟨1, 0, 100⟩, ⟨2, 0, 50⟩] 10) :=
  fun h => absurd (h.best (by decide +kernel)) (by decide +kernel)

end TelegramPub.Ports.AuthSalts
