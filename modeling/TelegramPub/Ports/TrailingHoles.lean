import TelegramPub.Ports.ChannelHoles
import TelegramPub.Verified.Descents

/-!
# TGDatabase: the holes below the messages of a long difference

When the difference of a channel is too long, the server sends the newest messages only.
`addTrailingHoleToChannelAndDispatch` drops those that are not newer than the newest
stored one and forms a hole below each of the others: down to the next message of the
list, and below the last one down to the newest stored message.

The holes are right for a list from the newest message to the oldest.  The code sorts
the list, in the other direction, and drops the sorted copy, so that the order is the
sender's.
-/

namespace TelegramPub.Ports.TrailingHoles

open Verified.Descents Ports.ChannelHoles

/-! ## The stored messages -/

/-- The end of a `TGMessageSortKey`; the first parts are the same for a whole channel. -/
structure SortKey where
  timestamp : Int32
  mid : Int32
  deriving DecidableEq

/-- A row of the messages of a channel, stored under the key of its own message. -/
structure Row where
  mid : Int32
  sortKey : SortKey
  keyed : sortKey.mid = mid
  deriving DecidableEq

/-- `TGMessageLocalMidBaseline`: ids from here on are those of messages being sent. -/
def localMidBaseline : Int32 := 800000000

/-- `TGMessageSortKeyLowerBound`. -/
def sortKeyLowerBound : SortKey := ⟨0, 0⟩

/-- `WHERE mid<=? ORDER BY mid DESC LIMIT 1`.  The comparison with the key of a group is
commented out in the source down to a comparison of the key with itself. -/
def knownChannelEarlierMessageSortKey (rows : List Row) (maxId : Int32) : SortKey :=
  match (rows.filter (·.mid ≤ maxId)).maxOn? (·.mid.toInt) with
  | some row => row.sortKey
  | none => sortKeyLowerBound

/-- A `TGMessage` of the difference. -/
structure Message where
  mid : Int32
  date : Int32
  deriving DecidableEq

/-- The body of the loop: the hole below a message. -/
def holeBelow (earlierSortKey : SortKey) (message : Message) : Option Message → Option Hole
  | none =>
    if message.mid - 1 ≥ earlierSortKey.mid + 1 then
      some
        { minId := (earlierSortKey.mid + 1).toInt
          minTimestamp := (earlierSortKey.timestamp + 1).toInt
          maxId := (message.mid - 1).toInt
          maxTimestamp := message.date.toInt }
    else none
  | some earlierMessage =>
    if earlierMessage.mid ≠ message.mid - 1 ∧ message.mid - 1 ≥ earlierMessage.mid + 1 then
      some
        { minId := (earlierMessage.mid + 1).toInt
          minTimestamp := (earlierMessage.date + 1).toInt
          maxId := (message.mid - 1).toInt
          maxTimestamp := message.date.toInt }
    else none

/-- The loop; the earlier message is the next one of the list. -/
def holesBelow (earlierSortKey : SortKey) : List Message → List Hole
  | [] => []
  | message :: messages =>
    (holeBelow earlierSortKey message messages.head?).toList ++ holesBelow earlierSortKey messages

/-- The holes that `addTrailingHoleToChannelAndDispatch` hands on to be added.  The sorted copy
of the messages is not used. -/
def trailingHoles (rows : List Row) (messages : List Message) : List Hole :=
  let earlierSortKey := knownChannelEarlierMessageSortKey rows (localMidBaseline - 1)
  let filteredMessages := messages.filter (·.mid > earlierSortKey.mid)
  holesBelow earlierSortKey filteredMessages

/-! ## What the holes should be -/

/-- The newest stored message that the server knows of, or 0. -/
def NewestKnown (rows : List Row) (known : Int32) : Prop :=
  (∃ row ∈ rows, row.mid = known ∧ known < localMidBaseline ∧
    ∀ row ∈ rows, row.mid < localMidBaseline → row.mid ≤ known) ∨
  (∀ row ∈ rows, ¬row.mid < localMidBaseline) ∧ known = 0

/-- The ids above the newest known one and below the newest received one that no received
message has. -/
def missing (known : Int32) (messages : List Message) : Set Int :=
  {id | known.toInt < id ∧ (∃ m ∈ messages, id < m.mid.toInt) ∧ ∀ m ∈ messages, m.mid.toInt ≠ id}

/-- The holes are disjoint, not empty, and cover what is missing. -/
structure Exact (known : Int32) (messages : List Message) (holes : List Hole) : Prop where
  wellFormed : WellFormed holes
  cover : cover holes = missing known messages

/-- The ids of the received messages above the newest known one, in the order received. -/
def newerIds (known : Int32) (messages : List Message) : List Int :=
  (messages.filter (·.mid > known)).map (·.mid.toInt)

/-- A step down with an id between its ends. -/
def Wide (s : Int × Int) : Prop := s.2 + 1 < s.1

instance : DecidablePred Wide := fun s => inferInstanceAs (Decidable (s.2 + 1 < s.1))

/-- From each newer id to the next and from the last to the newest known one: no newer id
is stepped over, no two steps over missing ids end at the same id, and the greatest
`int32_t` is at most the first. -/
structure Straight (known : Int32) (messages : List Message) : Prop where
  clear : Clear (newerIds known messages) known.toInt
  once : (((steps (newerIds known messages) known.toInt).filter Wide).map Prod.snd).Nodup
  below : ∀ id ∈ (newerIds known messages).tail, id ≠ Int32.maxValue.toInt

/-! ## The newest known message -/

theorem lt_localMidBaseline_iff {mid : Int32} :
    mid < localMidBaseline ↔ mid ≤ localMidBaseline - 1 := by
  rw [Int32.lt_iff_toInt_lt, Int32.le_iff_toInt_le]
  have hbase : localMidBaseline.toInt = 800000000 := by decide
  have hpred : (localMidBaseline - 1).toInt = 799999999 := by decide
  omega

/-- The query finds the newest known message. -/
theorem newestKnown_knownChannelEarlierMessageSortKey (rows : List Row) :
    NewestKnown rows (knownChannelEarlierMessageSortKey rows (localMidBaseline - 1)).mid := by
  unfold knownChannelEarlierMessageSortKey
  cases hmax : (rows.filter (·.mid ≤ localMidBaseline - 1)).maxOn? (·.mid.toInt) with
  | none =>
    refine .inr ⟨fun row hrow hlt => ?_, rfl⟩
    have hmem : row ∈ rows.filter (·.mid ≤ localMidBaseline - 1) := by
      simpa using ⟨hrow, lt_localMidBaseline_iff.1 hlt⟩
    have hsome := List.isSome_maxOn?_of_mem (f := fun r : Row => r.mid.toInt) hmem
    rw [hmax] at hsome
    cases hsome
  | some row =>
    have hmem := List.maxOn?_mem hmax
    simp only [List.mem_filter, decide_eq_true_eq] at hmem
    refine .inl ⟨row, hmem.1, row.keyed.symm, ?_, fun other hother hlt => ?_⟩
    · exact row.keyed ▸ lt_localMidBaseline_iff.2 hmem.2
    · dsimp only
      rw [row.keyed, Int32.le_iff_toInt_le]
      have hother : other ∈ rows.filter (·.mid ≤ localMidBaseline - 1) := by
        simpa using ⟨hother, lt_localMidBaseline_iff.1 hlt⟩
      simpa [hmax] using List.le_apply_get_maxOn?_of_mem (f := fun r : Row => r.mid.toInt) hother

theorem NewestKnown.eq {rows : List Row} {known known' : Int32} (h : NewestKnown rows known)
    (h' : NewestKnown rows known') : known = known' := by
  rcases h with ⟨row, hrow, hmid, hlt, hle⟩ | ⟨hnone, hzero⟩
  · rcases h' with ⟨row', hrow', hmid', hlt', hle'⟩ | ⟨hnone', _⟩
    · grind
    · exact absurd (hmid ▸ hlt) (hnone' row hrow)
  · rcases h' with ⟨row', hrow', hmid', hlt', _⟩ | ⟨_, hzero'⟩
    · exact absurd (hmid' ▸ hlt') (hnone row' hrow')
    · rw [hzero, hzero']

/-! ## The holes as steps -/

/-- The ends of a hole. -/
def ends (h : Hole) : Int × Int := (h.minId, h.maxId)

theorem toInt_pred {a b : Int32} (h : b < a) : (a - 1).toInt = a.toInt - 1 := by
  have hlow := b.le_toInt
  have hhigh := a.toInt_lt
  rw [Int32.lt_iff_toInt_lt] at h
  rw [Int32.toInt_sub, show (1 : Int32).toInt = 1 from rfl]
  exact Int.bmod_eq_of_le (by omega) (by omega)

theorem toInt_succ {a : Int32} (h : a.toInt ≠ Int32.maxValue.toInt) :
    (a + 1).toInt = a.toInt + 1 := by
  have hlow := a.le_toInt
  have hhigh := a.toInt_lt
  have hmax : Int32.maxValue.toInt = 2147483647 := by decide
  rw [Int32.toInt_add, show (1 : Int32).toInt = 1 from rfl]
  exact Int.bmod_eq_of_le (by omega) (by omega)

theorem NewestKnown.ne_maxValue {rows : List Row} {known : Int32} (h : NewestKnown rows known) :
    known.toInt ≠ Int32.maxValue.toInt := by
  have hmax : Int32.maxValue.toInt = 2147483647 := by decide
  rcases h with ⟨_, _, _, hlt, _⟩ | ⟨_, hzero⟩
  · rw [Int32.lt_iff_toInt_lt, show localMidBaseline.toInt = 800000000 by decide] at hlt
    omega
  · rw [hzero]
    decide

variable {earlierSortKey : SortKey} {message : Message}

/-- What a wide step passes, as the ends of a hole. -/
def passedEnds (s : Int × Int) : Int × Int := (s.2 + 1, s.1 - 1)

theorem map_ends_ite {p : Prop} [Decidable p] {h : Hole} {s : Int × Int} (hp : p ↔ Wide s)
    (hends : ends h = passedEnds s) :
    (if p then some h else none).map ends = if Wide s then some (passedEnds s) else none := by
  by_cases hwide : Wide s
  · rw [if_pos hwide, if_pos (hp.2 hwide), Option.map_some, hends]
  · rw [if_neg hwide, if_neg (hp.not.2 hwide), Option.map_none]

/-- The hole below the last message is what the step to the newest known id passes. -/
theorem ends_holeBelow_none (hnewer : earlierSortKey.mid < message.mid)
    (hknown : earlierSortKey.mid.toInt ≠ Int32.maxValue.toInt) :
    (holeBelow earlierSortKey message none).map ends =
      if Wide (message.mid.toInt, earlierSortKey.mid.toInt) then
        some (passedEnds (message.mid.toInt, earlierSortKey.mid.toInt))
      else none := by
  simp only [holeBelow, ge_iff_le, Int32.le_iff_toInt_le, toInt_pred hnewer, toInt_succ hknown]
  exact map_ends_ite (by unfold Wide; omega) rfl

/-- The hole below another message is what the step to the next id passes. -/
theorem ends_holeBelow_some (hnewer : earlierSortKey.mid < message.mid) {earlierMessage : Message}
    (hearlier : earlierMessage.mid.toInt ≠ Int32.maxValue.toInt) :
    (holeBelow earlierSortKey message (some earlierMessage)).map ends =
      if Wide (message.mid.toInt, earlierMessage.mid.toInt) then
        some (passedEnds (message.mid.toInt, earlierMessage.mid.toInt))
      else none := by
  have hne : earlierMessage.mid ≠ message.mid - 1 ↔
      earlierMessage.mid.toInt ≠ message.mid.toInt - 1 := by
    rw [ne_eq, ← Int32.toInt_inj, toInt_pred hnewer]
  simp only [holeBelow, ge_iff_le, Int32.le_iff_toInt_le, hne, toInt_pred hnewer,
    toInt_succ hearlier]
  exact map_ends_ite (by unfold Wide; omega) rfl

theorem ends_holesBelow (hknown : earlierSortKey.mid.toInt ≠ Int32.maxValue.toInt)
    {messages : List Message} (hnewer : ∀ m ∈ messages, earlierSortKey.mid < m.mid)
    (hbelow : ∀ m ∈ messages.tail, m.mid.toInt ≠ Int32.maxValue.toInt) :
    (holesBelow earlierSortKey messages).map ends =
      ((steps (messages.map (·.mid.toInt)) earlierSortKey.mid.toInt).filter Wide).map
        passedEnds := by
  induction messages with
  | nil => rfl
  | cons m ms ih =>
    have hrest := ih (fun k hk => hnewer k (.tail _ hk))
      fun k hk => hbelow k (List.mem_of_mem_tail hk)
    have hm := hnewer m (.head _)
    have hfirst : (holeBelow earlierSortKey m ms.head?).map ends =
        if Wide (m.mid.toInt, (ms.map (·.mid.toInt)).headD earlierSortKey.mid.toInt) then
          some (passedEnds (m.mid.toInt, (ms.map (·.mid.toInt)).headD earlierSortKey.mid.toInt))
        else none := by
      cases ms with
      | nil => exact ends_holeBelow_none hm hknown
      | cons k ks => exact ends_holeBelow_some hm (hbelow k (.head _))
    simp only [holesBelow, List.map_append, hrest, List.map_cons, steps, List.filter_cons,
      ← Option.toList_map, hfirst]
    generalize (ms.map (·.mid.toInt)).headD earlierSortKey.mid.toInt = lower
    by_cases hwide : Wide (m.mid.toInt, lower)
    · simp [hwide]
    · simp [hwide]

/-- Above the greatest `int32_t` the ids start again from the smallest. -/
theorem holeBelow_of_maxValue (hnewer : earlierSortKey.mid < message.mid)
    {earlierMessage : Message} (hmax : earlierMessage.mid.toInt = Int32.maxValue.toInt) :
    ∃ h, holeBelow earlierSortKey message (some earlierMessage) = some h ∧
      h.minId = Int32.minValue.toInt ∧ h.minId ≤ h.maxId := by
  have hwrap : earlierMessage.mid + 1 = Int32.minValue := by
    rw [Int32.toInt_inj.1 hmax]
    rfl
  have hne : earlierMessage.mid ≠ message.mid - 1 := by
    grind
  have hle : message.mid - 1 ≥ earlierMessage.mid + 1 := hwrap ▸ Int32.minValue_le _
  have hends : (earlierMessage.mid + 1).toInt ≤ (message.mid - 1).toInt :=
    Int32.le_iff_toInt_le.1 hle
  simp only [holeBelow, if_pos (And.intro hne hle), Option.some.injEq, exists_eq_left']
  exact ⟨congrArg Int32.toInt hwrap, hends⟩

/-- A later id that is the greatest `int32_t` gives a hole that starts at the smallest. -/
theorem minValue_of_maxValue {messages : List Message}
    (hnewer : ∀ m ∈ messages, earlierSortKey.mid < m.mid)
    (hmax : ∃ m ∈ messages.tail, m.mid.toInt = Int32.maxValue.toInt) :
    ∃ h ∈ holesBelow earlierSortKey messages,
      h.minId = Int32.minValue.toInt ∧ h.minId ≤ h.maxId := by
  induction messages with
  | nil =>
    obtain ⟨_, hmem, _⟩ := hmax
    cases hmem
  | cons m ms ih =>
    obtain ⟨k, hk, hkmax⟩ := hmax
    cases ms with
    | nil => cases hk
    | cons next ms =>
      by_cases hnext : next.mid.toInt = Int32.maxValue.toInt
      · obtain ⟨h, hh, hends⟩ := holeBelow_of_maxValue (hnewer m (.head _)) hnext
        exact ⟨h, List.mem_append_left _ (Option.mem_toList.2 hh), hends⟩
      · have hlater : k ∈ ms := by
          rcases List.mem_cons.1 hk with heq | hk
          · exact absurd (heq ▸ hkmax) hnext
          · exact hk
        obtain ⟨h, hh, hends⟩ :=
          ih (fun n hn => hnewer n (.tail _ hn)) ⟨k, hlater, hkmax⟩
        exact ⟨h, List.mem_append_right _ hh, hends⟩

section Steps

variable {known : Int32} {messages : List Message} {holes : List Hole}

theorem mem_newerIds {id : Int} :
    id ∈ newerIds known messages ↔ known.toInt < id ∧ ∃ m ∈ messages, m.mid.toInt = id := by
  simp only [newerIds, gt_iff_lt, Int32.lt_iff_toInt_lt, List.mem_map, List.mem_filter,
    decide_eq_true_eq]
  constructor
  · rintro ⟨m, ⟨hm, hlt⟩, rfl⟩
    exact ⟨hlt, m, hm, rfl⟩
  · rintro ⟨hlt, m, hm, rfl⟩
    exact ⟨m, ⟨hm, hlt⟩, rfl⟩

theorem mem_missing {id : Int} :
    id ∈ missing known messages ↔ known.toInt < id ∧ id ∉ newerIds known messages ∧
      ∃ newer ∈ newerIds known messages, id < newer := by
  simp only [missing, Set.mem_ofPred_eq, mem_newerIds]
  constructor
  · rintro ⟨hlow, ⟨m, hm, hlt⟩, hnone⟩
    exact ⟨hlow, fun ⟨_, k, hk, heq⟩ => hnone k hk heq, m.mid.toInt, ⟨by omega, m, hm, rfl⟩, hlt⟩
  · rintro ⟨hlow, hnot, _, ⟨_, m, hm, rfl⟩, hlt⟩
    exact ⟨hlow, ⟨m, hm, hlt⟩, fun k hk heq => hnot ⟨hlow, k, hk, heq⟩⟩

/-- The ends of the holes are those of the wide steps. -/
def AreSteps (known : Int32) (messages : List Message) (holes : List Hole) : Prop :=
  holes.map ends =
    ((steps (newerIds known messages) known.toInt).filter Wide).map passedEnds

theorem AreSteps.exists_step (h : AreSteps known messages holes) {hole : Hole}
    (hmem : hole ∈ holes) :
    ∃ s ∈ steps (newerIds known messages) known.toInt,
      Wide s ∧ hole.minId = s.2 + 1 ∧ hole.maxId = s.1 - 1 := by
  have hends : ends hole ∈ holes.map ends := List.mem_map_of_mem hmem
  rw [h] at hends
  obtain ⟨s, hs, heq⟩ := List.mem_map.1 hends
  simp only [List.mem_filter, decide_eq_true_eq] at hs
  exact ⟨s, hs.1, hs.2, (congrArg Prod.fst heq).symm, (congrArg Prod.snd heq).symm⟩

theorem AreSteps.exists_hole (h : AreSteps known messages holes) {s : Int × Int}
    (hs : s ∈ steps (newerIds known messages) known.toInt) (hwide : Wide s) :
    ∃ hole ∈ holes, hole.minId = s.2 + 1 ∧ hole.maxId = s.1 - 1 := by
  have hends : passedEnds s ∈ holes.map ends := by
    rw [h]
    exact List.mem_map_of_mem (by simp [hs, hwide])
  obtain ⟨hole, hhole, heq⟩ := List.mem_map.1 hends
  exact ⟨hole, hhole, congrArg Prod.fst heq, congrArg Prod.snd heq⟩

/-- The holes cover what the steps pass. -/
theorem AreSteps.mem_cover (h : AreSteps known messages holes) {id : Int} :
    id ∈ cover holes ↔ ∃ s ∈ steps (newerIds known messages) known.toInt, id ∈ passed s := by
  constructor
  · rintro ⟨hole, hhole, hlow, hhigh⟩
    obtain ⟨s, hs, _, hmin, hmax⟩ := h.exists_step hhole
    exact ⟨s, hs, by omega, by omega⟩
  · rintro ⟨s, hs, hlow, hhigh⟩
    have hwide : Wide s := by
      unfold Wide
      omega
    obtain ⟨hole, hhole, hmin, hmax⟩ := h.exists_hole hs hwide
    exact ⟨hole, hhole, by omega, by omega⟩

/-- Two holes are apart when the steps end at different ids, and only then. -/
theorem AreSteps.apart_iff (h : AreSteps known messages holes)
    (hclear : Clear (newerIds known messages) known.toInt) :
    holes.Pairwise Hole.Apart ↔
      (((steps (newerIds known messages) known.toInt).filter Wide).map Prod.snd).Nodup := by
  have hbottom : ∀ id ∈ newerIds known messages, known.toInt < id := fun id hid =>
    (mem_newerIds.1 hid).1
  have hpairs : holes.Pairwise Hole.Apart ↔
      (holes.map ends).Pairwise fun a b => a.2 < b.1 ∨ b.2 < a.1 := by
    rw [List.pairwise_map]
    rfl
  rw [hpairs, h, List.pairwise_map, List.Nodup, List.pairwise_map]
  refine List.Pairwise.iff_of_mem fun {s t} hs ht => ?_
  simp only [List.mem_filter, decide_eq_true_eq] at hs ht
  have hswide : s.2 + 1 < s.1 := hs.2
  have htwide : t.2 + 1 < t.1 := ht.2
  simp only [passedEnds]
  constructor
  · intro hapart heq
    omega
  · intro hne
    rcases lt_or_gt_of_ne hne with hlt | hgt
    · have := apart_of_clear hclear hbottom hs.1 ht.1 hlt
      omega
    · have := apart_of_clear hclear hbottom ht.1 hs.1 hgt
      omega

theorem AreSteps.exact_iff (h : AreSteps known messages holes) :
    Exact known messages holes ↔ Clear (newerIds known messages) known.toInt ∧
      (((steps (newerIds known messages) known.toInt).filter Wide).map Prod.snd).Nodup := by
  have hbottom : ∀ id ∈ newerIds known messages, known.toInt < id := fun id hid =>
    (mem_newerIds.1 hid).1
  constructor
  · rintro ⟨hwf, hcover⟩
    have hclear : Clear (newerIds known messages) known.toInt := by
      intro s hs id hid hpassed
      have hmem : id ∈ cover holes := h.mem_cover.2 ⟨s, hs, hpassed⟩
      rw [hcover, mem_missing] at hmem
      exact hmem.2.1 hid
    exact ⟨hclear, (h.apart_iff hclear).1 hwf.apart⟩
  · rintro ⟨hclear, honce⟩
    refine ⟨⟨fun hole hhole => ?_, (h.apart_iff hclear).2 honce⟩, ?_⟩
    · obtain ⟨s, _, hwide, hmin, hmax⟩ := h.exists_step hhole
      have hlt : s.2 + 1 < s.1 := hwide
      omega
    · ext id
      rw [h.mem_cover, mem_missing]
      constructor
      · rintro ⟨s, hs, hlow, hhigh⟩
        have hstart := fst_mem hs
        have hend := bottom_le_snd hbottom hs
        refine ⟨by omega, fun hid => hclear s hs id hid ⟨hlow, hhigh⟩, s.1, hstart, hhigh⟩
      · rintro ⟨hlow, hnot, habove⟩
        exact exists_step_around hlow hnot habove

end Steps

/-- The holes are exact if and only if the steps of the received ids are clear, end at
different ids, and no id but the first is the greatest `int32_t`. -/
theorem trailing_holes (rows : List Row) (messages : List Message) (known : Int32)
    (hknown : NewestKnown rows known) :
    Exact known messages (trailingHoles rows messages) ↔ Straight known messages := by
  have hkey := (newestKnown_knownChannelEarlierMessageSortKey rows).eq hknown
  unfold trailingHoles
  generalize knownChannelEarlierMessageSortKey rows (localMidBaseline - 1) = earlierSortKey
    at hkey ⊢
  subst hkey
  have hnewer : ∀ m ∈ messages.filter (·.mid > earlierSortKey.mid), earlierSortKey.mid < m.mid := by
    intro m hm
    simpa using (List.mem_filter.1 hm).2
  have htail : (newerIds earlierSortKey.mid messages).tail =
      (messages.filter (·.mid > earlierSortKey.mid)).tail.map (·.mid.toInt) := List.map_tail.symm
  by_cases hbelow : ∀ id ∈ (newerIds earlierSortKey.mid messages).tail,
      id ≠ Int32.maxValue.toInt
  · have hsteps := ends_holesBelow hknown.ne_maxValue hnewer fun m hm =>
      hbelow _ (htail ▸ List.mem_map_of_mem hm)
    rw [AreSteps.exact_iff hsteps]
    exact ⟨fun ⟨hclear, honce⟩ => ⟨hclear, honce, hbelow⟩, fun h => ⟨h.clear, h.once⟩⟩
  · refine iff_of_false (fun hexact => ?_) fun h => hbelow h.below
    simp only [not_forall, ne_eq, not_not] at hbelow
    obtain ⟨id, hid, hmax⟩ := hbelow
    rw [htail] at hid
    obtain ⟨m, hm, hmid⟩ := List.mem_map.1 hid
    obtain ⟨hole, hhole, hmin, hle⟩ := minValue_of_maxValue hnewer ⟨m, hm, hmid.trans hmax⟩
    have hmem : hole.minId ∈ cover _ := ⟨hole, hhole, le_refl _, hle⟩
    rw [hexact.cover, mem_missing, hmin] at hmem
    have hlow := earlierSortKey.mid.minValue_le_toInt
    omega

/-- The newest message first, as the server sends a difference. -/
theorem trailing_holes_newest_first :
    Exact 4 [⟨9, 30⟩, ⟨7, 20⟩] (trailingHoles [⟨4, ⟨10, 4⟩, rfl⟩] [⟨9, 30⟩, ⟨7, 20⟩]) :=
  (trailing_holes _ _ 4 (.inl ⟨_, List.mem_singleton_self _, rfl, by decide, by decide⟩)).2
    ⟨by decide, by decide, by decide⟩

/-- The oldest message first: the hole covers it. -/
theorem trailing_holes_oldest_first :
    ∃ (rows : List Row) (messages : List Message) (known : Int32),
      NewestKnown rows known ∧ ¬Exact known messages (trailingHoles rows messages) := by
  refine ⟨[⟨4, ⟨10, 4⟩, rfl⟩], [⟨5, 20⟩, ⟨7, 30⟩], 4,
    .inl ⟨_, List.mem_singleton_self _, rfl, by decide, by decide⟩, fun hexact => ?_⟩
  have hholes : trailingHoles [⟨4, ⟨10, 4⟩, rfl⟩] [⟨5, 20⟩, ⟨7, 30⟩] = [⟨5, 11, 6, 30⟩] := by
    decide
  have hmem : (5 : Int) ∈ cover [⟨5, 11, 6, 30⟩] := by simp [cover]
  rw [← hholes, hexact.cover, mem_missing] at hmem
  exact hmem.2.1 (by decide)

end TelegramPub.Ports.TrailingHoles
