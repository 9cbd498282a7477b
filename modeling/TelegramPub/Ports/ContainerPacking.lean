import TelegramPub.Verified.ComparatorSort
import TelegramPub.Verified.Loop
import TelegramPub.Ports.TransportTransaction

/-!
# The loops that pack messages

`transportReadyForTransaction` sorts the prepared messages, takes those of high priority out of
the list while it runs over it, and then forms the containers with two loops that advance the
same index.  This module has the loops with their indices.  They are the functions of
`TransportTransaction` on lists (`moveHighPriority_eq`, `packContainers_eq`), so every message
is in one container, and with bodies that are not empty a container of two or more messages is
small enough and has one priority (`containers_packed`).
-/

namespace TelegramPub.Ports.ContainerPacking

open Verified.ComparatorSort Verified.Loop Ports.MessageTransaction Ports.TransportTransaction

/-- A loop that does not end, and an index that is out of range. -/
inductive Fault
  | endless
  | rangeException
  deriving DecidableEq

/-- The comparator of the prepared messages.  It calls equal ids descending. -/
def compareMessages (message1 message2 : PreparedMessage) : Ordering :=
  if message1.messageId < message2.messageId then .lt else .gt

/-! ## High priority first -/

/-- The loop that takes the messages of high priority out of the list. -/
structure Sorting where
  i : Nat := 0
  transactionMessageList : List PreparedMessage
  highPriorityMessages : List PreparedMessage := []

/-- A turn; the source takes the index back after a removal. -/
def sortingTurn (s : Sorting) : Except Fault (Sorting ⊕ Sorting) :=
  if s.i < s.transactionMessageList.length then
    match s.transactionMessageList[s.i]? with
    | none => .error .rangeException
    | some preparedMessage =>
      if preparedMessage.hasHighPriority then
        .ok (.inl
          { s with
            transactionMessageList := s.transactionMessageList.eraseIdx s.i
            highPriorityMessages := s.highPriorityMessages ++ [preparedMessage] })
      else .ok (.inl { s with i := s.i + 1 })
  else .ok (.inr s)

def moveHighPriority (messages : List PreparedMessage) : Except Fault (List PreparedMessage) :=
  (loop .endless sortingTurn (messages.length + 1)
    { transactionMessageList := messages }).map fun s =>
      if s.highPriorityMessages = [] then s.transactionMessageList
      else s.highPriorityMessages ++ s.transactionMessageList

/-- The list as it is packed. -/
def reorder (sorter : Sorter compareMessages) (forceConfirmations : Bool)
    (messages : List PreparedMessage) : Except Fault (List PreparedMessage) :=
  if messages.length = 0 ∨ messages.length = 1 then .ok messages
  else if forceConfirmations then .ok (sorter.sort messages)
  else moveHighPriority (sorter.sort messages)

/-- The inner loop. -/
structure Filling where
  i : Nat
  j : Nat
  currentlyProcessingHighPriority : Bool
  currentContainerMessages : List PreparedMessage := []
  currentContainerSize : Nat := 0

/-- `currentlyProcessingHighPriority` and `breakContainer` at a message. -/
def priorityBreak (forceConfirmations highPriority : Bool) (m : PreparedMessage) : Bool × Bool :=
  if !forceConfirmations then
    if m.hasHighPriority then (true, false)
    else if highPriority then (false, true)
    else (highPriority, false)
  else (highPriority, false)

def fillingTurn (transactionMessageList : List PreparedMessage) (forceConfirmations : Bool)
    (s : Filling) : Except Fault (Filling ⊕ Filling) :=
  if s.j < transactionMessageList.length then
    match transactionMessageList[s.j]? with
    | none => .error .rangeException
    | some preparedMessage =>
      let (currentlyProcessingHighPriority, breakContainer) :=
        priorityBreak forceConfirmations s.currentlyProcessingHighPriority preparedMessage
      let added :=
        { s with
          currentlyProcessingHighPriority
          currentContainerMessages := s.currentContainerMessages ++ [preparedMessage]
          currentContainerSize := s.currentContainerSize + preparedMessage.data.length
          i := s.i + 1 }
      if maxContainerSize < s.currentContainerSize + preparedMessage.data.length ∨
          (breakContainer = true ∧ s.currentContainerSize ≠ 0) then
        if s.currentContainerSize = 0 then .ok (.inr added)
        else .ok (.inr { s with currentlyProcessingHighPriority })
      else .ok (.inl { added with j := s.j + 1 })
  else .ok (.inr s)

/-- The outer loop. -/
structure Packing where
  i : Nat := 0
  currentlyProcessingHighPriority : Bool := false
  containers : List (List PreparedMessage) := []

def packingTurn (transactionMessageList : List PreparedMessage) (forceConfirmations : Bool)
    (s : Packing) : Except Fault (Packing ⊕ List (List PreparedMessage)) :=
  if s.i < transactionMessageList.length then
    match loop .endless (fillingTurn transactionMessageList forceConfirmations)
        (transactionMessageList.length + 1)
        { i := s.i, j := s.i,
          currentlyProcessingHighPriority := s.currentlyProcessingHighPriority } with
    | .error e => .error e
    | .ok filling =>
      .ok (.inl
        { i := filling.i
          currentlyProcessingHighPriority := filling.currentlyProcessingHighPriority
          containers :=
            if filling.currentContainerMessages.length ≠ 0 then
              s.containers ++ [filling.currentContainerMessages]
            else s.containers })
  else .ok (.inr s.containers)

/-- The groups of messages that are sent encrypted. -/
def packContainers (transactionMessageList : List PreparedMessage) (forceConfirmations : Bool) :
    Except Fault (List (List PreparedMessage)) :=
  loop .endless (packingTurn transactionMessageList forceConfirmations)
    (transactionMessageList.length + 1) {}

/-- The groups of a transaction, with the list they are formed of. -/
def containersOf (sorter : Sorter compareMessages) (forceConfirmations : Bool)
    (messages : List PreparedMessage) :
    Except Fault (List PreparedMessage × List (List PreparedMessage)) := do
  let ordered ← reorder sorter forceConfirmations messages
  let containers ← packContainers ordered forceConfirmations
  return (ordered, containers)

/-! ## The loops as functions on lists -/

theorem sorting_loop :
    ∀ (rest before high : List PreparedMessage) (fuel : Nat), rest.length < fuel →
      ∃ s, loop .endless sortingTurn fuel ⟨before.length, before ++ rest, high⟩ = .ok s ∧
        s.transactionMessageList = before ++ rest.filter (!·.hasHighPriority) ∧
        s.highPriorityMessages = high ++ rest.filter (·.hasHighPriority) := by
  intro rest
  induction rest with
  | nil =>
    intro before high fuel hfuel
    obtain ⟨fuel, rfl⟩ := Nat.exists_eq_add_of_lt hfuel
    exact ⟨⟨before.length, before ++ [], high⟩, by simp [loop, sortingTurn], by simp, by simp⟩
  | cons m rest ih =>
    intro before high fuel hfuel
    obtain ⟨fuel, rfl⟩ : ∃ k, fuel = k + 1 := ⟨fuel - 1, by omega⟩
    rw [List.length_cons] at hfuel
    have herase : (before ++ m :: rest).eraseIdx before.length = before ++ rest := by
      rw [List.eraseIdx_append_of_length_le (Nat.le_refl _), Nat.sub_self, List.eraseIdx_cons_zero]
    cases hpriority : m.hasHighPriority with
    | true =>
      obtain ⟨s, hs, hlist, hhigh⟩ := ih before (high ++ [m]) fuel (by omega)
      have hturn : sortingTurn ⟨before.length, before ++ m :: rest, high⟩ =
          .ok (.inl ⟨before.length, before ++ rest, high ++ [m]⟩) := by
        simp [sortingTurn, hpriority, herase]
      refine ⟨s, by rw [loop, hturn]; exact hs, ?_, ?_⟩
      · simp [hlist, hpriority]
      · simp [hhigh, hpriority]
    | false =>
      obtain ⟨s, hs, hlist, hhigh⟩ := ih (before ++ [m]) high fuel (by omega)
      rw [List.append_assoc, List.length_append] at hs
      have hturn : sortingTurn ⟨before.length, before ++ m :: rest, high⟩ =
          .ok (.inl ⟨before.length + 1, before ++ m :: rest, high⟩) := by
        simp [sortingTurn, hpriority]
      refine ⟨s, by rw [loop, hturn]; exact hs, ?_, ?_⟩
      · simp [hlist, hpriority]
      · simp [hhigh, hpriority]

/-- The messages of high priority come first, in their order. -/
theorem moveHighPriority_eq (messages : List PreparedMessage) :
    moveHighPriority messages =
      .ok (messages.filter (·.hasHighPriority) ++ messages.filter (!·.hasHighPriority)) := by
  obtain ⟨s, hs, hlist, hhigh⟩ := sorting_loop messages [] [] _ (Nat.lt_succ_self _)
  have hloop : loop .endless sortingTurn (messages.length + 1)
      { transactionMessageList := messages } = .ok s := hs
  simp only [List.nil_append] at hlist hhigh
  simp only [moveHighPriority, hloop, Except.map, hlist, hhigh]
  split
  · next hnone => rw [hnone, List.nil_append]
  · rfl

theorem priorityBreak_eq (forceConfirmations highPriority : Bool) (m : PreparedMessage) :
    priorityBreak forceConfirmations highPriority m =
      (if forceConfirmations then highPriority else m.hasHighPriority,
        !forceConfirmations && !m.hasHighPriority && highPriority) := by
  unfold priorityBreak
  cases forceConfirmations <;> cases m.hasHighPriority <;> cases highPriority <;> rfl

/-- The message does not go into the container any more. -/
def Closes (forceConfirmations highPriority : Bool) (size : Nat) (m : PreparedMessage) : Prop :=
  maxContainerSize < size + m.data.length ∨
    ((priorityBreak forceConfirmations highPriority m).2 = true ∧ size ≠ 0)

instance (forceConfirmations highPriority : Bool) (size : Nat) (m : PreparedMessage) :
    Decidable (Closes forceConfirmations highPriority size m) :=
  inferInstanceAs (Decidable (_ ∨ _))

theorem fillContainer_cons (forceConfirmations flag : Bool) (size : Nat) (m : PreparedMessage)
    (rest : List PreparedMessage) :
    fillContainer forceConfirmations flag size (m :: rest) =
      let flag' := (priorityBreak forceConfirmations flag m).1
      if Closes forceConfirmations flag size m then
        if size = 0 then ([m], flag', rest) else ([], flag', m :: rest)
      else
        (m :: (fillContainer forceConfirmations flag' (size + m.data.length) rest).1,
          (fillContainer forceConfirmations flag' (size + m.data.length) rest).2.1,
          (fillContainer forceConfirmations flag' (size + m.data.length) rest).2.2) := by
  simp [fillContainer, Closes, priorityBreak_eq]

theorem fillingTurn_message (forceConfirmations flag : Bool) (before rest : List PreparedMessage)
    (m : PreparedMessage) (container : List PreparedMessage) (size : Nat) :
    fillingTurn (before ++ m :: rest) forceConfirmations
        ⟨before.length, before.length, flag, container, size⟩ =
      let flag' := (priorityBreak forceConfirmations flag m).1
      if Closes forceConfirmations flag size m then
        if size = 0 then
          .ok (.inr ⟨before.length + 1, before.length, flag', container ++ [m],
            size + m.data.length⟩)
        else .ok (.inr ⟨before.length, before.length, flag', container, size⟩)
      else
        .ok (.inl ⟨before.length + 1, before.length + 1, flag', container ++ [m],
          size + m.data.length⟩) := by
  by_cases hcloses : maxContainerSize < size + m.data.length ∨
      ((priorityBreak forceConfirmations flag m).2 = true ∧ size ≠ 0)
  all_goals simp [fillingTurn, Closes, hcloses]

/-- The inner loop takes the messages of the next container, and both indices stay together. -/
theorem filling_loop (forceConfirmations : Bool) :
    ∀ (rest before container : List PreparedMessage) (flag : Bool) (size fuel : Nat),
      rest.length < fuel →
      ∃ s, loop .endless (fillingTurn (before ++ rest) forceConfirmations) fuel
          ⟨before.length, before.length, flag, container, size⟩ = .ok s ∧
        s.i + (fillContainer forceConfirmations flag size rest).2.2.length =
          (before ++ rest).length ∧
        s.currentlyProcessingHighPriority =
          (fillContainer forceConfirmations flag size rest).2.1 ∧
        s.currentContainerMessages =
          container ++ (fillContainer forceConfirmations flag size rest).1 := by
  intro rest
  induction rest with
  | nil =>
    intro before container flag size fuel hfuel
    obtain ⟨fuel, rfl⟩ := Nat.exists_eq_add_of_lt hfuel
    exact ⟨⟨before.length, before.length, flag, container, size⟩,
      by simp [loop, fillingTurn], by simp [fillContainer], rfl, by simp [fillContainer]⟩
  | cons m rest ih =>
    intro before container flag size fuel hfuel
    obtain ⟨fuel, rfl⟩ : ∃ k, fuel = k + 1 := ⟨fuel - 1, by omega⟩
    rw [List.length_cons] at hfuel
    simp only [loop, fillingTurn_message, fillContainer_cons]
    by_cases hcloses : Closes forceConfirmations flag size m
    · by_cases hzero : size = 0
      · simp only [if_pos hcloses, if_pos hzero]
        exact ⟨_, rfl, by simp; omega, rfl, rfl⟩
      · simp only [if_pos hcloses, if_neg hzero]
        exact ⟨_, rfl, by simp, rfl, by simp⟩
    · simp only [if_neg hcloses]
      obtain ⟨s, hs, hi, hflag, hcontainer⟩ := ih (before ++ [m]) (container ++ [m])
        (priorityBreak forceConfirmations flag m).1 (size + m.data.length) fuel (by omega)
      rw [List.append_assoc, List.length_append] at hs
      rw [List.append_assoc] at hi
      exact ⟨s, hs, hi, hflag, by rw [hcontainer, List.append_assoc]; rfl⟩

theorem packing_loop (forceConfirmations : Bool) :
    ∀ (k : Nat) (rest before : List PreparedMessage) (flag : Bool)
      (containers : List (List PreparedMessage)) (fuel : Nat),
      rest.length ≤ k → rest.length < fuel →
      loop .endless (packingTurn (before ++ rest) forceConfirmations) fuel
          ⟨before.length, flag, containers⟩ =
        .ok (containers ++ splitContainers forceConfirmations k flag rest) := by
  intro k
  induction k with
  | zero =>
    intro rest before flag containers fuel hk hfuel
    obtain rfl := List.length_eq_zero_iff.1 (Nat.le_zero.1 hk)
    obtain ⟨fuel, rfl⟩ := Nat.exists_eq_add_of_lt hfuel
    simp [loop, packingTurn, splitContainers]
  | succ k ih =>
    intro rest before flag containers fuel hk hfuel
    obtain ⟨fuel, rfl⟩ : ∃ n, fuel = n + 1 := ⟨fuel - 1, by omega⟩
    cases rest with
    | nil => simp [loop, packingTurn, splitContainers]
    | cons m rest =>
      obtain ⟨s, hs, hi, hflag, hcontainer⟩ := filling_loop forceConfirmations (m :: rest)
        before [] flag 0 ((before ++ m :: rest).length + 1) (by rw [List.length_append]; omega)
      have hsplit := fillContainer_append forceConfirmations (m :: rest) flag 0
      have hleft := fillContainer_left_length forceConfirmations flag m rest
      rw [List.nil_append] at hcontainer
      rw [← hcontainer] at hsplit
      have hi' : s.i = (before ++ s.currentContainerMessages).length := by
        grind
      have htaken : s.currentContainerMessages.length ≠ 0 := by
        grind
      have hin : before.length < (before ++ m :: rest).length := by simp
      have hturn : packingTurn (before ++ m :: rest) forceConfirmations
          ⟨before.length, flag, containers⟩ =
          .ok (.inl ⟨s.i, s.currentlyProcessingHighPriority,
            containers ++ [s.currentContainerMessages]⟩) := by
        unfold packingTurn
        rw [if_pos hin, hs]
        simp only [if_pos htaken]
      have hlist : before ++ m :: rest =
          (before ++ s.currentContainerMessages) ++
            (fillContainer forceConfirmations flag 0 (m :: rest)).2.2 := by
        rw [List.append_assoc, hsplit]
      rw [loop, hturn]
      dsimp only
      rw [hlist, hi', ih _ _ _ _ _ (hleft.trans (by simpa using hk))
        (lt_of_le_of_lt hleft (by simpa using hfuel)), hflag, hcontainer]
      simp [splitContainers]

theorem packContainers_eq (messages : List PreparedMessage) (forceConfirmations : Bool) :
    packContainers messages forceConfirmations =
      .ok (splitContainers forceConfirmations messages.length false messages) := by
  have h := packing_loop forceConfirmations messages.length messages [] false []
    (messages.length + 1) (Nat.le_refl _) (Nat.lt_succ_self _)
  rw [List.nil_append, List.nil_append] at h
  exact h

/-- The order in which the messages are sent. -/
def inOrder (sorter : Sorter compareMessages) (forceConfirmations : Bool)
    (messages : List PreparedMessage) : List PreparedMessage :=
  if forceConfirmations then sorter.sort messages
  else (sorter.sort messages).filter (·.hasHighPriority) ++
    (sorter.sort messages).filter (!·.hasHighPriority)

theorem reorder_eq (sorter : Sorter compareMessages) (forceConfirmations : Bool)
    (messages : List PreparedMessage) :
    reorder sorter forceConfirmations messages =
      .ok (inOrder sorter forceConfirmations messages) := by
  unfold reorder inOrder
  split
  · next hshort =>
      have hsort : sorter.sort messages = messages := by
        rcases hshort with hnone | hone
        · rw [List.length_eq_zero_iff.1 hnone]
          exact (sorter.perm []).eq_nil
        · obtain ⟨m, rfl⟩ := List.length_eq_one_iff.1 hone
          exact sorter.sort_singleton m
      rw [hsort]
      rcases hshort with hnone | hone
      · simp [List.length_eq_zero_iff.1 hnone]
      · obtain ⟨m, rfl⟩ := List.length_eq_one_iff.1 hone
        cases hpriority : m.hasHighPriority <;> simp [hpriority]
  · grind [moveHighPriority_eq]

theorem perm_inOrder (sorter : Sorter compareMessages) (forceConfirmations : Bool)
    (messages : List PreparedMessage) :
    (inOrder sorter forceConfirmations messages).Perm messages := by
  unfold inOrder
  split
  · exact sorter.perm messages
  · exact (List.filter_append_perm _ _).trans (sorter.perm messages)

theorem containersOf_eq (sorter : Sorter compareMessages) (forceConfirmations : Bool)
    (messages : List PreparedMessage) :
    containersOf sorter forceConfirmations messages =
      .ok (inOrder sorter forceConfirmations messages,
        splitContainers forceConfirmations
          (inOrder sorter forceConfirmations messages).length false
          (inOrder sorter forceConfirmations messages)) := by
  unfold containersOf
  rw [reorder_eq]
  simp only [bind, Except.bind, packContainers_eq, pure, Except.pure]

/-! ## What a container holds -/

def bodySize (messages : List PreparedMessage) : Nat := (messages.map (·.data.length)).sum

/-- No message of high priority stands behind another one. -/
def PriorityFirst (messages : List PreparedMessage) : Prop :=
  messages.Pairwise fun m m' => m'.hasHighPriority = true → m.hasHighPriority = true

/-- A container with more than one message does not get too large. -/
theorem fillContainer_size (forceConfirmations : Bool) :
    ∀ (messages : List PreparedMessage) (flag : Bool) (size : Nat),
      (∀ m ∈ messages, m.data ≠ []) → size ≤ maxContainerSize →
      size + bodySize (fillContainer forceConfirmations flag size messages).1 ≤ maxContainerSize ∨
        (size = 0 ∧ (fillContainer forceConfirmations flag size messages).1.length ≤ 1) := by
  intro messages
  induction messages with
  | nil => intro flag size _ hsize; exact .inl hsize
  | cons m rest ih =>
    intro flag size hbodies hsize
    rw [fillContainer_cons]
    dsimp only
    split
    · split
      · next hzero => exact .inr ⟨hzero, Nat.le_refl 1⟩
      · exact .inl hsize
    · next hopen =>
        have hbody : 0 < m.data.length :=
          List.length_pos_iff.2 (hbodies m (.head _))
        have hfits : size + m.data.length ≤ maxContainerSize :=
          Nat.not_lt.1 fun hlarge => hopen (.inl hlarge)
        rcases ih (priorityBreak forceConfirmations flag m).1 (size + m.data.length)
          (fun m' hm' => hbodies m' (.tail _ hm')) hfits with hsum | hempty
        · grind [bodySize]
        · omega

theorem fillContainer_priority :
    ∀ (messages : List PreparedMessage) (flag : Bool) (size : Nat),
      (∀ m ∈ messages, m.data ≠ []) → PriorityFirst messages →
      (size ≠ 0 → flag = false → ∀ m ∈ messages, m.hasHighPriority = false) →
      ∃ priority, (size ≠ 0 → priority = flag) ∧
        ∀ m ∈ (fillContainer false flag size messages).1, m.hasHighPriority = priority := by
  intro messages
  induction messages with
  | nil => intro flag size _ _ _; exact ⟨flag, fun _ => rfl, fun _ hm => by cases hm⟩
  | cons m rest ih =>
    intro flag size hbodies hfirst hlow
    rw [fillContainer_cons]
    simp only [priorityBreak_eq, Bool.false_eq_true, if_false]
    split
    · split
      · simp_all
      · exact ⟨flag, fun _ => rfl, fun _ hm => by cases hm⟩
    · next hopen =>
        obtain ⟨hhead, hrest⟩ := List.pairwise_cons.1 hfirst
        have hbody : 0 < m.data.length :=
          List.length_pos_iff.2 (hbodies m (.head _))
        have hsame : size ≠ 0 → m.hasHighPriority = flag := by
          intro hsize
          cases flag with
          | false => exact hlow hsize rfl m (.head _)
          | true =>
            by_contra hpriority
            exact hopen (.inr ⟨by simp [priorityBreak_eq, hpriority], hsize⟩)
        obtain ⟨priority, hpriority, hall⟩ := ih m.hasHighPriority (size + m.data.length)
          (fun m' hm' => hbodies m' (.tail _ hm')) hrest
          (fun _ hnot m' hm' => by
            by_contra hhigh
            rw [hhead m' hm' (by simpa using hhigh)] at hnot
            cases hnot)
        have heq : priority = m.hasHighPriority := hpriority (by omega)
        refine ⟨priority, fun hsize => heq.trans (hsame hsize), fun m' hm' => ?_⟩
        rcases List.mem_cons.1 hm' with rfl | hm'
        · exact heq.symm
        · exact hall m' hm'

/-- What holds of the next container, whatever is left, holds of all. -/
theorem forall_splitContainers {forceConfirmations : Bool} {P : List PreparedMessage → Prop} :
    ∀ (k : Nat) (flag : Bool) (messages : List PreparedMessage),
      (∀ flag m rest, m :: rest <:+ messages →
        P (fillContainer forceConfirmations flag 0 (m :: rest)).1) →
      ∀ container ∈ splitContainers forceConfirmations k flag messages, P container := by
  intro k
  induction k with
  | zero => intro flag messages _ container hmem; cases hmem
  | succ k ih =>
    intro flag messages hP container hmem
    cases messages with
    | nil => cases hmem
    | cons m rest =>
      rcases List.mem_cons.1 hmem with rfl | hmem
      · exact hP flag m rest (List.suffix_refl _)
      · have hsuffix : (fillContainer forceConfirmations flag 0 (m :: rest)).2.2 <:+ m :: rest :=
          ⟨_, fillContainer_append forceConfirmations (m :: rest) flag 0⟩
        exact ih _ _ (fun flag' m' rest' h => hP flag' m' rest' (h.trans hsuffix)) _ hmem

theorem fillContainer_ne_nil (forceConfirmations flag : Bool) (m : PreparedMessage)
    (rest : List PreparedMessage) :
    (fillContainer forceConfirmations flag 0 (m :: rest)).1 ≠ [] := by
  rw [fillContainer_cons]
  split <;> simp

theorem inOrder_priorityFirst (sorter : Sorter compareMessages)
    (messages : List PreparedMessage) : PriorityFirst (inOrder sorter false messages) := by
  unfold PriorityFirst inOrder
  rw [if_neg Bool.false_ne_true, List.pairwise_append]
  refine ⟨?_, ?_, ?_⟩
  · refine List.pairwise_of_forall_mem_list fun m hm _ _ _ => ?_
    simpa using (List.mem_filter.1 hm).2
  · refine List.pairwise_of_forall_mem_list fun m _ m' hm' hpriority => ?_
    simp [hpriority] at hm'
  · intro m hm _ _ _
    simpa using (List.mem_filter.1 hm).2

/-- The containers are the ordered messages in groups.  With bodies that are not empty a group
of two or more messages is not too large, and has one priority unless confirmations are
forced. -/
theorem containers_packed (sorter : Sorter compareMessages) (forceConfirmations : Bool)
    (messages : List PreparedMessage) (hbodies : ∀ m ∈ messages, m.data ≠ []) :
    ∃ containers, containersOf sorter forceConfirmations messages =
        .ok (inOrder sorter forceConfirmations messages, containers) ∧
      containers.flatten = inOrder sorter forceConfirmations messages ∧
      (inOrder sorter forceConfirmations messages).Perm messages ∧
      (∀ container ∈ containers, container ≠ []) ∧
      (∀ container ∈ containers, 2 ≤ container.length →
        bodySize container ≤ maxContainerSize) ∧
      (forceConfirmations = false → ∀ container ∈ containers, ∀ m ∈ container,
        ∀ m' ∈ container, m.hasHighPriority = m'.hasHighPriority) := by
  have hperm := perm_inOrder sorter forceConfirmations messages
  have hbodies' : ∀ m ∈ inOrder sorter forceConfirmations messages, m.data ≠ [] :=
    fun m hm => hbodies m (hperm.mem_iff.1 hm)
  refine ⟨_, containersOf_eq sorter forceConfirmations messages,
    flatten_splitContainers _ _ _ _ (Nat.le_refl _), hperm, ?_, ?_, ?_⟩
  · apply forall_splitContainers
    exact fun flag m rest _ => fillContainer_ne_nil _ _ _ _
  · apply forall_splitContainers
    intro flag m rest hsuffix htwo
    have hsize := fillContainer_size forceConfirmations (m :: rest) flag 0
      (fun m' hm' => hbodies' m' (hsuffix.subset hm')) (Nat.zero_le _)
    omega
  · rintro rfl
    apply forall_splitContainers
    intro flag m rest hsuffix m₁ hm₁ m₂ hm₂
    obtain ⟨priority, _, hall⟩ := fillContainer_priority (m :: rest) flag 0
      (fun m' hm' => hbodies' m' (hsuffix.subset hm'))
      ((inOrder_priorityFirst sorter messages).sublist hsuffix.sublist)
      (fun hsize => absurd rfl hsize)
    exact (hall m₁ hm₁).trans (hall m₂ hm₂).symm

/-- A large message, a message of high priority and another one. -/
def sampleMessages : List PreparedMessage :=
  [⟨0, List.replicate 3073 0, 4, 1, 1, true, false, 0⟩, ⟨1, [1, 2, 3, 4], 8, 3, 1, true, true, 0⟩,
    ⟨2, [5, 6, 7, 8], 12, 5, 1, true, false, 0⟩]

/-- A message of high priority between two others. -/
theorem containers_packed_sample :
    (∀ m ∈ sampleMessages, m.data ≠ []) ∧
      ∃ containers, containersOf (Sorter.leaving compareMessages) false sampleMessages =
          .ok (inOrder (Sorter.leaving compareMessages) false sampleMessages, containers) ∧
        containers.flatten = inOrder (Sorter.leaving compareMessages) false sampleMessages := by
  have hbodies : ∀ m ∈ sampleMessages, m.data ≠ [] := by decide
  obtain ⟨containers, hcontainers, hflatten, _⟩ :=
    containers_packed (Sorter.leaving compareMessages) false sampleMessages hbodies
  exact ⟨hbodies, containers, hcontainers, hflatten⟩

end TelegramPub.Ports.ContainerPacking
