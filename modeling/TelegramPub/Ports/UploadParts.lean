import TelegramPub.Ports.FileUpload

/-!
# The parts of an upload

An upload makes the requests that it would make one after another, whatever the order of
the answers: what it has sent and what is still to come is the same list in every state
(`Consistent`).  The parts that are being uploaded are those that were sent and are not
acknowledged.
-/

namespace TelegramPub.Ports.FileUpload

open Verified.Bytes Verified.Machine

/-- The indices of the parts that are being uploaded. -/
def uploadingOf (parts : List FilePart) : List Nat :=
  (parts.filter (·.uploading)).map (·.index)

/-- The parts that are not uploaded yet. -/
def waitingOf (parts : List FilePart) : List FilePart := parts.filter (!·.uploading)

section Lists

variable {parts : List FilePart}

theorem markFirst_none (h : markFirst parts = none) :
    waitingOf parts = [] := by
  induction parts with
  | nil => rfl
  | cons part parts ih =>
    unfold markFirst at h
    cases hup : part.uploading with
    | true => simp_all [waitingOf]
    | false => simp [hup] at h

/-- The first part that waits gets its mark. -/
theorem markFirst_some {rest : List FilePart} {first : FilePart}
    (h : markFirst parts = some (first, rest)) :
    waitingOf parts = first :: waitingOf rest ∧
      (uploadingOf rest).Perm (first.index :: uploadingOf parts) ∧
      rest.map (·.index) = parts.map (·.index) := by
  induction parts generalizing rest with
  | nil => cases h
  | cons part parts ih =>
    unfold markFirst at h
    cases hup : part.uploading with
    | true =>
      rw [if_pos hup] at h
      obtain ⟨⟨first', rest'⟩, hrest, heq⟩ := Option.map_eq_some_iff.1 h
      simp only [Prod.mk.injEq] at heq
      obtain ⟨rfl, rfl⟩ := heq
      obtain ⟨hwaiting, huploading, hindices⟩ := ih hrest
      refine ⟨?_, ?_, ?_⟩
      · simpa [waitingOf, hup] using hwaiting
      · have hswap := (huploading.cons part.index).trans (List.Perm.swap ..)
        simpa [uploadingOf, hup] using hswap
      · simpa using hindices
    | false =>
      grind [uploadingOf, waitingOf]

theorem mem_index_of_uploading {partId : Nat} (h : partId ∈ uploadingOf parts)
    : partId ∈ parts.map (·.index) :=
  List.map_subset _ (List.filter_subset_self _) h

/-- The answer for a part that is being uploaded takes away this part only. -/
theorem erase_uploading {partId : Nat} (hnodup : (parts.map (·.index)).Nodup)
    (h : partId ∈ uploadingOf parts) :
    waitingOf (parts.eraseP (·.index == partId)) = waitingOf parts ∧
      (partId :: uploadingOf (parts.eraseP (·.index == partId))).Perm (uploadingOf parts) := by
  induction parts with
  | nil => cases h
  | cons part parts ih =>
    rw [List.map_cons, List.nodup_cons] at hnodup
    by_cases hindex : part.index = partId
    · grind [mem_index_of_uploading, uploadingOf, waitingOf]
    · have hrest : partId ∈ uploadingOf parts := by
        cases hup : part.uploading with
        | true => simpa [uploadingOf, hup, Ne.symm hindex] using h
        | false => simpa [uploadingOf, hup] using h
      obtain ⟨hwaiting, huploading⟩ := ih hnodup.2 hrest
      have herase : (part :: parts).eraseP (·.index == partId) =
          part :: parts.eraseP (·.index == partId) :=
        List.eraseP_cons_of_neg (by simpa using hindex)
      rw [herase]
      cases hup : part.uploading with
      | true =>
        grind [uploadingOf, waitingOf]
      | false =>
        exact ⟨by simpa [waitingOf, hup] using hwaiting,
          by simpa [uploadingOf, hup] using huploading⟩

theorem eq_nil_of_none (hwaiting : waitingOf parts = []) (huploading : uploadingOf parts = [])
    : parts = [] := by
  cases parts with
  | nil => rfl
  | cons part parts => cases hup : part.uploading <;> simp_all [waitingOf, uploadingOf]

end Lists

section Sending

variable (md5 : Data → Data) (aes : Data → Equiv.Perm (BitVec 128))

/-- The requests for some parts, made one after another. -/
def requestsFrom (request : Nat → Data → PartRequest) :
    List FilePart → Data → Option Encryption → List PartRequest
  | [], _, _ => []
  | part :: parts, stream, encryption =>
    let (partData, encryption) := partDataOf aes encryption (stream.take part.length)
    request part.index partData ::
      requestsFrom request parts (stream.drop part.length) encryption

/-- The requests that are still to come. -/
def Actor.upcoming (a : Actor) : List PartRequest :=
  requestsFrom aes a.requestFor (waitingOf a.partsToUpload) a.stream a.encryption

/-- The key and the initialization vector that are reported. -/
def Actor.reported (a : Actor) : Option (Data × Iv) := a.encryption.map fun e => (e.key, e.iv)

/-- What no request changes. -/
structure SameUpload (a a' : Actor) : Prop where
  options : a'.options = a.options
  fileId : a'.fileId = a.fileId
  fileSize : a'.fileSize = a.fileSize
  partCount : a'.partCount = a.partCount
  useBigFileParts : a'.useBigFileParts = a.useBigFileParts
  reported : a'.reported = a.reported

/-- What some requests do to the actor that makes them. -/
structure Sends (a a' : Actor) (sent : List PartRequest) : Prop where
  same : SameUpload a a'
  upcoming : sent ++ a'.upcoming aes = a.upcoming aes
  md5 : a'.md5 = a.md5 ++ sent.flatMap (·.bytes)
  uploading : (uploadingOf a'.partsToUpload).Perm
    (uploadingOf a.partsToUpload ++ sent.map (·.filePart))
  indices : a'.partsToUpload.map (·.index) = a.partsToUpload.map (·.index)

variable {md5} {aes}

theorem SameUpload.refl (a : Actor) : SameUpload a a := ⟨rfl, rfl, rfl, rfl, rfl, rfl⟩

variable {a : Actor}

theorem SameUpload.trans {b c : Actor} (hab : SameUpload a b) (hbc : SameUpload b c) :
    SameUpload a c where
  options := hbc.options.trans hab.options
  fileId := hbc.fileId.trans hab.fileId
  fileSize := hbc.fileSize.trans hab.fileSize
  partCount := hbc.partCount.trans hab.partCount
  useBigFileParts := hbc.useBigFileParts.trans hab.useBigFileParts
  reported := hbc.reported.trans hab.reported

theorem Sends.refl (a : Actor) : Sends aes a a [] where
  same := .refl a
  upcoming := rfl
  md5 := by simp
  uploading := by simp
  indices := rfl

theorem Sends.trans {b c : Actor} {sent sent' : List PartRequest} (hab : Sends aes a b sent)
    (hbc : Sends aes b c sent') : Sends aes a c (sent ++ sent') where
  same := hab.same.trans hbc.same
  upcoming := by rw [List.append_assoc, hbc.upcoming, hab.upcoming]
  md5 := by rw [hbc.md5, hab.md5, List.flatMap_append, List.append_assoc]
  uploading := by
    rw [List.map_append, ← List.append_assoc]
    exact hbc.uploading.trans (hab.uploading.append_right _)
  indices := hbc.indices.trans hab.indices

theorem partDataOf_reported (encryption : Option Encryption) (bytes : Data) :
    ((partDataOf aes encryption bytes).2.map fun e => (e.key, e.iv)) =
      encryption.map fun e => (e.key, e.iv) := by
  cases encryption <;> rfl

theorem sendNext_spec (a : Actor) : Sends aes a (sendNext aes a).1 (sendNext aes a).2 := by
  unfold sendNext
  cases hmark : markFirst a.partsToUpload with
  | none => exact .refl a
  | some marked =>
    obtain ⟨part, partsToUpload⟩ := marked
    obtain ⟨hwaiting, huploading, hindices⟩ := markFirst_some hmark
    exact {
      same := ⟨rfl, rfl, rfl, rfl, rfl, partDataOf_reported a.encryption _⟩
      upcoming := by
        unfold Actor.upcoming
        rw [hwaiting]
        rfl
      md5 := by simp [Actor.requestFor]
      uploading := huploading.trans (List.perm_append_singleton ..).symm
      indices := hindices }

theorem sendTimes_spec (n : Nat) (a : Actor) :
    Sends aes a (sendTimes aes n a).1 (sendTimes aes n a).2 := by
  induction n generalizing a with
  | zero => exact .refl a
  | succ n ih => exact (sendNext_spec a).trans (ih _)

/-- After a round something is being uploaded, if there is a part at all. -/
theorem uploading_of_sendNext (h : a.partsToUpload ≠ []) :
    uploadingOf (sendNext aes a).1.partsToUpload ≠ [] := by
  unfold sendNext
  cases hmark : markFirst a.partsToUpload with
  | none => exact fun hnone => h (eq_nil_of_none (markFirst_none hmark) hnone)
  | some marked =>
    obtain ⟨part, partsToUpload⟩ := marked
    intro hnone
    have hperm := (markFirst_some hmark).2.1
    simp only at hnone
    rw [hnone] at hperm
    exact List.cons_ne_nil _ _ hperm.symm.eq_nil

theorem Sends.uploading_ne_nil {a' : Actor} {sent : List PartRequest} (h : Sends aes a a' sent)
    (hne : uploadingOf a.partsToUpload ≠ []) : uploadingOf a'.partsToUpload ≠ [] := by
  intro hnone
  have hperm := h.uploading
  rw [hnone] at hperm
  exact hne (List.append_eq_nil_iff.1 hperm.symm.eq_nil).1

theorem uploading_of_sendTimes_succ (n : Nat) (h : a.partsToUpload ≠ []) :
    uploadingOf (sendTimes aes (n + 1) a).1.partsToUpload ≠ [] :=
  (sendTimes_spec n _).uploading_ne_nil (uploading_of_sendNext h)

theorem uploading_of_sendTimes (h : a.partsToUpload ≠ []) :
    uploadingOf (sendTimes aes (16 - a.partsToUpload.countP (·.uploading)) a).1.partsToUpload ≠
      [] := by
  by_cases hnone : uploadingOf a.partsToUpload = []
  · have hcount : a.partsToUpload.countP (·.uploading) = 0 := by
      rw [List.countP_eq_length_filter, List.map_eq_nil_iff.1 hnone, List.length_nil]
    rw [hcount, show 16 - 0 = 15 + 1 from rfl]
    exact uploading_of_sendTimes_succ 15 h
  · exact (sendTimes_spec _ a).uploading_ne_nil hnone

end Sending

section Runs

variable (md5 : Data → Data) (aes : Data → Equiv.Perm (BitVec 128))

/-- The requests and the answers of an upload that began with `first`. -/
structure Consistent (first : Actor) (w : World) : Prop where
  same : SameUpload first w.actor
  requests : w.sent ++ w.actor.upcoming aes = first.upcoming aes
  md5 : w.actor.md5 = w.sent.flatMap (·.bytes)
  nodup : (w.actor.partsToUpload.map (·.index)).Nodup
  answers : (uploadingOf w.actor.partsToUpload ++ w.acknowledged).Perm
    (w.sent.map (·.filePart))

/-- The states of an upload. -/
structure Right (first : Actor) (w : World) : Prop where
  consistent : Consistent aes first w
  uploading : w.status = .uploading → uploadingOf w.actor.partsToUpload ≠ []
  completed : w.status = .completed → w.actor.partsToUpload = [] ∧
    w.reports = [report md5 { first with md5 := w.sent.flatMap (·.bytes) }]
  unfinished : w.status ≠ .completed → w.reports = []

variable {md5} {aes}

theorem SameUpload.report_eq {a a' : Actor} (h : SameUpload a a') :
    report md5 a' = report md5 { a with md5 := a'.md5 } := by
  obtain ⟨hoptions, hfileId, hfileSize, hpartCount, hbig, hreported⟩ := h
  unfold Actor.reported at hreported
  unfold report
  cases ha : a.encryption <;> cases ha' : a'.encryption <;> simp_all [keyFingerprint]

variable {first : Actor}

theorem send_right {w : World} (h : Consistent aes first w) (hreports : w.reports = [])
    : Right md5 aes first (w.send md5 aes) := by
  unfold World.send sendAnyPart
  by_cases hnil : w.actor.partsToUpload = []
  · rw [if_pos (by simp [hnil])]
    exact {
      consistent := { h with
        requests := by simpa using h.requests
        md5 := by simpa using h.md5
        answers := by simpa using h.answers }
      uploading := fun hfalse => by cases hfalse
      completed := fun _ => ⟨hnil, by simp [hreports, h.same.report_eq, h.md5]⟩
      unfinished := fun hfalse => absurd rfl hfalse }
  · rw [if_neg (by simpa using hnil)]
    generalize hresult : sendTimes aes (16 - w.actor.partsToUpload.countP (·.uploading)) w.actor =
      result
    have hsends : Sends aes w.actor result.1 result.2 := hresult ▸ sendTimes_spec _ _
    have huploading : uploadingOf result.1.partsToUpload ≠ [] :=
      hresult ▸ uploading_of_sendTimes hnil
    exact {
      consistent := {
        same := h.same.trans hsends.same
        requests := by rw [List.append_assoc, hsends.upcoming, h.requests]
        md5 := by rw [hsends.md5, h.md5, List.flatMap_append]
        nodup := by rw [hsends.indices]; exact h.nodup
        answers := by
          rw [List.map_append]
          calc (uploadingOf result.1.partsToUpload ++ w.acknowledged).Perm
                (uploadingOf w.actor.partsToUpload ++ result.2.map (·.filePart) ++
                  w.acknowledged) := hsends.uploading.append_right _
            _ |>.Perm (uploadingOf w.actor.partsToUpload ++ w.acknowledged ++
                  result.2.map (·.filePart)) := by
                rw [List.append_assoc, List.append_assoc]
                exact List.perm_append_comm.append_left _
            _ |>.Perm _ := h.answers.append_right _ }
      uploading := fun _ => huploading
      completed := fun hfalse => by cases hfalse
      unfinished := fun _ => hreports }

/-- A part whose answer is awaited is being uploaded. -/
theorem Consistent.mem_uploading {w : World} (h : Consistent aes first w) {partId : Nat}
    (hawaited : w.isAwaited partId) :
    partId ∈ uploadingOf w.actor.partsToUpload := by
  unfold World.isAwaited at hawaited
  simp only [Bool.and_eq_true, List.any_eq_true, beq_iff_eq, Bool.not_eq_eq_eq_not, Bool.not_true,
    List.contains_eq_mem, decide_eq_false_iff_not] at hawaited
  obtain ⟨⟨r, hr, hindex⟩, hnot⟩ := hawaited
  have hmem : partId ∈ uploadingOf w.actor.partsToUpload ++ w.acknowledged :=
    h.answers.mem_iff.2 (List.mem_map.2 ⟨r, hr, hindex⟩)
  exact (List.mem_append.1 hmem).resolve_right hnot

theorem Consistent.acknowledge {w : World} (h : Consistent aes first w) {partId : Nat}
    (hawaited : w.isAwaited partId) :
    Consistent aes first
      { w with
        actor := w.actor.erasePart partId,
        acknowledged := w.acknowledged ++ [partId] } := by
  obtain ⟨hwaiting, huploading⟩ := erase_uploading h.nodup (h.mem_uploading hawaited)
  exact {
    same := h.same.trans ⟨rfl, rfl, rfl, rfl, rfl, rfl⟩
    requests := by
      rw [← h.requests]
      unfold Actor.upcoming Actor.erasePart
      rw [← hwaiting]
      rfl
    md5 := h.md5
    nodup := h.nodup.sublist ((List.eraseP_sublist).map _)
    answers := by
      have hmove : (uploadingOf (w.actor.erasePart partId).partsToUpload ++
          (w.acknowledged ++ [partId])).Perm
          (partId :: uploadingOf (w.actor.erasePart partId).partsToUpload ++ w.acknowledged) := by
        rw [← List.append_assoc]
        exact List.perm_append_singleton ..
      exact (hmove.trans (huploading.append_right _)).trans h.answers }

theorem Consistent.ended {w : World} (h : Consistent aes first w) (status : Status)
    : Consistent aes first { w with status } :=
  ⟨h.same, h.requests, h.md5, h.nodup, h.answers⟩

theorem step_right (w : World) (event : Event) (h : Right md5 aes first w) :
    Right md5 aes first (step md5 aes w event) := by
  cases event with
  | begin =>
    unfold step
    dsimp only
    split
    · rename_i hprepared
      exact send_right h.consistent (h.unfinished (by simp [hprepared]))
    · exact h
  | success partId =>
    unfold step
    dsimp only
    split
    · rename_i hawaited
      exact send_right (h.consistent.acknowledge hawaited.2)
        (h.unfinished (by simp [hawaited.1]))
    · exact h
  | failure partId =>
    unfold step
    dsimp only
    split
    · rename_i hawaited
      exact {
        consistent := h.consistent.ended _
        uploading := fun hfalse => by cases hfalse
        completed := fun hfalse => by cases hfalse
        unfinished := fun _ => h.unfinished (by simp [hawaited.1]) }
    · exact h
  | cancel =>
    unfold step
    dsimp only
    split
    · rename_i hlive
      exact {
        consistent := h.consistent.ended _
        uploading := fun hfalse => by cases hfalse
        completed := fun hfalse => by cases hfalse
        unfinished := fun _ =>
          h.unfinished (by rcases hlive with hlive | hlive <;> simp [hlive]) }
    · exact h

theorem run_right (w : World) (events : List Event) (h : Right md5 aes first w) :
    Right md5 aes first (run (step md5 aes) w events) :=
  run_invariant step_right events w h

end Runs

end TelegramPub.Ports.FileUpload
