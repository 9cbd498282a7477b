import TelegramPub.Ports.PartRuns

/-!
# Interrupted downloads

The process may end between any two writes of a step, the actor may be cancelled, and the
partial file may be found with a length that cannot be resumed.  The next download then
starts with the files that are left.

`TGMultipartFileDownloadActor` appends the running initialization vector to the `.info`
file before it appends the data, and reads the last one when it starts.  So a process that
ends between the two leaves a vector that is one part ahead, and a partial file that is
begun anew is decrypted with the vector of the old one.  `TGVideoDownloadActor` does not
store the vector at all.
-/

namespace TelegramPub.Ports.PartDownload

open Verified.Bytes Verified.Machine

/-- The actor, as long as it lives, and the files. -/
structure Process where
  actor : Option Actor
  files : Files

inductive Happening where
  | starts
  | takes (event : Event)
  /-- The process ends while the actor starts, after some of the writes. -/
  | endsStarting (writes : Nat)
  /-- The process ends in a step, after some of the writes. -/
  | endsIn (event : Event) (writes : Nat)
  | cancelled
  /-- The partial file is found with an unusable length. -/
  | damaged (partialFile : Data)
  deriving DecidableEq

/-- A video that is stored already is not downloaded again. -/
def Process.isStored (kind : Kind) (p : Process) : Bool := kind = .video && p.files.stored.isSome

section Steps

variable (sha256 : Data → Data) (aes : Data → Equiv.Perm (BitVec 128)) (kind : Kind)
  (o : Options)

def Process.step (p : Process) : Happening → Process
  | .starts =>
    if p.actor.isSome || p.isStored kind then p
    else
      let w := start kind o p.files
      { actor := some w.actor, files := w.files }
  | .takes event =>
    match p.actor with
    | none => p
    | some a =>
      let w := PartDownload.step sha256 aes kind { actor := a, files := p.files } event
      { actor := some w.actor, files := w.files }
  | .endsStarting writes =>
    if p.actor.isSome || p.isStored kind then p
    else { p with files := p.files.applyAll ((execute kind o p.files).2.take writes) }
  | .endsIn event writes =>
    match p.actor with
    | none => p
    | some a =>
      { actor := none
        files := p.files.applyAll ((actorStep sha256 aes kind a event).2.take writes) }
  | .cancelled => { p with actor := none }
  | .damaged data =>
    let files := { p.files with partialFile := some data }
    if p.actor.isSome || !isUnusable kind o files then p else { p with files }

variable (file : Data)

/-- The answers of the servers, as for one download. -/
def Process.Answered (p : Process) (event : Event) : Prop :=
  match p.actor with
  | none => True
  | some a => Honest aes kind file a event ∧ InTurn kind file a event

def Process.Served (p : Process) : Happening → Prop
  | .takes event => p.Answered aes kind file event
  | .endsIn event _ => p.Answered aes kind file event
  | _ => True

/-- A start that finds a vector that belongs to the partial file. -/
def Process.InStep (p : Process) : Happening → Prop
  | .starts => p.actor.isNone → Resumable aes kind o file p.files
  | _ => True

instance (p : Process) (happening : Happening) :
    Decidable (p.Served aes kind file happening) := by
  unfold Process.Served Process.Answered
  split
  · split <;> infer_instance
  · split <;> infer_instance
  · infer_instance

instance (files : Files) : Decidable (Resumable aes kind o file files) := by
  unfold Resumable
  cases kind <;> infer_instance

instance (p : Process) (happening : Happening) :
    Decidable (p.InStep aes kind o file happening) := by
  unfold Process.InStep
  split <;> infer_instance

/-- A download that is right in each of its lives. -/
def Process.Good (p : Process) : Prop :=
  match p.actor with
  | none => Disk aes kind o file p.files
  | some a => Right aes kind o file False { actor := a, files := p.files }

end Steps

section Runs

variable {sha256 : Data → Data} {aes : Data → Equiv.Perm (BitVec 128)} {kind : Kind}
  {o : Options} {file : Data}

theorem Process.Good.disk {p : Process} (h : p.Good aes kind o file) :
    Disk aes kind o file p.files := by
  unfold Process.Good at h
  cases hactor : p.actor with
  | none =>
    rw [hactor] at h
    exact h
  | some a =>
    rw [hactor] at h
    exact Right.disk h

/-- The step lemma. -/
theorem Process.step_good (hserved : PartDownload.Served kind o file) (hcut : CutsLastPart o file)
    (p : Process) (happening : Happening)
    (hg : p.Served aes kind file happening ∧ p.InStep aes kind o file happening)
    (h : p.Good aes kind o file) : (p.step sha256 aes kind o happening).Good aes kind o file := by
  obtain ⟨actor, files⟩ := p
  have hdisk := h.disk
  dsimp only at hdisk
  cases happening with
  | starts =>
    unfold Process.step
    dsimp only
    split
    · exact h
    · rename_i hidle
      simp only [Process.isStored, Bool.or_eq_true, Bool.and_eq_true, decide_eq_true_eq,
        not_or, not_and, Bool.not_eq_true, Option.isSome_eq_false_iff,
        Option.isNone_iff_eq_none] at hidle
      exact start_spec hserved hdisk hidle.2 (hg.2 (Option.isNone_iff_eq_none.2 hidle.1))
  | takes event =>
    cases actor with
    | none => exact h
    | some a =>
      obtain ⟨hhonest, hturn⟩ := hg.1
      exact (step_right hserved.blocks hcut h hhonest hturn fun hfalse => hfalse.elim).1
  | endsStarting writes =>
    unfold Process.step
    dsimp only
    split
    · exact h
    · rename_i hidle
      simp only [Bool.or_eq_true, not_or, Bool.not_eq_true, Option.isSome_eq_false_iff,
        Option.isNone_iff_eq_none] at hidle
      obtain ⟨rfl, _⟩ := hidle
      exact (execute_safe hdisk).take _ writes
  | endsIn event writes =>
    cases actor with
    | none => exact h
    | some a =>
      obtain ⟨hhonest, hturn⟩ := hg.1
      exact (step_right hserved.blocks hcut h hhonest hturn fun hfalse => hfalse.elim).2.take _
        writes
  | cancelled => exact hdisk
  | damaged data =>
    unfold Process.step
    dsimp only
    split
    · exact h
    · rename_i hidle
      simp only [Bool.or_eq_true, Bool.not_eq_true', not_or, Bool.not_eq_true,
        Bool.not_eq_false, Option.isSome_eq_false_iff, Option.isNone_iff_eq_none] at hidle
      obtain ⟨rfl, hunusable⟩ := hidle
      exact .unusable hunusable hdisk.stored_or

end Runs

variable (sha256 : Data → Data) (aes : Data → Equiv.Perm (BitVec 128)) (kind : Kind)
  (o : Options) (file : Data)

/-- Whatever is stored after any interruptions are the contents, in every run whose starts
find a vector that belongs to the partial file. -/
theorem stored_after_interruptions (hserved : Served kind o file) (hcut : CutsLastPart o file)
    (files : Files) (hnew : files.partialFile = none) (hstored : files.stored = none)
    (happenings : List Happening)
    (hanswers : Guarded (Process.step sha256 aes kind o) (Process.Served aes kind file)
      { actor := none, files } happenings)
    (hsteps : Guarded (Process.step sha256 aes kind o) (Process.InStep aes kind o file)
      { actor := none, files } happenings) :
    let p := run (Process.step sha256 aes kind o) { actor := none, files } happenings
    (∀ data, p.files.stored = some data → data = plaintext aes o file) ∧
      ∀ a, p.actor = some a → a.status = .completed →
        p.files.stored = some (plaintext aes o file) := by
  have hgood := guarded_invariant (Process.step_good hserved hcut) happenings
    { actor := none, files } (hanswers.and hsteps)
    (.unusable (isUnusable_of_none hnew) (.inl hstored))
  refine ⟨stored_eq hgood.disk.stored_or, ?_⟩
  intro a hactor hcompleted
  unfold Process.Good at hgood
  rw [hactor] at hgood
  cases hgood with
  | running h _ =>
    have hrunning := h.core.running
    rw [hcompleted] at hrunning
    cases hrunning
  | failed hstatus _ _ =>
    rw [hcompleted] at hstatus
    cases hstatus
  | completed _ _ hsome => exact hsome

/-- A toy cipher that turns over all bits of a block. -/
def flipped : Equiv.Perm (BitVec 128) where
  toFun block := ~~~block
  invFun block := ~~~block
  left_inv _ := BitVec.not_not
  right_inv _ := BitVec.not_not

def zeroIv : Data := List.replicate 32 0

theorem length_zeroIv : zeroIv.length = 32 := List.length_replicate

/-- One encrypted block. -/
def secretBlock (decryptedSize : Nat) : Options :=
  { size := 16, decryptedSize, encryptionKey := some [],
    encryptionIv := some ⟨zeroIv, length_zeroIv⟩ }

/-- A process that ends between the last write and the completion. -/
theorem resumed_download :
    (run (Process.step (fun _ => []) (fun _ => flipped) .multipart (secretBlock 10))
      { actor := none, files := {} }
      [.starts, .takes .worker1, .endsIn (.answered 0 (.file (List.replicate 16 0))) 2,
        .starts, .takes .worker1,
        .takes (.answered 0 (.file (List.replicate 6 0)))]).files.stored =
      some (plaintext (fun _ => flipped) (secretBlock 10) (List.replicate 16 0)) := by
  have hright := stored_after_interruptions (fun _ => []) (fun _ => flipped) .multipart
    (secretBlock 10) (List.replicate 16 0) ⟨.inl rfl, fun _ => rfl⟩
    (.inr (.inr (by decide))) {} rfl rfl
    [.starts, .takes .worker1, .endsIn (.answered 0 (.file (List.replicate 16 0))) 2,
      .starts, .takes .worker1, .takes (.answered 0 (.file (List.replicate 6 0)))]
    (by decide +kernel) (by decide +kernel)
  have hstatus : ((run (Process.step (fun _ => []) (fun _ => flipped) .multipart (secretBlock 10))
      { actor := none, files := {} }
      [.starts, .takes .worker1, .endsIn (.answered 0 (.file (List.replicate 16 0))) 2,
        .starts, .takes .worker1,
        .takes (.answered 0 (.file (List.replicate 6 0)))]).actor.map (·.status)) =
      some .completed := by
    decide +kernel
  obtain ⟨a, hactor, hcompleted⟩ := Option.map_eq_some_iff.1 hstatus
  exact hright.2 a hactor hcompleted

/-! ## A vector that does not belong to the partial file -/

/-- The process ends between the vector and the data of the only part. -/
def endsBetween : List Happening :=
  [.starts, .takes .worker1, .endsIn (.answered 0 (.file (List.replicate 16 0))) 1,
    .starts, .takes .worker1, .takes (.answered 0 (.file (List.replicate 16 0)))]

/-- The part is written, and then the partial file is found damaged. -/
def beginsAnew : List Happening :=
  [.starts, .takes .worker1, .endsIn (.answered 0 (.file (List.replicate 16 0))) 2,
    .damaged [0],
    .starts, .takes .worker1, .takes (.answered 0 (.file (List.replicate 16 0)))]

/-- Exact answers, and what is stored are not the contents. -/
def Garbles (happenings : List Happening) : Prop :=
  let file : Data := List.replicate 16 0
  let step := Process.step (fun _ => []) (fun _ => flipped) .multipart (secretBlock 16)
  Guarded step (Process.Served (fun _ => flipped) .multipart file) { actor := none, files := {} }
      happenings ∧
    (run step { actor := none, files := {} } happenings).files.stored =
      some (List.replicate 16 0) ∧
    plaintext (fun _ => flipped) (secretBlock 16) file = List.replicate 16 255

/-- A resumed secret file is garbled. -/
theorem interruption_garbles :
    Served .multipart (secretBlock 16) (List.replicate 16 0) ∧
      CutsLastPart (secretBlock 16) (List.replicate 16 0) ∧
      Garbles endsBetween ∧ Garbles beginsAnew := by
  refine ⟨⟨.inl rfl, fun _ => rfl⟩, .inr (.inr (by decide)), ?_, ?_⟩
  · exact ⟨by decide +kernel, by decide +kernel, by decide +kernel⟩
  · exact ⟨by decide +kernel, by decide +kernel, by decide +kernel⟩

end TelegramPub.Ports.PartDownload
