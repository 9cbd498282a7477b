import TelegramPub.Ports.PartDownload

/-!
# The parts of a download

The parts that a download waits for lie one behind the other, from the end of what is
written on.  `requestLoop_eq` is what the loop that asks for parts does to such a row: it
takes the parts that are marked with `restart`, and adds new ones behind the last.

`plaintext` is what a download is to write: the file, or its decryption up to the
decrypted size.
-/

namespace TelegramPub.Ports.PartDownload

open Verified.Bytes Verified.IgeChain

/-- The parts lie one behind the other. -/
def Tiles : Nat → List PartInfo → Prop
  | _, [] => True
  | start, p :: ps => p.partOffset = start ∧ 0 < p.partLength ∧ Tiles (start + p.partLength) ps

/-- Where a row of parts ends. -/
def tilesEnd (start : Nat) (parts : List PartInfo) : Nat :=
  parts.foldl (fun next p => next + p.partLength) start

@[simp] theorem tilesEnd_cons (start : Nat) (p : PartInfo) (ps : List PartInfo) :
    tilesEnd start (p :: ps) = tilesEnd (start + p.partLength) ps := rfl

theorem le_tilesEnd (parts : List PartInfo) : ∀ start, start ≤ tilesEnd start parts := by
  induction parts with
  | nil => intro start; exact Nat.le_refl start
  | cons p ps ih =>
    grind [tilesEnd_cons]

theorem tiles_append (xs ys : List PartInfo) :
    ∀ start, Tiles start (xs ++ ys) ↔ Tiles start xs ∧ Tiles (tilesEnd start xs) ys := by
  induction xs with
  | nil => intro start; simp [Tiles, tilesEnd]
  | cons p ps ih =>
    intro start
    simp only [List.cons_append, Tiles, tilesEnd_cons, ih, and_assoc]

/-- A change that leaves offsets and lengths. -/
theorem tiles_map {f : PartInfo → PartInfo} (hoffset : ∀ p, (f p).partOffset = p.partOffset)
    (hlength : ∀ p, (f p).partLength = p.partLength) (parts : List PartInfo) :
    ∀ start, Tiles start (parts.map f) ↔ Tiles start parts := by
  induction parts with
  | nil => intro start; exact Iff.rfl
  | cons p ps ih => intro start; simp only [List.map_cons, Tiles, hoffset, hlength, ih]

theorem tilesEnd_map {f : PartInfo → PartInfo} (hlength : ∀ p, (f p).partLength = p.partLength)
    (parts : List PartInfo) : ∀ start, tilesEnd start (parts.map f) = tilesEnd start parts := by
  induction parts with
  | nil => intro start; rfl
  | cons p ps ih => intro start; rw [List.map_cons, tilesEnd_cons, tilesEnd_cons, hlength, ih]

variable {parts : List PartInfo}

theorem Tiles.mem :
    ∀ {start : Nat}, Tiles start parts → ∀ p ∈ parts,
      start ≤ p.partOffset ∧ 0 < p.partLength ∧
        p.partOffset + p.partLength ≤ tilesEnd start parts := by
  induction parts with
  | nil => intro start _ p hp; cases hp
  | cons q qs ih =>
    intro start h p hp
    rcases List.mem_cons.1 hp with rfl | hp
    · have hend := le_tilesEnd qs (start + p.partLength)
      rw [tilesEnd_cons, h.1]
      exact ⟨Nat.le_refl _, h.2.1, hend⟩
    · have hrest := ih h.2.2 p hp
      rw [tilesEnd_cons]
      omega

theorem Tiles.pairwise :
    ∀ {start : Nat}, Tiles start parts →
      parts.Pairwise fun p q => p.partOffset < q.partOffset := by
  induction parts with
  | nil => intro start _; exact List.Pairwise.nil
  | cons q qs ih =>
    intro start h
    refine List.pairwise_cons.2 ⟨?_, ih h.2.2⟩
    intro p hp
    have hmem := h.2.2.mem p hp
    have hfirst := h.1
    have hpos := h.2.1
    omega

theorem Tiles.nodup {start : Nat} (h : Tiles start parts) :
    (parts.map (·.partOffset)).Nodup :=
  List.pairwise_map.2 (h.pairwise.imp Nat.ne_of_lt)

theorem Tiles.inj {start : Nat} (h : Tiles start parts) {p q : PartInfo} (hp : p ∈ parts)
    (hq : q ∈ parts) (heq : p.partOffset = q.partOffset) : p = q :=
  List.inj_on_of_nodup_map h.nodup hp hq heq

theorem foldl_max_end :
    ∀ {start next : Nat}, Tiles start parts → next ≤ start → parts ≠ [] →
      parts.foldl (fun next p => max next (p.partOffset + p.partLength)) next =
        tilesEnd start parts := by
  induction parts with
  | nil => intro start next _ _ hne; exact absurd rfl hne
  | cons p ps ih =>
    intro start next h hle _
    rw [List.foldl_cons, tilesEnd_cons, h.1, max_eq_right (by omega)]
    by_cases hps : ps = []
    · rw [hps]
      rfl
    · exact ih h.2.2 (Nat.le_refl _) hps

theorem nextDownloadOffset_eq {a : Actor} {start : Nat} (h : Tiles start a.downloadingParts)
    (hle : a.downloadedFileSize ≤ start) (hne : a.downloadingParts ≠ []) :
    nextDownloadOffset a = tilesEnd start a.downloadingParts :=
  foldl_max_end h hle hne

/-! ## Asking for parts -/

/-- The new parts of `requestLoop`. -/
def freshParts (size downloadedFileSize : Nat) : Nat → Nat → List PartInfo
  | 0, _ => []
  | n + 1, next =>
    if size ≠ 0 ∧ size ≤ next then []
    else
      let partLength :=
        if size = 0 then preferredPartSize else min preferredPartSize (size - downloadedFileSize)
      { partOffset := next, partLength } ::
        freshParts size downloadedFileSize n (next + partLength)

theorem setPart_of_new {part : PartInfo} (h : ∀ p ∈ parts, p.partOffset < part.partOffset)
    : setPart parts part = parts ++ [part] := by
  unfold setPart
  rw [if_neg]
  intro hany
  obtain ⟨p, hp, heq⟩ := List.any_eq_true.1 hany
  have hlt := h p hp
  simp only [beq_iff_eq] at heq
  omega

theorem nextDownloadOffset_gt (a : Actor) :
    a.downloadedFileSize ≤ nextDownloadOffset a ∧
      ∀ p ∈ a.downloadingParts, p.partOffset + p.partLength ≤ nextDownloadOffset a := by
  unfold nextDownloadOffset
  generalize a.downloadedFileSize = next
  generalize a.downloadingParts = parts
  induction parts generalizing next with
  | nil => exact ⟨Nat.le_refl next, fun p hp => by cases hp⟩
  | cons q qs ih =>
    grind

/-- A row of which no part is marked. -/
theorem restartList_of_clean {a : Actor} (h : ∀ p ∈ a.downloadingParts, p.restart = false) :
    restartList a = [] ∧ a.clearRestart = a := by
  have hmap : a.downloadingParts.map (fun p => { p with restart := false }) =
      a.downloadingParts := by
    conv_rhs => rw [← List.map_id a.downloadingParts]
    apply List.map_congr_left
    intro p hp
    obtain ⟨offset, length, data, restart⟩ := p
    have hfalse := h _ hp
    dsimp only at hfalse
    rw [hfalse]
    rfl
  constructor
  · unfold restartList
    rw [List.map_eq_nil_iff, List.filter_eq_nil_iff]
    intro p hp
    rw [h p hp]
    exact Bool.false_ne_true
  · unfold Actor.clearRestart
    rw [hmap]

theorem clearRestart_clean (a : Actor) :
    ∀ p ∈ a.clearRestart.downloadingParts, p.restart = false := by
  intro p hp
  obtain ⟨q, _, rfl⟩ := List.mem_map.1 hp
  rfl

theorem nextDownloadOffset_clearRestart (a : Actor) :
    nextDownloadOffset a.clearRestart = nextDownloadOffset a :=
  List.foldl_map

theorem requestLoop_of_clean (n : Nat) :
    ∀ (a : Actor) (requestList : List (Nat × Nat)), a.explicitDownloadParts = [] →
      (∀ p ∈ a.downloadingParts, p.restart = false) →
      (∀ p ∈ a.downloadingParts, 0 < p.partLength) →
      (a.size ≠ 0 → a.downloadedFileSize < a.size) →
      requestLoop n a requestList =
        let fresh := freshParts a.size a.downloadedFileSize n (nextDownloadOffset a)
        ({ a with downloadingParts := a.downloadingParts ++ fresh },
          requestList ++ fresh.map fun p => (p.partOffset, p.partLength)) := by
  induction n with
  | zero =>
    intro a requestList _ _ _ _
    simp [requestLoop, freshParts]
  | succ n ih =>
    intro a requestList hexplicit hclean hpos hsize
    obtain ⟨hnone, hsame⟩ := restartList_of_clean hclean
    obtain ⟨_, hlast⟩ := nextDownloadOffset_gt a
    conv_lhs => rw [requestLoop, hexplicit]
    dsimp only
    rw [hnone, hsame, List.append_nil, freshParts]
    by_cases hend : a.size ≠ 0 ∧ a.size ≤ nextDownloadOffset a
    · rw [if_pos hend, if_pos hend]
      simp
    · rw [if_neg hend, if_neg hend]
      generalize hlength : (if a.size = 0 then preferredPartSize
        else min preferredPartSize (a.size - a.downloadedFileSize)) = partLength
      have hlengthPos : 0 < partLength := by
        rw [← hlength]
        split
        · decide
        · rename_i hne
          have hlt := hsize hne
          unfold preferredPartSize
          omega
      have hadd : a.addPart (nextDownloadOffset a) partLength =
          { a with
            downloadingParts := a.downloadingParts ++
              [{ partOffset := nextDownloadOffset a, partLength }] } := by
        unfold Actor.addPart
        rw [setPart_of_new]
        intro p hp
        have hle := hlast p hp
        have hp' := hpos p hp
        dsimp only
        omega
      have hnext : nextDownloadOffset
          { a with
            downloadingParts := a.downloadingParts ++
              [{ partOffset := nextDownloadOffset a, partLength }] } =
          nextDownloadOffset a + partLength := by
        conv_lhs => unfold nextDownloadOffset
        rw [List.foldl_append]
        exact max_eq_right (Nat.le_add_right _ _)
      rw [hadd, ih, hnext]
      · simp
      · exact hexplicit
      · grind
      · grind
      · exact hsize

/-- What the loop does when there is nothing to fill: it takes the marked parts, and
adds new ones behind the last. -/
theorem requestLoop_eq {n : Nat} (hn : n ≠ 0) (a : Actor) (requestList : List (Nat × Nat))
    (hexplicit : a.explicitDownloadParts = [])
    (hpos : ∀ p ∈ a.downloadingParts, 0 < p.partLength)
    (hsize : a.size ≠ 0 → a.downloadedFileSize < a.size) :
    requestLoop n a requestList =
      let fresh := freshParts a.size a.downloadedFileSize n (nextDownloadOffset a)
      ({ a.clearRestart with downloadingParts := a.clearRestart.downloadingParts ++ fresh },
        requestList ++ restartList a ++ fresh.map fun p => (p.partOffset, p.partLength)) := by
  obtain ⟨m, rfl⟩ := Nat.exists_eq_succ_of_ne_zero hn
  obtain ⟨hnone, hsame⟩ := restartList_of_clean (clearRestart_clean a)
  have honce : requestLoop (m + 1) a requestList =
      requestLoop (m + 1) a.clearRestart (requestList ++ restartList a) := by
    rw [requestLoop, requestLoop, hexplicit,
      show a.clearRestart.explicitDownloadParts = [] from hexplicit]
    rw [hnone, hsame, nextDownloadOffset_clearRestart, List.append_nil]
  rw [honce, requestLoop_of_clean (m + 1) a.clearRestart _ hexplicit (clearRestart_clean a),
    nextDownloadOffset_clearRestart]
  · rfl
  · intro p hp
    obtain ⟨q, hq, rfl⟩ := List.mem_map.1 hp
    exact hpos q hq
  · exact hsize

variable {downloadedFileSize : Nat}

theorem freshParts_eq_nil {size n next : Nat} (h : freshParts size downloadedFileSize n next = []) :
    n = 0 ∨ size ≠ 0 ∧ size ≤ next := by
  cases n with
  | zero => exact .inl rfl
  | succ n =>
    grind [freshParts]

theorem freshParts_mem (size : Nat) (n : Nat) :
    ∀ next : Nat, downloadedFileSize ≤ next →
      ∀ p ∈ freshParts size downloadedFileSize n next,
        next ≤ p.partOffset ∧ (size ≠ 0 → p.partOffset < size) ∧ p.downloadedData = none ∧
          p.restart = false ∧ 0 < p.partLength ∧ p.partLength ≤ preferredPartSize ∧
          (p.partLength = preferredPartSize ∨ size ≠ 0 ∧ size ≤ p.partOffset + p.partLength) := by
  induction n with
  | zero => intro next _ p hp; cases hp
  | succ n ih =>
    intro next hle p hp
    rw [freshParts] at hp
    split at hp
    · cases hp
    · rename_i hend
      dsimp only at hp
      rcases List.mem_cons.1 hp with rfl | hp
      · dsimp only
        unfold preferredPartSize
        by_cases hsize : size = 0
        · grind
        · rw [if_neg hsize]
          refine ⟨Nat.le_refl _, ?_, rfl, rfl, ?_, ?_, ?_⟩ <;> omega
      · obtain ⟨hnext, hrest⟩ := ih _ (by omega) p hp
        exact ⟨by omega, hrest⟩

theorem freshParts_tiles {size : Nat} (n : Nat) :
    ∀ next : Nat, downloadedFileSize ≤ next →
      Tiles next (freshParts size downloadedFileSize n next) := by
  induction n with
  | zero => intro next _; trivial
  | succ n ih =>
    intro next hle
    have hmem := freshParts_mem size (n + 1) next hle
    rw [freshParts] at hmem ⊢
    split at hmem
    · rw [if_pos (by assumption)]
      trivial
    · rw [if_neg (by assumption)]
      have hfirst := hmem _ (.head _)
      exact ⟨rfl, hfirst.2.2.2.2.1, ih _ (by omega)⟩

/-- The key and the initialization vector, if both are given. -/
def Options.encryption (o : Options) : Option (Data × Iv) :=
  match o.encryptionKey, o.encryptionIv with
  | some key, some iv => some (key, iv)
  | _, _ => none

section Written

variable (aes : Data → Equiv.Perm (BitVec 128))

/-- The contents of a file: its decryption up to the decrypted size, if there is a key. -/
def plaintext (o : Options) (file : Data) : Data :=
  match o.encryption with
  | some (key, iv) =>
    let decryptedData := decryptBytes (aes key).symm iv.1 file
    if o.decryptedSize = 0 then decryptedData else decryptedData.take o.decryptedSize
  | none => file

/-- The running initialization vector after some bytes of the file. -/
def ivAfter (o : Options) (data : Data) : Option Iv :=
  o.encryption.map fun (key, iv) =>
    ⟨decryptIv (aes key).symm iv.1 data, length_decryptIv _ _ _⟩

/-- The bytes of a file from an offset on. -/
def slice (file : Data) (offset length : Nat) : Data := (file.drop offset).take length

theorem length_slice (file : Data) (offset length : Nat) :
    (slice file offset length).length = min length (file.length - offset) := by
  unfold slice
  rw [List.length_take, List.length_drop]

theorem slice_zeros (n offset length : Nat) :
    slice (List.replicate n 0) offset length = List.replicate (min length (n - offset)) 0 := by
  rw [slice, List.drop_replicate, List.take_replicate]

theorem take_append_slice (file : Data) (offset length : Nat) :
    file.take offset ++ slice file offset length = file.take (offset + length) :=
  (List.take_add ..).symm

/-- What the server has, and what the actor was told of it.  An encrypted file has whole
blocks. -/
structure Served (kind : Kind) (o : Options) (file : Data) : Prop where
  size : o.size = file.length ∨ kind = .multipart ∧ o.size = 0
  blocks : o.encryption ≠ none → file.length % 16 = 0

/-- The decrypted size, if there is one, lies in the last part of the file or behind it. -/
def CutsLastPart (o : Options) (file : Data) : Prop :=
  o.encryption = none ∨ o.decryptedSize = 0 ∨
    preferredPartSize * ((file.length - 1) / preferredPartSize) ≤ o.decryptedSize

end Written

end TelegramPub.Ports.PartDownload
