import TelegramPub.Ports.UploadRoundTrip

/-!
# The limits of an upload

The part size of a big file is the smallest divisor of a megabyte from `_fileSize / 3000` on,
but 64 KB at least.  The quotient is rounded down: where it is a divisor itself, the rest of
the division makes one part more than 3000, and only files are checked against 3000 parts of
512 KB (`limits_iff`).
-/

namespace TelegramPub.Ports.FileUpload

open Verified.Bytes

section Search

variable {fuel partSize fileSize preferred : Nat}

theorem le_growPartSizeFrom : partSize ≤ growPartSizeFrom fuel partSize := by
  induction fuel generalizing partSize with
  | zero => exact Nat.le_refl partSize
  | succ fuel ih =>
    unfold growPartSizeFrom
    split
    · exact (Nat.le_succ partSize).trans ih
    · exact Nat.le_refl partSize

/-- The loop passes over no divisor. -/
theorem growPartSizeFrom_le {d : Nat} (hdvd : d ∣ 1048576) (hle : partSize ≤ d) :
    growPartSizeFrom fuel partSize ≤ d := by
  induction fuel generalizing partSize with
  | zero => exact hle
  | succ fuel ih =>
    unfold growPartSizeFrom
    split
    · rename_i hnot
      have hne : partSize ≠ d := by
        rintro rfl
        exact hnot (Nat.mod_eq_zero_of_dvd hdvd)
      exact ih (by omega)
    · exact hle

theorem dvd_iff_pow {d : Nat} : d ∣ 1048576 ↔ ∃ j ≤ 20, d = 2 ^ j := by
  rw [show (1048576 : Nat) = 2 ^ 20 by norm_num, Nat.dvd_prime_pow Nat.prime_two]

theorem search_dvd (hsize : fileSize ≤ intMax) :
    growPartSizeFrom (1048576 - fileSize / 3000) (fileSize / 3000) ∣ 1048576 := by
  apply growPartSizeFrom_dvd
  unfold intMax at hsize
  omega

theorem bigPartSize_dvd (hsize : fileSize ≤ intMax) : bigPartSize fileSize ∣ 1048576 := by
  unfold bigPartSize
  rcases Nat.le_total (growPartSizeFrom (1048576 - fileSize / 3000) (fileSize / 3000))
    videoPartSize with hsmall | hbig
  · rw [Nat.max_eq_right hsmall]
    decide
  · rw [Nat.max_eq_left hbig]
    exact search_dvd hsize

theorem partSizeFor_dvd (hpreferred : preferred ∣ 1048576) (hsize : fileSize ≤ intMax) :
    partSizeFor preferred fileSize ∣ 1048576 := by
  unfold partSizeFor
  split
  · exact bigPartSize_dvd hsize
  · exact hpreferred

/-- The sizes of at most 3000 parts of 512 KB that are not a little above 3000 parts of a power
of two from 64 KB on. -/
def FitsParts (fileSize : Nat) : Prop :=
  fileSize ≤ 512 * 1024 * 3000 ∧
    ∀ k, 16 ≤ k → fileSize ≤ 3000 * 2 ^ k ∨ 3000 * (2 ^ k + 1) ≤ fileSize

theorem bigPartSize_limits (hsize : fileSize ≤ intMax) :
    (bigPartSize fileSize ≤ 512 * 1024 ∧ fileSize ≤ 3000 * bigPartSize fileSize) ↔
      FitsParts fileSize := by
  have hquotient := Nat.div_add_mod fileSize 3000
  have hrest := Nat.mod_lt fileSize (show 0 < 3000 by decide)
  obtain ⟨j, hj, hpower⟩ := dvd_iff_pow.1 (search_dvd hsize)
  have hge : fileSize / 3000 ≤ 2 ^ j := hpower ▸ le_growPartSizeFrom
  have hleast : ∀ i ≤ 20, fileSize / 3000 ≤ 2 ^ i → 2 ^ j ≤ 2 ^ i := by
    intro i hi hle
    rw [← hpower]
    exact growPartSizeFrom_le (dvd_iff_pow.2 ⟨i, hi, rfl⟩) hle
  have hbig : bigPartSize fileSize = max (2 ^ j) (2 ^ 16) := by
    unfold bigPartSize
    dsimp only
    rw [hpower]
    rfl
  rw [hbig]
  constructor
  · rintro ⟨hle, hcount⟩
    have hlimit : fileSize ≤ 512 * 1024 * 3000 := by omega
    refine ⟨hlimit, fun k hk => ?_⟩
    by_contra hbetween
    have hat : fileSize / 3000 = 2 ^ k := by omega
    have hk' : k ≤ 20 := by
      by_contra hlarge
      have hpow : 2 ^ 21 ≤ 2 ^ k := Nat.pow_le_pow_right (by decide) (by omega)
      omega
    have hsame := hleast k hk' hat.le
    have hpow : 2 ^ 16 ≤ 2 ^ k := Nat.pow_le_pow_right (by decide) hk
    omega
  · rintro ⟨hlimit, hbetween⟩
    have hhalf := hleast 19 (by decide) (by omega)
    refine ⟨by omega, ?_⟩
    by_cases hj16 : 16 ≤ j
    · have hcase := hbetween j hj16
      omega
    · have hpow : 2 ^ j ≤ 2 ^ 15 := Nat.pow_le_pow_right (by decide) (by omega)
      omega

/-- The limits of part size and number, for both ways to upload. -/
theorem partSizeFor_limits (hlow : photoPartSize ≤ preferred) (hhigh : preferred ≤ videoPartSize)
    (hsize : fileSize ≤ intMax) :
    (partSizeFor preferred fileSize ≤ 512 * 1024 ∧
        fileSize ≤ 3000 * partSizeFor preferred fileSize) ↔ FitsParts fileSize := by
  unfold partSizeFor
  split
  · exact bigPartSize_limits hsize
  · rename_i hsmall
    have hless : fileSize < 10 * 1024 * 1024 := by
      unfold isBig at hsmall
      simp only [decide_eq_true_eq] at hsmall
      omega
    unfold photoPartSize at hlow
    unfold videoPartSize at hhigh
    refine iff_of_true (by omega) ⟨by omega, fun k hk => ?_⟩
    have hpow : 2 ^ 16 ≤ 2 ^ k := Nat.pow_le_pow_right (by decide) hk
    omega

end Search

section Parts

variable {partSize remaining index : Nat} {parts : List FilePart}

theorem Cuts.length_le_iff (h : Cuts partSize remaining index parts) (m : Nat) :
    parts.length ≤ m ↔ remaining ≤ m * partSize := by
  induction parts generalizing remaining index m with
  | nil => simp [show remaining = 0 from h]
  | cons part parts ih =>
    obtain ⟨hpos, _, hrest⟩ := h
    cases m with
    | zero =>
      grind
    | succ m =>
      have hparts := ih hrest m
      rw [Nat.succ_mul]
      simp only [List.length_cons]
      omega

theorem Cuts.sum_length (h : Cuts partSize remaining index parts) :
    (parts.map (·.length)).sum = remaining := by
  induction parts generalizing remaining index with
  | nil => exact (show remaining = 0 from h).symm
  | cons part parts ih =>
    obtain ⟨_, rfl, hrest⟩ := h
    rw [List.map_cons, List.sum_cons, ih hrest]
    dsimp only
    omega

theorem Cuts.dropLast_length (h : Cuts partSize remaining index parts) :
    ∀ part ∈ parts.dropLast, part.length = partSize := by
  induction parts generalizing remaining index with
  | nil => simp
  | cons part parts ih =>
    obtain ⟨_, rfl, hrest⟩ := h
    cases parts with
    | nil => simp
    | cons next parts =>
      have hmore := hrest.1
      intro part' hpart'
      rcases List.mem_cons.1 hpart' with rfl | hpart'
      · show min partSize remaining = partSize
        omega
      · exact ih hrest part' hpart'

end Parts

/-! ## Both ways to upload -/

/-- The part size of a small file. -/
def Source.preferred : Source → Nat
  | .data _ => photoPartSize
  | .file _ => videoPartSize
  | .none => 0

/-- `partSize`. -/
def Source.partSize (source : Source) : Nat :=
  partSizeFor source.preferred source.bytes.length

/-- The largest size that is accepted.  The size of data is not checked. -/
def Source.acceptedSize : Source → Nat
  | .data _ => intMax
  | .file _ => 512 * 1024 * 3000
  | .none => 0

/-- The limits of an upload. -/
structure KeepsLimits (o : Options) (r : Random) (source : Source) : Prop where
  ends : isBig source.bytes.length →
    1048576 % growPartSizeFrom (1048576 - source.bytes.length / 3000)
      (source.bytes.length / 3000) = 0
  divides : 1048576 % source.partSize = 0
  le : source.partSize ≤ 512 * 1024
  parts : ∃ a, execute o r source = some { actor := a, status := .prepared } ∧
    (∀ part ∈ a.partsToUpload.dropLast, part.length = source.partSize) ∧
    (a.partsToUpload.map (·.length)).sum = source.bytes.length ∧ a.partsToUpload.length ≤ 3000

section Limits

variable {o : Options} {r : Random} {source : Source}

theorem acceptedSize_le (source : Source) : source.acceptedSize ≤ intMax := by
  cases source with
  | data bytes => exact Nat.le_refl intMax
  | file contents => exact (by decide : 512 * 1024 * 3000 ≤ intMax)
  | none => exact Nat.zero_le intMax

theorem preferred_bounds (hne : source.bytes ≠ []) :
    photoPartSize ≤ source.preferred ∧ source.preferred ≤ videoPartSize ∧
      source.preferred ∣ 1048576 := by
  cases source with
  | data bytes =>
    exact (by decide : photoPartSize ≤ photoPartSize ∧ photoPartSize ≤ videoPartSize ∧
      photoPartSize ∣ 1048576)
  | file contents =>
    exact (by decide : photoPartSize ≤ videoPartSize ∧ videoPartSize ≤ videoPartSize ∧
      videoPartSize ∣ 1048576)
  | none => exact absurd rfl hne

/-- `execute:` cuts what it accepts. -/
theorem execute_accepted (hne : source.bytes ≠ [])
    (haccepted : source.bytes.length ≤ source.acceptedSize) :
    execute o r source = (prepare o r source.preferred source.bytes).map fun actor =>
      { actor, status := .prepared } := by
  cases source with
  | data bytes => exact if_neg fun hzero => hne (List.length_eq_zero_iff.1 hzero)
  | file contents =>
    cases contents with
    | none => exact absurd rfl hne
    | some contents =>
      have hle : contents.length ≤ 512 * 1024 * 3000 := haccepted
      have hlength : contents.length ≠ 0 := fun hzero => hne (List.length_eq_zero_iff.1 hzero)
      have hint : int32 contents.length = contents.length :=
        int32_of_range (by omega) (by omega)
      unfold execute
      dsimp only
      rw [hint, if_neg (by omega), if_neg (by omega)]
      rfl
  | none => exact absurd rfl hne

/-- The parts of an upload whose size is far enough from `INT_MAX`. -/
theorem execute_cuts (hne : source.bytes ≠ [])
    (haccepted : source.bytes.length ≤ source.acceptedSize)
    (hlength : source.bytes.length ≤ 2 ^ 31 - 2 ^ 20) :
    ∃ a, execute o r source = some { actor := a, status := .prepared } ∧
      Cuts source.partSize source.bytes.length 0 a.partsToUpload := by
  obtain ⟨hlow, hhigh, hdvd⟩ := preferred_bounds hne
  have hsize : int32 source.bytes.length = source.bytes.length :=
    int32_of_range (by omega) (by omega)
  have hpreferred : GoodPartSize source.preferred := by
    cases source with
    | data bytes => exact photoPartSize_good
    | file contents => exact videoPartSize_good
    | none => exact absurd rfl hne
  have hgood := partSizeFor_good hpreferred (show source.bytes.length < 2 ^ 31 by omega)
  obtain ⟨parts, hparts, hcuts⟩ := cutFrom_spec hgood hlength 0
    (show source.bytes.length ≤ 0 + source.bytes.length by omega)
  rw [execute_accepted hne haccepted]
  unfold prepare cutParts
  dsimp only
  rw [hsize, Int.toNat_natCast, hparts]
  exact ⟨_, rfl, hcuts⟩

/-- A part size of 512 KB at most is found for sizes far from `INT_MAX` only. -/
theorem length_of_partSize_le (hle : source.partSize ≤ 512 * 1024) :
    source.bytes.length ≤ 2 ^ 31 - 2 ^ 20 := by
  by_cases hbig : isBig source.bytes.length
  · have hquotient : source.bytes.length / 3000 ≤ source.partSize := by
      unfold Source.partSize partSizeFor
      rw [if_pos hbig]
      exact le_growPartSizeFrom.trans (Nat.le_max_left _ _)
    omega
  · unfold isBig at hbig
    simp only [decide_eq_true_eq] at hbig
    omega

theorem KeepsLimits.fits (h : KeepsLimits o r source) (hne : source.bytes ≠ [])
    (haccepted : source.bytes.length ≤ source.acceptedSize) :
    FitsParts source.bytes.length := by
  obtain ⟨hlow, hhigh, _⟩ := preferred_bounds hne
  obtain ⟨a, ha, _, _, hcount⟩ := h.parts
  obtain ⟨a', ha', hcuts⟩ :=
    execute_cuts (o := o) (r := r) hne haccepted (length_of_partSize_le h.le)
  rw [ha] at ha'
  cases ha'
  apply (partSizeFor_limits hlow hhigh (haccepted.trans (acceptedSize_le source))).1
  exact ⟨h.le, (hcuts.length_le_iff 3000).1 hcount⟩

end Limits

/-- The limits are kept exactly for the sizes that fit. -/
theorem limits_iff (o : Options) (r : Random) (source : Source) (hne : source.bytes ≠ [])
    (haccepted : source.bytes.length ≤ source.acceptedSize) :
    KeepsLimits o r source ↔ FitsParts source.bytes.length := by
  obtain ⟨hlow, hhigh, hdvd⟩ := preferred_bounds hne
  have hsize := haccepted.trans (acceptedSize_le source)
  refine ⟨fun h => h.fits hne haccepted, fun h => ?_⟩
  have hlimit := h.1
  obtain ⟨hle, hcount⟩ := (partSizeFor_limits hlow hhigh hsize).2 h
  obtain ⟨a, ha, hcuts⟩ := execute_cuts (o := o) (r := r) hne haccepted (by omega)
  refine {
    ends := fun _ => Nat.mod_eq_zero_of_dvd (search_dvd hsize)
    divides := Nat.mod_eq_zero_of_dvd (partSizeFor_dvd hdvd hsize)
    le := hle
    parts := ⟨a, ha, hcuts.dropLast_length, hcuts.sum_length, ?_⟩ }
  exact (hcuts.length_le_iff 3000).2 hcount

/-- The search for 3000 parts of 65535 bytes goes on to 64 KB. -/
theorem limits_below :
    KeepsLimits {} { fileId := 1, key := [], iv := ⟨List.replicate 32 0, List.length_replicate⟩ }
      (.file (some (List.replicate (3000 * 65535) 0))) := by
  have hlength : (Source.file (some (List.replicate (3000 * 65535) 0))).bytes.length =
      3000 * 65535 := List.length_replicate
  refine (limits_iff _ _ _ (List.ne_nil_of_length_pos ?_) ?_).2 ⟨?_, fun k hk => .inl ?_⟩
  · rw [hlength]
    decide
  · rw [hlength]
    decide
  · rw [hlength]
    decide
  · rw [hlength]
    exact (by decide : 3000 * 65535 ≤ 3000 * 2 ^ 16).trans
      (Nat.mul_le_mul_left _ (Nat.pow_le_pow_right (by decide) hk))

/-- A file of one byte more than 3000 parts of 64 KB has 3001 parts. -/
theorem remainder_exceeds :
    ∃ source : Source, source.bytes ≠ [] ∧ source.bytes.length ≤ source.acceptedSize ∧
      ∀ o r, ¬ KeepsLimits o r source := by
  have hlength : (List.replicate 196608001 (0 : UInt8)).length = 196608001 :=
    List.length_replicate
  generalize List.replicate 196608001 (0 : UInt8) = contents at hlength
  have hne : (Source.file (some contents)).bytes ≠ [] := by
    intro hnil
    rw [show contents = [] from hnil] at hlength
    cases hlength
  have haccepted : (Source.file (some contents)).bytes.length ≤
      (Source.file (some contents)).acceptedSize := by
    show contents.length ≤ 512 * 1024 * 3000
    omega
  refine ⟨.file (some contents), hne, haccepted, fun o r h => ?_⟩
  have hfits : FitsParts contents.length := h.fits hne haccepted
  have hbetween := hfits.2 16 (Nat.le_refl 16)
  omega

end TelegramPub.Ports.FileUpload
