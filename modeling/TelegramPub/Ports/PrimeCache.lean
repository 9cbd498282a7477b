import TelegramPub.Ports.DhChecks
import TelegramPub.Verified.Machine
import TelegramPub.Verified.SafePrime

/-!
# MTCheckMod and MTCheckIsSafePrime with the keychain

The keychain is a dictionary of texts.  A key is made of the hexadecimal digits of the number
and, for `MTCheckMod`, of `g`; no two numbers and no two checks have a key in common.  So the
dictionary that the calls leave holds the answers of a `Keychain`, and these are true
(`checkMod_refines`, `checkIsSafePrime_refines`).

The answers about a safe prime are those of the reciprocity law.
-/

namespace TelegramPub.Ports.PrimeCache

open Verified.Bytes Verified.Machine Verified.SafePrime Ports.DhChecks

/-- The two digits of a byte, `%02x`. -/
def hexByte (b : UInt8) : List Char :=
  [Nat.digitChar (b.toNat / 16), Nat.digitChar (b.toNat % 16)]

/-- `hexStringFromData`. -/
def hexStringFromData (data : Data) : String := String.ofList (data.flatMap hexByte)

/-- The key of an answer of `MTCheckIsSafePrime`. -/
def primeKey (numberBytes : Data) : String := "isPrimeSafe_" ++ hexStringFromData numberBytes

/-- The key of an answer of `MTCheckMod`; `%d` prints `g` as a signed number. -/
def modKey (numberBytes : Data) (g : UInt32) : String :=
  "isPrimeModSafe_" ++ hexStringFromData numberBytes ++ "_" ++ g.toInt32.toInt.repr

/-- The keychain with its groups, and the user defaults, which nothing reads. -/
structure Store where
  keychain : String → String → Option Bool := fun _ _ => none
  userDefaults : String → Option Bool := fun _ => none

/-- `setObject:forKey:group:` of the keychain. -/
def Store.setObject (s : Store) (answer : Bool) (key group : String) : Store :=
  { s with
    keychain := Function.update s.keychain group
      (Function.update (s.keychain group) key (some answer)) }

/-- `setObject:forKey:` of the user defaults. -/
def Store.setDefault (s : Store) (answer : Bool) (key : String) : Store :=
  { s with userDefaults := Function.update s.userDefaults key (some answer) }

/-- `MTCheckMod`. -/
def mtCheckMod (numberBytes : Data) (g : UInt32) (s : Store) : Bool × Store :=
  match s.keychain "primes" (modKey numberBytes g) with
  | some nCachedResult => (nCachedResult, s)
  | none =>
    let result := isQuadraticResidue numberBytes g.toNat
    (result, s.setObject result (modKey numberBytes g) "primes")

variable (isPrime : Nat → Bool)

/-- `MTCheckIsSafePrime`. -/
def mtCheckIsSafePrime (numberBytes : Data) (s : Store) : Bool × Store :=
  match s.keychain "primes" (primeKey numberBytes) with
  | some nCachedResult => (nCachedResult, s)
  | none =>
    if numberBytes.length ≠ 256 then (false, s.setDefault false (primeKey numberBytes))
    else if numberBytes.headD 0 &&& 0x80 = 0 then
      (false, s.setDefault false (primeKey numberBytes))
    else if numberBytes = goodPrime0 then (true, s)
    else
      let result := isPrimeTwice isPrime numberBytes
      (result, s.setObject result (primeKey numberBytes) "primes")

inductive Call where
  | checkMod (numberBytes : Data) (g : UInt32)
  | checkIsSafePrime (numberBytes : Data)

/-- The answer to a call and the store that it leaves. -/
def answer (s : Store) : Call → Bool × Store
  | .checkMod numberBytes g => mtCheckMod numberBytes g s
  | .checkIsSafePrime numberBytes => mtCheckIsSafePrime isPrime numberBytes s

def step (s : Store) (call : Call) : Store := (answer isPrime s call).2

/-! ## Different keys -/

theorem digitChar_inj : ∀ m < 16, ∀ n < 16, Nat.digitChar m = Nat.digitChar n → m = n := by
  decide

theorem digitChar_ne_underscore : ∀ n < 16, Nat.digitChar n ≠ '_' := by decide

theorem hexByte_inj {a b : UInt8} (h : hexByte a = hexByte b) : a = b := by
  have ha := a.toNat_lt
  have hb := b.toNat_lt
  simp only [hexByte, List.cons.injEq, and_true] at h
  have hhigh := digitChar_inj _ (by omega) _ (by omega) h.1
  have hlow := digitChar_inj _ (by omega) _ (by omega) h.2
  exact UInt8.toNat_inj.1 (by omega)

theorem flatMap_hexByte_inj {data data' : Data}
    (h : data.flatMap hexByte = data'.flatMap hexByte) : data = data' := by
  induction data generalizing data' with
  | nil =>
    cases data' with
    | nil => rfl
    | cons b bs => simp [hexByte] at h
  | cons a as ih =>
    cases data' with
    | nil => simp [hexByte] at h
    | cons b bs =>
      grind [hexByte, hexByte_inj]

theorem underscore_not_mem (data : Data) : '_' ∉ data.flatMap hexByte := by
  intro hmem
  obtain ⟨b, _, hb⟩ := List.mem_flatMap.1 hmem
  have hlt := b.toNat_lt
  simp only [hexByte, List.mem_cons, List.not_mem_nil, or_false] at hb
  rcases hb with hb | hb
  · exact digitChar_ne_underscore _ (by omega) hb.symm
  · exact digitChar_ne_underscore _ (by omega) hb.symm

/-- What stands in front of the first separator, and what stands behind it. -/
theorem append_cons_inj {α : Type*} {c : α} {l l' r r' : List α} (hl : c ∉ l) (hl' : c ∉ l')
    (h : l ++ c :: r = l' ++ c :: r') : l = l' ∧ r = r' := by
  induction l generalizing l' with
  | nil =>
    cases l' with
    | nil => exact ⟨rfl, (List.cons.inj h).2⟩
    | cons d ds => exact absurd (List.cons.inj h).1 fun heq => hl' (heq ▸ List.mem_cons_self)
  | cons a as ih =>
    cases l' with
    | nil => exact absurd (List.cons.inj h).1 fun heq => hl (heq ▸ List.mem_cons_self)
    | cons d ds =>
      grind

theorem natRepr_inj {m n : Nat} (h : m.repr = n.repr) : m = n := by
  rw [Nat.repr_eq_ofList_toDigits, Nat.repr_eq_ofList_toDigits] at h
  have hdigits := congrArg (fun digits => Nat.ofDigitChars 10 digits 0) (String.ofList_injective h)
  simpa only [Nat.ofDigitChars_ten_toDigits] using hdigits

/-- A number without a sign does not begin with one. -/
theorem natRepr_ne_minus (m : Nat) (s : String) : m.repr ≠ "-" ++ s := by
  intro h
  have hlist := congrArg String.toList h
  rw [Nat.repr_eq_ofList_toDigits, String.toList_ofList, String.toList_append] at hlist
  have hmem : '-' ∈ Nat.toDigits 10 m := by
    rw [hlist]
    exact List.mem_append_left _ (by decide)
  exact absurd (Nat.isDigit_of_mem_toDigits (by decide) (by decide) hmem) (by decide)

theorem intRepr_inj {a b : Int} (h : a.repr = b.repr) : a = b := by
  rw [Int.repr_eq_if, Int.repr_eq_if] at h
  by_cases ha : 0 ≤ a
  · grind [natRepr_inj, natRepr_ne_minus]
  · by_cases hb : 0 ≤ b
    · rw [if_neg ha, if_pos hb] at h
      exact absurd h.symm (natRepr_ne_minus _ _)
    · rw [if_neg ha, if_neg hb, String.append_right_inj] at h
      have := natRepr_inj h
      omega

variable {numberBytes : Data}

theorem primeKey_inj {numberBytes' : Data} (h : primeKey numberBytes = primeKey numberBytes')
    : numberBytes = numberBytes' := by
  have hlist := congrArg String.toList h
  simp only [primeKey, String.toList_append, hexStringFromData, String.toList_ofList] at hlist
  exact flatMap_hexByte_inj (List.append_cancel_left hlist)

theorem toList_modKey (numberBytes : Data) (g : UInt32) :
    (modKey numberBytes g).toList = "isPrimeModSafe_".toList ++
      (numberBytes.flatMap hexByte ++ ("_".toList ++ g.toInt32.toInt.repr.toList)) := by
  delta modKey
  simp only [String.toList_append, hexStringFromData, String.toList_ofList, List.append_assoc]

theorem modKey_inj {numberBytes' : Data} {g g' : UInt32}
    (h : modKey numberBytes g = modKey numberBytes' g') : numberBytes = numberBytes' ∧ g = g' := by
  have hlist := congrArg String.toList h
  rw [toList_modKey, toList_modKey] at hlist
  obtain ⟨hbytes, hrepr⟩ := append_cons_inj (underscore_not_mem _) (underscore_not_mem _)
    (List.append_cancel_left hlist)
  have hint := intRepr_inj (String.toList_inj.1 hrepr)
  have hword := congrArg Int32.toUInt32 (Int32.toInt_inj.1 hint)
  exact ⟨flatMap_hexByte_inj hbytes, hword⟩

/-- The eighth character is another one. -/
theorem primeKey_ne_modKey (numberBytes numberBytes' : Data) (g : UInt32) :
    primeKey numberBytes ≠ modKey numberBytes' g := by
  intro h
  have hlist := congrArg (fun key => key.toList[7]?) h
  simp only [toList_modKey, primeKey, String.toList_append] at hlist
  cases hlist

/-- The group `primes` holds what a keychain remembers. -/
structure Represents {isPrime : Nat → Bool} (keychain : Keychain isPrime) (s : Store) : Prop where
  prime : ∀ numberBytes, s.keychain "primes" (primeKey numberBytes) =
    keychain.isPrimeSafe numberBytes
  mod : ∀ numberBytes g, s.keychain "primes" (modKey numberBytes g) =
    keychain.isPrimeModSafe numberBytes g.toNat

variable {isPrime : Nat → Bool}

theorem represents_empty : Represents (Keychain.empty : Keychain isPrime) {} :=
  ⟨fun _ => rfl, fun _ _ => rfl⟩

theorem setObject_same (s : Store) (answer : Bool) (key group : String) :
    (s.setObject answer key group).keychain group key = some answer := by
  simp [Store.setObject]

theorem setObject_other (s : Store) (answer : Bool) {key key' : String} (group : String)
    (h : key' ≠ key) :
    (s.setObject answer key group).keychain group key' = s.keychain group key' := by
  simp [Store.setObject, h]

variable {keychain : Keychain isPrime}

/-- `MTCheckMod` on the dictionary is the one on the keychain that it holds. -/
theorem checkMod_refines {s : Store} (h : Represents keychain s) (numberBytes : Data) (g : UInt32) :
    (mtCheckMod numberBytes g s).1 = (checkMod keychain numberBytes g.toNat).1 ∧
      Represents (checkMod keychain numberBytes g.toNat).2 (mtCheckMod numberBytes g s).2 := by
  have hlookup := h.mod numberBytes g
  unfold mtCheckMod checkMod
  cases hcached : keychain.isPrimeModSafe numberBytes g.toNat with
  | some cachedResult =>
    rw [hlookup, hcached]
    exact ⟨rfl, h⟩
  | none =>
    rw [hlookup, hcached]
    refine ⟨rfl, fun other => ?_, fun other g' => ?_⟩
    · exact (setObject_other s _ _ (primeKey_ne_modKey other numberBytes g)).trans (h.prime other)
    · by_cases hsame : other = numberBytes ∧ g'.toNat = g.toNat
      · obtain ⟨rfl, hg⟩ := hsame
        obtain rfl := UInt32.toNat_inj.1 hg
        exact (setObject_same s _ _ _).trans (if_pos ⟨rfl, rfl⟩).symm
      · have hne : modKey other g' ≠ modKey numberBytes g := fun heq =>
          hsame ⟨(modKey_inj heq).1, congrArg UInt32.toNat (modKey_inj heq).2⟩
        exact (setObject_other s _ _ hne).trans ((h.mod other g').trans (if_neg hsame).symm)

theorem Represents.setDefault {s : Store} (h : Represents keychain s) (answer : Bool) (key : String)
    :
    Represents keychain (s.setDefault answer key) :=
  ⟨h.prime, h.mod⟩

/-- `MTCheckIsSafePrime` on the dictionary is the one on the keychain that it holds. -/
theorem checkIsSafePrime_refines {s : Store} (h : Represents keychain s) (numberBytes : Data) :
    (mtCheckIsSafePrime isPrime numberBytes s).1 = (checkIsSafePrime keychain numberBytes).1 ∧
      Represents (checkIsSafePrime keychain numberBytes).2
        (mtCheckIsSafePrime isPrime numberBytes s).2 := by
  have hlookup := h.prime numberBytes
  unfold mtCheckIsSafePrime checkIsSafePrime
  cases hcached : keychain.isPrimeSafe numberBytes with
  | some cachedResult =>
    rw [hlookup, hcached]
    exact ⟨rfl, h⟩
  | none =>
    rw [hlookup, hcached]
    by_cases hlength : numberBytes.length ≠ 256
    · simp only [if_pos hlength, dif_pos hlength]
      exact ⟨trivial, h.setDefault _ _⟩
    · by_cases hbit : numberBytes.headD 0 &&& 0x80 = 0
      · simp only [if_neg hlength, dif_neg hlength, if_pos hbit, dif_pos hbit]
        exact ⟨trivial, h.setDefault _ _⟩
      · by_cases hgood : numberBytes = goodPrime0
        · simp only [if_neg hlength, dif_neg hlength, if_neg hbit, dif_neg hbit, if_pos hgood,
            dif_pos hgood]
          exact ⟨trivial, h⟩
        · simp only [if_neg hlength, dif_neg hlength, if_neg hbit, dif_neg hbit, if_neg hgood,
            dif_neg hgood]
          refine ⟨trivial, fun other => ?_, fun other g => ?_⟩
          · by_cases hsame : other = numberBytes
            · rw [hsame]
              exact (setObject_same s _ _ _).trans (if_pos rfl).symm
            · have hne : primeKey other ≠ primeKey numberBytes := fun heq =>
                hsame (primeKey_inj heq)
              exact (setObject_other s _ _ hne).trans ((h.prime other).trans (if_neg hsame).symm)
          · exact (setObject_other s _ _ (primeKey_ne_modKey numberBytes other g).symm).trans
              (h.mod other g)

theorem answer_of_represents {s : Store} (h : Represents keychain s) (call : Call) :
    (answer isPrime s call).1 = (answer isPrime {} call).1 := by
  cases call with
  | checkMod numberBytes g =>
    calc (mtCheckMod numberBytes g s).1
        = isQuadraticResidue numberBytes g.toNat :=
          (checkMod_refines h numberBytes g).1.trans (checkMod_fst _ _ _)
      _ = (mtCheckMod numberBytes g {}).1 := rfl
  | checkIsSafePrime numberBytes =>
    calc (mtCheckIsSafePrime isPrime numberBytes s).1
        = isSafePrime isPrime numberBytes :=
          (checkIsSafePrime_refines h numberBytes).1.trans (checkIsSafePrime_fst _ _)
      _ = (mtCheckIsSafePrime isPrime numberBytes {}).1 :=
          ((checkIsSafePrime_refines represents_empty numberBytes).1.trans
            (checkIsSafePrime_fst _ _)).symm

theorem represents_run (isPrime : Nat → Bool) (calls : List Call) :
    ∃ keychain : Keychain isPrime, Represents keychain (run (step isPrime) {} calls) := by
  have hstep : ∀ s call, (∃ keychain : Keychain isPrime, Represents keychain s) →
      ∃ keychain : Keychain isPrime, Represents keychain (step isPrime s call) := by
    rintro s call ⟨keychain, h⟩
    cases call with
    | checkMod numberBytes g => exact ⟨_, (checkMod_refines h numberBytes g).2⟩
    | checkIsSafePrime numberBytes => exact ⟨_, (checkIsSafePrime_refines h numberBytes).2⟩
  exact run_invariant hstep calls {} ⟨Keychain.empty, represents_empty⟩

/-- The table of `MTCheckMod` is the reciprocity law for safe primes. -/
theorem isQuadraticResidue_iff (h : IsSafePrime (beNat numberBytes)) {g : Nat} (h2 : 2 ≤ g)
    (h7 : g ≤ 7) :
    isQuadraticResidue numberBytes g = true ↔ IsSquare (g : ZMod (beNat numberBytes)) := by
  have hthree := h.mod_three
  interval_cases g
  · simp [isQuadraticResidue, h.isSquare_two]
  · simp [isQuadraticResidue, h.isSquare_three, hthree]
  · simp [isQuadraticResidue, isSquare_four]
  · simp [isQuadraticResidue, h.isSquare_five]
  · simp [isQuadraticResidue, h.isSquare_six]
  · simp [isQuadraticResidue, h.isSquare_seven, or_assoc]

/-- Without a remembered answer `MTCheckMod` decides whether `g` is a square modulo a safe
prime, so whether it has the order `(p - 1) / 2`; and after any calls every answer is the fresh
one. -/
theorem mtCheckMod_exact (isPrime : Nat → Bool) (calls : List Call) (call : Call)
    (numberBytes : Data) (g : UInt32) (s : Store) (h : IsSafePrime (beNat numberBytes))
    (h2 : 2 ≤ g.toNat) (h7 : g.toNat ≤ 7)
    (hcached : s.keychain "primes" (modKey numberBytes g) = none) :
    ((mtCheckMod numberBytes g s).1 = true ↔ IsSquare (g.toNat : ZMod (beNat numberBytes))) ∧
      (IsSquare (g.toNat : ZMod (beNat numberBytes)) ↔
        orderOf (g.toNat : ZMod (beNat numberBytes)) = (beNat numberBytes - 1) / 2) ∧
      (answer isPrime (run (step isPrime) {} calls) call).1 = (answer isPrime {} call).1 := by
  obtain ⟨h0, h1⟩ := h.natCast_ne h2 h7
  obtain ⟨keychain, hkeychain⟩ := represents_run isPrime calls
  refine ⟨?_, h.isSquare_iff_orderOf h0 h1, answer_of_represents hkeychain call⟩
  rw [← isQuadraticResidue_iff h h2 h7, mtCheckMod, hcached]

/-- Two is 5² modulo 23. -/
theorem mtCheckMod_twentyThree :
    (mtCheckMod [23] 2 {}).1 = true ↔ IsSquare (((2 : UInt32).toNat : Nat) : ZMod (beNat [23])) :=
  (mtCheckMod_exact (fun _ => true) [.checkMod [23] 2] (.checkMod [23] 2) [23] 2 {}
    ⟨by decide, by decide, by decide⟩ (by decide) (by decide) rfl).1

end TelegramPub.Ports.PrimeCache
