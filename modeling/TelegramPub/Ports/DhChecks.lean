import TelegramPub.Verified.Bytes

/-!
# Checks of Diffie-Hellman parameters

The functions of `MTEncryption` that judge what a server proposes for a key
exchange, and the exponentiation.  Numbers are big-endian byte strings.

Two of the checks remember their answers in the keychain, under a key made of
the hexadecimal digits of the number.  Nothing else writes there, so a
remembered answer is the one the check would give again; `Keychain` carries this
as its invariant.  The primality test is a parameter.
-/

namespace TelegramPub.Ports.DhChecks

open Verified.Bytes

/-- `MTCheckIsSafeG`. -/
def checkIsSafeG (g : Nat) : Bool := 2 ≤ g && g ≤ 7

/-- `MTCheckIsSafeGAOrB`. -/
def checkIsSafeGAOrB (gAOrB p : Data) : Bool :=
  decide (1 < beNat gAOrB) && decide ((beNat gAOrB : Int) < (beNat p : Int) - 1)

/-- `MTExp`. -/
def exp (base exponent modulus : Data) : Data :=
  natBE (beNat base ^ beNat exponent % beNat modulus)

/-- The switch of `MTCheckMod`. -/
def isQuadraticResidue (numberBytes : Data) (g : Nat) : Bool :=
  let number := beNat numberBytes
  match g with
  | 2 => number % 8 == 7
  | 3 => number % 3 == 2
  | 4 => true
  | 5 => number % 5 == 1 || number % 5 == 4
  | 6 => number % 24 == 19 || number % 24 == 23
  | 7 => number % 7 == 3 || number % 7 == 5 || number % 7 == 6
  | _ => false

/-- The prime the servers use, which is not tested again. -/
def goodPrime0 : Data :=
  [ 0xc7, 0x1c, 0xae, 0xb9, 0xc6, 0xb1, 0xc9, 0x04, 0x8e, 0x6c, 0x52, 0x2f, 0x70, 0xf1,
    0x3f, 0x73, 0x98, 0x0d, 0x40, 0x23, 0x8e, 0x3e, 0x21, 0xc1, 0x49, 0x34, 0xd0, 0x37,
    0x56, 0x3d, 0x93, 0x0f, 0x48, 0x19, 0x8a, 0x0a, 0xa7, 0xc1, 0x40, 0x58, 0x22, 0x94,
    0x93, 0xd2, 0x25, 0x30, 0xf4, 0xdb, 0xfa, 0x33, 0x6f, 0x6e, 0x0a, 0xc9, 0x25, 0x13,
    0x95, 0x43, 0xae, 0xd4, 0x4c, 0xce, 0x7c, 0x37, 0x20, 0xfd, 0x51, 0xf6, 0x94, 0x58,
    0x70, 0x5a, 0xc6, 0x8c, 0xd4, 0xfe, 0x6b, 0x6b, 0x13, 0xab, 0xdc, 0x97, 0x46, 0x51,
    0x29, 0x69, 0x32, 0x84, 0x54, 0xf1, 0x8f, 0xaf, 0x8c, 0x59, 0x5f, 0x64, 0x24, 0x77,
    0xfe, 0x96, 0xbb, 0x2a, 0x94, 0x1d, 0x5b, 0xcd, 0x1d, 0x4a, 0xc8, 0xcc, 0x49, 0x88,
    0x07, 0x08, 0xfa, 0x9b, 0x37, 0x8e, 0x3c, 0x4f, 0x3a, 0x90, 0x60, 0xbe, 0xe6, 0x7c,
    0xf9, 0xa4, 0xa4, 0xa6, 0x95, 0x81, 0x10, 0x51, 0x90, 0x7e, 0x16, 0x27, 0x53, 0xb5,
    0x6b, 0x0f, 0x6b, 0x41, 0x0d, 0xba, 0x74, 0xd8, 0xa8, 0x4b, 0x2a, 0x14, 0xb3, 0x14,
    0x4e, 0x0e, 0xf1, 0x28, 0x47, 0x54, 0xfd, 0x17, 0xed, 0x95, 0x0d, 0x59, 0x65, 0xb4,
    0xb9, 0xdd, 0x46, 0x58, 0x2d, 0xb1, 0x17, 0x8d, 0x16, 0x9c, 0x6b, 0xc4, 0x65, 0xb0,
    0xd6, 0xff, 0x9c, 0xa3, 0x92, 0x8f, 0xef, 0x5b, 0x9a, 0xe4, 0xe4, 0x18, 0xfc, 0x15,
    0xe8, 0x3e, 0xbe, 0xa0, 0xf8, 0x7f, 0xa9, 0xff, 0x5e, 0xed, 0x70, 0x05, 0x0d, 0xed,
    0x28, 0x49, 0xf4, 0x7b, 0xf9, 0x59, 0xd9, 0x56, 0x85, 0x0c, 0xe9, 0x29, 0x85, 0x1f,
    0x0d, 0x81, 0x15, 0xf6, 0x35, 0xb1, 0x05, 0xee, 0x2e, 0x4e, 0x15, 0xd0, 0x4b, 0x24,
    0x54, 0xbf, 0x6f, 0x4f, 0xad, 0xf0, 0x34, 0xb1, 0x04, 0x03, 0x11, 0x9c, 0xd8, 0xe3,
    0xb9, 0x2f, 0xcc, 0x5b ]

/-- `BN_is_prime_ex` of a number and of half of it. -/
def isPrimeTwice (isPrime : Nat → Bool) (numberBytes : Data) : Bool :=
  isPrime (beNat numberBytes) && isPrime ((beNat numberBytes - 1) / 2)

/-- What `MTCheckIsSafePrime` answers about a number it does not remember. -/
def isSafePrime (isPrime : Nat → Bool) (numberBytes : Data) : Bool :=
  if numberBytes.length ≠ 256 then false
  else if numberBytes.headD 0 &&& 0x80 = 0 then false
  else if numberBytes = goodPrime0 then true
  else isPrimeTwice isPrime numberBytes

/-- The group `primes` of the keychain.  What it remembers is true. -/
structure Keychain (isPrime : Nat → Bool) where
  isPrimeSafe : Data → Option Bool
  isPrimeModSafe : Data → Nat → Option Bool
  safe_sound : ∀ {bytes : Data} {answer : Bool}, isPrimeSafe bytes = some answer →
    answer = isSafePrime isPrime bytes
  mod_sound : ∀ {bytes : Data} {g : Nat} {answer : Bool}, isPrimeModSafe bytes g = some answer →
    answer = isQuadraticResidue bytes g

variable {isPrime : Nat → Bool}

/-- A keychain that remembers nothing. -/
def Keychain.empty : Keychain isPrime where
  isPrimeSafe := fun _ => none
  isPrimeModSafe := fun _ _ => none
  safe_sound := by intro bytes answer h; cases h
  mod_sound := by intro bytes g answer h; cases h

/-- `setObject:forKey:` with an answer about a prime. -/
def Keychain.setPrimeSafe (keychain : Keychain isPrime) (bytes : Data) (answer : Bool)
    (h : answer = isSafePrime isPrime bytes) : Keychain isPrime where
  isPrimeSafe := fun other => if other = bytes then some answer else keychain.isPrimeSafe other
  isPrimeModSafe := keychain.isPrimeModSafe
  safe_sound := by
    intro other found hfound
    by_cases hother : other = bytes
    · rw [if_pos hother] at hfound
      rw [← Option.some.inj hfound, hother]
      exact h
    · rw [if_neg hother] at hfound
      exact keychain.safe_sound hfound
  mod_sound := keychain.mod_sound

/-- `setObject:forKey:` with an answer about a generator. -/
def Keychain.setPrimeModSafe (keychain : Keychain isPrime) (bytes : Data) (g : Nat)
    (answer : Bool) (h : answer = isQuadraticResidue bytes g) : Keychain isPrime where
  isPrimeSafe := keychain.isPrimeSafe
  isPrimeModSafe := fun other otherG =>
    if other = bytes ∧ otherG = g then some answer else keychain.isPrimeModSafe other otherG
  safe_sound := keychain.safe_sound
  mod_sound := by
    intro other otherG found hfound
    by_cases hother : other = bytes ∧ otherG = g
    · rw [if_pos hother] at hfound
      rw [← Option.some.inj hfound, hother.1, hother.2]
      exact h
    · rw [if_neg hother] at hfound
      exact keychain.mod_sound hfound

/-- `MTCheckMod`. -/
def checkMod (keychain : Keychain isPrime) (numberBytes : Data) (g : Nat) :
    Bool × Keychain isPrime :=
  match keychain.isPrimeModSafe numberBytes g with
  | some cachedResult => (cachedResult, keychain)
  | none =>
    let result := isQuadraticResidue numberBytes g
    (result, keychain.setPrimeModSafe numberBytes g result rfl)

/-- `MTCheckIsSafePrime`.  The answers that need no test are not remembered. -/
def checkIsSafePrime (keychain : Keychain isPrime) (numberBytes : Data) :
    Bool × Keychain isPrime :=
  match keychain.isPrimeSafe numberBytes with
  | some cachedResult => (cachedResult, keychain)
  | none =>
    if hlength : numberBytes.length ≠ 256 then (false, keychain)
    else if hbit : numberBytes.headD 0 &&& 0x80 = 0 then (false, keychain)
    else if hgood : numberBytes = goodPrime0 then (true, keychain)
    else
      let result := isPrimeTwice isPrime numberBytes
      (result, keychain.setPrimeSafe numberBytes result (by
        unfold isSafePrime
        rw [if_neg hlength, if_neg hbit, if_neg hgood]))

theorem checkIsSafeG_iff (g : Nat) : checkIsSafeG g = true ↔ 2 ≤ g ∧ g ≤ 7 := by
  unfold checkIsSafeG
  rw [Bool.and_eq_true, decide_eq_true_iff, decide_eq_true_iff]

theorem checkIsSafeGAOrB_iff (gAOrB p : Data) :
    checkIsSafeGAOrB gAOrB p = true ↔
      1 < beNat gAOrB ∧ (beNat gAOrB : Int) < (beNat p : Int) - 1 := by
  unfold checkIsSafeGAOrB
  rw [Bool.and_eq_true, decide_eq_true_iff, decide_eq_true_iff]

/-- `MTCheckMod` answers what its switch answers, remembered or not. -/
theorem checkMod_fst (keychain : Keychain isPrime) (numberBytes : Data) (g : Nat) :
    (checkMod keychain numberBytes g).1 = isQuadraticResidue numberBytes g := by
  unfold checkMod
  split
  · next cachedResult hcached => exact keychain.mod_sound hcached
  · rfl

/-- `MTCheckIsSafePrime` answers what it computes, remembered or not. -/
theorem checkIsSafePrime_fst (keychain : Keychain isPrime) (numberBytes : Data) :
    (checkIsSafePrime keychain numberBytes).1 = isSafePrime isPrime numberBytes := by
  unfold checkIsSafePrime
  split
  · next cachedResult hcached => exact keychain.safe_sound hcached
  · grind [isSafePrime]

theorem beNat_exp (base exponent modulus : Data) :
    beNat (exp base exponent modulus) = beNat base ^ beNat exponent % beNat modulus :=
  beNat_natBE _

end TelegramPub.Ports.DhChecks
