import GrowServer.Lib.Fnv1a
import GrowServer.Lib.LittleEndian

/-!
# The command hash (Utils/MiscUtils.hpp, Hash::Fnv1A)

The hash of a console command, where `char` is signed and `size_t` has 64 bits: a
character is converted to `size_t` before it is taken in, so that one from 0x80 on
brings 56 bits of its sign with it.
-/

namespace GrowServer
open LittleEndian

namespace Hash

-- a signed `char` converted to `size_t`
def ofChar (c : UInt8) : UInt64 := c.toInt8.toInt64.toUInt64

def fnv1A (data : Bytes) : UInt64 :=
  data.foldl (fun hash c => (hash ^^^ ofChar c) * 1099511628211) 14695981039346656037

/-- How far a hash is off after a character, when it was off by `drift` before, and the
hash that is not off takes the character in as `mixed`. -/
def nextDrift (mixed drift : UInt64) (c : UInt8) : UInt64 :=
  if c < 128 then drift else 2 * (mixed % 256) - 256 - 2 * mixed - drift

def driftFrom (hash drift : UInt64) : Bytes → UInt64
  | [] => drift
  | c :: data =>
    let mixed := hash ^^^ c.toUInt64
    driftFrom (mixed * Fnv1a.prime) (nextDrift mixed drift c * Fnv1a.prime) data

/-- What the signs of the characters add to the hash of the bytes. -/
def signDrift (data : Bytes) : UInt64 := driftFrom Fnv1a.offsetBasis 0 data

theorem ofChar_eq (c : UInt8) :
    ofChar c = if c < 128 then c.toUInt64 else c.toUInt64 ^^^ Fnv1a.upperBits := by
  have hall : ∀ n, n < 256 → ofChar (UInt8.ofNat n) =
      if UInt8.ofNat n < 128 then (UInt8.ofNat n).toUInt64
      else (UInt8.ofNat n).toUInt64 ^^^ Fnv1a.upperBits := by decide +kernel
  have hc := hall c.toNat c.toNat_lt
  rwa [UInt8.ofNat_toNat] at hc

/-- One character, taken in by a hash that is off by a multiple of 256. -/
theorem xor_ofChar (hash drift : UInt64) (c : UInt8) (h : drift.toNat % 256 = 0) :
    (hash + drift) ^^^ ofChar c =
      (hash ^^^ c.toUInt64) + nextDrift (hash ^^^ c.toUInt64) drift c := by
  rw [ofChar_eq, nextDrift]
  by_cases hc : c < 128
  · rw [if_pos hc, if_pos hc, Fnv1a.xor_byte_add _ _ _ h]
  · have hlow : ((hash ^^^ c.toUInt64) + drift) % 256 = (hash ^^^ c.toUInt64) % 256 := by
      apply UInt64.toNat_inj.mp
      show ((hash ^^^ c.toUInt64) + drift).toNat % 256 = (hash ^^^ c.toUInt64).toNat % 256
      rw [UInt64.toNat_add]
      omega
    rw [if_neg hc, if_neg hc, ← UInt64.xor_assoc, Fnv1a.xor_byte_add _ _ _ h,
      Fnv1a.xor_upperBits, hlow]
    grind

theorem sub_mod (a b : UInt64) : ((a - b).toNat + b.toNat) % 512 = a.toNat % 512 := by
  have hb : b.toNat < 2 ^ 64 := b.toNat_lt
  rw [UInt64.toNat_sub]
  omega

/-- Each character from 0x80 on moves the hash by an odd multiple of 256. -/
theorem nextDrift_mod (mixed drift : UInt64) (c : UInt8) (h : drift.toNat % 256 = 0) :
    (nextDrift mixed drift c).toNat % 512 = (drift.toNat + if 128 ≤ c then 256 else 0) % 512 := by
  rw [nextDrift]
  by_cases hc : c < 128
  · rw [if_pos hc, if_neg (UInt8.not_le.mpr hc), Nat.add_zero]
  · have htwo : (2 : UInt64).toNat = 2 := rfl
    have hbyte : (256 : UInt64).toNat = 256 := rfl
    have hmod : (mixed % 256).toNat = mixed.toNat % 256 := rfl
    have hlow : (2 * (mixed % 256)).toNat = 2 * (mixed.toNat % 256) := by
      rw [UInt64.toNat_mul, htwo, hmod]
      omega
    have hdouble : (2 * mixed).toNat % 512 = 2 * (mixed.toNat % 256) := by
      rw [UInt64.toNat_mul, htwo]
      omega
    have hfirst := sub_mod (2 * (mixed % 256)) 256
    have hsecond := sub_mod (2 * (mixed % 256) - 256) (2 * mixed)
    have hthird := sub_mod (2 * (mixed % 256) - 256 - 2 * mixed) drift
    rw [hlow, hbyte] at hfirst
    rw [if_neg hc, if_pos (UInt8.not_lt.mp hc)]
    omega

theorem mul_prime_mod {drift : UInt64} (h : drift.toNat % 256 = 0) :
    (drift * Fnv1a.prime).toNat % 512 = drift.toNat % 512 := by
  have hprime : Fnv1a.prime.toNat = 1099511628211 := rfl
  rw [UInt64.toNat_mul, hprime]
  omega

theorem nextDrift_low (mixed drift : UInt64) (c : UInt8) (h : drift.toNat % 256 = 0) :
    (nextDrift mixed drift c).toNat % 256 = 0 := by
  have hnext := nextDrift_mod mixed drift c h
  by_cases hc : 128 ≤ c
  · rw [if_pos hc] at hnext
    omega
  · rw [if_neg hc] at hnext
    omega

theorem mul_prime_low {drift : UInt64} (h : drift.toNat % 256 = 0) :
    (drift * Fnv1a.prime).toNat % 256 = 0 := by
  have hmul := mul_prime_mod h
  omega

theorem driftFrom_mod (hash drift : UInt64) (data : Bytes) (h : drift.toNat % 256 = 0) :
    (driftFrom hash drift data).toNat % 512 =
      (drift.toNat + 256 * data.countP (128 ≤ ·)) % 512 := by
  induction data generalizing hash drift with
  | nil => rfl
  | cons c data ih =>
    have hlow := nextDrift_low (hash ^^^ c.toUInt64) drift c h
    have hnext := nextDrift_mod (hash ^^^ c.toUInt64) drift c h
    rw [← mul_prime_mod hlow] at hnext
    rw [driftFrom, ih _ _ (mul_prime_low hlow), List.countP_cons]
    simp only [decide_eq_true_eq]
    by_cases hc : 128 ≤ c
    · rw [if_pos hc] at hnext ⊢
      omega
    · rw [if_neg hc] at hnext ⊢
      omega

theorem driftFrom_small (hash : UInt64) {data : Bytes} (h : ∀ c ∈ data, c < 128) :
    driftFrom hash 0 data = 0 := by
  induction data generalizing hash with
  | nil => rfl
  | cons c data ih =>
    obtain ⟨hc, hdata⟩ := List.forall_mem_cons.mp h
    rw [driftFrom, nextDrift, if_pos hc, UInt64.zero_mul]
    exact ih _ hdata

theorem foldl_eq (hash drift : UInt64) (data : Bytes) (h : drift.toNat % 256 = 0) :
    data.foldl (fun hash c => (hash ^^^ ofChar c) * 1099511628211) (hash + drift) =
      data.foldl Fnv1a.absorb hash + driftFrom hash drift data := by
  induction data generalizing hash drift with
  | nil => rfl
  | cons c data ih =>
    rw [List.foldl_cons, List.foldl_cons, xor_ofChar hash drift c h, UInt64.add_mul]
    exact ih _ _ (mul_prime_low (nextDrift_low _ drift c h))

/-- The command hash is the hash of the bytes plus what their signs add. -/
theorem fnv1A_eq (data : Bytes) : fnv1A data = Fnv1a.hash data + signDrift data := by
  have hfold := foldl_eq Fnv1a.offsetBasis 0 data rfl
  rwa [UInt64.add_zero] at hfold

theorem signDrift_of_small {data : Bytes} (h : ∀ c ∈ data, c < 128) : signDrift data = 0 :=
  driftFrom_small Fnv1a.offsetBasis h

theorem signDrift_of_odd {data : Bytes} (h : data.countP (128 ≤ ·) % 2 = 1) :
    signDrift data ≠ 0 := by
  intro hzero
  have hmod := driftFrom_mod Fnv1a.offsetBasis 0 data rfl
  have hnone : (0 : UInt64).toNat = 0 := rfl
  rw [← signDrift, hzero, hnone] at hmod
  omega

theorem fnv1A_eq_hash (data : Bytes) : fnv1A data = Fnv1a.hash data ↔ signDrift data = 0 := by
  rw [fnv1A_eq]
  exact UInt64.add_eq_left

-- two characters from 0x80 on, whose signs cancel
def signsCancel : Bytes := [0x80, 0x7f, 0x08, 0x1b, 0x0d, 0x34, 0x56, 0x32, 0x2a, 0x80]

/-- Where no character is from 0x80 on, the command hash is FNV-1a, and where an odd number
of them is, it is not. Of two of them the signs can cancel or not. -/
theorem fnv1A_eq_hash_of_small (data : Bytes) :
    ((∀ c ∈ data, c < 128) → fnv1A data = Fnv1a.hash data) ∧
      (data.countP (128 ≤ ·) % 2 = 1 → fnv1A data ≠ Fnv1a.hash data) ∧
      (∃ two, two.countP (128 ≤ ·) = 2 ∧ fnv1A two = Fnv1a.hash two) ∧
      ∃ two, two.countP (128 ≤ ·) = 2 ∧ fnv1A two ≠ Fnv1a.hash two := by
  refine ⟨?_, ?_, ⟨signsCancel, by decide, by decide⟩, ⟨[0x80, 0x80], by decide, by decide⟩⟩
  · intro hsmall
    exact (fnv1A_eq_hash data).mpr (signDrift_of_small hsmall)
  · intro hodd heq
    exact signDrift_of_odd hodd ((fnv1A_eq_hash data).mp heq)

theorem not_fnv1A_eq_hash : ¬ fnv1A [0x80] = Fnv1a.hash [0x80] := by decide

end Hash

end GrowServer
