import Mathlib.Algebra.Order.Ring.Nat

/-!
# The FNV-1a hash

The 64-bit hash that takes in one byte at a time, by exclusive or and a multiplication,
and how exclusive or acts on 64-bit numbers: with a byte it changes the low byte only,
so that it commutes with adding a multiple of 256; with all the other bits it negates
the number except for its low byte.
-/

namespace Fnv1a

def offsetBasis : UInt64 := 14695981039346656037
def prime : UInt64 := 1099511628211

def absorb (hash : UInt64) (byte : UInt8) : UInt64 := (hash ^^^ byte.toUInt64) * prime

def hash (data : List UInt8) : UInt64 := data.foldl absorb offsetBasis

/-- All bits but those of the low byte. -/
def upperBits : UInt64 := 0xFFFFFFFFFFFFFF00

theorem xor_ones {x k : ℕ} (h : x < 2 ^ k) : x ^^^ (2 ^ k - 1) = 2 ^ k - 1 - x := by
  have hnot : (BitVec.ofNat k x ^^^ BitVec.allOnes k).toNat = (~~~BitVec.ofNat k x).toNat :=
    congrArg BitVec.toNat BitVec.xor_allOnes
  rwa [BitVec.toNat_xor, BitVec.toNat_allOnes, BitVec.toNat_not, BitVec.toNat_ofNat,
    Nat.mod_eq_of_lt h] at hnot

theorem xor_byte (x : ℕ) {c : ℕ} (hc : c < 256) :
    x ^^^ c = 256 * (x / 256) + (x % 256 ^^^ c) := by
  have hupper : (x ^^^ c) / 2 ^ 8 = x / 256 := by
    rw [Nat.xor_div_two_pow, Nat.div_eq_of_lt hc, Nat.xor_zero]
  have hlower : (x ^^^ c) % 2 ^ 8 = x % 256 ^^^ c := by
    rw [Nat.xor_mod_two_pow, Nat.mod_eq_of_lt hc]
  omega

theorem xor_byte_add (x d : UInt64) (c : UInt8) (hd : d.toNat % 256 = 0) :
    (x + d) ^^^ c.toUInt64 = (x ^^^ c.toUInt64) + d := by
  have hc : c.toNat < 256 := c.toNat_lt
  have hsum : (x.toNat + d.toNat) % 2 ^ 64 % 256 = x.toNat % 256 := by omega
  have hlow : x.toNat % 256 ^^^ c.toNat < 2 ^ 8 := Nat.xor_lt_two_pow (by omega) hc
  apply UInt64.toNat_inj.mp
  rw [UInt64.toNat_xor, UInt64.toNat_add, UInt64.toNat_add, UInt64.toNat_xor, UInt8.toNat_toUInt64,
    xor_byte _ hc, xor_byte x.toNat hc, hsum]
  omega

theorem xor_upperBits (x : UInt64) : x ^^^ upperBits = 2 * (x % 256) - 256 - x := by
  have hx : x.toNat < 2 ^ 64 := x.toNat_lt
  have hones : x.toNat / 256 < 2 ^ 56 := by omega
  have hupper : (x.toNat ^^^ upperBits.toNat) / 2 ^ 8 = 2 ^ 56 - 1 - x.toNat / 256 := by
    rw [Nat.xor_div_two_pow, ← xor_ones hones]
    rfl
  have hlower : (x.toNat ^^^ upperBits.toNat) % 2 ^ 8 = x.toNat % 256 := by
    rw [Nat.xor_mod_two_pow]
    exact Nat.xor_zero _
  have hmod : (x % 256).toNat = x.toNat % 256 := rfl
  have htwo : (2 : UInt64).toNat = 2 := rfl
  have hbyte : (256 : UInt64).toNat = 256 := rfl
  apply UInt64.toNat_inj.mp
  rw [UInt64.toNat_xor, UInt64.toNat_sub, UInt64.toNat_sub, UInt64.toNat_mul, hmod, htwo, hbyte]
  omega

end Fnv1a
