import GrowServer.Utils.TextParse

/-!
# ENetServer (ENetWrapper/ENetServer.cpp)

The id a server is given when it is constructed: a 16-bit counter in four hexadecimal
digits, the lowest first.
-/

namespace GrowServer
open LittleEndian

namespace ENetServer

def digits : Bytes := ascii "0123456789ABCDEF"

-- `(id_tpm >> (i << 2)) & 0x0F`, with `id_tpm` a `short` that is widened to `int`
def digitOf (id_tpm : Int16) (i : ℕ) : UInt8 :=
  digits.getD ((id_tpm.toInt >>> (4 * i)) % 16).toNat 0

def uniqueId (id_tpm : Int16) : Bytes := (List.range 4).map (digitOf id_tpm)

theorem digits_injective {m n : ℕ} (hm : m < 16) (hn : n < 16)
    (h : digits.getD m 0 = digits.getD n 0) : m = n := by
  have hall : ∀ m < 16, ∀ n < 16, digits.getD m 0 = digits.getD n 0 → m = n := by decide
  exact hall m hm n hn h

theorem nibble_of_digitOf {id id' : Int16} {i : ℕ} (h : digitOf id i = digitOf id' i) :
    (id.toInt / 16 ^ i) % 16 = (id'.toInt / 16 ^ i) % 16 := by
  have hshift (n : Int16) : n.toInt >>> (4 * i) = n.toInt / 16 ^ i := by
    rw [Int.shiftRight_eq_div_pow, pow_mul]
    norm_num
  have hnibble := digits_injective (by omega) (by omega) h
  rw [hshift, hshift] at hnibble
  omega

/-- The four digits tell the 16 bits of the counter apart. -/
theorem uniqueId_injective {id id' : Int16} (h : uniqueId id = uniqueId id') : id = id' := by
  have hdigit (i : ℕ) (hi : i < 4) : (id.toInt / 16 ^ i) % 16 = (id'.toInt / 16 ^ i) % 16 := by
    refine nibble_of_digitOf ?_
    exact List.map_inj_left.mp h i (List.mem_range.mpr hi)
  have h0 := hdigit 0 (by omega)
  have h1 := hdigit 1 (by omega)
  have h2 := hdigit 2 (by omega)
  have h3 := hdigit 3 (by omega)
  have hlow := id.le_toInt
  have hhigh := id.toInt_lt
  have hlow' := id'.le_toInt
  have hhigh' := id'.toInt_lt
  rw [← Int16.toInt_inj]
  omega

end ENetServer

end GrowServer
