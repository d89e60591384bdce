import GrowServer.Lib.LittleEndian

/-!
# Decimal notation as bytes

The bytes of a printed number: an optional sign and the digits, of which the last one
is the remainder by ten. Reading the digits back gives the number, so two numbers are
printed alike only if they are equal.
-/

namespace Decimal
open LittleEndian

def IsDigit (b : UInt8) : Prop := 48 ≤ b.toNat ∧ b.toNat ≤ 57

def value (bs : Bytes) : ℕ := bs.foldl (fun v b => 10 * v + (b.toNat - 48)) 0

def numeral (n : ℕ) : Bytes := ascii n.repr

theorem value_append_singleton (bs : Bytes) (b : UInt8) :
    value (bs ++ [b]) = 10 * value bs + (b.toNat - 48) := by
  simp only [value, List.foldl_append, List.foldl_cons, List.foldl_nil]

theorem toNat_digit {d : ℕ} (h : d < 10) : (UInt8.ofNat (48 + d)).toNat = 48 + d := by
  rw [UInt8.toNat_ofNat']
  omega

theorem numeral_of_lt {n : ℕ} (h : n < 10) : numeral n = [UInt8.ofNat (48 + n)] := by
  simp only [numeral, ascii, Nat.toList_repr, Nat.toDigits_of_lt_base h, List.map_cons, List.map_nil,
    Nat.toNat_digitChar_of_lt_ten h]

theorem numeral_of_ge {n : ℕ} (h : 10 ≤ n) :
    numeral n = numeral (n / 10) ++ [UInt8.ofNat (48 + n % 10)] := by
  have hlast : n % 10 < 10 := Nat.mod_lt n (by omega)
  simp only [numeral, ascii, Nat.toList_repr, Nat.toDigits_of_base_le (by omega : 1 < 10) h,
    List.map_append, List.map_cons, List.map_nil, Nat.toNat_digitChar_of_lt_ten hlast]

theorem numeral_ne_nil (n : ℕ) : numeral n ≠ [] := by
  by_cases h : n < 10
  · rw [numeral_of_lt h]
    simp
  · rw [numeral_of_ge (by omega)]
    simp

theorem length_numeral_le {n k : ℕ} (hk : 0 < k) (h : n < 10 ^ k) : (numeral n).length ≤ k := by
  rw [numeral, ascii, List.length_map, String.length_toList]
  exact (Nat.length_repr_le_iff hk).mpr h

theorem isDigit_of_mem_numeral (n : ℕ) : ∀ b ∈ numeral n, IsDigit b := by
  induction n using Nat.strong_induction_on with
  | _ n ih =>
    have hlast (d : ℕ) (hd : d < 10) : IsDigit (UInt8.ofNat (48 + d)) := by
      rw [IsDigit, toNat_digit hd]
      omega
    intro b hb
    by_cases h : n < 10
    · rw [numeral_of_lt h, List.mem_singleton] at hb
      rw [hb]
      exact hlast n h
    · rw [numeral_of_ge (by omega), List.mem_append, List.mem_singleton] at hb
      cases hb with
      | inl hfront => exact ih (n / 10) (by omega) b hfront
      | inr hback =>
        rw [hback]
        exact hlast (n % 10) (by omega)

theorem value_numeral (n : ℕ) : value (numeral n) = n := by
  induction n using Nat.strong_induction_on with
  | _ n ih =>
    by_cases h : n < 10
    · have hdigit := toNat_digit h
      rw [numeral_of_lt h, ← List.nil_append [_], value_append_singleton, hdigit]
      simp [value]
    · have hdigit := toNat_digit (Nat.mod_lt n (by omega : 0 < 10))
      rw [numeral_of_ge (by omega), value_append_singleton, ih (n / 10) (by omega), hdigit]
      omega

/-! ### Numbers with a sign -/

theorem ascii_toString (z : ℤ) :
    ascii (toString z) = if z < 0 then 45 :: numeral z.natAbs else numeral z.natAbs := by
  cases z with
  | ofNat n => rfl
  | negSucc n =>
    rw [if_pos (Int.negSucc_lt_zero n)]
    show ascii ("-" ++ (n + 1).repr) = _
    simp only [ascii, String.toList_append, List.map_append]
    rfl

theorem ascii_toString_injective : Function.Injective fun z : ℤ => ascii (toString z) := by
  have hsign (n m : ℕ) : (45 : UInt8) :: numeral n ≠ numeral m := by
    intro h
    have hdigit := isDigit_of_mem_numeral m 45 (h ▸ List.mem_cons_self ..)
    exact absurd hdigit.1 (by decide)
  intro a b h
  simp only [ascii_toString] at h
  have hcancel (n m : ℕ) (hnm : numeral n = numeral m) : n = m := by
    rw [← value_numeral n, hnm, value_numeral]
  by_cases ha : a < 0
  · by_cases hb : b < 0
    · rw [if_pos ha, if_pos hb] at h
      have habs := hcancel _ _ (List.cons.inj h).2
      omega
    · rw [if_pos ha, if_neg hb] at h
      exact absurd h (hsign _ _)
  · by_cases hb : b < 0
    · rw [if_neg ha, if_pos hb] at h
      exact absurd h.symm (hsign _ _)
    · rw [if_neg ha, if_neg hb] at h
      have habs := hcancel _ _ h
      omega

end Decimal
