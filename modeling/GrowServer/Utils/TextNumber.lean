import GrowServer.Lib.Decimal
import GrowServer.Utils.DialogBuilder
import GrowServer.Utils.TextParse
import Mathlib.Data.List.TakeWhile

/-!
# Numbers in texts (Utils/TextParse.hpp, TextParse::Add<T> and TextParse::Get<T>)

`Add<T>` prints a number of any integral type in decimal. `Get<T>` reads one back with
`std::stoi`, and converts the `int` to the type that was asked for.
-/

namespace GrowServer
open LittleEndian Outcome

namespace StdNumber

theorem digit_of_isDigit {b : UInt8} (h : Decimal.IsDigit b) : digit b = some (b.toNat - 48) := by
  have hrange : 48 ≤ b ∧ b ≤ 57 := ⟨UInt8.le_iff_toNat_le.mpr h.1, UInt8.le_iff_toNat_le.mpr h.2⟩
  rw [digit, if_pos hrange]

theorem isDigit_of_isDigit {b : UInt8} (h : Decimal.IsDigit b) : isDigit 10 b = true := by
  have hlt : b.toNat - 48 < 10 := by
    have hle := h.2
    omega
  rw [isDigit, digit_of_isDigit h]
  exact decide_eq_true hlt

theorem filterMap_digit {bs : Bytes} (h : ∀ b ∈ bs, Decimal.IsDigit b) :
    bs.filterMap digit = bs.map fun b => b.toNat - 48 := by
  induction bs with
  | nil => rfl
  | cons b bs ih =>
    obtain ⟨hb, hbs⟩ := List.forall_mem_cons.mp h
    rw [List.filterMap_cons_some (digit_of_isDigit hb), List.map_cons, ih hbs]

theorem spanDigits_digits {bs : Bytes} (h : ∀ b ∈ bs, Decimal.IsDigit b) :
    spanDigits 10 bs = (bs.map fun b => b.toNat - 48, []) := by
  have hall : ∀ b ∈ bs, isDigit 10 b = true := fun b hb => isDigit_of_isDigit (h b hb)
  have htake : bs.takeWhile (isDigit 10) = bs := List.takeWhile_eq_self_iff.mpr hall
  have hdrop : bs.dropWhile (isDigit 10) = [] := List.dropWhile_eq_nil_iff.mpr hall
  rw [spanDigits, htake, hdrop, filterMap_digit h]

theorem ofDigits_digits (bs : Bytes) :
    ofDigits 10 (bs.map fun b => b.toNat - 48) = Decimal.value bs := by
  rw [ofDigits, Decimal.value, List.foldl_map]

theorem spanSign_digit {b : UInt8} (rest : Bytes) (h : Decimal.IsDigit b) :
    spanSign ((b :: rest).dropWhile isSpace) = (false, b :: rest) := by
  have hspace : isSpace b = false := by
    unfold Decimal.IsDigit at h
    simp only [isSpace, Bool.or_eq_false_iff, beq_eq_false_iff_ne, Bool.and_eq_false_iff,
      decide_eq_false_iff_not, ne_eq, ← UInt8.toNat_inj, UInt8.le_iff_toNat_le, UInt8.reduceToNat]
    omega
  have hother (c : UInt8) (hc : c.toNat < 48) : b ≠ c := by
    intro heq
    rw [← heq] at hc
    exact absurd h.1 (by omega)
  simp only [List.dropWhile_cons, hspace, Bool.false_eq_true, if_false]
  unfold spanSign
  split
  · rename_i heq
    exact absurd (List.cons.inj heq).1 (hother 45 (by decide))
  · rename_i heq
    exact absurd (List.cons.inj heq).1 (hother 43 (by decide))
  · rfl

theorem stoi_digits (negative : Bool) {bs : Bytes} (hne : bs ≠ [])
    (h : ∀ b ∈ bs, Decimal.IsDigit b) :
    stoi (if negative then 45 :: bs else bs) =
      if withSign negative (Decimal.value bs) < -2 ^ 31 ∨
          2 ^ 31 ≤ withSign negative (Decimal.value bs) then .error .outOfRange
      else .ok (withSign negative (Decimal.value bs)) := by
  have hspan : spanSign ((if negative then 45 :: bs else bs).dropWhile isSpace) =
      (negative, bs) := by
    cases negative with
    | true => rfl
    | false =>
      obtain ⟨b, rest, rfl⟩ := List.exists_cons_of_ne_nil hne
      exact spanSign_digit rest (h b (List.mem_cons_self ..))
  have hds : bs.map (fun b => b.toNat - 48) ≠ [] := fun hnil => hne (List.map_eq_nil_iff.mp hnil)
  simp only [stoi, hspan, spanDigits_digits h, ofDigits_digits, if_neg hds]

/-- `stoi` reads back what was printed where it is an `int`, and throws otherwise. -/
theorem stoi_toDecimal (z : ℤ) :
    stoi (toDecimal z) = if z < -2 ^ 31 ∨ 2 ^ 31 ≤ z then .error .outOfRange else .ok z := by
  have hvalue : withSign (decide (z < 0)) z.natAbs = z := by
    by_cases hneg : z < 0
    · simp only [withSign, hneg, decide_true, if_true]
      omega
    · simp only [withSign, hneg, decide_false, Bool.false_eq_true, if_false]
      omega
  have hstoi := stoi_digits (decide (z < 0)) (Decimal.numeral_ne_nil z.natAbs)
    (Decimal.isDigit_of_mem_numeral z.natAbs)
  simp only [decide_eq_true_eq, Decimal.value_numeral, hvalue] at hstoi
  rw [toDecimal, Decimal.ascii_toString, hstoi]

end StdNumber

/-- The widths of the integral types; `char`, `wchar_t` or `long long` are further names
for types of these. -/
inductive IntegralWidth where
  | w8
  | w16
  | w32
  | w64
  deriving DecidableEq, Repr

def IntegralWidth.bits : IntegralWidth → ℕ
  | w8 => 8
  | w16 => 16
  | w32 => 32
  | w64 => 64

inductive IntegralType where
  | bool
  | signed (width : IntegralWidth)
  | unsigned (width : IntegralWidth)
  deriving DecidableEq, Repr

namespace IntegralType

def IsValue : IntegralType → ℤ → Prop
  | bool, v => v = 0 ∨ v = 1
  | signed width, v => -2 ^ (width.bits - 1) ≤ v ∧ v < 2 ^ (width.bits - 1)
  | unsigned width, v => 0 ≤ v ∧ v < 2 ^ width.bits

instance (T : IntegralType) : DecidablePred T.IsValue := fun v =>
  match T with
  | bool => inferInstanceAs (Decidable (v = 0 ∨ v = 1))
  | signed width =>
    inferInstanceAs (Decidable (-2 ^ (width.bits - 1) ≤ v ∧ v < 2 ^ (width.bits - 1)))
  | unsigned width => inferInstanceAs (Decidable (0 ≤ v ∧ v < 2 ^ width.bits))

@[ext]
structure Value (T : IntegralType) where
  val : ℤ
  isValue : T.IsValue val
  deriving DecidableEq

def convert : IntegralType → ℤ → ℤ
  | bool, n => if n = 0 then 0 else 1
  | signed width, n =>
    (n + 2 ^ (width.bits - 1)) % 2 ^ width.bits - 2 ^ (width.bits - 1)
  | unsigned width, n => n % 2 ^ width.bits

theorem isValue_convert (T : IntegralType) (n : ℤ) : T.IsValue (T.convert n) := by
  cases T with
  | bool =>
    by_cases h : n = 0
    · exact Or.inl (if_pos h)
    · exact Or.inr (if_neg h)
  | signed width =>
    cases width <;>
    · simp only [IsValue, convert, IntegralWidth.bits]
      omega
  | unsigned width =>
    cases width <;>
    · simp only [IsValue, convert, IntegralWidth.bits]
      omega

theorem convert_of_isValue {T : IntegralType} {v : ℤ} (h : T.IsValue v) : T.convert v = v := by
  cases T with
  | bool =>
    rcases h with rfl | rfl
    · rfl
    · rfl
  | signed width =>
    cases width <;>
    · simp only [IsValue, IntegralWidth.bits] at h
      simp only [convert, IntegralWidth.bits]
      omega
  | unsigned width =>
    cases width <;>
    · simp only [IsValue, IntegralWidth.bits] at h
      simp only [convert, IntegralWidth.bits]
      omega

end IntegralType

namespace TextParse
open StdNumber

def addIntegral {T : IntegralType} (this : TextParse) (key : Bytes) (value : T.Value) : TextParse :=
  this.add key (toDecimal value.val)

def getIntegral (T : IntegralType) (this : TextParse) (key : Bytes) : Except Fault T.Value := do
  return ⟨T.convert (← stoi (← this.get key)), T.isValue_convert _⟩

/-- No line is made of bars only, and none begins with the key. -/
structure Unused (this : TextParse) (key : Bytes) : Prop where
  fielded : ∀ line ∈ this.m_data, line ≠ [] → fields line ≠ []
  key_new : ∀ line ∈ this.m_data, (fields line).head? ≠ some key

theorem lookup_append_of_unused {lines : List Bytes} {key : Bytes} (index : ℤ)
    (h : ∀ line ∈ lines, (fields line).head? ≠ some key) (rest : List Bytes) :
    lookup key index (lines ++ rest) = lookup key index rest := by
  induction lines with
  | nil => rfl
  | cons line lines ih =>
    obtain ⟨hline, hlines⟩ := List.forall_mem_cons.mp h
    rw [List.cons_append, lookup_cons, if_pos hline, ih hlines]

/-- What was stored under a key that is new, and is a single field, is found. -/
theorem get_add {this : TextParse} {key value : Bytes} (hne : key ≠ []) (hbar : (124 : UInt8) ∉ key)
    (hunused : this.Unused key) (hvalue : value ≠ []) (hvalueBar : (124 : UInt8) ∉ value) :
    (this.add key value).get key = .ok value := by
  have hfields : fields (key ++ bar.bytes ++ value) = [key, value] := by
    rw [fields_pair key value hne hbar, fields, List.splitOn_eq_singleton hvalueBar,
      List.filter_cons_of_pos (by simpa using hvalue), List.filter_nil]
  rw [get_eq_ok_iff]
  constructor
  · intro line hline hcontent
    have hmem : line ∈ this.m_data ++ [key ++ bar.bytes ++ value] :=
      (List.takeWhile_sublist _).subset hline
    rcases List.mem_append.mp hmem with hold | hnew
    · exact hunused.fielded line hold hcontent
    · rw [List.mem_singleton.mp hnew, hfields]
      exact List.cons_ne_nil _ _
  · show lookup key 1 (this.m_data ++ [key ++ bar.bytes ++ value]) = value
    have hhead : [key, value].head? = some key := rfl
    rw [lookup_append_of_unused 1 hunused.key_new, lookup_cons, hfields, if_neg (not_not.mpr hhead)]
    rfl

theorem toDecimal_ne_nil (z : ℤ) : toDecimal z ≠ [] := by
  rw [toDecimal, Decimal.ascii_toString]
  split
  · exact List.cons_ne_nil _ _
  · exact Decimal.numeral_ne_nil _

theorem mem_toDecimal {z : ℤ} {byte : UInt8} (h : byte ∈ toDecimal z) :
    byte = 45 ∨ Decimal.IsDigit byte := by
  rw [toDecimal, Decimal.ascii_toString] at h
  split at h
  · rcases List.mem_cons.mp h with hsign | hdigit
    · exact Or.inl hsign
    · exact Or.inr (Decimal.isDigit_of_mem_numeral _ byte hdigit)
  · exact Or.inr (Decimal.isDigit_of_mem_numeral _ byte h)

theorem bar_not_mem_toDecimal (z : ℤ) : (124 : UInt8) ∉ toDecimal z := by
  intro h
  rcases mem_toDecimal h with hsign | hdigit
  · exact absurd hsign (by decide)
  · exact absurd hdigit.2 (by decide)

/-- A number added under a new key is read back exactly when it is an `int`; `Get`
throws otherwise. -/
theorem getIntegral_addIntegral_iff (T : IntegralType) (value : T.Value) (this : TextParse)
    (key : Bytes) (hne : key ≠ []) (hbar : (124 : UInt8) ∉ key) (hunused : this.Unused key) :
    (this.addIntegral key value).getIntegral T key = .ok value ↔
      -2 ^ 31 ≤ value.val ∧ value.val < 2 ^ 31 := by
  have hget : (this.addIntegral key value).get key = .ok (toDecimal value.val) :=
    get_add hne hbar hunused (toDecimal_ne_nil _) (bar_not_mem_toDecimal _)
  rw [getIntegral, bind_eq_ok]
  constructor
  · intro h
    obtain ⟨text, htext, h⟩ := h
    obtain rfl := Except.ok.inj (hget.symm.trans htext)
    obtain ⟨n, hn, -⟩ := bind_eq_ok.mp h
    rw [stoi_toDecimal] at hn
    split at hn
    · cases hn
    · omega
  · intro hint
    have hstoi : stoi (toDecimal value.val) = .ok value.val := by
      rw [stoi_toDecimal, if_neg (by omega)]
    refine ⟨_, hget, bind_eq_ok.mpr ⟨value.val, hstoi, ?_⟩⟩
    apply congrArg Except.ok
    apply IntegralType.Value.ext
    exact IntegralType.convert_of_isValue value.isValue

theorem getIntegral_addIntegral_iff_port :
    (TextParse.addIntegral (T := .unsigned .w16) { m_data := [ascii "server|127.0.0.1"] }
        (ascii "port") ⟨16000, by decide⟩).getIntegral (.unsigned .w16) (ascii "port") =
        .ok ⟨16000, by decide⟩ ↔
      -2 ^ 31 ≤ (16000 : ℤ) ∧ (16000 : ℤ) < 2 ^ 31 := by
  refine getIntegral_addIntegral_iff (.unsigned .w16) ⟨16000, _⟩ _ _ (by decide) (by decide) ?_
  refine ⟨?_, ?_⟩
  · intro line hline
    rw [List.mem_singleton.mp hline]
    decide
  · intro line hline
    rw [List.mem_singleton.mp hline]
    decide

theorem not_getIntegral_addIntegral :
    ¬ (TextParse.addIntegral (T := .unsigned .w32) {} (ascii "netid")
        ⟨4294967295, by decide⟩).getIntegral (.unsigned .w32) (ascii "netid") =
      .ok ⟨4294967295, by decide⟩ := by
  decide +kernel

end TextParse

end GrowServer
