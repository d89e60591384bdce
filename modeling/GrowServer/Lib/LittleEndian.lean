import Mathlib.Tactic.Ring
import Mathlib.Tactic.NormNum

/-!
# Little-endian object representations

The bytes a fixed-width value occupies in memory, low byte first, and the class
`Pod` of types a program copies byte by byte: every value has a representation
of one fixed size, and every byte string of that size represents exactly one
value. Both directions are fields of the class, so a type without padding or
trap representations is the only kind of instance that can be built.
-/

namespace LittleEndian

abbrev Bytes := List UInt8

/-- The bytes of a literal whose characters are below 256. -/
def ascii (s : String) : Bytes := s.toList.map fun c => UInt8.ofNat c.toNat

/-- Little-endian base-256 digits of `v`, exactly `n` bytes. -/
def leBytes : ℕ → ℕ → Bytes
  | 0, _ => []
  | n + 1, v => UInt8.ofNat v :: leBytes n (v / 256)

def leValue : Bytes → ℕ
  | [] => 0
  | b :: bs => b.toNat + 256 * leValue bs

@[simp] theorem leBytes_length (n v : ℕ) : (leBytes n v).length = n := by
  induction n generalizing v with
  | zero => rfl
  | succ n ih => simp only [leBytes, List.length_cons, ih]

theorem leValue_lt (bs : Bytes) : leValue bs < 256 ^ bs.length := by
  induction bs with
  | nil => simp [leValue]
  | cons b bs ih =>
    have hb : b.toNat < 256 := b.toNat_lt
    simp only [leValue, List.length_cons, pow_succ']
    omega

theorem leValue_leBytes (n v : ℕ) : leValue (leBytes n v) = v % 256 ^ n := by
  induction n generalizing v with
  | zero => simp [leBytes, leValue, Nat.mod_one]
  | succ n ih =>
    have hb : (UInt8.ofNat v).toNat = v % 256 := UInt8.toNat_ofNat'
    simp only [leBytes, leValue, ih, hb]
    rw [pow_succ', Nat.mod_mul]

theorem leBytes_leValue (bs : Bytes) : leBytes bs.length (leValue bs) = bs := by
  induction bs with
  | nil => rfl
  | cons b bs ih =>
    have hb : b.toNat < 256 := b.toNat_lt
    have hlow : UInt8.ofNat (b.toNat + 256 * leValue bs) = b := by
      apply UInt8.toNat_inj.mp
      rw [UInt8.toNat_ofNat']
      omega
    have hhigh : (b.toNat + 256 * leValue bs) / 256 = leValue bs := by omega
    simp only [List.length_cons, leValue, leBytes, hlow, hhigh, ih]

/-- Types copied byte by byte: `size` bytes, every value and every byte string
of that size corresponding one to one. -/
class Pod (α : Type) where
  size : ℕ
  toBytes : α → Bytes
  ofBytes : Bytes → α
  length_toBytes : ∀ a, (toBytes a).length = size
  ofBytes_toBytes : ∀ a, ofBytes (toBytes a) = a
  toBytes_ofBytes : ∀ bs, bs.length = size → toBytes (ofBytes bs) = bs

attribute [simp] Pod.length_toBytes Pod.ofBytes_toBytes

class Word (α : Type) where
  width : ℕ
  toNat : α → ℕ
  ofNat : ℕ → α
  toNat_lt : ∀ a, toNat a < 256 ^ width
  ofNat_toNat : ∀ a, ofNat (toNat a) = a
  toNat_ofNat : ∀ v, v < 256 ^ width → toNat (ofNat v) = v

instance instPodWord {α : Type} [Word α] : Pod α where
  size := Word.width α
  toBytes a := leBytes (Word.width α) (Word.toNat a)
  ofBytes bs := Word.ofNat (leValue bs)
  length_toBytes a := leBytes_length (Word.width α) (Word.toNat a)
  ofBytes_toBytes a := by
    rw [leValue_leBytes, Nat.mod_eq_of_lt (Word.toNat_lt a), Word.ofNat_toNat]
  toBytes_ofBytes bs hbs := by
    have hv : leValue bs < 256 ^ Word.width α := by
      rw [← hbs]
      exact leValue_lt bs
    rw [Word.toNat_ofNat _ hv, ← hbs]
    exact leBytes_leValue bs

theorem toBytes_word {α : Type} [Word α] (a : α) :
    Pod.toBytes a = leBytes (Word.width α) (Word.toNat a) := rfl

instance : Word UInt8 where
  width := 1
  toNat := UInt8.toNat
  ofNat := UInt8.ofNat
  toNat_lt a := a.toNat_lt
  ofNat_toNat _ := UInt8.ofNat_toNat
  toNat_ofNat _ hv := UInt8.toNat_ofNat_of_lt hv

instance : Word UInt16 where
  width := 2
  toNat := UInt16.toNat
  ofNat := UInt16.ofNat
  toNat_lt a := a.toNat_lt
  ofNat_toNat _ := UInt16.ofNat_toNat
  toNat_ofNat _ hv := UInt16.toNat_ofNat_of_lt hv

instance : Word UInt32 where
  width := 4
  toNat := UInt32.toNat
  ofNat := UInt32.ofNat
  toNat_lt a := a.toNat_lt
  ofNat_toNat _ := UInt32.ofNat_toNat
  toNat_ofNat _ hv := UInt32.toNat_ofNat_of_lt hv

@[reducible] def Pod.ofEquiv {α β : Type} [Pod α] (f : β → α) (g : α → β) (hgf : ∀ b, g (f b) = b)
    (hfg : ∀ a, f (g a) = a) : Pod β where
  size := Pod.size α
  toBytes b := Pod.toBytes (f b)
  ofBytes bs := g (Pod.ofBytes bs)
  length_toBytes b := Pod.length_toBytes (f b)
  ofBytes_toBytes b := by rw [Pod.ofBytes_toBytes, hgf]
  toBytes_ofBytes bs hbs := by rw [hfg, Pod.toBytes_ofBytes bs hbs]

instance : Pod Int32 :=
  Pod.ofEquiv Int32.toUInt32 UInt32.toInt32 Int32.toInt32_toUInt32 UInt32.toUInt32_toInt32

instance instPodProd {α β : Type} [Pod α] [Pod β] : Pod (α × β) where
  size := Pod.size α + Pod.size β
  toBytes p := Pod.toBytes p.1 ++ Pod.toBytes p.2
  ofBytes bs := (Pod.ofBytes (bs.take (Pod.size α)), Pod.ofBytes (bs.drop (Pod.size α)))
  length_toBytes p := by simp
  ofBytes_toBytes p := by
    have h : (Pod.toBytes p.1).length = Pod.size α := Pod.length_toBytes p.1
    rw [List.take_left' h, List.drop_left' h, Pod.ofBytes_toBytes, Pod.ofBytes_toBytes]
  toBytes_ofBytes bs hbs := by
    rw [Pod.toBytes_ofBytes _ (by rw [List.length_take]; omega),
      Pod.toBytes_ofBytes _ (by rw [List.length_drop]; omega), List.take_append_drop]

@[simp] theorem size_uint8 : Pod.size UInt8 = 1 := rfl
@[simp] theorem size_uint16 : Pod.size UInt16 = 2 := rfl
@[simp] theorem size_uint32 : Pod.size UInt32 = 4 := rfl

end LittleEndian
